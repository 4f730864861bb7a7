import PrivilegedHart.Config.Basic
import PrivilegedHart.Counter
import PrivilegedHart.Csr.File
import PrivilegedHart.Diagnostic
import PrivilegedHart.Interrupt

/-!
# The state of a hart

A hart has fixed parameters, a privilege, registers, pending interrupts and counters, and the transient
state of a trap that has been raised but not yet taken.
-/

namespace PrivilegedHart

/-- The privileged state of one hart. -/
structure Hart where
  /-- The register width. -/
  xlen : Xlen
  /-- Everything that `misa` can show. -/
  maxIsa : Word
  /-- The width of physical addresses. -/
  physAddrBits : BitVec 32
  /-- The number of the hart. -/
  hartId : Word
  /-- The current privilege. -/
  privilege : Privilege
  /-- The stored registers. -/
  csrs : CsrFile
  /-- The pending interrupts, shared with devices. -/
  mip : Word
  /-- The counters. -/
  counters : Counters
  /-- The address of the instruction being executed. -/
  pc : Word
  /-- The cause of the raised trap, until it is taken. -/
  pendingCause : Option Cause
  /-- The address that the last fault blamed. -/
  badaddr : Word
  /-- The hart waits for an interrupt. -/
  waiting : Bool
  deriving DecidableEq, Repr

namespace Hart

/-- The hart that comes out of reset with a given privilege. -/
def atReset (c : Config) (privilege : Privilege) : Hart where
  xlen := c.xlen
  maxIsa := c.effectiveMaxIsa
  physAddrBits := c.effectivePhysAddrBits
  hartId := c.hartId
  privilege := privilege
  csrs := .reset c.effectiveMaxIsa
  mip := 0
  counters := .zero
  pc := 0
  pendingCause := none
  badaddr := 0
  waiting := false

/-- Build a hart.  The configuration need not be valid, but its reset privilege must not lie above
Machine. -/
def ofConfig (c : Config) : Except FatalError Hart :=
  match Privilege.ofLevel? c.effectiveResetPrivilege with
  | none => .error (.invalidPrivilege c.effectiveResetPrivilege)
  | some privilege => .ok (atReset c privilege)

/-- What a hart reports when it comes out of reset. -/
def resetDiagnostic (h : Hart) : Diagnostic := .reset h.hartId h.xlen h.maxIsa h.privilege

/-- Assert interrupt lines, as a device does. -/
def raiseLines (h : Hart) (bits : Word) : Hart := { h with mip := Pending.raise bits h.mip }

/-- Clear interrupt lines, as a device does. -/
def lowerLines (h : Hart) (bits : Word) : Hart := { h with mip := Pending.lower bits h.mip }

/-- Retire instructions. -/
def retire (h : Hart) (count : Word) : Hart := { h with counters := h.counters.retire count }

/-- Enter the instruction at `pc`. -/
def setPc (h : Hart) (pc : Word) : Hart := { h with pc := pc }

/-- Stop waiting for an interrupt. -/
def resume (h : Hart) : Hart := { h with waiting := false }

/-- Take the raised trap, leaving none. -/
def takeCause (h : Hart) : Option Cause × Hart := (h.pendingCause, { h with pendingCause := none })

end Hart
end PrivilegedHart
