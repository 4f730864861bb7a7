import PrivilegedHart.Csr.Table
import PrivilegedHart.FloatControl
import PrivilegedHart.Hart.Trap

/-!
# Registers of a hart

For every register this module says when a read or a write is refused, what a read shows, and what a write
changes.  Values are not truncated to the register width here, and privilege is not checked, except for the
counters that Machine mode opens to lower privileges one by one.
-/

namespace PrivilegedHart
namespace Hart

open HartAction

/-- Why a register refuses an access. -/
inductive RegisterFault where
  /-- The access traps as an illegal instruction. -/
  | illegal
  /-- The register has no model, and emulation has to stop. -/
  | unimplemented
  deriving DecidableEq, Repr

/-! ## Refusals -/

/-- Some registers exist only on 32-bit harts. -/
def requireRv32 (h : Hart) : Option RegisterFault := if h.xlen.isRv32 then none else some .illegal

/-- The counters that may be read at the current privilege, one bit for each. -/
def enabledCounters (h : Hart) : Word :=
  match h.privilege with
  | .user => h.csrs.mucounteren
  | .supervisor => h.csrs.mscounteren
  | .machine => BitVec.allOnes 64

/-- A counter may be read if its bit is set for the current privilege. -/
def requireCounter (h : Hart) (bit : Nat) : Option RegisterFault :=
  if h.enabledCounters.getLsbD bit then none else some .illegal

/-- Why a register cannot be read.  The cycle counter has bit `0` of the enables, the retired-instruction
counter bit `2`. -/
def readFault? (h : Hart) : Register → Option RegisterFault
  | .tdata1 | .tdata2 | .tdata3 | .dcsr => some .unimplemented
  | .mcycleh | .minstreth | .mhpmcounterh | .hpmcounterh => h.requireRv32
  | .cycle => h.requireCounter 0
  | .instret => h.requireCounter 2
  | .cycleh => h.requireRv32 <|> h.requireCounter 0
  | .instreth => h.requireRv32 <|> h.requireCounter 2
  | _ => none

/-- Why a register cannot be written, supposing that it is not read-only by its number. -/
def writeFault? (h : Hart) : Register → Option RegisterFault
  | .tdata1 | .tdata2 | .tdata3 | .dcsr => some .unimplemented
  | .mcycleh | .minstreth => h.requireRv32
  | .mhpmevent | .mhpmcounter | .mhpmcounterh => some .illegal
  | .cycle | .instret | .hpmcounter | .cycleh | .instreth | .hpmcounterh => some .illegal
  | .mvendorid | .marchid | .mimpid | .mhartid => some .illegal
  | _ => none

/-! ## Reading -/

/-- The part of a status that Supervisor mode sees, with a dirty summary of its own. -/
def supervisorStatus (x : Xlen) (status : Word) : Word :=
  let visible := status &&& Status.supervisorView
  if Status.isDirty visible then visible ||| Status.sd x else visible

/-- What a register shows.  Event selectors, event counters and identity registers show zero.  The debug
triggers can be selected only in debug mode, which no hart here has, so `tselect` is fixed. -/
def view (h : Hart) : Register → Word
  | .fflags => h.csrs.fflags
  | .frm => h.csrs.frm
  | .fcsr => FloatControl.pack h.csrs.fflags h.csrs.frm
  | .sstatus => supervisorStatus h.xlen h.csrs.mstatus
  | .sie => h.csrs.mie &&& h.csrs.mideleg
  | .stvec => h.csrs.stvec
  | .sscratch => h.csrs.sscratch
  | .sepc => h.csrs.sepc
  | .scause => h.csrs.scause
  | .sbadaddr => h.csrs.sbadaddr
  | .sip => h.mip &&& h.csrs.mideleg
  | .sptbr => h.csrs.sptbr
  | .mstatus => h.csrs.mstatus
  | .misa => h.csrs.misa
  | .medeleg => h.csrs.medeleg
  | .mideleg => h.csrs.mideleg
  | .mie => h.csrs.mie
  | .mtvec => h.csrs.mtvec
  | .mucounteren => h.csrs.mucounteren
  | .mscounteren => h.csrs.mscounteren
  | .mscratch => h.csrs.mscratch
  | .mepc => h.csrs.mepc
  | .mcause => h.csrs.mcause
  | .mbadaddr => h.csrs.mbadaddr
  | .mip => h.mip
  | .tselect => 1#64 <<< (h.xlen.bits - 5)
  | .mcycle | .cycle => h.counters.mcycle
  | .minstret | .instret => h.counters.minstret
  | .mcycleh | .cycleh => h.counters.mcycle >>> Word.halfShift
  | .minstreth | .instreth => h.counters.minstret >>> Word.halfShift
  | _ => 0

/-! ## Writing -/

/-- Mark the floating-point state as dirty. -/
def markFloatDirty (h : Hart) : Hart :=
  h.setStatus (BitField.set h.csrs.mstatus Status.fs Status.dirty)

/-- The bits that a page-table root can have: the page number of a physical address. -/
def rootMask (h : Hart) : Word := Word.lowBits (h.physAddrBits.toNat - Page.shift)

/-- The interrupt enables after a write. -/
def enablesAfterWrite (h : Hart) (value : Word) : Word :=
  BitField.merge h.csrs.mie value Interrupt.enableable

/-- Write a register whose write calls nobody.  Registers without a write of their own are left alone. -/
def store (h : Hart) (r : Register) (value : Word) : Hart :=
  match r with
  | .fflags =>
      { h.markFloatDirty with csrs.fflags := value &&& FloatControl.flagsMask }
  | .frm =>
      { h.markFloatDirty with csrs.frm := value &&& FloatControl.roundingMask }
  | .fcsr =>
      { h.markFloatDirty with
        csrs.fflags := FloatControl.flags value
        csrs.frm := FloatControl.rounding value }
  | .sie =>
      { h with
        csrs.mie := h.enablesAfterWrite (BitField.merge h.csrs.mie value h.csrs.mideleg) }
  | .stvec => { h with csrs.stvec := Word.alignDown value }
  | .sscratch => { h with csrs.sscratch := value }
  | .sepc => { h with csrs.sepc := value }
  | .scause => { h with csrs.scause := value }
  | .sbadaddr => { h with csrs.sbadaddr := value }
  | .sptbr => { h with csrs.sptbr := value &&& h.rootMask }
  | .misa =>
      { h with
        csrs.misa :=
          BitField.merge h.csrs.misa (Isa.normalize value) (Isa.writable &&& h.maxIsa) }
  | .medeleg =>
      { h with csrs.medeleg := BitField.merge h.csrs.medeleg value Interrupt.delegableCauses }
  | .mideleg => { h with csrs.mideleg := BitField.merge h.csrs.mideleg value Interrupt.delegable }
  | .mie => { h with csrs.mie := h.enablesAfterWrite value }
  | .mtvec => { h with csrs.mtvec := Word.alignDown value }
  | .mucounteren => { h with csrs.mucounteren := value }
  | .mscounteren => { h with csrs.mscounteren := value }
  | .mscratch => { h with csrs.mscratch := value }
  | .mepc => { h with csrs.mepc := value }
  | .mcause => { h with csrs.mcause := value }
  | .mbadaddr => { h with csrs.mbadaddr := value }
  | .mcycle => { h with counters := h.counters.writeCycleLow value h.xlen }
  | .minstret => { h with counters := h.counters.writeInstretLow value h.xlen }
  | .mcycleh => { h with counters := h.counters.writeCycleHigh value }
  | .minstreth => { h with counters := h.counters.writeInstretHigh value }
  | _ => h

/-- Replace the pending bits under `mask` that software may change, and tell the interrupt controller what
is pending now. -/
def installPending (mask value : Word) : HartAction Unit := do
  update fun h => { h with mip := Pending.update (mask &&& Interrupt.softwarePending) value h.mip }
  let h ← current
  call (.pendingChanged h.mip)

/-- Write a register that accepts the write. -/
def install (r : Register) (value : Word) : HartAction Unit := do
  let h ← current
  match r with
  | .mstatus => commitStatus value
  | .sstatus => commitStatus (BitField.merge h.csrs.mstatus value Status.supervisorView)
  | .mip => installPending Interrupt.softwarePending value
  | .sip => installPending h.csrs.mideleg value
  | .mideleg =>
      let dropped := h.xlen.truncate (value &&& ~~~Interrupt.delegable)
      if dropped ≠ 0 then
        report (.undelegableInterrupts h.hartId dropped)
      update fun h => h.store .mideleg value
  | r => update fun h => h.store r value

/-! ## What writes do -/

section Run

variable (answers : Answers) (h : Hart)

theorem run_installPending (mask value : Word) :
    (installPending mask value).run answers h =
      let pending := Pending.update (mask &&& Interrupt.softwarePending) value h.mip
      ⟨.ok (), { h with mip := pending }, [.pendingChanged pending], []⟩ := by
  simp [installPending]

end Run

end Hart
end PrivilegedHart
