import PrivilegedHart.Access
import PrivilegedHart.Csr.File
import PrivilegedHart.Privilege
import PrivilegedHart.Walk

/-!
# The platform around a hart

A hart keeps no page tables, caches or interrupt controllers.  It calls the platform that has them, and the
calls it makes are part of its behaviour.  Two kinds of calls are questions: a page-table walk, and the
restoration of the state at an instruction.  What a platform answers may depend on every call made before.
-/

namespace PrivilegedHart

/-- A call that a hart makes to its platform. -/
inductive PlatformCall where
  /-- Drop every address mapping in the TLB of this hart. -/
  | flushTlb
  /-- Drop every cached block of compiled guest code. -/
  | flushBlocks
  /-- Walk the page table that `csrs` describe. -/
  | walk (csrs : CsrFile) (vaddr : VirtAddr) (access : Access) (mode : Privilege)
  /-- Put an address mapping into the TLB. -/
  | install (vaddr : VirtAddr) (paddr : PhysAddr) (access : Access) (mode : Privilege)
  /-- Software changed the pending interrupts to `pending`. -/
  | pendingChanged (pending : Word)
  /-- Restore the state at the guest instruction at `pc`. -/
  | restore (pc : Word)
  deriving DecidableEq, Repr

namespace PlatformCall

/-- A platform may leave these services out; such a call then has no effect. -/
def isOptional : PlatformCall → Bool
  | flushBlocks | pendingChanged _ | restore _ => true
  | _ => false

end PlatformCall

/-- What a platform would answer next.  An operation of a hart asks at most one question. -/
structure Answers where
  /-- The result of a page-table walk. -/
  walk : CsrFile → VirtAddr → Access → Privilege → WalkResult
  /-- The restored program counter, if the given one lies in compiled guest code. -/
  restore : Word → Option Word

namespace Answers

/-- Every address is mapped to itself, and no state is restored. -/
def identity : Answers where
  walk _ vaddr _ _ := .success ⟨vaddr.value⟩
  restore _ := none

/-- The answers of a platform without the optional services. -/
def withoutOptional (answers : Answers) : Answers := { answers with restore := fun _ => none }

instance : Inhabited Answers := ⟨identity⟩

end Answers

/-- A platform: what it answers after a history of calls, the earliest first. -/
abbrev Platform := List PlatformCall → Answers

end PrivilegedHart
