import PrivilegedHart.Address
import PrivilegedHart.Cause

/-!
# Results of page-table walks
-/

namespace PrivilegedHart

/-- Why a page-table walk failed. -/
structure WalkFault where
  /-- The cause that the walker chose. -/
  cause : Cause
  /-- The address that the walker blames. -/
  badaddr : VirtAddr
  deriving DecidableEq, Repr, Inhabited

/-- What a page-table walk found. -/
structure WalkResult where
  /-- The address that was found; zero after a failed walk. -/
  paddr : PhysAddr
  /-- The failure, if there was one. -/
  fault : Option WalkFault
  deriving DecidableEq, Repr, Inhabited

namespace WalkResult

/-- The result of a walk that ended at `paddr`. -/
def success (paddr : PhysAddr) : WalkResult := ⟨paddr, none⟩

/-- The result of a walk that failed. -/
def failure (cause : Cause) (badaddr : VirtAddr) : WalkResult := ⟨⟨0⟩, some ⟨cause, badaddr⟩⟩

/-- The walk found an address. -/
def isSuccess (r : WalkResult) : Bool := r.fault.isNone

end WalkResult
end PrivilegedHart
