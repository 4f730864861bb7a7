import PrivilegedHart.Hart.Trap

/-!
# TLB misses
-/

namespace PrivilegedHart
namespace Hart

open HartAction

/-- Resolve a TLB miss for an access that is checked at privilege `mode`.  An address that the walker finds
is put into the TLB and returned; a failed walk raises the cause that the walker chose. -/
def tlbMiss (vaddr : VirtAddr) (access : Access) (mode : Privilege) : HartAction PhysAddr := do
  let h ← current
  let found ← walk vaddr access mode
  match found.fault with
  | some fault =>
      report (.walkFailed h.hartId vaddr access mode fault.cause)
      raiseWithBadaddr fault.cause fault.badaddr.value
  | none =>
      report (.tlbFill h.hartId vaddr found.paddr access)
      call (.install vaddr found.paddr access mode)
      return found.paddr

end Hart
end PrivilegedHart
