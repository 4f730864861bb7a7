import PrivilegedHart.Hart.CsrAccess
import PrivilegedHart.Hart.TlbMiss

/-!
# Operations and runs

Everything that can happen to a hart from outside is an operation: the actions that instructions ask for,
and devices that assert or clear interrupt lines.  A run performs operations one after the other; an unwind
ends its operation, not the run.
-/

namespace PrivilegedHart
namespace Hart

/-- Something that can happen to a hart. -/
inductive Operation where
  | readCsr (number : CsrNumber)
  | writeCsr (number : CsrNumber) (value : Word)
  | validateCsr (number : CsrNumber) (isWrite : Bool)
  | swapCsr (number : CsrNumber) (operand : Word)
  | setCsr (number : CsrNumber) (operand : Word) (hasOperand : Bool)
  | clearCsr (number : CsrNumber) (operand : Word) (hasOperand : Bool)
  | executeCsr (instruction : CsrInstruction) (number : CsrNumber) (operand : Word)
      (hasOperand : Bool)
  | retire (count : Word)
  | setPc (pc : Word)
  | setPrivilege (level : Word)
  | returnFromSupervisorTrap
  | returnFromMachineTrap
  | raise (cause : Cause)
  | raiseWithBadaddr (cause : Cause) (badaddr : Word)
  | raiseAt (cause : Cause) (pc : Word)
  | raiseDebug
  | waitForInterrupt
  | resume
  | takeCause
  | flushTlb
  | fenceInstructions
  | tlbMiss (vaddr : VirtAddr) (access : Access) (mode : Privilege)
  /-- A device asserts interrupt lines. -/
  | raiseLines (bits : Word)
  /-- A device clears interrupt lines. -/
  | lowerLines (bits : Word)
  deriving DecidableEq, Repr

/-- What an operation returns. -/
inductive Reply where
  /-- Nothing. -/
  | done
  /-- A register value, a return address or the pending interrupts. -/
  | word (value : Word)
  /-- A physical address. -/
  | address (paddr : PhysAddr)
  /-- The cause of the trap that was taken, if there was one. -/
  | taken (cause : Option Cause)
  deriving DecidableEq, Repr

namespace Operation

open HartAction

/-- The action of an operation. -/
def perform : Operation → HartAction Reply
  | readCsr n => return .word (← Hart.readCsr n)
  | writeCsr n value => do Hart.writeCsr n value; return .done
  | validateCsr n isWrite => do Hart.validateCsr n isWrite; return .done
  | swapCsr n operand => return .word (← Hart.swapCsr n operand)
  | setCsr n operand hasOperand => return .word (← Hart.setCsr n operand hasOperand)
  | clearCsr n operand hasOperand => return .word (← Hart.clearCsr n operand hasOperand)
  | executeCsr i n operand hasOperand => return .word (← Hart.executeCsr i n operand hasOperand)
  | retire count => do update fun h => h.retire count; return .done
  | setPc pc => do update fun h => h.setPc pc; return .done
  | setPrivilege level => do Hart.setPrivilege level; return .done
  | returnFromSupervisorTrap => return .word (← Hart.returnFromSupervisorTrap)
  | returnFromMachineTrap => return .word (← Hart.returnFromMachineTrap)
  | raise cause => Hart.raise cause
  | raiseWithBadaddr cause badaddr => Hart.raiseWithBadaddr cause badaddr
  | raiseAt cause pc => Hart.raiseAt cause pc
  | raiseDebug => Hart.raiseDebug
  | waitForInterrupt => Hart.waitForInterrupt
  | resume => do update fun h => h.resume; return .done
  | takeCause => do
      let h ← current
      update fun h => h.takeCause.2
      return .taken h.takeCause.1
  | flushTlb => do Hart.flushTlb; return .done
  | fenceInstructions => do Hart.fenceInstructions; return .done
  | tlbMiss vaddr access mode => return .address (← Hart.tlbMiss vaddr access mode)
  | raiseLines bits => do
      update fun h => h.raiseLines bits
      return .word (← current).mip
  | lowerLines bits => do
      update fun h => h.lowerLines bits
      return .word (← current).mip

end Operation

/-! ## Runs -/

/-- A hart in the middle of a run, with all calls made so far, the earliest first. -/
structure Session where
  hart : Hart
  calls : List PlatformCall
  deriving DecidableEq, Repr

namespace Session

/-- A run that begins with the hart `h`. -/
def start (h : Hart) : Session := ⟨h, []⟩

/-- Perform one operation on a given platform. -/
def step (platform : Platform) (s : Session) (op : Operation) : Except Unwind Reply × Session :=
  let outcome := op.perform.run (platform s.calls) s.hart
  (outcome.result, ⟨outcome.hart, s.calls ++ outcome.calls⟩)

/-- Perform operations in order and collect what they return. -/
def run (platform : Platform) (s : Session) : List Operation → List (Except Unwind Reply) × Session
  | [] => ([], s)
  | op :: ops =>
      let first := s.step platform op
      let rest := first.2.run platform ops
      (first.1 :: rest.1, rest.2)

theorem run_nil (platform : Platform) (s : Session) : s.run platform [] = ([], s) := rfl

theorem run_cons (platform : Platform) (s : Session) (op : Operation) (ops : List Operation) :
    s.run platform (op :: ops) =
      ((s.step platform op).1 :: ((s.step platform op).2.run platform ops).1,
        ((s.step platform op).2.run platform ops).2) := rfl

/-- A run in two parts goes on where its first part ended. -/
theorem run_append (platform : Platform) (s : Session) (ops ops' : List Operation) :
    (s.run platform (ops ++ ops')).2 =
      ((s.run platform ops).2.run platform ops').2 := by
  induction ops generalizing s with
  | nil => rfl
  | cons op ops ih => simpa only [List.cons_append, run_cons] using ih _

end Session
end Hart
end PrivilegedHart
