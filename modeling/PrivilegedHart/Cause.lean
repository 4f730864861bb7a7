/-!
# Trap causes

A cause names why a hart left the instruction it was executing.  Fifteen causes have architectural codes.
Two more stop the hart without a trap: a debugger stop, and waiting for an interrupt.  Their codes lie
outside the architectural range and never reach a trap handler.
-/

namespace PrivilegedHart

/-- Why a hart left the instruction it was executing. -/
inductive Cause where
  | instructionAddressMisaligned
  | instructionAccessFault
  | illegalInstruction
  | breakpoint
  | loadAddressMisaligned
  | loadAccessFault
  | storeAddressMisaligned
  | storeAccessFault
  | environmentCallFromUMode
  | environmentCallFromSMode
  | environmentCallFromHMode
  | environmentCallFromMMode
  | instructionPageFault
  | loadPageFault
  | storePageFault
  | debug
  | waitForInterrupt
  deriving DecidableEq, Repr, Inhabited

namespace Cause

/-- Every cause, in the order of the codes. -/
def all : List Cause :=
  [instructionAddressMisaligned, instructionAccessFault, illegalInstruction, breakpoint,
    loadAddressMisaligned, loadAccessFault, storeAddressMisaligned, storeAccessFault,
    environmentCallFromUMode, environmentCallFromSMode, environmentCallFromHMode,
    environmentCallFromMMode, instructionPageFault, loadPageFault, storePageFault,
    debug, waitForInterrupt]

/-- The code recorded for a cause. -/
def code : Cause → Nat
  | instructionAddressMisaligned => 0
  | instructionAccessFault => 1
  | illegalInstruction => 2
  | breakpoint => 3
  | loadAddressMisaligned => 4
  | loadAccessFault => 5
  | storeAddressMisaligned => 6
  | storeAccessFault => 7
  | environmentCallFromUMode => 8
  | environmentCallFromSMode => 9
  | environmentCallFromHMode => 10
  | environmentCallFromMMode => 11
  | instructionPageFault => 12
  | loadPageFault => 13
  | storePageFault => 15
  | debug => 0x10002
  | waitForInterrupt => 0x10004

/-- The cause of a code, if the code is in use. -/
def ofCode? (n : Nat) : Option Cause := all.find? (fun c => c.code == n)

/-- The causes that never reach a trap handler. -/
def isInternal : Cause → Bool
  | debug | waitForInterrupt => true
  | _ => false

/-- The name of a cause. -/
def name : Cause → String
  | instructionAddressMisaligned => "InstructionAddressMisaligned"
  | instructionAccessFault => "InstructionAccessFault"
  | illegalInstruction => "IllegalInstruction"
  | breakpoint => "Breakpoint"
  | loadAddressMisaligned => "LoadAddressMisaligned"
  | loadAccessFault => "LoadAccessFault"
  | storeAddressMisaligned => "StoreAddressMisaligned"
  | storeAccessFault => "StoreAccessFault"
  | environmentCallFromUMode => "EnvironmentCallFromUMode"
  | environmentCallFromSMode => "EnvironmentCallFromSMode"
  | environmentCallFromHMode => "EnvironmentCallFromHMode"
  | environmentCallFromMMode => "EnvironmentCallFromMMode"
  | instructionPageFault => "InstructionPageFault"
  | loadPageFault => "LoadPageFault"
  | storePageFault => "StorePageFault"
  | debug => "Debug"
  | waitForInterrupt => "WaitForInterrupt"

/-- A cause as messages show it: the name with the decimal code in parentheses. -/
def describe (c : Cause) : String := c.name ++ "(" ++ toString c.code ++ ")"

/-- Every cause is recovered from its code. -/
@[simp] theorem ofCode?_code (c : Cause) : ofCode? c.code = some c := by
  cases c <;> decide

/-- The cause that a code gives has that code. -/
theorem code_of_ofCode? {n : Nat} {c : Cause} (h : ofCode? n = some c) : c.code = n := by
  simpa using List.find?_some h

end Cause
end PrivilegedHart
