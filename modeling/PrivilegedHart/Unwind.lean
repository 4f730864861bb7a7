import PrivilegedHart.Cause
import PrivilegedHart.Csr.Number
import PrivilegedHart.Numeral

/-!
# Leaving an instruction early

An operation that cannot complete unwinds to the surrounding instruction loop.  Either a cause is pending
and the loop takes the trap, or the hart was asked for something that no guest may observe and emulation
has to stop.
-/

namespace PrivilegedHart

/-- Which half of a register access failed. -/
inductive AccessHalf where
  | read
  | write
  deriving DecidableEq, Repr, Inhabited

/-- Why emulation has to stop. -/
inductive FatalError where
  /-- A register exists, but the hart does not model it. -/
  | unimplementedCsr (number : CsrNumber) (name : String) (half : AccessHalf)
  /-- A privilege level above Machine was requested. -/
  | invalidPrivilege (level : Word)
  deriving DecidableEq, Repr

/-- How an operation leaves its instruction early. -/
inductive Unwind where
  /-- The cause has been recorded and the trap can be taken. -/
  | exception (cause : Cause)
  /-- Emulation has to stop. -/
  | fatal (error : FatalError)
  deriving DecidableEq, Repr

namespace AccessHalf

/-- The name of a half in messages. -/
def name : AccessHalf → String
  | read => "read"
  | write => "write"

end AccessHalf

namespace FatalError

/-- The text of a fatal error. -/
def message : FatalError → String
  | unimplementedCsr number name half =>
      "CSR " ++ name ++ " (" ++ Numeral.hexPadded 3 number.toNat ++ ") " ++ half.name
        ++ " not implemented"
  | invalidPrivilege level =>
      "invalid privilege level " ++ Numeral.decimal level ++ " requested"

end FatalError

namespace Unwind

/-- The text of an unwind. -/
def message : Unwind → String
  | exception cause => "exception " ++ cause.describe
  | fatal error => "fatal emulator error: " ++ error.message

/-- The cause that an unwind carries, unless it is fatal. -/
def cause? : Unwind → Option Cause
  | exception cause => some cause
  | fatal _ => none

/-- Emulation has to stop. -/
def isFatal : Unwind → Bool
  | exception _ => false
  | fatal _ => true

theorem isFatal_eq_cause?_isNone (u : Unwind) : u.isFatal = u.cause?.isNone := by
  cases u <;> rfl

end Unwind
end PrivilegedHart
