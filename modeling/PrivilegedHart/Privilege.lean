import PrivilegedHart.Word

/-!
# Privilege levels

Code runs in User, Supervisor or Machine mode.  Raw encodings have two bits; the encoding `2` belonged to
the hypervisor level of earlier specifications and is taken as User.  Levels compare by their encodings.
-/

namespace PrivilegedHart

/-- The privilege a hart runs at. -/
inductive Privilege where
  | user
  | supervisor
  | machine
  deriving DecidableEq, Repr, Inhabited

namespace Privilege

/-- The raw encoding of the former hypervisor level. -/
def hypervisorLevel : Word := 2

/-- The raw encoding of a privilege. -/
def level : Privilege → Nat
  | user => 0
  | supervisor => 1
  | machine => 3

/-- The privilege of a raw encoding; nothing above Machine is one. -/
def ofLevel? (raw : Word) : Option Privilege :=
  match raw.toNat with
  | 0 | 2 => some user
  | 1 => some supervisor
  | 3 => some machine
  | _ => none

/-- The name of a privilege in messages. -/
def name : Privilege → String
  | user => "User"
  | supervisor => "Supervisor"
  | machine => "Machine"

instance : LE Privilege := ⟨fun a b => a.level ≤ b.level⟩
instance : LT Privilege := ⟨fun a b => a.level < b.level⟩
instance : Ord Privilege := ⟨fun a b => compare a.level b.level⟩
instance (a b : Privilege) : Decidable (a ≤ b) := inferInstanceAs (Decidable (a.level ≤ b.level))
instance (a b : Privilege) : Decidable (a < b) := inferInstanceAs (Decidable (a.level < b.level))

theorem le_def {a b : Privilege} : a ≤ b ↔ a.level ≤ b.level := Iff.rfl

theorem lt_def {a b : Privilege} : a < b ↔ a.level < b.level := Iff.rfl

theorem level_injective {a b : Privilege} (h : a.level = b.level) : a = b := by
  cases a <;> cases b <;> simp_all [level]

/-- The raw encodings without a privilege are exactly those above Machine. -/
theorem ofLevel?_eq_none_iff (raw : Word) : ofLevel? raw = none ↔ 3 < raw.toNat := by
  unfold ofLevel?
  split <;> simp_all
  omega

end Privilege
end PrivilegedHart
