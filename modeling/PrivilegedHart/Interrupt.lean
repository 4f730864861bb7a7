import PrivilegedHart.BitField

/-!
# Interrupts

Each interrupt has a number, which is its bit in `mip`, `mie` and `mideleg`.  Devices own most bits of
`mip`; software may change only the software and timer bits of Supervisor mode.
-/

namespace PrivilegedHart

/-- An interrupt line of the hart. -/
inductive Interrupt where
  | userSoftware
  | supervisorSoftware
  | hypervisorSoftware
  | machineSoftware
  | userTimer
  | supervisorTimer
  | hypervisorTimer
  | machineTimer
  | userExternal
  | supervisorExternal
  | hypervisorExternal
  | machineExternal
  | coprocessor
  deriving DecidableEq, Repr, Inhabited

namespace Interrupt

/-- The number of an interrupt. -/
def number : Interrupt → Nat
  | userSoftware => 0
  | supervisorSoftware => 1
  | hypervisorSoftware => 2
  | machineSoftware => 3
  | userTimer => 4
  | supervisorTimer => 5
  | hypervisorTimer => 6
  | machineTimer => 7
  | userExternal => 8
  | supervisorExternal => 9
  | hypervisorExternal => 10
  | machineExternal => 11
  | coprocessor => 12

/-- The bit of an interrupt in the interrupt registers. -/
def bit (i : Interrupt) : Word := 1#64 <<< i.number

/-- The interrupts that Machine mode may delegate to Supervisor mode. -/
def delegable : Word :=
  bit supervisorSoftware ||| bit supervisorTimer ||| bit supervisorExternal ||| bit coprocessor

/-- The interrupts that can be enabled. -/
def enableable : Word :=
  delegable ||| bit machineSoftware ||| bit machineTimer ||| bit machineExternal

/-- The pending bits that software may change; all others belong to devices. -/
def softwarePending : Word := bit supervisorSoftware ||| bit supervisorTimer

/-- The trap causes that may be delegated: those with codes `0` to `11`. -/
def delegableCauses : Word := (1#64 <<< 12) - 1

theorem number_lt (i : Interrupt) : i.number < 64 := by
  cases i <;> decide

theorem getLsbD_bit (i : Interrupt) (line : Nat) : i.bit.getLsbD line = decide (line = i.number) := by
  have hlt := i.number_lt
  rw [bit, BitVec.getLsbD_shiftLeft, BitVec.getLsbD_one, Bool.eq_iff_iff]
  simp only [Bool.and_eq_true, Bool.not_eq_true', decide_eq_true_eq, decide_eq_false_iff_not]
  omega

/-- Of all lines, software may change two. -/
theorem getLsbD_softwarePending (line : Nat) :
    softwarePending.getLsbD line = decide (line = 1 ∨ line = 5) := by
  rw [softwarePending, BitVec.getLsbD_or, getLsbD_bit, getLsbD_bit, Bool.decide_or]
  rfl

end Interrupt

/-! ## The pending register -/

namespace Pending

/-- Assert the lines in `bits`. -/
def raise (bits pending : Word) : Word := pending ||| bits

/-- Clear the lines in `bits`. -/
def lower (bits pending : Word) : Word := pending &&& ~~~bits

/-- Take the lines under `mask` from `value`. -/
def update (mask value pending : Word) : Word := BitField.merge pending value mask

theorem getLsbD_raise (bits pending : Word) (line : Nat) :
    (raise bits pending).getLsbD line = if bits.getLsbD line then true else pending.getLsbD line := by
  rw [raise, BitVec.getLsbD_or]
  cases bits.getLsbD line <;> simp

theorem getLsbD_lower (bits pending : Word) (line : Nat) :
    (lower bits pending).getLsbD line = if bits.getLsbD line then false else pending.getLsbD line := by
  rw [lower, BitVec.getLsbD_and, BitVec.getLsbD_not]
  cases bits.getLsbD line with
  | true => simp
  | false =>
      -- a pending line lies within the register
      have hlt : pending.getLsbD line = true → line < 64 := BitVec.lt_of_getLsbD
      simpa using hlt

end Pending
end PrivilegedHart
