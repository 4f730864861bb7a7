import PrivilegedHart.Proofs.Effect

/-!
# Outcomes of register instructions

A register instruction ends in one of three ways: a half of the access is refused, a value is shown and
nothing changes, or a write half is performed.  Which write half that was can be told from the instruction
and from what it returned, because the instructions that set or clear bits return the value that they
started from.
-/

namespace PrivilegedHart
namespace Hart

open HartAction

namespace Operation

/-- The instructions that access a register by its number. -/
def isRegisterInstruction : Operation → Bool
  | readCsr .. | writeCsr .. | validateCsr .. | swapCsr .. | setCsr .. | clearCsr ..
  | executeCsr .. => true
  | _ => false

/-- The write half of an operation that has returned `reply`: the number, and the value before
truncation. -/
def written? (op : Operation) (reply : Reply) : Option (CsrNumber × Word) :=
  match op, reply with
  | writeCsr n value, _ => some (n, value)
  | swapCsr n operand, _ => some (n, operand)
  | setCsr n operand true, .word old => some (n, old ||| operand)
  | clearCsr n operand true, .word old => some (n, old &&& ~~~operand)
  | executeCsr .swap n operand _, _ => some (n, operand)
  | executeCsr .set n operand true, .word old => some (n, old ||| operand)
  | executeCsr .clear n operand true, .word old => some (n, old &&& ~~~operand)
  | _, _ => none

theorem written?_eq_none {op : Operation} (hop : op.isRegisterInstruction = false) (reply : Reply) :
    op.written? reply = none := by
  cases op <;> first | rfl | cases hop

theorem isRegisterInstruction_of_write? {h : Hart} {op : Operation} {write : CsrNumber × Word}
    (hwrite : op.write? h = some write) : op.isRegisterInstruction = true := by
  cases op <;> first | rfl | cases hwrite

theorem written?_of_modification? {op : Operation} {n : CsrNumber} {isWrite : Bool}
    {f : Word → Word} (hop : op.modification? = some (n, isWrite, f)) (old : Word) :
    op.written? (.word old) = if isWrite then some (n, f old) else none := by
  unfold modification? at hop
  split at hop <;> cases hop
  -- a swap always writes
  case h_1 | h_4 => rfl
  all_goals cases isWrite <;> rfl

end Operation

/-- How a register instruction can end on a hart. -/
inductive AccessOutcome (answers : Answers) (h : Hart) (op : Operation) (o : Outcome Reply) : Prop
  | refused {n : CsrNumber} {half : AccessHalf} {fault : RegisterFault}
      (ho : Refuses answers h n half fault o)
  /-- Nothing is written. -/
  | shown {reply : Reply} (hread : op.written? reply = none) (ho : o.ComesTo (.ok reply) h [])
  /-- A register accepts the value. -/
  | wrote {reply : Reply} {n : CsrNumber} {r : Register} {value : Word}
      (hwritten : op.written? reply = some (n, value)) (hwrite : h.writeDecision n = .ok r)
      (ho : o.ComesTo (.ok reply) (h.afterInstall r (h.xlen.truncate value))
        (h.installCalls r (h.xlen.truncate value)))

variable {answers : Answers} {h : Hart} {op : Operation}

theorem accessOutcome_modification {n : CsrNumber} {isWrite : Bool} {f : Word → Word}
    (hop : op.modification? = some (n, isWrite, f)) :
    AccessOutcome answers h op (op.perform.run answers h) := by
  have hwritten := Operation.written?_of_modification? hop
  rw [Operation.perform_of_modification? hop]
  cases hread : h.readDecision n with
  | error fault => exact .refused ((refuses_modifyCsr_read hread).bind _)
  | ok old =>
      cases isWrite with
      | false =>
          exact .shown (hwritten old) (comesTo_bind_pure _ (comesTo_modifyCsr_read hread))
      | true =>
          -- the read half has succeeded, and the write half may still be refused
          cases hwrite : h.writeDecision n with
          | error fault => exact .refused ((refuses_modifyCsr_write hread hwrite).bind _)
          | ok r =>
              exact .wrote (hwritten old) hwrite
                (comesTo_bind_pure _ (comesTo_modifyCsr_write hread hwrite))

theorem accessOutcome_perform (hop : op.isRegisterInstruction = true) :
    AccessOutcome answers h op (op.perform.run answers h) := by
  cases op with
  | readCsr n =>
      cases hread : h.readDecision n with
      | error fault => exact .refused ((refuses_readCsr hread).bind _)
      | ok value => exact .shown rfl (comesTo_bind_pure _ (comesTo_readCsr hread))
  | writeCsr n value =>
      cases hwrite : h.writeDecision n with
      | error fault => exact .refused ((refuses_writeCsr hwrite value).bind _)
      | ok r => exact .wrote rfl hwrite (comesTo_bind_pure _ (comesTo_writeCsr hwrite value))
  | validateCsr n isWrite =>
      cases hallowed : h.denies n isWrite with
      | true => exact .refused ((refuses_validateCsr .read hallowed).bind _)
      | false => exact .shown rfl (comesTo_bind_pure _ (comesTo_validateCsr hallowed))
  | swapCsr n operand => exact accessOutcome_modification rfl
  | setCsr n operand hasOperand => exact accessOutcome_modification rfl
  | clearCsr n operand hasOperand => exact accessOutcome_modification rfl
  | executeCsr i n operand hasOperand => cases i <;> exact accessOutcome_modification rfl
  | _ => cases hop

end Hart
end PrivilegedHart
