import Mathlib.Data.List.Forall2
import PrivilegedHart.Proofs.Atomicity
import PrivilegedHart.Proofs.Events
import PrivilegedHart.Proofs.WellFormed

/-!
# Bits beyond the register width

A register instruction may be given an operand that is wider than a register.  The bits that no register has
room for make no difference: they are cut off before anything is written, and what is reported shows the
value without them.  So two runs whose operands differ only there are the same run, step by step.

In the other direction, no register instruction and no return from a trap lets a value out that is wider than
a register, although some registers are kept wider.
-/

namespace PrivilegedHart

open Word

namespace HartAction

variable {α β : Type} {answers : Answers} {h : Hart}

/-- Two continuations that do the same after every success do the same. -/
theorem run_bind_congr {x : HartAction α} {f g : α → HartAction β}
    (hnext : ∀ a, (x.run answers h).result = .ok a →
      (f a).run answers (x.run answers h).hart = (g a).run answers (x.run answers h).hart) :
    (x >>= f).run answers h = (x >>= g).run answers h := by
  rw [run_bind, run_bind]
  generalize x.run answers h = o at hnext
  obtain ⟨result, hart, calls, diagnostics⟩ := o
  cases result with
  | error u => rfl
  | ok a =>
      have hsame := hnext a rfl
      simp only [Outcome.andThen_ok, hsame]

end HartAction

namespace Hart

open HartAction

/-- Two operations are the same, except that the operands of register instructions may differ outside a
mask. -/
inductive Operation.SameUnder (mask : Word) : Operation → Operation → Prop
  | refl (op : Operation) : SameUnder mask op op
  | writeCsr {value value' : Word} (n : CsrNumber) (hvalue : AgreeOn mask value value') :
      SameUnder mask (.writeCsr n value) (.writeCsr n value')
  | swapCsr {operand operand' : Word} (n : CsrNumber) (hoperand : AgreeOn mask operand operand') :
      SameUnder mask (.swapCsr n operand) (.swapCsr n operand')
  | setCsr {operand operand' : Word} (n : CsrNumber) (hasOperand : Bool)
      (hoperand : AgreeOn mask operand operand') :
      SameUnder mask (.setCsr n operand hasOperand) (.setCsr n operand' hasOperand)
  | clearCsr {operand operand' : Word} (n : CsrNumber) (hasOperand : Bool)
      (hoperand : AgreeOn mask operand operand') :
      SameUnder mask (.clearCsr n operand hasOperand) (.clearCsr n operand' hasOperand)
  | executeCsr {operand operand' : Word} (i : CsrInstruction) (n : CsrNumber) (hasOperand : Bool)
      (hoperand : AgreeOn mask operand operand') :
      SameUnder mask (.executeCsr i n operand hasOperand) (.executeCsr i n operand' hasOperand)

variable {answers : Answers} {h : Hart} {n : CsrNumber} {value value' : Word}

/-! ## Operands on the way in -/

theorem run_writeHalf_congr (hvalue : AgreeOn h.xlen.mask value value') :
    (writeHalf n value).run answers h = (writeHalf n value').run answers h := by
  have htruncated : h.xlen.truncate value = h.xlen.truncate value' := hvalue
  simp only [writeHalf, run_bind, run_current, Outcome.andThen_ok]
  cases CsrRow.find? n with
  | none => rfl
  | some row => cases h.writeFault? row.register <;> simp only [htruncated]

/-- A check that goes through changes nothing. -/
theorem hart_of_validateCsr {isWrite : Bool}
    (hresult : ((validateCsr n isWrite).run answers h).result = .ok ()) :
    ((validateCsr n isWrite).run answers h).hart = h := by
  cases hallowed : h.denies n isWrite with
  | true => cases (refuses_validateCsr .read hallowed).result_eq.symm.trans hresult
  | false => exact (comesTo_validateCsr hallowed).hart_eq

theorem hart_of_readHalf (hresult : ((readHalf n).run answers h).result = .ok value) :
    ((readHalf n).run answers h).hart = h := by
  cases hread : h.contents n with
  | error fault => cases (refuses_readHalf hread).result_eq.symm.trans hresult
  | ok shown => exact (comesTo_readHalf hread).hart_eq

theorem run_writeCsr_congr (hvalue : AgreeOn h.xlen.mask value value') :
    (writeCsr n value).run answers h = (writeCsr n value').run answers h := by
  refine run_bind_congr fun _ hvalidated => ?_
  rw [hart_of_validateCsr hvalidated]
  exact run_writeHalf_congr hvalue

/-- What an instruction writes matters only within the register width. -/
theorem run_modifyCsr_congr {isWrite : Bool} {f f' : Word → Word}
    (hf : ∀ old, AgreeOn h.xlen.mask (f old) (f' old)) :
    (modifyCsr n isWrite f).run answers h = (modifyCsr n isWrite f').run answers h := by
  refine run_bind_congr fun _ hvalidated => ?_
  rw [hart_of_validateCsr hvalidated]
  refine run_bind_congr fun old hread => ?_
  rw [hart_of_readHalf hread]
  have hwrite : (writeHalf n (f old)).run answers h = (writeHalf n (f' old)).run answers h :=
    run_writeHalf_congr (hf old)
  cases isWrite with
  | false => rfl
  | true => simp only [run_bind, run_ite, hwrite]

theorem perform_congr_modification {op op' : Operation} {isWrite : Bool} {f f' : Word → Word}
    (hop : op.modification? = some (n, isWrite, f))
    (hop' : op'.modification? = some (n, isWrite, f'))
    (hf : ∀ old, AgreeOn h.xlen.mask (f old) (f' old)) :
    op.perform.run answers h = op'.perform.run answers h := by
  rw [Operation.perform_of_modification? hop, Operation.perform_of_modification? hop', run_bind,
    run_bind, run_modifyCsr_congr hf]

/-- Operations that are the same within the register width do the same, down to what they report. -/
theorem perform_congr {op op' : Operation} (hsame : Operation.SameUnder h.xlen.mask op op') :
    op.perform.run answers h = op'.perform.run answers h := by
  have hset : ∀ {operand operand' : Word}, AgreeOn h.xlen.mask operand operand' →
      ∀ old, AgreeOn h.xlen.mask (old ||| operand) (old ||| operand') := by
    intro operand operand' hoperand old
    rw [BitVec.or_comm old, BitVec.or_comm old]
    exact hoperand.or old
  -- the complement of an operand changes where the operand does
  have hclear : ∀ {operand operand' : Word}, AgreeOn h.xlen.mask operand operand' →
      ∀ old, AgreeOn h.xlen.mask (old &&& ~~~operand) (old &&& ~~~operand') := by
    intro operand operand' hoperand old
    rw [BitVec.and_comm old, BitVec.and_comm old]
    exact hoperand.not.and old
  cases hsame with
  | refl => rfl
  | writeCsr n hvalue =>
      change (do writeCsr n _; return Reply.done : HartAction Reply).run answers h =
        (do writeCsr n _; return Reply.done : HartAction Reply).run answers h
      rw [run_bind, run_bind, run_writeCsr_congr hvalue]
  | swapCsr n hoperand => exact perform_congr_modification rfl rfl fun _ => hoperand
  | setCsr n hasOperand hoperand => exact perform_congr_modification rfl rfl (hset hoperand)
  | clearCsr n hasOperand hoperand => exact perform_congr_modification rfl rfl (hclear hoperand)
  | executeCsr i n hasOperand hoperand =>
      cases i with
      | swap => exact perform_congr_modification rfl rfl fun _ => hoperand
      | set => exact perform_congr_modification rfl rfl (hset hoperand)
      | clear => exact perform_congr_modification rfl rfl (hclear hoperand)

namespace Session

variable {c : Config} {platform : Platform} {s : Session}

theorem step_congr {op op' : Operation} (hsame : Operation.SameUnder s.hart.xlen.mask op op') :
    s.step platform op = s.step platform op' := by
  rw [step, step, perform_congr hsame]

/-- Two runs from one session with operations that are the same within the register width. -/
theorem run_congr (built : BuiltFrom c s.hart) {ops ops' : List Operation}
    (hsame : List.Forall₂ (Operation.SameUnder c.xlen.mask) ops ops') :
    (s.events platform ops).map Event.outcome = (s.events platform ops').map Event.outcome ∧
      s.run platform ops = s.run platform ops' := by
  induction hsame generalizing s with
  | nil => exact ⟨rfl, rfl⟩
  | @cons op op' ops ops' hop hops ih =>
      rw [← built.xlen] at hop
      have hbuilt : BuiltFrom c (s.step platform op).2.hart :=
        built.effect (effect_perform (platform s.calls) s.hart op)
      obtain ⟨hevents, hrun⟩ := ih hbuilt
      have hstep : s.step platform op = s.step platform op' := step_congr hop
      constructor
      · rw [events_cons, events_cons, List.map_cons, List.map_cons, hevents, ← hstep]
        exact congrArg (· :: _) (perform_congr hop)
      · rw [run_cons, run_cons, ← hstep, hrun]

end Session

/-! ## Values on the way out -/

/-- What a read shows fits a register. -/
theorem within_of_readDecision (hread : h.readDecision n = .ok value) : Within h.xlen.mask value := by
  obtain ⟨-, row, -, -, rfl⟩ := of_readDecision hread
  exact h.xlen.within_truncate _

theorem readDecision_of_result_modifyCsr {isWrite : Bool} {f : Word → Word}
    (hresult : ((modifyCsr n isWrite f).run answers h).result = .ok value) :
    h.readDecision n = .ok value := by
  cases hread : h.readDecision n with
  | error fault => cases (refuses_modifyCsr_read hread).result_eq.symm.trans hresult
  | ok old =>
      -- whether or not anything is written, the value that was read is returned
      cases isWrite with
      | false =>
          cases (comesTo_modifyCsr_read hread).result_eq.symm.trans hresult
          rfl
      | true =>
          cases hwrite : h.writeDecision n with
          | error fault => cases (refuses_modifyCsr_write hread hwrite).result_eq.symm.trans hresult
          | ok r =>
              cases (comesTo_modifyCsr_write hread hwrite).result_eq.symm.trans hresult
              rfl

/-- An operation that replies with the word of an action has it from the action. -/
theorem result_of_word {x : HartAction Word}
    (hresult : ((do return Reply.word (← x) : HartAction Reply).run answers h).result =
      .ok (.word value)) : (x.run answers h).result = .ok value := by
  rw [run_bind] at hresult
  generalize x.run answers h = o at hresult ⊢
  obtain ⟨result, hart, calls, diagnostics⟩ := o
  cases result with
  | error u => cases hresult
  | ok w =>
      cases hresult
      rfl

theorem result_done_ne_word {x : HartAction Unit} :
    ((do x; return Reply.done : HartAction Reply).run answers h).result ≠ .ok (.word value) := by
  rw [run_bind]
  obtain ⟨result, hart, calls, diagnostics⟩ := x.run answers h
  cases result <;> simp

theorem within_of_modification {op : Operation} {isWrite : Bool} {f : Word → Word}
    (hop : op.modification? = some (n, isWrite, f))
    (hresult : (op.perform.run answers h).result = .ok (.word value)) : Within h.xlen.mask value := by
  rw [Operation.perform_of_modification? hop] at hresult
  exact within_of_readDecision (readDecision_of_result_modifyCsr (result_of_word hresult))

theorem within_of_instruction {op : Operation} (hop : op.isRegisterInstruction = true)
    (hresult : (op.perform.run answers h).result = .ok (.word value)) : Within h.xlen.mask value := by
  cases op with
  | readCsr n => exact within_of_readDecision (result_readCsr_eq_ok_iff.1 (result_of_word hresult))
  | writeCsr n written => exact absurd hresult result_done_ne_word
  | validateCsr n isWrite => exact absurd hresult result_done_ne_word
  | swapCsr n operand => exact within_of_modification rfl hresult
  | setCsr n operand hasOperand => exact within_of_modification rfl hresult
  | clearCsr n operand hasOperand => exact within_of_modification rfl hresult
  | executeCsr i n operand hasOperand => cases i <;> exact within_of_modification rfl hresult
  | _ => cases hop

theorem within_of_trapReturn {op : Operation} (hop : op.isTrapReturn = true)
    (hresult : (op.perform.run answers h).result = .ok (.word value)) : Within h.xlen.mask value := by
  cases op with
  | returnFromSupervisorTrap =>
      have hreturned := result_of_word hresult
      rcases comesTo_returnFromSupervisorTrap answers h with
        ⟨-, hrun⟩ | ⟨-, -, hrun⟩ | ⟨-, -, p, -, -, hrun⟩
      · cases hrun.result_eq.symm.trans hreturned
      · cases hrun.result_eq.symm.trans hreturned
      · cases hrun.result_eq.symm.trans hreturned
        exact h.xlen.within_truncate _
  | returnFromMachineTrap =>
      have hreturned := result_of_word hresult
      rcases comesTo_returnFromMachineTrap answers h with ⟨-, hrun⟩ | ⟨-, p, -, hrun⟩
      · cases hrun.result_eq.symm.trans hreturned
      · cases hrun.result_eq.symm.trans hreturned
        exact h.xlen.within_truncate _
  | _ => cases hop

/-! ## Narrow harts -/

namespace Session

/-- On a hart with 32-bit registers, the upper halves of operands are invisible: two runs that differ in
them alone have the same outcomes, step by step, and leave the same session.  Nor does a register instruction
or a return from a trap ever return a value with an upper half. -/
theorem narrow_runs_eq {c : Config} (hx : c.xlen = .rv32) {h₀ : Hart} (hc : ofConfig c = .ok h₀)
    (platform : Platform) {ops ops' : List Operation}
    (hsame : List.Forall₂ (Operation.SameUnder lowHalf) ops ops') :
    ((start h₀).events platform ops).map Event.outcome =
        ((start h₀).events platform ops').map Event.outcome ∧
      (start h₀).run platform ops = (start h₀).run platform ops' ∧
      ∀ e ∈ (start h₀).events platform ops,
        (e.op.isRegisterInstruction || e.op.isTrapReturn) = true →
          ∀ value, e.outcome.result = .ok (.word value) → value.toNat < 2 ^ 32 := by
  have hmask : c.xlen.mask = lowHalf := by rw [hx]; rfl
  have hbuilt : BuiltFrom c (start h₀).hart := (Reachable.atReset hc).builtFrom
  rw [← hmask] at hsame
  obtain ⟨houtcomes, hruns⟩ := run_congr hbuilt hsame
  refine ⟨houtcomes, hruns, ?_⟩
  refine forall_mem_events_of_invariant (I := BuiltFrom c) platform (start h₀) ops hbuilt
    (fun op answers h built => built.effect (effect_perform answers h op)) ?_
  intro op answers h built hop value hresult
  have hwithin : Within h.xlen.mask value := by
    rcases Bool.or_eq_true_iff.1 hop with hop | hop
    · exact within_of_instruction hop hresult
    · exact within_of_trapReturn hop hresult
  rw [built.xlen, hmask, lowHalf_eq] at hwithin
  exact within_lowBits_iff.1 hwithin

/-- A swap and an instruction that clears bits, each with an operand that has an upper half in the second
run only.  The complement of the second operand has none, and that is invisible too. -/
theorem narrow_runs_eq_mscratch :
    ∃ h₀, ofConfig { xlen := .rv32 } = .ok h₀ ∧ ∀ platform : Platform,
      let ops : List Operation :=
        [.swapCsr CsrNumber.mscratch 7, .clearCsr CsrNumber.mscratch 1 true,
          .readCsr CsrNumber.mscratch]
      let ops' : List Operation :=
        [.swapCsr CsrNumber.mscratch 0xF00000007,
          .clearCsr CsrNumber.mscratch 0xFFFFFFFF00000001 true, .readCsr CsrNumber.mscratch]
      (start h₀).run platform ops = (start h₀).run platform ops' ∧
        ∀ e ∈ (start h₀).events platform ops,
          ∀ value, e.outcome.result = .ok (.word value) → value.toNat < 2 ^ 32 := by
  have hc : ofConfig { xlen := .rv32 } = .ok (atReset { xlen := .rv32 } .machine) := rfl
  refine ⟨_, hc, ?_⟩
  intro platform ops ops'
  have hsame : List.Forall₂ (Operation.SameUnder lowHalf) ops ops' :=
    .cons (.swapCsr _ (by decide)) (.cons (.clearCsr _ true (by decide)) (.cons (.refl _) .nil))
  obtain ⟨-, hruns, hvalues⟩ := narrow_runs_eq rfl hc platform hsame
  refine ⟨hruns, fun e he value hresult => hvalues e he ?_ value hresult⟩
  have hop : e.op.isRegisterInstruction = true := by
    simp only [ops, events, Operation.event, List.mem_cons, List.not_mem_nil, or_false] at he
    rcases he with rfl | rfl | rfl <;> rfl
  rw [hop, Bool.true_or]

end Session
end Hart
end PrivilegedHart
