import PrivilegedHart.Proofs.Effect

/-!
# Atomic instructions are reads and writes

An atomic register instruction checks its access once and then reads and writes.  The same comes of two
operations, a read and a write of what the instruction makes of the value read, although these check twice
and the read checks for less.  Whichever check finds an access to be forbidden, missing or without a model,
both end in the same unwind, with the state restored at most once.

Without an operand, an instruction that sets or clears bits is a read, whatever register it names.
-/

namespace PrivilegedHart
namespace Hart

open HartAction

namespace Session

/-- Read a register, and then write what `f` makes of the value that was read.  An unwind ends it; otherwise
the value that was read is returned. -/
def readThenWrite (platform : Platform) (s : Session) (n : CsrNumber) (f : Word → Word) :
    Except Unwind Reply × Session :=
  match s.step platform (.readCsr n) with
  | (.ok (.word old), afterRead) =>
      match afterRead.step platform (.writeCsr n (f old)) with
      | (.ok _, afterWrite) => (.ok (.word old), afterWrite)
      | failed => failed
  | failed => failed

variable {platform : Platform} {s : Session} {n : CsrNumber} {fault : RegisterFault}

/-! ## Single steps -/

/-- A session after an access has been refused. -/
def afterRefusal (platform : Platform) (s : Session) (fault : RegisterFault) : Session :=
  ⟨s.hart.afterRefusal (platform s.calls) fault, s.calls ++ s.hart.refusalCalls fault⟩

theorem step_of_refuses {op : Operation} {half : AccessHalf}
    (ho : Refuses (platform s.calls) s.hart n half fault (op.perform.run (platform s.calls) s.hart)) :
    s.step platform op = (.error (refusalUnwind n half fault), s.afterRefusal platform fault) :=
  step_of_comesTo ho

theorem step_readCsr_refused (hread : s.hart.readDecision n = .error fault) :
    s.step platform (.readCsr n) =
      (.error (refusalUnwind n .read fault), s.afterRefusal platform fault) :=
  step_of_refuses ((refuses_readCsr hread).bind _)

/-- A read that succeeds leaves no trace. -/
theorem step_readCsr {old : Word} (hread : s.hart.readDecision n = .ok old) :
    s.step platform (.readCsr n) = (.ok (.word old), s) := by
  have hstep : s.step platform (.readCsr n) = (.ok (.word old), ⟨s.hart, s.calls ++ []⟩) :=
    step_of_comesTo (comesTo_bind_pure _ (comesTo_readCsr hread))
  rw [hstep, List.append_nil]

theorem step_writeCsr_refused (hwrite : s.hart.writeDecision n = .error fault) (value : Word) :
    s.step platform (.writeCsr n value) =
      (.error (refusalUnwind n .write fault), s.afterRefusal platform fault) :=
  step_of_refuses ((refuses_writeCsr hwrite value).bind _)

theorem step_writeCsr {r : Register} (hwrite : s.hart.writeDecision n = .ok r) (value : Word) :
    s.step platform (.writeCsr n value) =
      (.ok .done, ⟨s.hart.afterInstall r (s.hart.xlen.truncate value),
        s.calls ++ s.hart.installCalls r (s.hart.xlen.truncate value)⟩) :=
  step_of_comesTo (comesTo_bind_pure _ (comesTo_writeCsr hwrite value))

/-! ## Instructions in one step -/

variable {op : Operation} {f : Word → Word}

/-- An instruction whose register cannot be read ends as the read does, whether or not it would write. -/
theorem step_modification_refused {isWrite : Bool} (hop : op.modification? = some (n, isWrite, f))
    (hread : s.hart.readDecision n = .error fault) :
    s.step platform op =
      (.error (refusalUnwind n .read fault), s.afterRefusal platform fault) := by
  refine step_of_refuses ?_
  rw [Operation.perform_of_modification? hop]
  exact (refuses_modifyCsr_read hread).bind _

/-- An instruction that writes is a read and then a write. -/
theorem step_modification (hop : op.modification? = some (n, true, f)) :
    s.step platform op = s.readThenWrite platform n f := by
  have hperform := Operation.perform_of_modification? hop
  unfold readThenWrite
  cases hread : s.hart.readDecision n with
  | error fault => rw [step_modification_refused hop hread, step_readCsr_refused hread]
  | ok old =>
      -- the platform has not been called, so the write finds everything as the instruction does
      rw [step_readCsr hread]
      cases hwrite : s.hart.writeDecision n with
      | error fault =>
          simp only [step_writeCsr_refused hwrite]
          refine step_of_refuses ?_
          rw [hperform]
          exact (refuses_modifyCsr_write hread hwrite).bind _
      | ok r =>
          simp only [step_writeCsr hwrite]
          refine step_of_comesTo ?_
          rw [hperform]
          exact comesTo_bind_pure _ (comesTo_modifyCsr_write hread hwrite)

/-- An instruction that does not write is a read. -/
theorem step_inspection (hop : op.modification? = some (n, false, f)) :
    s.step platform op = s.step platform (.readCsr n) := by
  cases hread : s.hart.readDecision n with
  | error fault => rw [step_modification_refused hop hread, step_readCsr_refused hread]
  | ok old =>
      have hstep : s.step platform op = (.ok (.word old), ⟨s.hart, s.calls ++ []⟩) := by
        refine step_of_comesTo ?_
        rw [Operation.perform_of_modification? hop]
        exact comesTo_bind_pure _ (comesTo_modifyCsr_read hread)
      rw [step_readCsr hread, hstep, List.append_nil]

/-- The atomic instructions, from every session: what is returned or raised, the hart afterwards and the
calls are those of a read and a write.  With no operand to set or clear they are those of a read, and
executing an instruction by its kind is executing that instruction, where a swap always has its operand. -/
theorem instructions_eq_readThenWrite (platform : Platform) (s : Session) (n : CsrNumber)
    (operand : Word) :
    (s.step platform (.swapCsr n operand) = s.readThenWrite platform n fun _ => operand) ∧
      (s.step platform (.setCsr n operand true) =
        s.readThenWrite platform n fun old => old ||| operand) ∧
      (s.step platform (.clearCsr n operand true) =
        s.readThenWrite platform n fun old => old &&& ~~~operand) ∧
      s.step platform (.setCsr n operand false) = s.step platform (.readCsr n) ∧
      s.step platform (.clearCsr n operand false) = s.step platform (.readCsr n) ∧
      ∀ hasOperand,
        s.step platform (.executeCsr .swap n operand hasOperand) =
            s.step platform (.swapCsr n operand) ∧
          s.step platform (.executeCsr .set n operand hasOperand) =
            s.step platform (.setCsr n operand hasOperand) ∧
          s.step platform (.executeCsr .clear n operand hasOperand) =
            s.step platform (.clearCsr n operand hasOperand) :=
  ⟨step_modification rfl, step_modification rfl, step_modification rfl, step_inspection rfl,
    step_inspection rfl, fun _ => ⟨rfl, rfl, rfl⟩⟩

end Session
end Hart
end PrivilegedHart
