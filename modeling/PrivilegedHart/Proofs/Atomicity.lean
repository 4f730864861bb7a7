import PrivilegedHart.Proofs.Instruction

/-!
# Unwinds are atomic

An operation that can fail decides whether it does before it changes anything.  This holds even where the
decision comes late: a register may refuse the write half of an instruction after the read half has
succeeded, and a return from a trap changes the privilege in the middle.

What remains of a failure that can be handled is its cause and what the handler needs to know about it: the
address at which an illegal instruction was restored, or the address that a walk blames.
-/

namespace PrivilegedHart
namespace Hart

open HartAction

namespace Operation

def isTrapReturn : Operation → Bool
  | returnFromSupervisorTrap | returnFromMachineTrap => true
  | _ => false

/-- The operations that can fail.  The others always succeed, or are there to raise a cause. -/
def isFallible : Operation → Bool
  | setPrivilege _ | tlbMiss .. => true
  | op => op.isRegisterInstruction || op.isTrapReturn

end Operation

variable {answers : Answers} {h : Hart} {op : Operation} {u : Unwind}

/-! ## One kind of operation at a time -/

/-- A register instruction fails before anything is written, and an illegal one restores the state once. -/
theorem failed_instruction (hop : op.isRegisterInstruction = true)
    (hresult : (op.perform.run answers h).result = .error u) :
    (∃ error, u = .fatal error ∧ (op.perform.run answers h).ComesTo (.error u) h []) ∨
      (u = .exception .illegalInstruction ∧ (op.perform.run answers h).ComesTo (.error u)
        { h with
          pc := (answers.restore h.pc).getD h.pc
          pendingCause := some .illegalInstruction }
        [.restore h.pc]) := by
  cases accessOutcome_perform hop with
  | @refused _ _ fault ho =>
      cases ho.result_eq.symm.trans hresult
      cases fault with
      | illegal => exact Or.inr ⟨rfl, ho⟩
      | unimplemented => exact Or.inl ⟨_, rfl, ho⟩
  | shown hread ho => cases ho.result_eq.symm.trans hresult
  | wrote hwritten hwrite ho => cases ho.result_eq.symm.trans hresult

theorem failed_of_trap {x : HartAction Word} {cause : Cause}
    (hperform : op.perform = (do return .word (← x)))
    (hrun : (x.run answers h).ComesTo (.error (.exception cause))
      { h with pendingCause := some cause } [])
    (hresult : (op.perform.run answers h).result = .error u) :
    ∃ cause, u = .exception cause ∧ (op.perform.run answers h).ComesTo (.error u)
      { h with pendingCause := some cause } [] := by
  have ho := comesTo_bind_error (fun value => pure (Reply.word value)) hrun
  rw [hperform] at hresult ⊢
  cases ho.result_eq.symm.trans hresult
  exact ⟨cause, rfl, ho⟩

theorem not_failed_of_value {x : HartAction Word} {value : Word} {h' : Hart}
    {calls : List PlatformCall} (hperform : op.perform = (do return .word (← x)))
    (hrun : (x.run answers h).ComesTo (.ok value) h' calls) :
    (op.perform.run answers h).result ≠ .error u := by
  intro hresult
  have ho := comesTo_bind_pure Reply.word hrun
  rw [hperform] at hresult
  cases ho.result_eq.symm.trans hresult

/-- A return fails with a cause, before it has changed the status or the privilege. -/
theorem failed_trapReturn (hop : op.isTrapReturn = true)
    (hresult : (op.perform.run answers h).result = .error u) :
    ∃ cause, u = .exception cause ∧ (op.perform.run answers h).ComesTo (.error u)
      { h with pendingCause := some cause } [] := by
  cases op with
  | returnFromSupervisorTrap =>
      rcases comesTo_returnFromSupervisorTrap answers h with
        ⟨-, hrun⟩ | ⟨-, -, hrun⟩ | ⟨-, -, p, -, -, hrun⟩
      · exact failed_of_trap rfl hrun hresult
      · exact failed_of_trap rfl hrun hresult
      · exact absurd hresult (not_failed_of_value rfl hrun)
  | returnFromMachineTrap =>
      rcases comesTo_returnFromMachineTrap answers h with ⟨-, hrun⟩ | ⟨-, p, -, hrun⟩
      · exact failed_of_trap rfl hrun hresult
      · exact absurd hresult (not_failed_of_value rfl hrun)
  | _ => cases hop

theorem failed_tlbMiss {vaddr : VirtAddr} {access : Access} {mode : Privilege}
    (hresult : ((Operation.tlbMiss vaddr access mode).perform.run answers h).result = .error u) :
    ∃ fault, (answers.walk h.csrs vaddr access mode).fault = some fault ∧
      u = .exception fault.cause ∧
      ((Operation.tlbMiss vaddr access mode).perform.run answers h).ComesTo (.error u)
        { h with badaddr := fault.badaddr.value, pendingCause := some fault.cause }
        [.walk h.csrs vaddr access mode] := by
  rcases comesTo_tlbMiss answers h vaddr access mode with ⟨fault, hwalk, hrun⟩ | ⟨paddr, -, hrun⟩
  · have ho := comesTo_bind_error (fun paddr => pure (Reply.address paddr)) hrun
    cases ho.result_eq.symm.trans hresult
    exact ⟨fault, hwalk, rfl, ho⟩
  · have ho := comesTo_bind_pure Reply.address hrun
    cases ho.result_eq.symm.trans hresult

theorem failed_setPrivilege {level : Word}
    (hresult : ((Operation.setPrivilege level).perform.run answers h).result = .error u) :
    ∃ error, u = .fatal error ∧
      ((Operation.setPrivilege level).perform.run answers h).ComesTo (.error u) h [] := by
  cases hlevel : Privilege.ofLevel? level with
  | none =>
      have ho := comesTo_bind_error (fun _ => pure Reply.done)
        (comesTo_setPrivilege_none answers h hlevel)
      cases ho.result_eq.symm.trans hresult
      exact ⟨_, rfl, ho⟩
  | some p =>
      have ho := comesTo_bind_pure (fun _ => Reply.done) (comesTo_setPrivilege answers h hlevel)
      cases ho.result_eq.symm.trans hresult

/-! ## All operations that can fail -/

/-- A failed operation leaves no trace but what belongs to its cause.  After a fatal error the hart is as
before and nobody was called, and a return from a trap never ends so.  After an exception the cause is
recorded, and apart from that a register instruction has restored the state at the old program counter
once, a return has done nothing at all, and a TLB miss has walked the page table and kept the blamed
address. -/
theorem unwind_atomic (answers : Answers) (h : Hart) {op : Operation} {u : Unwind}
    (hop : op.isFallible = true) (hresult : (op.perform.run answers h).result = .error u) :
    let o := op.perform.run answers h
    match u with
    | .fatal _ => o.hart = h ∧ o.calls = [] ∧ op.isTrapReturn = false
    | .exception cause =>
        (op.isRegisterInstruction = true ∧ cause = .illegalInstruction ∧
          o.hart = { h with
            pc := (answers.restore h.pc).getD h.pc
            pendingCause := some cause } ∧
          o.calls = [.restore h.pc]) ∨
        (op.isTrapReturn = true ∧ o.hart = { h with pendingCause := some cause } ∧ o.calls = []) ∨
        (∃ vaddr access mode fault, op = .tlbMiss vaddr access mode ∧
          (answers.walk h.csrs vaddr access mode).fault = some fault ∧ cause = fault.cause ∧
          o.hart = { h with badaddr := fault.badaddr.value, pendingCause := some cause } ∧
          o.calls = [.walk h.csrs vaddr access mode]) := by
  intro o
  have hinstruction : op.isRegisterInstruction = true → op.isTrapReturn = false := by
    intro hregister
    cases op <;> first | rfl | cases hregister
  -- register instructions fail alike, whichever of them it is and whichever half was refused
  by_cases hregister : op.isRegisterInstruction = true
  · rcases failed_instruction hregister hresult with ⟨error, rfl, ho⟩ | ⟨rfl, ho⟩
    · exact ⟨ho.hart_eq, ho.calls_eq, hinstruction hregister⟩
    · exact Or.inl ⟨hregister, rfl, ho.hart_eq, ho.calls_eq⟩
  · cases op with
    | returnFromSupervisorTrap | returnFromMachineTrap =>
        obtain ⟨cause, rfl, ho⟩ := failed_trapReturn rfl hresult
        exact Or.inr (Or.inl ⟨rfl, ho.hart_eq, ho.calls_eq⟩)
    | tlbMiss vaddr access mode =>
        obtain ⟨fault, hwalk, rfl, ho⟩ := failed_tlbMiss hresult
        exact Or.inr (Or.inr ⟨vaddr, access, mode, fault, rfl, hwalk, rfl, ho.hart_eq, ho.calls_eq⟩)
    | setPrivilege level =>
        obtain ⟨error, rfl, ho⟩ := failed_setPrivilege hresult
        exact ⟨ho.hart_eq, ho.calls_eq, rfl⟩
    | _ => first | exact absurd rfl hregister | cases hop

/-- An event counter can be read but not written.  The instruction fails in its write half, at an
instruction that the platform has restored. -/
theorem unwind_atomic_eventCounter :
    let answers : Answers := { Answers.identity with restore := fun _ => some 0x80 }
    let h := (atReset {} .machine).setPc 0x84
    let op := Operation.setCsr CsrNumber.mhpmcounter3 1 true
    op.isFallible = true ∧
      (op.perform.run answers h).result = .error (.exception .illegalInstruction) ∧
      (op.perform.run answers h).hart =
        { h with pc := 0x80, pendingCause := some .illegalInstruction } ∧
      (op.perform.run answers h).calls = [.restore 0x84] := by
  intro answers h op
  have hop : op.isFallible = true := rfl
  have hresult : (op.perform.run answers h).result = .error (.exception .illegalInstruction) := by rfl
  rcases unwind_atomic answers h hop hresult with ⟨-, -, hhart, hcalls⟩ | ⟨hreturn, -⟩ |
    ⟨_, _, _, _, hmiss, -⟩
  · exact ⟨hop, hresult, hhart, hcalls⟩
  · cases hreturn
  · exact absurd hmiss (by simp [op])

end Hart
end PrivilegedHart
