import PrivilegedHart.Proofs.Events
import PrivilegedHart.Proofs.Instruction
import PrivilegedHart.Proofs.TrapReturn

/-!
# How often the TLB is emptied

Emptying the TLB too seldom leaves stale translations behind, and emptying it too often is slow, so both are
part of what an operation does.  `Operation.flushes` says from the hart before and the result alone how
often an operation empties the TLB, and the theorems say that it is exactly so.

A write of the status counts what is asked for: a scheme that is not supported empties the TLB although it
is then not taken.  A return from a Machine trap changes the privilege and may change the status, each with
a flush of its own; a return from a Supervisor trap never touches a field that mappings depend on.
-/

namespace PrivilegedHart

open Word

/-! ## Fields that differ -/

namespace Status

/-- Two statuses differ in one of some fields. -/
def DiffersIn (fields : List Word) (a b : Word) : Prop :=
  ∃ field ∈ fields, BitField.get a field ≠ BitField.get b field

instance (fields : List Word) (a b : Word) : Decidable (DiffersIn fields a b) :=
  inferInstanceAs (Decidable (∃ field ∈ fields, BitField.get a field ≠ BitField.get b field))

variable {old new value : Word}

theorem affectsMapping_eq_false_iff :
    affectsMapping old new = false ↔ AgreeOn mappingFields new old := by
  rw [agreeOn_iff_xor, affectsMapping, bne_eq_false_iff_eq]

/-- A status affects mappings if it differs in the scheme, in the privilege that loads and stores may use
instead, in whether they do, or in one of the two protections. -/
theorem affectsMapping_iff :
    affectsMapping old new = true ↔ DiffersIn [vm, mpp, mprv, pum, mxr] new old := by
  rw [← Bool.not_eq_false, affectsMapping_eq_false_iff, mappingFields]
  -- the mask is taken apart before its parts are read
  simp only [agreeOn_or_iff, Classical.not_and_iff_not_or_not, or_assoc]
  simp only [agreeOn_iff_get_eq, DiffersIn, List.mem_cons, List.not_mem_nil, or_false,
    exists_eq_or_imp, exists_eq_left, ne_eq]

/-- Of the fields that mappings depend on, Supervisor mode writes one. -/
theorem affectsMapping_supervisor_iff :
    affectsMapping old (BitField.merge old value supervisorView) = true ↔
      DiffersIn [pum] value old := by
  have hfields : mappingFields &&& supervisorView = pum := by decide
  rw [← Bool.not_eq_false, affectsMapping_eq_false_iff, agreeOn_merge_iff, hfields,
    agreeOn_iff_get_eq]
  simp only [DiffersIn, List.mem_singleton, exists_eq_left]

end Status

namespace Hart

open Status HartAction

/-! ## The expected number -/

/-- How often a write half that has succeeded empties the TLB. -/
def writeFlushes (h : Hart) (n : CsrNumber) (value : Word) : Nat :=
  if n = .mstatus ∧ DiffersIn [vm, mpp, mprv, pum, mxr] (h.xlen.truncate value) h.csrs.mstatus then 1
  else if n = .sstatus ∧ DiffersIn [pum] (h.xlen.truncate value) h.csrs.mstatus then 1
  else 0

/-- How often an operation with a given result empties the TLB. -/
def Operation.flushes (h : Hart) (op : Operation) : Except Unwind Reply → Nat
  | .error _ => 0
  | .ok reply =>
      match op with
      | setPrivilege _ | returnFromSupervisorTrap | flushTlb | fenceInstructions => 1
      | returnFromMachineTrap => if BitField.get h.csrs.mstatus mpp = 0 then 1 else 1 + 1
      | op =>
          match op.written? reply with
          | some (n, value) => h.writeFlushes n value
          | none => 0

theorem Operation.flushes_of_isRegisterInstruction {h : Hart} {op : Operation}
    (hop : op.isRegisterInstruction = true) (reply : Reply) :
    op.flushes h (.ok reply) =
      match op.written? reply with
      | some (n, value) => h.writeFlushes n value
      | none => 0 := by
  cases op with
  | readCsr | writeCsr | validateCsr | swapCsr | setCsr | clearCsr | executeCsr => rfl
  | _ => cases hop

theorem Operation.flushes_machineReturn (h : Hart) (reply : Reply) :
    returnFromMachineTrap.flushes h (.ok reply) =
      if BitField.get h.csrs.mstatus mpp = 0 then 1 else 1 + 1 := rfl

variable {answers : Answers} {h : Hart} {op : Operation}

/-! ## Writes -/

theorem count_commitCalls (h : Hart) (value : Word) :
    (h.commitCalls value).count .flushTlb =
      if affectsMapping h.csrs.mstatus value = true then 1 else 0 := by
  unfold commitCalls
  split <;> rfl

theorem count_installCalls {n : CsrNumber} {r : Register} (hwrite : h.writeDecision n = .ok r)
    (value : Word) :
    (h.installCalls r (h.xlen.truncate value)).count .flushTlb = h.writeFlushes n value := by
  obtain ⟨row, hrow, rfl⟩ := find?_of_writeDecision hwrite
  have hmstatus : row.register = .mstatus ↔ n = .mstatus :=
    CsrRow.register_eq_iff ⟨_, rfl, rfl, rfl⟩ hrow
  have hsstatus : row.register = .sstatus ↔ n = .sstatus :=
    CsrRow.register_eq_iff ⟨_, rfl, rfl, rfl⟩ hrow
  simp only [writeFlushes, ← hmstatus, ← hsstatus]
  cases row.register with
  | mstatus =>
      simp only [installCalls, count_commitCalls, affectsMapping_iff, true_and, reduceCtorEq,
        false_and, if_false]
  | sstatus =>
      simp only [installCalls, count_commitCalls, affectsMapping_supervisor_iff, true_and,
        reduceCtorEq, false_and, if_false]
  | _ => rfl

/-! ## Returns -/

/-- A return from a Supervisor trap changes no field that mappings depend on. -/
theorem affectsMapping_supervisorReturn (status : Word) :
    affectsMapping status (statusAfterReturn status spp spie) = false := by
  have hspared : ∀ code < 4,
      mappingFields &&& (~~~TrapKind.supervisor.changed code &&& (writable ||| vm)) =
        mappingFields := by
    decide
  rw [affectsMapping_eq_false_iff]
  exact (kept_statusAfterReturn .supervisor status rfl).mono
    (hspared _ (toNat_get_previous_lt .supervisor status))

/-- A return from a Machine trap clears the previous privilege, and keeps the other fields that mappings
depend on. -/
theorem affectsMapping_machineReturn (status : Word) :
    affectsMapping status (statusAfterReturn status mpp mpie) = true ↔
      BitField.get status mpp ≠ 0 := by
  have hspared : ∀ code < 4,
      (vm ||| mprv ||| pum ||| mxr) &&& (~~~TrapKind.machine.changed code &&& (writable ||| vm)) =
        vm ||| mprv ||| pum ||| mxr := by
    decide
  have hkept : AgreeOn (vm ||| mprv ||| pum ||| mxr) (statusAfterReturn status mpp mpie) status :=
    (kept_statusAfterReturn .machine status rfl).mono
      (hspared _ (toNat_get_previous_lt .machine status))
  have hcleared : AgreeOn mpp (statusAfterReturn status mpp mpie) 0 :=
    (cleared_statusAfterReturn .machine status).mono (by decide)
  have hread : BitField.get (statusAfterReturn status mpp mpie) mpp = 0 :=
    hcleared.get_eq.trans (by decide +kernel)
  have hfields : mappingFields = vm ||| mprv ||| pum ||| mxr ||| mpp := by decide
  rw [← Bool.not_eq_false, affectsMapping_eq_false_iff, hfields, agreeOn_or_iff]
  constructor
  · intro hdiffers hzero
    exact hdiffers ⟨hkept, agreeOn_iff_get_eq.2 (hread.trans hzero.symm)⟩
  · intro hne hsame
    exact hne (hsame.2.get_eq.symm.trans hread)

/-! ## Every operation -/

theorem AccessOutcome.count_flushTlb {o : Outcome Reply} (ho : AccessOutcome answers h op o)
    (hop : op.isRegisterInstruction = true) :
    o.calls.count .flushTlb = op.flushes h o.result := by
  cases ho with
  | @refused n half fault ho =>
      rw [ho.calls_eq, ho.result_eq]
      cases fault <;> rfl
  | shown hread ho =>
      rw [ho.calls_eq, ho.result_eq, Operation.flushes_of_isRegisterInstruction hop, hread]
      rfl
  | wrote hwritten hwrite ho =>
      rw [ho.calls_eq, ho.result_eq, Operation.flushes_of_isRegisterInstruction hop, hwritten]
      exact count_installCalls hwrite _

theorem count_of_comesTo {o : Outcome Reply} {result : Except Unwind Reply} {h' : Hart}
    {calls : List PlatformCall} (ho : o.ComesTo result h' calls)
    (hcount : calls.count .flushTlb = op.flushes h result) :
    o.calls.count .flushTlb = op.flushes h o.result := by
  rw [ho.calls_eq, ho.result_eq]
  exact hcount

theorem count_flushTlb (answers : Answers) (h : Hart) (op : Operation) :
    (op.perform.run answers h).calls.count .flushTlb =
      op.flushes h (op.perform.run answers h).result := by
  cases op with
  | readCsr | writeCsr | validateCsr | swapCsr | setCsr | clearCsr | executeCsr =>
      exact (accessOutcome_perform rfl).count_flushTlb rfl
  | setPrivilege level =>
      cases hlevel : Privilege.ofLevel? level with
      | none =>
          exact count_of_comesTo (comesTo_bind_error _ (comesTo_setPrivilege_none answers h hlevel)) rfl
      | some p =>
          exact count_of_comesTo (comesTo_bind_pure _ (comesTo_setPrivilege answers h hlevel)) rfl
  | returnFromSupervisorTrap =>
      rcases comesTo_returnFromSupervisorTrap answers h with
        ⟨-, hrun⟩ | ⟨-, -, hrun⟩ | ⟨-, -, p, -, -, hrun⟩
      · exact count_of_comesTo (comesTo_bind_error _ hrun) rfl
      · exact count_of_comesTo (comesTo_bind_error _ hrun) rfl
      · refine count_of_comesTo (comesTo_bind_pure _ hrun) ?_
        rw [returnCalls, List.count_cons_self, count_commitCalls, affectsMapping_supervisorReturn]
        rfl
  | returnFromMachineTrap =>
      rcases comesTo_returnFromMachineTrap answers h with ⟨-, hrun⟩ | ⟨-, p, -, hrun⟩
      · exact count_of_comesTo (comesTo_bind_error _ hrun) rfl
      · refine count_of_comesTo (comesTo_bind_pure _ hrun) ?_
        rw [returnCalls, List.count_cons_self, count_commitCalls, Operation.flushes_machineReturn]
        simp only [affectsMapping_machineReturn]
        by_cases hmpp : BitField.get h.csrs.mstatus mpp = 0
        · rw [if_pos hmpp, if_neg (not_not_intro hmpp)]
        · rw [if_neg hmpp, if_pos hmpp]
  | tlbMiss vaddr access mode =>
      rcases comesTo_tlbMiss answers h vaddr access mode with ⟨fault, -, hrun⟩ | ⟨paddr, -, hrun⟩
      · exact count_of_comesTo (comesTo_bind_error _ hrun) rfl
      · exact count_of_comesTo (comesTo_bind_pure _ hrun) rfl
  | _ => rfl

theorem flushBlocks_not_mem {result : Except Unwind Reply} {h' : Hart} {calls : List PlatformCall}
    (heffect : Effect answers h op result h' calls) (hop : op ≠ .fenceInstructions) :
    .flushBlocks ∉ calls := by
  intro hmem
  cases heffect with
  | fenced => exact hop rfl
  | trapped hsame hquestions => exact absurd (hquestions _ hmem) Bool.false_ne_true
  | written hop' hwrite => rcases eq_of_mem_installCalls hmem with hcall | ⟨_, hcall⟩ <;> cases hcall
  | supervisorReturn | machineReturn => cases eq_flushTlb_of_mem_returnCalls h hmem
  | _ => simp at hmem

/-- Every operation, on every hart and with every platform, empties the TLB exactly as often as its result
asks for, and the blocks of compiled guest code are dropped once by the fence and by nothing else. -/
theorem flushes_exact (answers : Answers) (h : Hart) (op : Operation) :
    let o := op.perform.run answers h
    o.calls.count .flushTlb = op.flushes h o.result ∧
      o.calls.count .flushBlocks = if op = .fenceInstructions then 1 else 0 := by
  refine ⟨count_flushTlb answers h op, ?_⟩
  by_cases hop : op = .fenceInstructions
  · subst hop
    rfl
  · rw [if_neg hop]
    exact List.count_eq_zero.2 (flushBlocks_not_mem (effect_perform answers h op) hop)

/-! A scheme that is not supported empties the TLB, and is not taken. -/

example :
    let o := (Operation.writeCsr .mstatus 0x1000000).perform.run .identity (atReset {} .machine)
    o.calls = [.flushTlb] ∧ o.hart.csrs.mstatus = 0 := by
  decide +kernel

/-! ## Runs -/

/-- A run empties the TLB as often as its operations do together. -/
theorem Session.run_flushes (platform : Platform) (s : Session) (ops : List Operation) :
    (s.run platform ops).2.calls.count .flushTlb =
      (s.events platform ops).foldl (fun n e => n + e.op.flushes e.before e.outcome.result)
        (s.calls.count .flushTlb) := by
  induction ops generalizing s with
  | nil => rfl
  | cons op ops ih =>
      have hstep : (s.step platform op).2.calls.count .flushTlb =
          s.calls.count .flushTlb +
            op.flushes s.hart (op.perform.run (platform s.calls) s.hart).result := by
        rw [← count_flushTlb]
        exact List.count_append
      rw [run_cons, ih, hstep, events_cons, List.foldl_cons]
      rfl

end Hart
end PrivilegedHart
