import PrivilegedHart.Hart.Operation
import PrivilegedHart.Proofs.Access

/-!
# What an operation can do to a hart

`Effect` lists everything that one operation can do to the registers, the privilege, the pending interrupts
and the counters, with the guards under which it does so.  `effect_perform` says that the list is complete.
A property of runs is then a case analysis over the list and an induction over the run, which
`Session.run_preserves` does once.
-/

namespace PrivilegedHart

/-- A call that only asks the platform something. -/
def PlatformCall.isQuestion : PlatformCall → Bool
  | walk .. | restore _ => true
  | _ => false

namespace Hart

/-- Nothing but the transient state of a trap differs: the program counter, the raised cause, the blamed
address and whether the hart waits. -/
structure SameState (h h' : Hart) : Prop where
  xlen : h'.xlen = h.xlen
  maxIsa : h'.maxIsa = h.maxIsa
  physAddrBits : h'.physAddrBits = h.physAddrBits
  hartId : h'.hartId = h.hartId
  privilege : h'.privilege = h.privilege
  csrs : h'.csrs = h.csrs
  mip : h'.mip = h.mip
  counters : h'.counters = h.counters

theorem SameState.refl (h : Hart) : SameState h h := ⟨rfl, rfl, rfl, rfl, rfl, rfl, rfl, rfl⟩

theorem sameState_transient (h : Hart) (pc : Word) (cause : Option Cause) (badaddr : Word)
    (waiting : Bool) :
    SameState h { h with pc := pc, pendingCause := cause, badaddr := badaddr, waiting := waiting } :=
  ⟨rfl, rfl, rfl, rfl, rfl, rfl, rfl, rfl⟩

theorem sameState_afterRefusal (h : Hart) (answers : Answers) (fault : RegisterFault) :
    SameState h (h.afterRefusal answers fault) := by
  cases fault with
  | illegal => exact sameState_transient ..
  | unimplemented => exact .refl h

/-- The other direction: some transient state makes one hart of the other. -/
theorem SameState.exists_eq {h h' : Hart} (s : SameState h h') :
    ∃ pc cause badaddr waiting,
      h' = { h with pc := pc, pendingCause := cause, badaddr := badaddr, waiting := waiting } := by
  obtain ⟨hxlen, hmaxIsa, hbits, hhartId, hprivilege, hcsrs, hmip, hcounters⟩ := s
  refine ⟨h'.pc, h'.pendingCause, h'.badaddr, h'.waiting, ?_⟩
  rw [← hxlen, ← hmaxIsa, ← hbits, ← hhartId, ← hprivilege, ← hcsrs, ← hmip, ← hcounters]

namespace Operation

/-- The atomic register instructions: their register, whether they write, and what they write over an old
value. -/
def modification? : Operation → Option (CsrNumber × Bool × (Word → Word))
  | swapCsr n operand => some (n, true, fun _ => operand)
  | setCsr n operand hasOperand => some (n, hasOperand, (· ||| operand))
  | clearCsr n operand hasOperand => some (n, hasOperand, (· &&& ~~~operand))
  | executeCsr .swap n operand _ => some (n, true, fun _ => operand)
  | executeCsr .set n operand hasOperand => some (n, hasOperand, (· ||| operand))
  | executeCsr .clear n operand hasOperand => some (n, hasOperand, (· &&& ~~~operand))
  | _ => none

theorem perform_of_modification? {op : Operation} {n : CsrNumber} {isWrite : Bool}
    {f : Word → Word} (hop : op.modification? = some (n, isWrite, f)) :
    op.perform = (do return .word (← modifyCsr n isWrite f)) := by
  unfold modification? at hop
  split at hop <;> cases hop <;> rfl

/-- The register write that an operation asks for on a hart, with the value before truncation. -/
def write? (h : Hart) (op : Operation) : Option (CsrNumber × Word) :=
  match op with
  | writeCsr n value => some (n, value)
  | op =>
      match op.modification? with
      | some (n, true, f) => (h.readDecision n).toOption.map fun old => (n, f old)
      | _ => none

end Operation

/-- What an operation can do to a hart: its result, the hart afterwards and the calls it makes.  An
operation that fails does not touch a register. -/
inductive Effect (answers : Answers) (h : Hart) :
    Operation → Except Unwind Reply → Hart → List PlatformCall → Prop
  /-- The operation succeeds without touching a register or calling the platform. -/
  | quiet {op : Operation} {reply : Reply} {h' : Hart} (hsame : SameState h h') :
      Effect answers h op (.ok reply) h' []
  /-- A cause is raised, perhaps after a question. -/
  | trapped {op : Operation} {cause : Cause} {h' : Hart} {calls : List PlatformCall}
      (hsame : SameState h h') (hcalls : ∀ c ∈ calls, c.isQuestion = true) :
      Effect answers h op (.error (.exception cause)) h' calls
  /-- Emulation has to stop, for a register without a model or a level that is none. -/
  | stopped {op : Operation} {error : FatalError}
      (hwhy : h.privilege = .machine ∨ ∃ level, op = .setPrivilege level) :
      Effect answers h op (.error (.fatal error)) h []
  | flushed : Effect answers h .flushTlb (.ok .done) h [.flushTlb]
  | fenced : Effect answers h .fenceInstructions (.ok .done) h [.flushTlb, .flushBlocks]
  /-- The TLB takes what a walk has found. -/
  | filled {vaddr : VirtAddr} {access : Access} {mode : Privilege} {paddr : PhysAddr}
      (hwalk : answers.walk h.csrs vaddr access mode = .success paddr) :
      Effect answers h (.tlbMiss vaddr access mode) (.ok (.address paddr)) h
        [.walk h.csrs vaddr access mode, .install vaddr paddr access mode]
  | written {op : Operation} {reply : Reply} {n : CsrNumber} {r : Register} {value : Word}
      (hop : op.write? h = some (n, value)) (hwrite : h.writeDecision n = .ok r) :
      Effect answers h op (.ok reply) (h.afterInstall r (h.xlen.truncate value))
        (h.installCalls r (h.xlen.truncate value))
  | retired (count : Word) : Effect answers h (.retire count) (.ok .done) (h.retire count) []
  | switched {level : Word} {p : Privilege} (hlevel : Privilege.ofLevel? level = some p) :
      Effect answers h (.setPrivilege level) (.ok .done) { h with privilege := p } [.flushTlb]
  | supervisorReturn {reply : Reply} {p : Privilege} (hlow : ¬ h.privilege < .supervisor)
      (hle : p ≤ .supervisor)
      (hp : Privilege.ofLevel? (BitField.get h.csrs.mstatus Status.spp) = some p) :
      Effect answers h .returnFromSupervisorTrap (.ok reply) (h.returned p Status.spp Status.spie)
        (h.returnCalls Status.spp Status.spie)
  | machineReturn {reply : Reply} {p : Privilege} (hlow : ¬ h.privilege < .machine)
      (hp : Privilege.ofLevel? (BitField.get h.csrs.mstatus Status.mpp) = some p) :
      Effect answers h .returnFromMachineTrap (.ok reply) (h.returned p Status.mpp Status.mpie)
        (h.returnCalls Status.mpp Status.mpie)
  | raisedLines {reply : Reply} (bits : Word) :
      Effect answers h (.raiseLines bits) (.ok reply) (h.raiseLines bits) []
  | loweredLines {reply : Reply} (bits : Word) :
      Effect answers h (.lowerLines bits) (.ok reply) (h.lowerLines bits) []

/-! ## Every operation has an effect of the list -/

section Perform

open HartAction

variable {answers : Answers} {h h' : Hart} {op : Operation} {cause : Cause}

theorem Effect.trapped_silent (hsame : SameState h h') :
    Effect answers h op (.error (.exception cause)) h' [] := by
  refine .trapped hsame ?_
  intro c hc
  cases hc

theorem Effect.trapped_asking {question : PlatformCall} (hsame : SameState h h')
    (hquestion : question.isQuestion = true) :
    Effect answers h op (.error (.exception cause)) h' [question] := by
  refine .trapped hsame ?_
  intro c hc
  rw [List.mem_singleton.1 hc]
  exact hquestion

theorem effect_of_comesTo {o : Outcome Reply} {result : Except Unwind Reply}
    {calls : List PlatformCall} (ho : o.ComesTo result h' calls)
    (heffect : Effect answers h op result h' calls) : Effect answers h op o.result o.hart o.calls := by
  rw [ho.result_eq, ho.hart_eq, ho.calls_eq]
  exact heffect

/-- A refused access traps, or stops the emulation if that is why Machine mode was refused. -/
theorem Refuses.effect {n : CsrNumber} {half : AccessHalf} {fault : RegisterFault}
    {o : Outcome Reply} (ho : Refuses answers h n half fault o)
    (hmachine : fault = .unimplemented → h.privilege = .machine) (op : Operation) :
    Effect answers h op o.result o.hart o.calls := by
  refine effect_of_comesTo ho ?_
  cases fault with
  | illegal =>
      exact .trapped_asking (sameState_afterRefusal h answers .illegal) rfl
  | unimplemented => exact .stopped (Or.inl (hmachine rfl))

theorem Refuses.effect_read {n : CsrNumber} {half : AccessHalf} {fault : RegisterFault}
    {o : Outcome Reply} (ho : Refuses answers h n half fault o)
    (hread : h.readDecision n = .error fault) (op : Operation) :
    Effect answers h op o.result o.hart o.calls :=
  ho.effect (fun hfault => machine_of_readDecision (hfault ▸ hread)) op

theorem Refuses.effect_write {n : CsrNumber} {half : AccessHalf} {fault : RegisterFault}
    {o : Outcome Reply} (ho : Refuses answers h n half fault o)
    (hwrite : h.writeDecision n = .error fault) (op : Operation) :
    Effect answers h op o.result o.hart o.calls :=
  ho.effect (fun hfault => machine_of_writeDecision (hfault ▸ hwrite)) op

theorem effect_modification {op : Operation} {n : CsrNumber} {isWrite : Bool} {f : Word → Word}
    (hop : op.modification? = some (n, isWrite, f)) :
    Effect answers h op (op.perform.run answers h).result (op.perform.run answers h).hart
      (op.perform.run answers h).calls := by
  have hwrite? : ∀ old, h.readDecision n = .ok old → isWrite = true →
      op.write? h = some (n, f old) := by
    intro old hread htrue
    subst htrue
    cases op <;> simp_all [Operation.write?, Operation.modification?, Except.toOption]
  rw [Operation.perform_of_modification? hop]
  -- the read half decides first, with or without a write to follow
  cases hread : h.readDecision n with
  | error fault => exact ((refuses_modifyCsr_read hread).bind _).effect_read hread op
  | ok old =>
      cases isWrite with
      | false =>
          exact effect_of_comesTo (comesTo_bind_pure _ (comesTo_modifyCsr_read hread))
            (.quiet (.refl h))
      | true =>
          cases hwrite : h.writeDecision n with
          | error fault =>
              exact ((refuses_modifyCsr_write hread hwrite).bind _).effect_write hwrite op
          | ok r =>
              exact effect_of_comesTo (comesTo_bind_pure _ (comesTo_modifyCsr_write hread hwrite))
                (.written (hwrite? old hread rfl) hwrite)

/-- Whatever a platform answers, an operation has an effect of the list. -/
theorem effect_perform (answers : Answers) (h : Hart) (op : Operation) :
    Effect answers h op (op.perform.run answers h).result (op.perform.run answers h).hart
      (op.perform.run answers h).calls := by
  cases op with
  | readCsr n =>
      cases hread : h.readDecision n with
      | error fault => exact ((refuses_readCsr hread).bind _).effect_read hread _
      | ok value =>
          exact effect_of_comesTo (comesTo_bind_pure _ (comesTo_readCsr hread))
            (.quiet (.refl h))
  | writeCsr n value =>
      cases hwrite : h.writeDecision n with
      | error fault => exact ((refuses_writeCsr hwrite value).bind _).effect_write hwrite _
      | ok r =>
          exact effect_of_comesTo (comesTo_bind_pure _ (comesTo_writeCsr hwrite value))
            (.written rfl hwrite)
  | validateCsr n isWrite =>
      cases hallowed : h.denies n isWrite with
      | true =>
          refine ((refuses_validateCsr .read hallowed).bind _).effect ?_ _
          intro hfault
          cases hfault
      | false =>
          exact effect_of_comesTo (comesTo_bind_pure _ (comesTo_validateCsr hallowed))
            (.quiet (.refl h))
  | swapCsr n operand => exact effect_modification rfl
  | setCsr n operand hasOperand => exact effect_modification rfl
  | clearCsr n operand hasOperand => exact effect_modification rfl
  | executeCsr i n operand hasOperand => cases i <;> exact effect_modification rfl
  | retire count => exact .retired count
  | setPc pc => exact .quiet (sameState_transient ..)
  | setPrivilege level =>
      cases hlevel : Privilege.ofLevel? level with
      | none =>
          exact effect_of_comesTo
            (comesTo_bind_error _ (comesTo_setPrivilege_none answers h hlevel))
            (.stopped (Or.inr ⟨level, rfl⟩))
      | some p =>
          exact effect_of_comesTo (comesTo_bind_pure _ (comesTo_setPrivilege answers h hlevel))
            (.switched hlevel)
  | returnFromSupervisorTrap =>
      rcases comesTo_returnFromSupervisorTrap answers h with
        ⟨-, hrun⟩ | ⟨-, -, hrun⟩ | ⟨hlow, -, p, hp, hle, hrun⟩
      · exact effect_of_comesTo (comesTo_bind_error _ hrun) (.trapped_silent (sameState_transient ..))
      · exact effect_of_comesTo (comesTo_bind_error _ hrun) (.trapped_silent (sameState_transient ..))
      · exact effect_of_comesTo (comesTo_bind_pure _ hrun) (.supervisorReturn hlow hle hp)
  | returnFromMachineTrap =>
      rcases comesTo_returnFromMachineTrap answers h with ⟨-, hrun⟩ | ⟨hlow, p, hp, hrun⟩
      · exact effect_of_comesTo (comesTo_bind_error _ hrun) (.trapped_silent (sameState_transient ..))
      · exact effect_of_comesTo (comesTo_bind_pure _ hrun) (.machineReturn hlow hp)
  | raise cause => exact .trapped_silent (sameState_transient ..)
  | raiseWithBadaddr cause badaddr => exact .trapped_silent (sameState_transient ..)
  | raiseAt cause pc => exact .trapped_asking (sameState_transient ..) rfl
  | raiseDebug => exact .trapped_silent (sameState_transient ..)
  | waitForInterrupt => exact .trapped_silent (sameState_transient ..)
  | resume => exact .quiet (sameState_transient ..)
  | takeCause => exact .quiet (sameState_transient ..)
  | flushTlb => exact .flushed
  | fenceInstructions => exact .fenced
  | tlbMiss vaddr access mode =>
      rcases comesTo_tlbMiss answers h vaddr access mode with
        ⟨fault, -, hrun⟩ | ⟨paddr, hwalk, hrun⟩
      · exact effect_of_comesTo (comesTo_bind_error _ hrun)
          (.trapped_asking (sameState_transient ..) rfl)
      · exact effect_of_comesTo (comesTo_bind_pure _ hrun) (.filled hwalk)
  | raiseLines bits => exact .raisedLines bits
  | lowerLines bits => exact .loweredLines bits

end Perform

/-! ## Runs -/

namespace Session

/-- A step returns what its operation comes to, and appends its calls to those made before. -/
theorem step_of_comesTo {platform : Platform} {s : Session} {op : Operation}
    {result : Except Unwind Reply} {h' : Hart} {calls : List PlatformCall}
    (ho : (op.perform.run (platform s.calls) s.hart).ComesTo result h' calls) :
    s.step platform op = (result, ⟨h', s.calls ++ calls⟩) := by
  rw [step, ho.result_eq, ho.hart_eq, ho.calls_eq]

/-- What every step of an allowed kind keeps, a run of that kind keeps. -/
theorem run_preserves {platform : Platform} {Allowed : Operation → Prop} {P : Session → Prop}
    (hstep : ∀ s op, Allowed op → P s → P (s.step platform op).2) {s : Session} (hs : P s)
    {ops : List Operation} (hops : ∀ op ∈ ops, Allowed op) : P (s.run platform ops).2 := by
  induction ops generalizing s with
  | nil => exact hs
  | cons op ops ih =>
      have hfirst : P (s.step platform op).2 := hstep s op (hops op List.mem_cons_self) hs
      exact ih hfirst fun op' hop' => hops op' (List.mem_cons_of_mem _ hop')

/-- What every effect keeps, every run keeps. -/
theorem run_invariant {P : Hart → Prop}
    (heffect : ∀ {answers : Answers} {h h' : Hart} {op : Operation} {result : Except Unwind Reply}
      {calls : List PlatformCall}, P h → Effect answers h op result h' calls → P h')
    {platform : Platform} {s : Session} (hs : P s.hart) (ops : List Operation) :
    P (s.run platform ops).2.hart := by
  have hstep : ∀ (s' : Session) (op : Operation), True → P s'.hart →
      P (s'.step platform op).2.hart :=
    fun s' op _ hs' => heffect hs' (effect_perform (platform s'.calls) s'.hart op)
  exact run_preserves hstep hs fun _ _ => trivial

/-- What holds of the result of every step from a kept state holds of every result of a run. -/
theorem run_results {platform : Platform} {Allowed : Operation → Prop} {P : Session → Prop}
    {Good : Except Unwind Reply → Prop}
    (hstep : ∀ s op, Allowed op → P s → P (s.step platform op).2)
    (hresult : ∀ s op, Allowed op → P s → Good (s.step platform op).1) {s : Session} (hs : P s)
    {ops : List Operation} (hops : ∀ op ∈ ops, Allowed op) :
    ∀ result ∈ (s.run platform ops).1, Good result := by
  induction ops generalizing s with
  | nil =>
      intro result hmem
      cases hmem
  | cons op ops ih =>
      have hop : Allowed op := hops op List.mem_cons_self
      intro result hmem
      rw [run_cons, List.mem_cons] at hmem
      rcases hmem with rfl | hmem
      · exact hresult s op hop hs
      · exact ih (hstep s op hop hs) (fun op' hop' => hops op' (List.mem_cons_of_mem _ hop'))
          result hmem

end Session
end Hart
end PrivilegedHart
