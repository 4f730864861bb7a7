import PrivilegedHart.Proofs.Atomicity
import PrivilegedHart.Proofs.Events
import PrivilegedHart.Proofs.WellFormed

/-!
# The transient state of a trap is a matter of history

Four fields of a hart belong to a trap that is being raised: the raised cause, the blamed address, whether
the hart waits, and the program counter.  None of them can be read or written through a register, and none
has to be looked at to know it.  Whoever sees from outside which operations were performed, what they
returned, which calls they made and what the platform answered, knows all four: each is what the most recent
operation with something to say about it has said, or what it was at reset.

The state of the hart is therefore left out of an `Exchange`.
-/

namespace PrivilegedHart

namespace Answers

/-- The address that the answer to a call blames. -/
def blamed? (answers : Answers) : PlatformCall → Option Word
  | .walk csrs vaddr access mode =>
      (answers.walk csrs vaddr access mode).fault.map fun fault => fault.badaddr.value
  | _ => none

/-- The program counter that the answer to a call restores. -/
def restored? (answers : Answers) : PlatformCall → Option Word
  | .restore pc => answers.restore pc
  | _ => none

theorem restored?_eq_none {call : PlatformCall} (hcall : call.isQuestion = false)
    (answers : Answers) : answers.restored? call = none := by
  cases call <;> first | rfl | cases hcall

end Answers

namespace Hart

open HartAction

/-! ## What can be seen from outside -/

/-- One operation of a run, as it looks from outside the hart. -/
structure Exchange where
  /-- What the platform answers to the calls. -/
  answers : Answers
  op : Operation
  result : Except Unwind Reply
  calls : List PlatformCall

namespace Exchange

/-- A cause is recorded when an operation unwinds with it, and taking it leaves none. -/
def recorded? (e : Exchange) : Option (Option Cause) :=
  match e.op, e.result with
  | .takeCause, _ => some none
  | _, .error (.exception cause) => some (some cause)
  | _, _ => none

/-- An address is blamed by whoever raises a cause with it, or by a walk that fails. -/
def blamed? (e : Exchange) : Option Word :=
  match e.op with
  | .raiseWithBadaddr _ badaddr => some badaddr
  | .tlbMiss .. => mostRecent? e.answers.blamed? e.calls
  | _ => none

/-- A hart waits when it is told to, until it is told to go on. -/
def waits? (e : Exchange) : Option Bool :=
  match e.op with
  | .waitForInterrupt => some true
  | .resume => some false
  | _ => none

/-- An instruction is entered, or the platform restores the state at one. -/
def entered? (e : Exchange) : Option Word :=
  match e.op with
  | .setPc pc => some pc
  | _ => mostRecent? e.answers.restored? e.calls

end Exchange

/-- What is seen of an event. -/
def Event.exchange (e : Event) : Exchange := ⟨e.answers, e.op, e.outcome.result, e.outcome.calls⟩

/-- The exchanges of a run, the earliest first. -/
def Session.exchanges (platform : Platform) (s : Session) (ops : List Operation) : List Exchange :=
  (s.events platform ops).map Event.exchange

/-! ## What an operation leaves alone -/

/-- The transient states of two harts are the same. -/
structure SameTransient (h h' : Hart) : Prop where
  pendingCause : h'.pendingCause = h.pendingCause
  badaddr : h'.badaddr = h.badaddr
  waiting : h'.waiting = h.waiting
  pc : h'.pc = h.pc

variable {answers : Answers} {h h' : Hart} {op : Operation} {result : Except Unwind Reply}
  {calls : List PlatformCall}

theorem SameTransient.refl (h : Hart) : SameTransient h h := ⟨rfl, rfl, rfl, rfl⟩

theorem sameTransient_afterInstall (h : Hart) (r : Register) (value : Word) :
    SameTransient h (h.afterInstall r value) := by
  cases r <;> exact ⟨rfl, rfl, rfl, rfl⟩

theorem sameTransient_returned (h : Hart) (p : Privilege) (privilege enable : Word) :
    SameTransient h (h.returned p privilege enable) :=
  ⟨rfl, rfl, rfl, rfl⟩

theorem isQuestion_of_mem_installCalls {r : Register} {value : Word} :
    ∀ call ∈ h.installCalls r value, call.isQuestion = false := by
  intro call hcall
  rcases eq_of_mem_installCalls hcall with rfl | ⟨_, rfl⟩
  · rfl
  · rfl

theorem isQuestion_of_mem_returnCalls {privilege enable : Word} :
    ∀ call ∈ h.returnCalls privilege enable, call.isQuestion = false := by
  intro call hcall
  rw [eq_flushTlb_of_mem_returnCalls h hcall]
  rfl

/-! ## One operation -/

/-- What the transient state becomes can be told from an exchange. -/
structure Follows (e : Exchange) (h h' : Hart) : Prop where
  pendingCause : h'.pendingCause = e.recorded?.getD h.pendingCause
  badaddr : h'.badaddr = e.blamed?.getD h.badaddr
  waiting : h'.waiting = e.waits?.getD h.waiting
  pc : h'.pc = e.entered?.getD h.pc

/-- The operations that are about the transient state. -/
def Operation.isTransient : Operation → Bool
  | setPc _ | raiseWithBadaddr .. | waitForInterrupt | resume | takeCause | tlbMiss .. => true
  | _ => false

/-- Most operations have nothing to say, if they succeed and ask the platform nothing. -/
theorem follows_ok (hop : op.isTransient = false) (hsame : SameTransient h h') {reply : Reply}
    (hcalls : ∀ call ∈ calls, call.isQuestion = false) :
    Follows ⟨answers, op, .ok reply, calls⟩ h h' := by
  have hrestored : mostRecent? answers.restored? calls = none :=
    mostRecent?_eq_none fun call hcall => answers.restored?_eq_none (hcalls call hcall)
  refine ⟨hsame.pendingCause.trans ?_, hsame.badaddr.trans ?_, hsame.waiting.trans ?_,
    hsame.pc.trans ?_⟩
  · cases op <;> first | rfl | cases hop
  · cases op <;> first | rfl | cases hop
  · cases op <;> first | rfl | cases hop
  · have hentered : Exchange.entered? ⟨answers, op, .ok reply, calls⟩ = none := by
      cases op <;> first | exact hrestored | cases hop
    rw [hentered]
    rfl

theorem follows_of_comesTo {o : Outcome Reply} (ho : o.ComesTo result h' calls)
    (hfollows : Follows ⟨answers, op, result, calls⟩ h h') :
    Follows ⟨answers, op, o.result, o.calls⟩ h o.hart := by
  rw [ho.result_eq, ho.hart_eq, ho.calls_eq]
  exact hfollows

/-- A fatal error says nothing. -/
theorem follows_fatal (hop : op.isTransient = false) (error : FatalError) :
    Follows ⟨answers, op, .error (.fatal error), []⟩ h h := by
  cases op <;> first | exact ⟨rfl, rfl, rfl, rfl⟩ | cases hop

/-- A cause that is raised without a question is all that is said. -/
theorem follows_exception (hop : op.isTransient = false) (cause : Cause) :
    Follows ⟨answers, op, .error (.exception cause), []⟩ h { h with pendingCause := some cause } := by
  cases op <;> first | exact ⟨rfl, rfl, rfl, rfl⟩ | cases hop

/-- A cause that is raised at an instruction may also enter that instruction. -/
theorem follows_exception_at (hop : op.isTransient = false) (cause : Cause) (pc : Word) :
    Follows ⟨answers, op, .error (.exception cause), [.restore pc]⟩ h
      { h with pc := (answers.restore pc).getD h.pc, pendingCause := some cause } := by
  have hrestored : mostRecent? answers.restored? [.restore pc] = answers.restore pc :=
    mostRecent?_cons (by simp)
  refine ⟨?_, ?_, ?_, ?_⟩
  · cases op <;> first | rfl | cases hop
  · cases op <;> first | rfl | cases hop
  · cases op <;> first | rfl | cases hop
  · rw [← hrestored]
    cases op <;> first | rfl | cases hop

theorem AccessOutcome.follows {o : Outcome Reply} (ho : AccessOutcome answers h op o)
    (hop : op.isTransient = false) : Follows ⟨answers, op, o.result, o.calls⟩ h o.hart := by
  cases ho with
  | @refused _ _ fault ho =>
      refine follows_of_comesTo ho ?_
      cases fault with
      | illegal => exact follows_exception_at hop _ _
      | unimplemented => exact follows_fatal hop _
  | shown hread ho => exact follows_of_comesTo ho (follows_ok hop (.refl h) (by simp))
  | wrote hwritten hwrite ho =>
      exact follows_of_comesTo ho
        (follows_ok hop (sameTransient_afterInstall ..) isQuestion_of_mem_installCalls)

theorem follows_event (op : Operation) (answers : Answers) (h : Hart) :
    Follows (op.event answers h).exchange h (op.event answers h).outcome.hart := by
  unfold Event.exchange Operation.event
  cases op with
  | readCsr | writeCsr | validateCsr | swapCsr | setCsr | clearCsr | executeCsr =>
      exact (accessOutcome_perform rfl).follows rfl
  | setPrivilege level =>
      cases hlevel : Privilege.ofLevel? level with
      | none =>
          exact follows_of_comesTo
            (comesTo_bind_error _ (comesTo_setPrivilege_none answers h hlevel)) (follows_fatal rfl _)
      | some p =>
          exact follows_of_comesTo (comesTo_bind_pure _ (comesTo_setPrivilege answers h hlevel))
            ⟨rfl, rfl, rfl, rfl⟩
  | returnFromSupervisorTrap =>
      rcases comesTo_returnFromSupervisorTrap answers h with
        ⟨-, hrun⟩ | ⟨-, -, hrun⟩ | ⟨-, -, p, -, -, hrun⟩
      · exact follows_of_comesTo (comesTo_bind_error _ hrun) (follows_exception rfl _)
      · exact follows_of_comesTo (comesTo_bind_error _ hrun) (follows_exception rfl _)
      · have ho := comesTo_bind_pure Reply.word hrun
        refine follows_of_comesTo ho (follows_ok ?_ (sameTransient_returned ..) ?_)
        · rfl
        · exact isQuestion_of_mem_returnCalls
  | returnFromMachineTrap =>
      rcases comesTo_returnFromMachineTrap answers h with ⟨-, hrun⟩ | ⟨-, p, -, hrun⟩
      · exact follows_of_comesTo (comesTo_bind_error _ hrun) (follows_exception rfl _)
      · have ho := comesTo_bind_pure Reply.word hrun
        refine follows_of_comesTo ho (follows_ok ?_ (sameTransient_returned ..) ?_)
        · rfl
        · exact isQuestion_of_mem_returnCalls
  | tlbMiss vaddr access mode =>
      rcases comesTo_tlbMiss answers h vaddr access mode with
        ⟨fault, hwalk, hrun⟩ | ⟨paddr, hwalk, hrun⟩
      · refine follows_of_comesTo (comesTo_bind_error _ hrun) ⟨rfl, ?_, rfl, rfl⟩
        rw [Exchange.blamed?, mostRecent?_cons (by simp), Answers.blamed?, hwalk]
        rfl
      · have hinstall : ∀ call ∈ [PlatformCall.install vaddr paddr access mode],
            answers.blamed? call = none := by
          simp [Answers.blamed?]
        refine follows_of_comesTo (comesTo_bind_pure _ hrun) ⟨rfl, ?_, rfl, rfl⟩
        rw [Exchange.blamed?, mostRecent?_cons hinstall, Answers.blamed?, hwalk]
        rfl
  | raise cause | raiseDebug => exact follows_exception rfl _
  | raiseAt cause pc => exact follows_exception_at rfl cause pc
  | _ => exact ⟨rfl, rfl, rfl, rfl⟩

/-! ## Runs -/

/-- A view of the hart that every operation changes to what it says about it, if it says something, is at
the end of a run what was said last. -/
theorem view_run {β : Type} {view : Hart → β} {says? : Exchange → Option β}
    (hevent : ∀ (op : Operation) (answers : Answers) (h : Hart),
      view (op.event answers h).outcome.hart = (says? (op.event answers h).exchange).getD (view h))
    (platform : Platform) (s : Session) (ops : List Operation) :
    view (s.run platform ops).2.hart =
      (mostRecent? says? (s.exchanges platform ops)).getD (view s.hart) := by
  have hfold : (s.events platform ops).foldl (fun b e => (says? e.exchange).getD b) (view s.hart) =
      view (s.run platform ops).2.hart :=
    Session.foldl_events platform s ops fun op answers h => (hevent op answers h).symm
  rw [← hfold, ← foldl_getD, Session.exchanges, List.foldl_map]

/-! ## Returns -/

/-- A return from a trap asks the platform nothing, whether it succeeds or not. -/
theorem isQuestion_of_mem_trapReturn (hop : op.isTrapReturn = true) :
    ∀ call ∈ (op.perform.run answers h).calls, call.isQuestion = false := by
  cases hresult : (op.perform.run answers h).result with
  | error u =>
      obtain ⟨cause, -, ho⟩ := failed_trapReturn hop hresult
      rw [ho.calls_eq]
      simp
  | ok reply =>
      have heffect := effect_perform answers h op
      rw [hresult] at heffect
      generalize (op.perform.run answers h).hart = h', (op.perform.run answers h).calls = calls at heffect ⊢
      cases heffect with
      | quiet => simp
      | supervisorReturn | machineReturn => exact isQuestion_of_mem_returnCalls
      | written hwrite => exact isQuestion_of_mem_installCalls
      | _ => cases hop

/-- So it never moves the program counter. -/
theorem entered?_trapReturn (op : Operation) (answers : Answers) (h : Hart)
    (hop : op.isTrapReturn = true) : (op.event answers h).exchange.entered? = none := by
  have hsilent : mostRecent? answers.restored? (op.perform.run answers h).calls = none := by
    refine mostRecent?_eq_none ?_
    intro call hcall
    exact answers.restored?_eq_none (isQuestion_of_mem_trapReturn hop call hcall)
  cases op <;> first | exact hsilent | cases hop

/-! ## All runs -/

/-- At every point of every run from reset, the transient state is what the exchanges so far have last said
about it, or what it was at reset.  The program counter moves when an instruction is entered or restored,
which no return from a trap does. -/
theorem transient_of_history {c : Config} {h₀ : Hart} (hc : ofConfig c = .ok h₀) (platform : Platform)
    (ops : List Operation) :
    let history := (Session.start h₀).exchanges platform ops
    let h := ((Session.start h₀).run platform ops).2.hart
    h.pendingCause = (mostRecent? Exchange.recorded? history).getD none ∧
      h.badaddr = (mostRecent? Exchange.blamed? history).getD 0 ∧
      h.waiting = (mostRecent? Exchange.waits? history).getD false ∧
      h.pc = (mostRecent? Exchange.entered? history).getD 0 ∧
      ∀ e ∈ history, e.op.isTrapReturn = true → e.entered? = none := by
  obtain ⟨p, rfl⟩ := eq_atReset_of_ofConfig hc
  refine ⟨?_, ?_, ?_, ?_, ?_⟩
  · exact view_run (fun op answers h => (follows_event op answers h).pendingCause) platform _ ops
  · exact view_run (fun op answers h => (follows_event op answers h).badaddr) platform _ ops
  · exact view_run (fun op answers h => (follows_event op answers h).waiting) platform _ ops
  · exact view_run (fun op answers h => (follows_event op answers h).pc) platform _ ops
  · exact List.forall_mem_map.2 (Session.forall_mem_events platform _ ops entered?_trapReturn)

/-- An illegal instruction that the platform restores one instruction back, a breakpoint at an address that it
does not know, a failed walk and a register without a model, one after the other while the hart waits.  The
return at the end leaves all of it as it is. -/
theorem transient_of_history_restored :
    let answers : Answers :=
      { walk := fun _ _ _ _ => .failure .loadPageFault ⟨0x2008⟩
        restore := fun pc => if pc = 0x84 then some 0x80 else none }
    let ops : List Operation :=
      [.raiseWithBadaddr .loadAccessFault 0x1000, .takeCause, .waitForInterrupt, .setPc 0x84,
        .setCsr .mhpmcounter3 1 true, .raiseAt .breakpoint 0x90, .tlbMiss ⟨0x2000⟩ .read .user,
        .readCsr .dcsr, .returnFromMachineTrap]
    let h := ((Session.start (atReset {} .machine)).run (fun _ => answers) ops).2.hart
    ofConfig {} = .ok (atReset {} .machine) ∧ h.pendingCause = some .loadPageFault ∧
      h.badaddr = 0x2008 ∧ h.waiting = true ∧ h.pc = 0x80 := by
  intro answers ops h
  have hc : ofConfig {} = .ok (atReset {} .machine) := by rfl
  obtain ⟨hcause, hbadaddr, hwaiting, hpc, -⟩ := transient_of_history hc (fun _ => answers) ops
  refine ⟨hc, hcause.trans ?_, hbadaddr.trans ?_, hwaiting.trans ?_, hpc.trans ?_⟩
  · decide +kernel
  · decide +kernel
  · decide +kernel
  · decide +kernel

end Hart
end PrivilegedHart
