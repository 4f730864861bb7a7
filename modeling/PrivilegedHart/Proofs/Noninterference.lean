import PrivilegedHart.Proofs.Counter
import PrivilegedHart.Proofs.Effect

/-!
# What register accesses keep from less privileged code

Two harts that look the same to Supervisor mode, or to User mode, cannot be told apart there: every
sequence of register instructions returns the same values and errors on both.  Retired instructions and
interrupt lines may come in between, as long as they do on both harts.

The argument is a bisimulation.  `AccessBisimulation` collects what a relation between harts must satisfy,
register by register; from that, steps and runs follow once for all relations.

A device that moves interrupt lines is told all pending interrupts, the hidden ones included.  That answer
goes to the device and not to the code, so it is no observation.
-/

namespace PrivilegedHart

namespace Hart

open HartAction Word

/-! ## Observations -/

/-- Register instructions, and what may happen between them. -/
def Operation.isAccess : Operation → Bool
  | .readCsr .. | .writeCsr .. | .validateCsr .. | .swapCsr .. | .setCsr .. | .clearCsr ..
  | .executeCsr .. | .retire _ | .raiseLines _ | .lowerLines _ => true
  | _ => false

/-- What the code learns from a step. -/
def Operation.observed (op : Operation) (result : Except Unwind Reply) :
    Option (Except Unwind Reply) :=
  match op with
  | .raiseLines _ | .lowerLines _ => none
  | _ => some result

/-- What the code learns from a run, step by step. -/
def Session.observations (platform : Platform) (s : Session) (ops : List Operation) :
    List (Option (Except Unwind Reply)) :=
  List.zipWith Operation.observed ops (s.run platform ops).1

theorem Session.observations_cons (platform : Platform) (s : Session) (op : Operation)
    (ops : List Operation) :
    s.observations platform (op :: ops) =
      op.observed (s.step platform op).1 ::
        (s.step platform op).2.observations platform ops := rfl

/-! ## Bisimulations -/

/-- A relation between harts that register accesses cannot break.  Only registers of the current privilege
or below count. -/
structure AccessBisimulation (R : Hart → Hart → Prop) : Prop where
  privilege {h₁ h₂ : Hart} : R h₁ h₂ → h₁.privilege = h₂.privilege
  xlen {h₁ h₂ : Hart} : R h₁ h₂ → h₁.xlen = h₂.xlen
  /-- Both harts refuse the same reads. -/
  readFault {h₁ h₂ : Hart} {r : Register} :
    R h₁ h₂ → r.lowest ≤ h₁.privilege → h₁.readFault? r = h₂.readFault? r
  /-- What may be read is the same. -/
  view {h₁ h₂ : Hart} {r : Register} :
    R h₁ h₂ → r.lowest ≤ h₁.privilege → h₁.readFault? r = none → h₁.view r = h₂.view r
  /-- Writing the same value keeps the harts related. -/
  install {h₁ h₂ : Hart} {r : Register} (value : Word) :
    R h₁ h₂ → r.lowest ≤ h₁.privilege → R (h₁.afterInstall r value) (h₂.afterInstall r value)
  /-- The transient state does not count. -/
  transient {h₁ h₂ h₁' h₂' : Hart} :
    R h₁ h₂ → SameState h₁ h₁' → SameState h₂ h₂' → R h₁' h₂'
  retire {h₁ h₂ : Hart} (count : Word) : R h₁ h₂ → R (h₁.retire count) (h₂.retire count)
  raiseLines {h₁ h₂ : Hart} (bits : Word) : R h₁ h₂ → R (h₁.raiseLines bits) (h₂.raiseLines bits)
  lowerLines {h₁ h₂ : Hart} (bits : Word) : R h₁ h₂ → R (h₁.lowerLines bits) (h₂.lowerLines bits)

variable {α β : Type} {answers₁ answers₂ : Answers} {h₁ h₂ : Hart} {n : CsrNumber}

/-! ## Equal decisions -/

theorem writeFault?_congr (hxlen : h₁.xlen = h₂.xlen) (r : Register) :
    h₁.writeFault? r = h₂.writeFault? r := by
  cases r <;> simp only [writeFault?, requireRv32, hxlen]

theorem denies_congr (hprivilege : h₁.privilege = h₂.privilege) (isWrite : Bool) :
    h₁.denies n isWrite = h₂.denies n isWrite := by
  unfold denies
  rw [hprivilege]

namespace AccessBisimulation

variable {R : Hart → Hart → Prop} (bisim : AccessBisimulation R) (hR : R h₁ h₂)

include bisim hR

theorem readDecision_eq : h₁.readDecision n = h₂.readDecision n := by
  have hdenies := denies_congr (n := n) (bisim.privilege hR) false
  cases hallowed : h₁.denies n false with
  | true =>
      rw [hallowed] at hdenies
      rw [readDecision, readDecision, if_pos hallowed, if_pos hdenies.symm]
  | false =>
      rw [readDecision_eq_contents hallowed, readDecision_eq_contents (hdenies ▸ hallowed)]
      cases hrow : CsrRow.find? n with
      | none => rw [contents, contents, hrow]
      | some row =>
          -- the privilege is high enough, so the register is one that the relation speaks of
          have hlowest := lowest_le_of_denies hrow hallowed
          have hfault := bisim.readFault hR hlowest
          rw [contents_of_find? hrow, contents_of_find? hrow, ← hfault]
          cases hread : h₁.readFault? row.register with
          | some fault => rfl
          | none =>
              have hview := bisim.view hR hlowest hread
              simp only [hview, bisim.xlen hR]

theorem writeDecision_eq : h₁.writeDecision n = h₂.writeDecision n := by
  have hdenies := denies_congr (n := n) (bisim.privilege hR) true
  unfold writeDecision target
  rw [hdenies]
  cases CsrRow.find? n with
  | none => rfl
  | some row =>
      have hfault := writeFault?_congr (bisim.xlen hR) row.register
      simp only [hfault]

end AccessBisimulation

/-! ## Related outcomes -/

/-- Two outcomes return the same and leave related harts behind. -/
structure Outcome.Alike (R : Hart → Hart → Prop) (o₁ o₂ : Outcome α) : Prop where
  result : o₁.result = o₂.result
  hart : R o₁.hart o₂.hart

section Alike

variable {R : Hart → Hart → Prop} {o₁ o₂ : Outcome α}

theorem alike_of_comesTo {result : Except Unwind α} {h₁' h₂' : Hart}
    {calls₁ calls₂ : List PlatformCall} (ho₁ : o₁.ComesTo result h₁' calls₁)
    (ho₂ : o₂.ComesTo result h₂' calls₂) (hR : R h₁' h₂') : Outcome.Alike R o₁ o₂ := by
  refine ⟨ho₁.result_eq.trans ho₂.result_eq.symm, ?_⟩
  rw [ho₁.hart_eq, ho₂.hart_eq]
  exact hR

theorem Outcome.Alike.bind_pure {x : HartAction α}
    (halike : Outcome.Alike R (x.run answers₁ h₁) (x.run answers₂ h₂)) (g : α → β) :
    Outcome.Alike R ((x >>= fun a => pure (g a)).run answers₁ h₁)
      ((x >>= fun a => pure (g a)).run answers₂ h₂) := by
  obtain ⟨hresult, hhart⟩ := halike
  -- either both go on or both leave early
  cases hfirst : (x.run answers₁ h₁).result with
  | error u =>
      have hsecond : (x.run answers₂ h₂).result = .error u := hresult ▸ hfirst
      exact alike_of_comesTo (comesTo_bind_error _ ⟨hfirst, rfl, rfl⟩)
        (comesTo_bind_error _ ⟨hsecond, rfl, rfl⟩) hhart
  | ok a =>
      have hsecond : (x.run answers₂ h₂).result = .ok a := hresult ▸ hfirst
      exact alike_of_comesTo (comesTo_bind_pure g ⟨hfirst, rfl, rfl⟩)
        (comesTo_bind_pure g ⟨hsecond, rfl, rfl⟩) hhart

end Alike

namespace AccessBisimulation

variable {R : Hart → Hart → Prop} (bisim : AccessBisimulation R) (hR : R h₁ h₂)

include bisim hR

theorem alike_of_refuses {half : AccessHalf} {fault : RegisterFault} {o₁ o₂ : Outcome α}
    (ho₁ : Refuses answers₁ h₁ n half fault o₁) (ho₂ : Refuses answers₂ h₂ n half fault o₂) :
    Outcome.Alike R o₁ o₂ :=
  alike_of_comesTo ho₁ ho₂
    (bisim.transient hR (sameState_afterRefusal ..) (sameState_afterRefusal ..))

theorem install_truncated {r : Register} (value : Word) (hwrite : h₁.writeDecision n = .ok r) :
    R (h₁.afterInstall r (h₁.xlen.truncate value)) (h₂.afterInstall r (h₂.xlen.truncate value)) := by
  rw [← bisim.xlen hR]
  exact bisim.install _ hR (of_writeDecision hwrite).1

theorem alike_readCsr :
    Outcome.Alike R ((readCsr n).run answers₁ h₁) ((readCsr n).run answers₂ h₂) := by
  have hreads := bisim.readDecision_eq hR (n := n)
  cases hread : h₁.readDecision n with
  | error fault =>
      exact bisim.alike_of_refuses hR (refuses_readCsr hread) (refuses_readCsr (hreads ▸ hread))
  | ok value =>
      exact alike_of_comesTo (comesTo_readCsr hread) (comesTo_readCsr (hreads ▸ hread)) hR

theorem alike_writeCsr (value : Word) :
    Outcome.Alike R ((writeCsr n value).run answers₁ h₁) ((writeCsr n value).run answers₂ h₂) := by
  have hwrites := bisim.writeDecision_eq hR (n := n)
  cases hwrite : h₁.writeDecision n with
  | error fault =>
      exact bisim.alike_of_refuses hR (refuses_writeCsr hwrite value)
        (refuses_writeCsr (hwrites ▸ hwrite) value)
  | ok r =>
      exact alike_of_comesTo (comesTo_writeCsr hwrite value)
        (comesTo_writeCsr (hwrites ▸ hwrite) value) (bisim.install_truncated hR value hwrite)

theorem alike_validateCsr (isWrite : Bool) :
    Outcome.Alike R ((validateCsr n isWrite).run answers₁ h₁)
      ((validateCsr n isWrite).run answers₂ h₂) := by
  have hdenies := denies_congr (n := n) (bisim.privilege hR) isWrite
  cases hallowed : h₁.denies n isWrite with
  | true =>
      exact bisim.alike_of_refuses hR (refuses_validateCsr .read hallowed)
        (refuses_validateCsr .read (hdenies ▸ hallowed))
  | false =>
      exact alike_of_comesTo (comesTo_validateCsr hallowed)
        (comesTo_validateCsr (hdenies ▸ hallowed)) hR

theorem alike_modifyCsr (isWrite : Bool) (f : Word → Word) :
    Outcome.Alike R ((modifyCsr n isWrite f).run answers₁ h₁)
      ((modifyCsr n isWrite f).run answers₂ h₂) := by
  have hreads := bisim.readDecision_eq hR (n := n)
  have hwrites := bisim.writeDecision_eq hR (n := n)
  cases hread : h₁.readDecision n with
  | error fault =>
      exact bisim.alike_of_refuses hR (refuses_modifyCsr_read hread)
        (refuses_modifyCsr_read (hreads ▸ hread))
  | ok old =>
      have hread' : h₂.readDecision n = .ok old := hreads ▸ hread
      cases isWrite with
      | false =>
          exact alike_of_comesTo (comesTo_modifyCsr_read hread) (comesTo_modifyCsr_read hread') hR
      | true =>
          cases hwrite : h₁.writeDecision n with
          | error fault =>
              exact bisim.alike_of_refuses hR (refuses_modifyCsr_write hread hwrite)
                (refuses_modifyCsr_write hread' (hwrites ▸ hwrite))
          | ok r =>
              exact alike_of_comesTo (comesTo_modifyCsr_write hread hwrite)
                (comesTo_modifyCsr_write hread' (hwrites ▸ hwrite))
                (bisim.install_truncated hR (f old) hwrite)

/-! ## Steps and runs -/

variable (answers₁ answers₂) in
/-- One step shows the same on both harts and leaves them related. -/
theorem perform {op : Operation} (hop : op.isAccess = true) :
    op.observed (op.perform.run answers₁ h₁).result =
        op.observed (op.perform.run answers₂ h₂).result ∧
      R (op.perform.run answers₁ h₁).hart (op.perform.run answers₂ h₂).hart := by
  -- an instruction shows its whole result
  have hinstruction :
      Outcome.Alike R (op.perform.run answers₁ h₁) (op.perform.run answers₂ h₂) →
        op.observed (op.perform.run answers₁ h₁).result =
            op.observed (op.perform.run answers₂ h₂).result ∧
          R (op.perform.run answers₁ h₁).hart (op.perform.run answers₂ h₂).hart :=
    fun halike => ⟨congrArg _ halike.result, halike.hart⟩
  have hmodification : ∀ {n : CsrNumber} {isWrite : Bool} {f : Word → Word},
      op.modification? = some (n, isWrite, f) →
        Outcome.Alike R (op.perform.run answers₁ h₁) (op.perform.run answers₂ h₂) := by
    intro n isWrite f hmodification
    rw [Operation.perform_of_modification? hmodification]
    exact (bisim.alike_modifyCsr hR isWrite f).bind_pure Reply.word
  cases op with
  | readCsr n => exact hinstruction ((bisim.alike_readCsr hR).bind_pure Reply.word)
  | writeCsr n value =>
      exact hinstruction ((bisim.alike_writeCsr hR value).bind_pure fun _ => Reply.done)
  | validateCsr n isWrite =>
      exact hinstruction ((bisim.alike_validateCsr hR isWrite).bind_pure fun _ => Reply.done)
  | swapCsr n operand => exact hinstruction (hmodification rfl)
  | setCsr n operand hasOperand => exact hinstruction (hmodification rfl)
  | clearCsr n operand hasOperand => exact hinstruction (hmodification rfl)
  | executeCsr i n operand hasOperand =>
      cases i <;> exact hinstruction (hmodification rfl)
  | retire count => exact ⟨rfl, bisim.retire count hR⟩
  | raiseLines bits => exact ⟨rfl, bisim.raiseLines bits hR⟩
  | lowerLines bits => exact ⟨rfl, bisim.lowerLines bits hR⟩
  | _ => cases hop

omit hR

/-- Two runs from related harts show the same, whatever their platforms answer. -/
theorem run {platform₁ platform₂ : Platform} {s₁ s₂ : Session} {ops : List Operation}
    (hops : ∀ op ∈ ops, op.isAccess = true) (hR : R s₁.hart s₂.hart) :
    s₁.observations platform₁ ops = s₂.observations platform₂ ops ∧
      R (s₁.run platform₁ ops).2.hart (s₂.run platform₂ ops).2.hart := by
  induction ops generalizing s₁ s₂ with
  | nil => exact ⟨rfl, hR⟩
  -- the platforms have seen different calls by now, but no answer matters
  | cons op ops ih =>
      have hstep := bisim.perform (platform₁ s₁.calls) (platform₂ s₂.calls) hR
        (hops op List.mem_cons_self)
      have hrest :
          (s₁.step platform₁ op).2.observations platform₁ ops =
              (s₂.step platform₂ op).2.observations platform₂ ops ∧
            R ((s₁.step platform₁ op).2.run platform₁ ops).2.hart
              ((s₂.step platform₂ op).2.run platform₂ ops).2.hart :=
        ih (fun op' hop' => hops op' (List.mem_cons_of_mem _ hop')) hstep.2
      refine ⟨?_, hrest.2⟩
      rw [Session.observations_cons, Session.observations_cons, hrest.1]
      exact congrArg (· :: _) hstep.1

end AccessBisimulation

/-! ## What User mode sees -/

/-- Two sets of counters show the same through their enables. -/
structure SameCounters (enables₁ enables₂ : Word) (c₁ c₂ : Counters) : Prop where
  cycleEnable : enables₁.getLsbD 0 = enables₂.getLsbD 0
  instretEnable : enables₁.getLsbD 2 = enables₂.getLsbD 2
  mcycle : enables₁.getLsbD 0 = true → c₁.mcycle = c₂.mcycle
  minstret : enables₁.getLsbD 2 = true → c₁.minstret = c₂.minstret

/-- Two harts show the same in the registers that every privilege may touch. -/
structure SameUnprivileged (h₁ h₂ : Hart) : Prop where
  privilege : h₁.privilege = h₂.privilege
  xlen : h₁.xlen = h₂.xlen
  fflags : h₁.csrs.fflags = h₂.csrs.fflags
  frm : h₁.csrs.frm = h₂.csrs.frm
  counters : SameCounters h₁.enabledCounters h₂.enabledCounters h₁.counters h₂.counters

/-- Two harts look the same to code in User mode. -/
structure SameToUser (h₁ h₂ : Hart) : Prop where
  user₁ : h₁.privilege = .user
  user₂ : h₂.privilege = .user
  xlen : h₁.xlen = h₂.xlen
  fflags : h₁.csrs.fflags = h₂.csrs.fflags
  frm : h₁.csrs.frm = h₂.csrs.frm
  counters : SameCounters h₁.csrs.mucounteren h₂.csrs.mucounteren h₁.counters h₂.counters

/-- Two harts look the same to code in Supervisor mode. -/
structure SameToSupervisor (h₁ h₂ : Hart) : Prop where
  supervisor₁ : h₁.privilege = .supervisor
  supervisor₂ : h₂.privilege = .supervisor
  xlen : h₁.xlen = h₂.xlen
  physAddrBits : h₁.physAddrBits = h₂.physAddrBits
  status : AgreeOn Status.supervisorView h₁.csrs.mstatus h₂.csrs.mstatus
  mideleg : h₁.csrs.mideleg = h₂.csrs.mideleg
  mie : AgreeOn h₁.csrs.mideleg h₁.csrs.mie h₂.csrs.mie
  mip : AgreeOn h₁.csrs.mideleg h₁.mip h₂.mip
  stvec : h₁.csrs.stvec = h₂.csrs.stvec
  sscratch : h₁.csrs.sscratch = h₂.csrs.sscratch
  sepc : h₁.csrs.sepc = h₂.csrs.sepc
  scause : h₁.csrs.scause = h₂.csrs.scause
  sbadaddr : h₁.csrs.sbadaddr = h₂.csrs.sbadaddr
  sptbr : h₁.csrs.sptbr = h₂.csrs.sptbr
  fflags : h₁.csrs.fflags = h₂.csrs.fflags
  frm : h₁.csrs.frm = h₂.csrs.frm
  counters : SameCounters h₁.csrs.mscounteren h₂.csrs.mscounteren h₁.counters h₂.counters

theorem SameCounters.retire {enables₁ enables₂ : Word} {c₁ c₂ : Counters}
    (same : SameCounters enables₁ enables₂ c₁ c₂) (count : Word) :
    SameCounters enables₁ enables₂ (c₁.retire count) (c₂.retire count) where
  cycleEnable := same.cycleEnable
  instretEnable := same.instretEnable
  mcycle henabled := by rw [Counters.mcycle_retire, Counters.mcycle_retire, same.mcycle henabled]
  minstret henabled := by rw [Counters.minstret_retire, Counters.minstret_retire, same.minstret henabled]

theorem enabled_of_requireCounter {h : Hart} {bit : Nat} (hread : h.requireCounter bit = none) :
    h.enabledCounters.getLsbD bit = true := by
  unfold requireCounter at hread
  split at hread
  · assumption
  · cases hread

theorem requireCounter_of_orElse {fault? counter? : Option RegisterFault}
    (hread : (fault? <|> counter?) = none) : counter? = none := by
  cases fault? with
  | none => exact hread
  | some fault => cases hread

namespace SameUnprivileged

variable (same : SameUnprivileged h₁ h₂)

include same

theorem readFault (r : Register) : h₁.readFault? r = h₂.readFault? r := by
  have hcycle : h₁.requireCounter 0 = h₂.requireCounter 0 := by
    rw [requireCounter, requireCounter, same.counters.cycleEnable]
  have hinstret : h₁.requireCounter 2 = h₂.requireCounter 2 := by
    rw [requireCounter, requireCounter, same.counters.instretEnable]
  cases r <;> simp only [readFault?, requireRv32, same.xlen, hcycle, hinstret]

theorem view {r : Register} (hlowest : r.lowest = .user) (hread : h₁.readFault? r = none) :
    h₁.view r = h₂.view r := by
  cases r with
  | fflags => exact same.fflags
  | frm => exact same.frm
  | fcsr =>
      change FloatControl.pack _ _ = FloatControl.pack _ _
      rw [same.fflags, same.frm]
  | cycle => exact same.counters.mcycle (enabled_of_requireCounter hread)
  | instret => exact same.counters.minstret (enabled_of_requireCounter hread)
  | cycleh =>
      have henabled := enabled_of_requireCounter (requireCounter_of_orElse hread)
      change h₁.counters.mcycle >>> halfShift = h₂.counters.mcycle >>> halfShift
      rw [same.counters.mcycle henabled]
  | instreth =>
      have henabled := enabled_of_requireCounter (requireCounter_of_orElse hread)
      change h₁.counters.minstret >>> halfShift = h₂.counters.minstret >>> halfShift
      rw [same.counters.minstret henabled]
  | hpmcounter | hpmcounterh => rfl
  | _ => cases hlowest

end SameUnprivileged

theorem SameToUser.unprivileged (same : SameToUser h₁ h₂) : SameUnprivileged h₁ h₂ := by
  refine ⟨same.user₁.trans same.user₂.symm, same.xlen, same.fflags, same.frm, ?_⟩
  have henabled : ∀ {h : Hart}, h.privilege = .user → h.enabledCounters = h.csrs.mucounteren := by
    intro h huser
    rw [enabledCounters, huser]
  rw [henabled same.user₁, henabled same.user₂]
  exact same.counters

/-- A floating-point register accepts a value; that it makes the state dirty is hidden. -/
theorem SameToUser.float (same : SameToUser h₁ h₂) {flags₁ flags₂ rounding₁ rounding₂ : Word}
    (hflags : flags₁ = flags₂) (hrounding : rounding₁ = rounding₂) :
    SameToUser { h₁.markFloatDirty with csrs.fflags := flags₁, csrs.frm := rounding₁ }
      { h₂.markFloatDirty with csrs.fflags := flags₂, csrs.frm := rounding₂ } :=
  { same with fflags := hflags, frm := hrounding }

/-- Nothing that User mode does lets it tell apart harts that look the same to it. -/
theorem bisimulation_user : AccessBisimulation SameToUser where
  privilege same := same.unprivileged.privilege
  xlen same := same.xlen
  readFault same _ := same.unprivileged.readFault _
  view same hr hread := same.unprivileged.view (Privilege.eq_user_of_le (same.user₁ ▸ hr)) hread
  install {h₁ h₂ r} value same hr := by
    have hlowest : r.lowest = .user := Privilege.eq_user_of_le (same.user₁ ▸ hr)
    cases r with
    | fflags => exact same.float rfl same.frm
    | frm => exact same.float same.fflags rfl
    | fcsr => exact same.float rfl rfl
    | cycle | instret | hpmcounter | cycleh | instreth | hpmcounterh => exact same
    | _ => cases hlowest
  transient same s₁ s₂ := by
    obtain ⟨pc, cause, badaddr, waiting, rfl⟩ := s₁.exists_eq
    obtain ⟨pc', cause', badaddr', waiting', rfl⟩ := s₂.exists_eq
    exact { same with }
  retire count same := { same with counters := same.counters.retire count }
  raiseLines bits same := { same with }
  lowerLines bits same := { same with }

/-! ## What Supervisor mode sees -/

namespace SameToSupervisor

variable (same : SameToSupervisor h₁ h₂)

include same

theorem unprivileged : SameUnprivileged h₁ h₂ := by
  refine ⟨same.supervisor₁.trans same.supervisor₂.symm, same.xlen, same.fflags, same.frm, ?_⟩
  have henabled : ∀ {h : Hart}, h.privilege = .supervisor →
      h.enabledCounters = h.csrs.mscounteren := by
    intro h hsupervisor
    rw [enabledCounters, hsupervisor]
  rw [henabled same.supervisor₁, henabled same.supervisor₂]
  exact same.counters

theorem view_sstatus : h₁.view .sstatus = h₂.view .sstatus := by
  have hvisible : h₁.csrs.mstatus &&& Status.supervisorView =
      h₂.csrs.mstatus &&& Status.supervisorView := same.status
  simp only [Hart.view, supervisorStatus, same.xlen, hvisible]

theorem view {r : Register} (hr : r.lowest ≤ .supervisor) (hread : h₁.readFault? r = none) :
    h₁.view r = h₂.view r := by
  have hmideleg := same.mideleg
  cases r with
  | sstatus => exact same.view_sstatus
  | sie =>
      change h₁.csrs.mie &&& h₁.csrs.mideleg = h₂.csrs.mie &&& h₂.csrs.mideleg
      rw [← hmideleg]
      exact same.mie
  | sip =>
      change h₁.mip &&& h₁.csrs.mideleg = h₂.mip &&& h₂.csrs.mideleg
      rw [← hmideleg]
      exact same.mip
  | stvec => exact same.stvec
  | sscratch => exact same.sscratch
  | sepc => exact same.sepc
  | scause => exact same.scause
  | sbadaddr => exact same.sbadaddr
  | sptbr => exact same.sptbr
  -- a counter may differ if it is not enabled, but then it cannot be read
  | fflags | frm | fcsr | cycle | instret | hpmcounter | cycleh | instreth | hpmcounterh =>
      exact same.unprivileged.view rfl hread
  | _ => exact absurd hr (by decide)

/-! ### Writes -/

/-- A floating-point register accepts a value.  The dirty state is visible, and it is the same. -/
theorem float {flags₁ flags₂ rounding₁ rounding₂ : Word} (hflags : flags₁ = flags₂)
    (hrounding : rounding₁ = rounding₂) :
    SameToSupervisor { h₁.markFloatDirty with csrs.fflags := flags₁, csrs.frm := rounding₁ }
      { h₂.markFloatDirty with csrs.fflags := flags₂, csrs.frm := rounding₂ } := by
  have hstatus : AgreeOn Status.supervisorView h₁.markFloatDirty.csrs.mstatus
      h₂.markFloatDirty.csrs.mstatus := by
    rw [markFloatDirty_mstatus, markFloatDirty_mstatus, ← same.xlen]
    exact Status.markFloat_congr _ _ same.status (by cases h₁.xlen <;> decide)
  exact { same with status := hstatus, fflags := hflags, frm := hrounding }

/-- The status accepts a value.  The scheme and the summary are hidden, so it does not matter what happens
to them. -/
theorem sstatus (value : Word) :
    SameToSupervisor (h₁.afterInstall .sstatus value) (h₂.afterInstall .sstatus value) := by
  have hvalue : AgreeOn Status.supervisorView
      (BitField.merge h₁.csrs.mstatus value Status.supervisorView)
      (BitField.merge h₂.csrs.mstatus value Status.supervisorView) :=
    same.status.merge (.refl ..) (.refl ..)
  have hstatus : AgreeOn Status.supervisorView
      (Status.commit h₁.xlen h₁.csrs.mstatus
        (BitField.merge h₁.csrs.mstatus value Status.supervisorView))
      (Status.commit h₂.xlen h₂.csrs.mstatus
        (BitField.merge h₂.csrs.mstatus value Status.supervisorView)) := by
    rw [← same.xlen]
    exact Status.commit_congr _ _ _ same.status hvalue (by decide) (by cases h₁.xlen <;> decide)
  exact { same with status := hstatus }

theorem sie (value : Word) :
    SameToSupervisor (h₁.afterInstall .sie value) (h₂.afterInstall .sie value) := by
  have hvalue : AgreeOn h₁.csrs.mideleg (BitField.merge h₁.csrs.mie value h₁.csrs.mideleg)
      (BitField.merge h₂.csrs.mie value h₂.csrs.mideleg) := by
    rw [← same.mideleg]
    exact same.mie.merge (.refl ..) (.refl ..)
  exact { same with mie := same.mie.merge hvalue (.refl ..) }

theorem sip (value : Word) :
    SameToSupervisor (h₁.afterInstall .sip value) (h₂.afterInstall .sip value) := by
  have hmip : AgreeOn h₁.csrs.mideleg
      (Pending.update (h₁.csrs.mideleg &&& Interrupt.softwarePending) value h₁.mip)
      (Pending.update (h₂.csrs.mideleg &&& Interrupt.softwarePending) value h₂.mip) := by
    rw [← same.mideleg]
    exact same.mip.merge (.refl ..) (.refl ..)
  exact { same with mip := hmip }

theorem install {r : Register} (value : Word) (hr : r.lowest ≤ .supervisor) :
    SameToSupervisor (h₁.afterInstall r value) (h₂.afterInstall r value) := by
  cases r with
  | fflags => exact same.float rfl same.frm
  | frm => exact same.float same.fflags rfl
  | fcsr => exact same.float rfl rfl
  | sstatus => exact same.sstatus value
  | sie => exact same.sie value
  | sip => exact same.sip value
  | stvec => exact { same with stvec := rfl }
  | sscratch => exact { same with sscratch := rfl }
  | sepc => exact { same with sepc := rfl }
  | scause => exact { same with scause := rfl }
  | sbadaddr => exact { same with sbadaddr := rfl }
  | sptbr =>
      have hmask : h₁.rootMask = h₂.rootMask := by rw [rootMask, rootMask, same.physAddrBits]
      exact { same with sptbr := congrArg (value &&& ·) hmask }
  | cycle | instret | hpmcounter | cycleh | instreth | hpmcounterh => exact same
  | _ => exact absurd hr (by decide)

end SameToSupervisor

/-- Nothing that Supervisor mode does lets it tell apart harts that look the same to it. -/
theorem bisimulation_supervisor : AccessBisimulation SameToSupervisor where
  privilege same := same.unprivileged.privilege
  xlen same := same.xlen
  readFault same _ := same.unprivileged.readFault _
  view same hr hread := same.view (same.supervisor₁ ▸ hr) hread
  install value same hr := same.install value (same.supervisor₁ ▸ hr)
  transient same s₁ s₂ := by
    obtain ⟨pc, cause, badaddr, waiting, rfl⟩ := s₁.exists_eq
    obtain ⟨pc', cause', badaddr', waiting', rfl⟩ := s₂.exists_eq
    exact { same with }
  retire count same := { same with counters := same.counters.retire count }
  raiseLines bits same := { same with mip := same.mip.or bits }
  lowerLines bits same := { same with mip := same.mip.and (~~~bits) }

/-- Machine state does not interfere with what Supervisor mode and User mode read: harts that look the same
show the same at every step, whatever is hidden and whatever the platforms answer. -/
theorem noninterference (platform₁ platform₂ : Platform) (s₁ s₂ : Session) {ops : List Operation}
    (hops : ∀ op ∈ ops, op.isAccess = true) :
    (SameToSupervisor s₁.hart s₂.hart →
      s₁.observations platform₁ ops = s₂.observations platform₂ ops ∧
        SameToSupervisor (s₁.run platform₁ ops).2.hart (s₂.run platform₂ ops).2.hart) ∧
    (SameToUser s₁.hart s₂.hart →
      s₁.observations platform₁ ops = s₂.observations platform₂ ops ∧
        SameToUser (s₁.run platform₁ ops).2.hart (s₂.run platform₂ ops).2.hart) :=
  ⟨bisimulation_supervisor.run hops, bisimulation_user.run hops⟩

/-- A hart with other secrets. -/
def withSecrets (h : Hart) : Hart :=
  { h with
    maxIsa := 0
    hartId := 7
    csrs.mscratch := 0xDEADBEEF
    csrs.mstatus := h.csrs.mstatus ||| Status.mie
    mip := h.mip ||| Interrupt.bit .machineTimer }

theorem sameToSupervisor_withSecrets :
    SameToSupervisor (atReset {} .supervisor) (withSecrets (atReset {} .supervisor)) :=
  ⟨rfl, rfl, rfl, rfl, by decide, rfl, rfl, by decide, rfl, rfl, rfl, rfl, rfl, rfl, rfl, rfl,
    ⟨rfl, rfl, fun _ => rfl, fun _ => rfl⟩⟩

theorem sameToUser_withSecrets :
    SameToUser (atReset {} .user) (withSecrets (atReset {} .user)) :=
  ⟨rfl, rfl, rfl, rfl, rfl, ⟨rfl, rfl, fun _ => rfl, fun _ => rfl⟩⟩

/-- Reading the status, a secret and a counter tells nothing about the secrets. -/
theorem noninterference_secrets :
    (Session.start (atReset {} .supervisor)).observations (fun _ => .identity)
        [.readCsr CsrNumber.sstatus, .retire 3, .readCsr CsrNumber.mscratch] =
      (Session.start (withSecrets (atReset {} .supervisor))).observations (fun _ => .identity)
        [.readCsr CsrNumber.sstatus, .retire 3, .readCsr CsrNumber.mscratch] ∧
    (Session.start (atReset {} .user)).observations (fun _ => .identity)
        [.writeCsr CsrNumber.frm 2, .raiseLines 4, .readCsr CsrNumber.cycle] =
      (Session.start (withSecrets (atReset {} .user))).observations (fun _ => .identity)
        [.writeCsr CsrNumber.frm 2, .raiseLines 4, .readCsr CsrNumber.cycle] := by
  constructor
  · exact ((noninterference (fun _ => .identity) (fun _ => .identity)
      (Session.start (atReset {} .supervisor))
      (Session.start (withSecrets (atReset {} .supervisor))) (by decide)).1
        sameToSupervisor_withSecrets).1
  · exact ((noninterference (fun _ => .identity) (fun _ => .identity)
      (Session.start (atReset {} .user)) (Session.start (withSecrets (atReset {} .user)))
      (by decide)).2 sameToUser_withSecrets).1

end Hart
end PrivilegedHart
