import PrivilegedHart.Proofs.Effect

/-!
# Confinement of less privileged code

Code below Machine mode reaches registers of Machine mode through `sstatus`, `sie`, `sip` and the
floating-point registers only, and through returns from Supervisor traps.  `Confined` says what that
leaves alone.  One operation of such code is confined because an accepted write goes to a register of its
own privilege or below, and a run is confined because confinement composes.

Switching the privilege and asserting interrupt lines are not up to the code, and are left out here.
-/

namespace PrivilegedHart

namespace Status

/-- The fields that Supervisor mode may change. -/
def supervisorOwned (x : Xlen) : Word := sie ||| spie ||| spp ||| fs ||| pum ||| sd x

/-- The fields that User mode may change. -/
def userOwned (x : Xlen) : Word := fs ||| sd x

end Status

namespace Hart

open Word

/-- What code asks a hart for.  The surrounding loop switches privileges when it takes a trap, and devices
move interrupt lines. -/
def Operation.isGuest : Operation → Bool
  | .setPrivilege _ | .raiseLines _ | .lowerLines _ => false
  | _ => true

/-- What only Machine mode may write. -/
structure MachineRegisters where
  misa : Word
  medeleg : Word
  mideleg : Word
  mtvec : Word
  mscratch : Word
  mepc : Word
  mcause : Word
  mbadaddr : Word
  mucounteren : Word
  mscounteren : Word
  cycle : VirtualCounter
  instret : VirtualCounter

/-- What User mode may not write, apart from the status. -/
structure SupervisorRegisters where
  stvec : Word
  sscratch : Word
  sepc : Word
  scause : Word
  sbadaddr : Word
  sptbr : Word
  mie : Word
  mip : Word

/-- The part of a hart that belongs to Machine mode. -/
def machineRegisters (h : Hart) : MachineRegisters where
  misa := h.csrs.misa
  medeleg := h.csrs.medeleg
  mideleg := h.csrs.mideleg
  mtvec := h.csrs.mtvec
  mscratch := h.csrs.mscratch
  mepc := h.csrs.mepc
  mcause := h.csrs.mcause
  mbadaddr := h.csrs.mbadaddr
  mucounteren := h.csrs.mucounteren
  mscounteren := h.csrs.mscounteren
  cycle := h.counters.cycle
  instret := h.counters.instret

/-- The part of a hart that is beyond User mode. -/
def supervisorRegisters (h : Hart) : SupervisorRegisters where
  stvec := h.csrs.stvec
  sscratch := h.csrs.sscratch
  sepc := h.csrs.sepc
  scause := h.csrs.scause
  sbadaddr := h.csrs.sbadaddr
  sptbr := h.csrs.sptbr
  mie := h.csrs.mie
  mip := h.mip

/-- The hart `h'` can come from `h` by code below Machine mode. -/
structure Confined (h h' : Hart) : Prop where
  xlen : h'.xlen = h.xlen
  /-- The privilege has not risen. -/
  privilege : h'.privilege ≤ h.privilege
  machine : h'.machineRegisters = h.machineRegisters
  status : AgreeOn (~~~Status.supervisorOwned h.xlen) h'.csrs.mstatus h.csrs.mstatus
  mie : AgreeOn (~~~h.csrs.mideleg) h'.csrs.mie h.csrs.mie
  mip : AgreeOn (~~~(h.csrs.mideleg &&& Interrupt.softwarePending)) h'.mip h.mip
  /-- From User mode even less was in reach. -/
  supervisor : h.privilege = .user → h'.supervisorRegisters = h.supervisorRegisters ∧
    AgreeOn (~~~Status.userOwned h.xlen) h'.csrs.mstatus h.csrs.mstatus

variable {answers : Answers} {h h' h'' : Hart}

/-! ## Confinement composes -/

theorem Confined.refl (h : Hart) : Confined h h where
  xlen := rfl
  privilege := Nat.le_refl _
  machine := rfl
  status := .refl ..
  mie := .refl ..
  mip := .refl ..
  supervisor _ := ⟨rfl, .refl ..⟩

theorem Confined.trans (c : Confined h h') (c' : Confined h' h'') : Confined h h'' := by
  have hmideleg : h'.csrs.mideleg = h.csrs.mideleg :=
    congrArg MachineRegisters.mideleg c.machine
  have hstatus := c'.status
  have hmie := c'.mie
  have hmip := c'.mip
  rw [c.xlen] at hstatus
  rw [hmideleg] at hmie hmip
  refine ⟨c'.xlen.trans c.xlen, Nat.le_trans c'.privilege c.privilege,
    c'.machine.trans c.machine, hstatus.trans c.status, hmie.trans c.mie, hmip.trans c.mip, ?_⟩
  intro huser
  obtain ⟨hregisters, huserStatus⟩ := c.supervisor huser
  obtain ⟨hregisters', huserStatus'⟩ := c'.supervisor (Privilege.eq_user_of_le (huser ▸ c.privilege))
  rw [c.xlen] at huserStatus'
  exact ⟨hregisters'.trans hregisters, huserStatus'.trans huserStatus⟩

/-! ## Writes -/

theorem SameState.confined (s : SameState h h') : Confined h h' := by
  obtain ⟨pc, cause, badaddr, waiting, rfl⟩ := s.exists_eq
  exact ⟨rfl, Nat.le_refl _, rfl, .refl .., .refl .., .refl .., fun _ => ⟨rfl, .refl ..⟩⟩

/-- A floating-point register marks the state as dirty, which every privilege may do. -/
theorem confined_float (h : Hart) (flags rounding : Word) :
    Confined h { h.markFloatDirty with csrs.fflags := flags, csrs.frm := rounding } := by
  have hstatus : AgreeOn (~~~Status.userOwned h.xlen) (Status.markFloat h.xlen h.csrs.mstatus)
      h.csrs.mstatus := Status.markFloat_keeps ..
  exact
    { xlen := rfl
      privilege := Nat.le_refl _
      machine := rfl
      status := hstatus.mono (by cases h.xlen <;> decide)
      mie := .refl ..
      mip := .refl ..
      supervisor := fun _ => ⟨rfl, hstatus⟩ }

/-- Committing a value that differs in fields of Supervisor mode only, at that privilege or a lower one. -/
theorem confined_committed {p : Privilege} {value : Word} (hp : p ≤ h.privilege)
    (hsupervisor : h.privilege ≠ .user)
    (hvalue : AgreeOn (~~~Status.supervisorOwned h.xlen &&& (Status.writable ||| Status.vm)) value
      h.csrs.mstatus) : Confined h ({ h with privilege := p }.committed value) where
  xlen := rfl
  privilege := hp
  machine := rfl
  status := Status.commit_keeps _ _ _ hvalue (by cases h.xlen <;> decide)
  mie := .refl ..
  mip := .refl ..
  supervisor huser := absurd huser hsupervisor

theorem confined_sie (value : Word) (hsupervisor : h.privilege ≠ .user) :
    Confined h (h.store .sie value) where
  xlen := rfl
  privilege := Nat.le_refl _
  machine := rfl
  status := .refl ..
  mie := by
    -- the enables that exist are a mask of their own, so only agreement under it is asked for
    have hvalue : AgreeOn (~~~h.csrs.mideleg &&& Interrupt.enableable)
        (BitField.merge h.csrs.mie value h.csrs.mideleg) h.csrs.mie := by
      refine (agreeOn_merge_old ..).mono ?_
      rw [BitVec.and_comm, ← BitVec.and_assoc, BitVec.and_self]
    exact hvalue.merge_keeps BitVec.and_self
  mip := .refl ..
  supervisor huser := absurd huser hsupervisor

theorem confined_sip (value : Word) (hsupervisor : h.privilege ≠ .user) :
    Confined h (h.withPending h.csrs.mideleg value) where
  xlen := rfl
  privilege := Nat.le_refl _
  machine := rfl
  status := .refl ..
  mie := .refl ..
  mip := agreeOn_merge_old ..
  supervisor huser := absurd huser hsupervisor

theorem confined_afterInstall {r : Register} (value : Word) (hr : r.lowest ≤ h.privilege)
    (hlow : h.privilege ≠ .machine) : Confined h (h.afterInstall r value) := by
  cases r with
  | fflags => exact confined_float h _ _
  | frm => exact confined_float h _ _
  | fcsr => exact confined_float h _ _
  | sstatus =>
      refine confined_committed (Nat.le_refl _) (Privilege.ne_user_of_le hr) ?_
      exact (agreeOn_merge_old ..).mono (by cases h.xlen <;> decide)
  | sie => exact confined_sie value (Privilege.ne_user_of_le hr)
  | sip => exact confined_sip value (Privilege.ne_user_of_le hr)
  | stvec | sscratch | sepc | scause | sbadaddr | sptbr =>
      exact ⟨rfl, Nat.le_refl _, rfl, .refl .., .refl .., .refl ..,
        fun huser => absurd huser (Privilege.ne_user_of_le hr)⟩
  | cycle | instret | hpmcounter | cycleh | instreth | hpmcounterh => exact .refl h
  -- every other register belongs to Machine mode
  | _ => exact absurd (Privilege.eq_machine_of_le hr) hlow

/-! ## Steps and runs -/

theorem confined_supervisorReturn {p : Privilege} (hle : p ≤ .supervisor)
    (hlow : ¬ h.privilege < .supervisor) :
    Confined h (h.returned p Status.spp Status.spie) := by
  have hsupervisor : Privilege.supervisor ≤ h.privilege := Nat.not_lt.1 hlow
  refine confined_committed (Nat.le_trans hle hsupervisor) (Privilege.ne_user_of_le hsupervisor) ?_
  refine agreeOn_statusAfterReturn _ ?_ (by cases h.xlen <;> decide) (by cases h.xlen <;> decide)
  -- the enable that comes back is `uie`, which no commit takes, or `sie`
  rcases Status.toNat_get_spp h.csrs.mstatus with hspp | hspp <;> rw [hspp] <;>
    cases h.xlen <;> decide

theorem confined_of_effect {op : Operation} {result : Except Unwind Reply}
    {calls : List PlatformCall} (heffect : Effect answers h op result h' calls)
    (hguest : op.isGuest = true) (hlow : h.privilege ≠ .machine) : Confined h h' := by
  cases heffect with
  | quiet hsame => exact hsame.confined
  | flushed | fenced | filled => exact .refl h
  | trapped hsame hcalls => exact hsame.confined
  | stopped hwhy => exact .refl h
  | written hop hwrite => exact confined_afterInstall _ (of_writeDecision hwrite).1 hlow
  | retired count =>
      exact ⟨rfl, Nat.le_refl _, rfl, .refl .., .refl .., .refl .., fun _ => ⟨rfl, .refl ..⟩⟩
  | switched hlevel => cases hguest
  | supervisorReturn hlow' hle hp => exact confined_supervisorReturn hle hlow'
  | machineReturn hlow' hp => exact absurd (Privilege.eq_machine_of_le (Nat.not_lt.1 hlow')) hlow
  | raisedLines bits => cases hguest
  | loweredLines bits => cases hguest

/-- Below Machine mode nothing stops the emulation but a request for an impossible level. -/
theorem not_fatal_of_effect {op : Operation} {u : Unwind} {calls : List PlatformCall}
    (heffect : Effect answers h op (.error u) h' calls) (hguest : op.isGuest = true)
    (hlow : h.privilege ≠ .machine) : u.isFatal = false := by
  cases heffect with
  | trapped hsame hcalls => rfl
  | stopped hwhy =>
      rcases hwhy with hmachine | ⟨level, rfl⟩
      · exact absurd hmachine hlow
      · cases hguest

namespace Session

variable {platform : Platform} {s : Session}

theorem confined_step {op : Operation} (hguest : op.isGuest = true)
    (hlow : s.hart.privilege ≠ .machine) : Confined s.hart (s.step platform op).2.hart :=
  confined_of_effect (effect_perform (platform s.calls) s.hart op) hguest hlow

theorem not_fatal_step {op : Operation} {u : Unwind} (hguest : op.isGuest = true)
    (hlow : s.hart.privilege ≠ .machine) (hresult : (s.step platform op).1 = .error u) :
    u.isFatal = false := by
  have heffect := effect_perform (platform s.calls) s.hart op
  change (op.perform.run (platform s.calls) s.hart).result = .error u at hresult
  rw [hresult] at heffect
  exact not_fatal_of_effect heffect hguest hlow

/-- Whatever code below Machine mode asks for, in any order and however the platform answers, it never
stops the emulation and never leaves its confinement. -/
theorem run_confined (platform : Platform) (s : Session) {ops : List Operation}
    (hlow : s.hart.privilege ≠ .machine) (hguest : ∀ op ∈ ops, op.isGuest = true) :
    (∀ u, .error u ∈ (s.run platform ops).1 → u.isFatal = false) ∧
      Confined s.hart (s.run platform ops).2.hart := by
  -- the invariant: still confined, hence still below Machine mode
  have hlow' : ∀ s' : Session, Confined s.hart s'.hart → s'.hart.privilege ≠ .machine := by
    intro s' hconfined hmachine
    have hle := hconfined.privilege
    rw [hmachine] at hle
    exact hlow (Privilege.eq_machine_of_le hle)
  have hstep : ∀ (s' : Session) (op : Operation), op.isGuest = true → Confined s.hart s'.hart →
      Confined s.hart (s'.step platform op).2.hart :=
    fun s' op hop hconfined => hconfined.trans (confined_step hop (hlow' s' hconfined))
  refine ⟨?_, run_preserves hstep (.refl s.hart) hguest⟩
  have hresults : ∀ result ∈ (s.run platform ops).1, ∀ u, result = .error u → u.isFatal = false :=
    run_results hstep
      (fun s' op hop hconfined u hresult => not_fatal_step hop (hlow' s' hconfined) hresult)
      (.refl s.hart) hguest
  intro u hu
  exact hresults _ hu u rfl

/-- A Supervisor that reaches for everything in sight and returns to User mode. -/
theorem run_confined_grasping :
    let s := start (atReset {} .supervisor)
    let ops : List Operation :=
      [.setCsr CsrNumber.sstatus (BitVec.allOnes 64) true, .writeCsr CsrNumber.mepc 8,
        .returnFromSupervisorTrap]
    s.hart.privilege ≠ .machine ∧ (∀ op ∈ ops, op.isGuest = true) ∧
      (∀ u, .error u ∈ (s.run (fun _ => .identity) ops).1 → u.isFatal = false) ∧
      Confined s.hart (s.run (fun _ => .identity) ops).2.hart := by
  intro s ops
  have hlow : s.hart.privilege ≠ .machine := by decide
  have hguest : ∀ op ∈ ops, op.isGuest = true := by decide
  exact ⟨hlow, hguest, run_confined (fun _ => .identity) s hlow hguest⟩

end Session
end Hart
end PrivilegedHart
