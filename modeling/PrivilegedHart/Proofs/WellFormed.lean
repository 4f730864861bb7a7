import PrivilegedHart.Proofs.Effect

/-!
# An invariant of all reachable harts

`WellFormed` says which values the registers of a hart can hold.  It is true of a hart that comes out of
reset, and every operation keeps it, whatever its operands and whatever the platform answers.  A return from
a trap builds a status with enables that no hart has; the commit drops them.

The parameters of a hart never change, so bounds in terms of them are bounds in terms of the configuration.
-/

namespace PrivilegedHart

/-! ## Values that registers accept -/

namespace Word

theorem toNat_and_le (a mask : Word) : (a &&& mask).toNat ≤ mask.toNat := by
  rw [BitVec.toNat_and]
  exact Nat.and_le_right

theorem isAligned_zero : isAligned 0 = true := by decide

theorem isAligned_alignDown (value : Word) : isAligned (alignDown value) = true := by
  rw [isAligned_iff, alignDown]
  simp [getLsbD_misaligned]

end Word

namespace FloatControl

theorem toNat_flags_le (value : Word) : (flags value).toNat ≤ 0x1F :=
  Nat.le_trans (Word.toNat_get_le ..) (by decide +kernel)

theorem toNat_rounding_le (value : Word) : (rounding value).toNat ≤ 7 :=
  Nat.le_trans (Word.toNat_get_le ..) (by decide +kernel)

end FloatControl

namespace Privilege

/-- Apart from the former hypervisor level, a raw encoding is the level of its privilege. -/
theorem level_of_ofLevel? {raw : Word} {p : Privilege} (hp : ofLevel? raw = some p)
    (hraw : raw ≠ hypervisorLevel) : p.level = raw.toNat := by
  unfold ofLevel? at hp
  split at hp
  · next hzero =>
      cases hp
      exact hzero.symm
  · next htwo => exact absurd (BitVec.eq_of_toNat_eq htwo) hraw
  · next hone =>
      cases hp
      exact hone.symm
  · next hthree =>
      cases hp
      exact hthree.symm
  · cases hp

end Privilege

namespace Hart

open Word

/-! ## The invariant -/

/-- The registers that take every bit of a written value, and those that clear some, hold no bit outside a
mask. -/
structure FitsWidth (mask : Word) (c : CsrFile) : Prop where
  mtvec : Within mask c.mtvec
  mscratch : Within mask c.mscratch
  mepc : Within mask c.mepc
  mcause : Within mask c.mcause
  mbadaddr : Within mask c.mbadaddr
  stvec : Within mask c.stvec
  sscratch : Within mask c.sscratch
  sepc : Within mask c.sepc
  scause : Within mask c.scause
  sbadaddr : Within mask c.sbadaddr
  sptbr : Within mask c.sptbr
  mucounteren : Within mask c.mucounteren
  mscounteren : Within mask c.mscounteren

/-- Every register holds a value that it can hold. -/
structure WellFormed (h : Hart) : Prop where
  status : Status.Sound h.xlen h.csrs.mstatus
  medeleg : h.csrs.medeleg.toNat ≤ 0xFFF
  mideleg : Within Interrupt.delegable h.csrs.mideleg
  mie : Within Interrupt.enableable h.csrs.mie
  mtvec : isAligned h.csrs.mtvec = true
  stvec : isAligned h.csrs.stvec = true
  sptbr : h.csrs.sptbr.toNat < 2 ^ (h.physAddrBits.toNat - Page.shift)
  fflags : h.csrs.fflags.toNat ≤ 0x1F
  frm : h.csrs.frm.toNat ≤ 7
  misa : Within h.maxIsa h.csrs.misa
  /-- What cannot be switched is as the hart was made. -/
  fixedIsa : AgreeOn (~~~Isa.writable) h.csrs.misa h.maxIsa
  width : FitsWidth h.xlen.mask h.csrs

/-- A hart has the parameters of a configuration. -/
structure BuiltFrom (c : Config) (h : Hart) : Prop where
  xlen : h.xlen = c.xlen
  maxIsa : h.maxIsa = c.effectiveMaxIsa
  physAddrBits : h.physAddrBits = c.effectivePhysAddrBits
  hartId : h.hartId = c.hartId

variable {answers : Answers} {h h' : Hart}

/-! ## Writes under a mask -/

/-- Only causes that may be delegated are taken over. -/
theorem toNat_medeleg_le {old : Word} (hold : old.toNat ≤ 0xFFF) (value : Word) :
    (BitField.merge old value Interrupt.delegableCauses).toNat ≤ 0xFFF := by
  -- as containment in a mask the bound goes through the merge
  have hmask : Interrupt.delegableCauses = lowBits 12 := by decide
  have hold' : Within (lowBits 12) old := within_lowBits_iff.2 (by omega)
  have hmerged : Within (lowBits 12) (BitField.merge old value Interrupt.delegableCauses) :=
    hold'.merge (by rw [hmask]; exact within_and ..)
  have hlt := within_lowBits_iff.1 hmerged
  omega

theorem toNat_and_rootMask_lt (h : Hart) (value : Word) :
    (value &&& h.rootMask).toNat < 2 ^ (h.physAddrBits.toNat - Page.shift) :=
  within_lowBits_iff.1 (within_and ..)

theorem within_misa {isa maxIsa : Word} (hisa : Within maxIsa isa) (value : Word) :
    Within maxIsa (BitField.merge isa value (Isa.writable &&& maxIsa)) := by
  refine hisa.merge ?_
  rw [← BitVec.and_assoc]
  exact within_and ..

theorem agreeOn_misa {isa maxIsa : Word} (hisa : AgreeOn (~~~Isa.writable) isa maxIsa)
    (value : Word) :
    AgreeOn (~~~Isa.writable) (BitField.merge isa value (Isa.writable &&& maxIsa)) maxIsa := by
  refine AgreeOn.trans ?_ hisa
  refine (agreeOn_merge_old ..).mono ?_
  -- what is outside the writable extensions is outside every part of them
  apply BitVec.eq_of_getLsbD_eq
  intro i hi
  simp only [BitVec.getLsbD_and, BitVec.getLsbD_not, hi]
  cases Isa.writable.getLsbD i <;> simp

/-! ## Every operation keeps the invariant -/

namespace WellFormed

theorem reset (c : Config) (p : Privilege) : WellFormed (atReset c p) where
  status := .reset
  medeleg := Nat.zero_le _
  mideleg := within_zero _
  mie := within_zero _
  mtvec := isAligned_zero
  stvec := isAligned_zero
  sptbr := Nat.two_pow_pos _
  fflags := Nat.zero_le _
  frm := Nat.zero_le _
  misa := within_iff.2 fun _ hi => hi
  fixedIsa := .refl ..
  width := ⟨within_zero _, within_zero _, within_zero _, within_zero _, within_zero _,
    within_zero _, within_zero _, within_zero _, within_zero _, within_zero _, within_zero _,
    within_zero _, within_zero _⟩

variable (wf : WellFormed h)

include wf

theorem sameState (s : SameState h h') : WellFormed h' := by
  obtain ⟨pc, cause, badaddr, waiting, rfl⟩ := s.exists_eq
  exact { wf with }

theorem committed (p : Privilege) (value : Word) :
    WellFormed ({ h with privilege := p }.committed value) :=
  { wf with status := wf.status.commit value, width := { wf.width with } }

theorem float {flags rounding : Word} (hflags : flags.toNat ≤ 0x1F) (hrounding : rounding.toNat ≤ 7) :
    WellFormed { h.markFloatDirty with csrs.fflags := flags, csrs.frm := rounding } :=
  { wf with
    status := markFloatDirty_mstatus h ▸ wf.status.markFloat
    fflags := hflags
    frm := hrounding
    width := { wf.width with } }

theorem enables (value : Word) :
    WellFormed { h with csrs.mie := h.enablesAfterWrite value } :=
  { wf with mie := wf.mie.merge (within_and ..), width := { wf.width with } }

theorem afterInstall (r : Register) {value : Word} (hvalue : Within h.xlen.mask value) :
    WellFormed (h.afterInstall r value) := by
  cases r with
  | fflags => exact wf.float (toNat_and_le value FloatControl.flagsMask) wf.frm
  | frm => exact wf.float wf.fflags (toNat_and_le value FloatControl.roundingMask)
  | fcsr => exact wf.float (FloatControl.toNat_flags_le value) (FloatControl.toNat_rounding_le value)
  | mstatus => exact wf.committed h.privilege value
  | sstatus => exact wf.committed h.privilege _
  | mie => exact wf.enables value
  -- `sie` writes through the delegation first, but that only chooses the value
  | sie => exact wf.enables _
  | mtvec =>
      exact { wf with
        mtvec := isAligned_alignDown value
        width := { wf.width with mtvec := hvalue.and _ } }
  | stvec =>
      exact { wf with
        stvec := isAligned_alignDown value
        width := { wf.width with stvec := hvalue.and _ } }
  | sptbr =>
      exact { wf with
        sptbr := toNat_and_rootMask_lt h value
        width := { wf.width with sptbr := hvalue.and _ } }
  | misa =>
      exact { wf with
        misa := within_misa wf.misa _
        fixedIsa := agreeOn_misa wf.fixedIsa _
        width := { wf.width with } }
  | medeleg =>
      exact { wf with medeleg := toNat_medeleg_le wf.medeleg value, width := { wf.width with } }
  | mideleg =>
      exact { wf with mideleg := wf.mideleg.merge (within_and ..), width := { wf.width with } }
  | mscratch => exact { wf with width := { wf.width with mscratch := hvalue } }
  | mepc => exact { wf with width := { wf.width with mepc := hvalue } }
  | mcause => exact { wf with width := { wf.width with mcause := hvalue } }
  | mbadaddr => exact { wf with width := { wf.width with mbadaddr := hvalue } }
  | sscratch => exact { wf with width := { wf.width with sscratch := hvalue } }
  | sepc => exact { wf with width := { wf.width with sepc := hvalue } }
  | scause => exact { wf with width := { wf.width with scause := hvalue } }
  | sbadaddr => exact { wf with width := { wf.width with sbadaddr := hvalue } }
  | mucounteren => exact { wf with width := { wf.width with mucounteren := hvalue } }
  | mscounteren => exact { wf with width := { wf.width with mscounteren := hvalue } }
  | mip | sip | mcycle | minstret | mcycleh | minstreth => exact { wf with }
  | _ => exact wf

theorem effect {op : Operation} {result : Except Unwind Reply} {calls : List PlatformCall}
    (heffect : Effect answers h op result h' calls) : WellFormed h' := by
  cases heffect with
  | quiet hsame => exact wf.sameState hsame
  | flushed | fenced | filled => exact wf
  | trapped hsame hcalls => exact wf.sameState hsame
  | stopped hwhy => exact wf
  | written hop hwrite => exact wf.afterInstall _ (h.xlen.within_truncate _)
  | retired count => exact { wf with }
  | switched hlevel => exact { wf with }
  -- a return is a commit at another privilege
  | supervisorReturn hlow hle hp => exact wf.committed _ _
  | machineReturn hlow hp => exact wf.committed _ _
  | raisedLines bits => exact { wf with }
  | loweredLines bits => exact { wf with }

/-! ## Narrow registers -/

/-- A 32-bit hart stores nothing wider than its registers, except in `misa`. -/
theorem entries_lt (hxlen : h.xlen = .rv32) :
    ∀ entry ∈ h.csrs.entries, entry.1 ≠ "misa" → entry.2.toNat < 2 ^ 32 := by
  have hwidth : FitsWidth lowHalf h.csrs := by
    have hwidth := wf.width
    rw [hxlen] at hwidth
    exact hwidth
  -- the registers with masks of their own are narrower still
  have hmstatus : Within lowHalf h.csrs.mstatus := by
    have hfields := wf.status.fields
    rw [hxlen] at hfields
    exact hfields.mono (by decide)
  have hmideleg : Within lowHalf h.csrs.mideleg := wf.mideleg.mono (by decide)
  have hmie : Within lowHalf h.csrs.mie := wf.mie.mono (by decide)
  have hlt : ∀ {w : Word}, Within lowHalf w → w.toNat < 2 ^ 32 := by
    intro w hw
    rw [lowHalf_eq] at hw
    exact within_lowBits_iff.1 hw
  have hmedeleg := wf.medeleg
  have hfflags := wf.fflags
  have hfrm := wf.frm
  simp only [CsrFile.entries, List.forall_mem_cons]
  refine ⟨fun _ => hlt hmstatus, fun hname => absurd rfl hname, fun _ => by omega,
    fun _ => hlt hmideleg, fun _ => hlt hmie, fun _ => hlt hwidth.mtvec,
    fun _ => hlt hwidth.mscratch, fun _ => hlt hwidth.mepc, fun _ => hlt hwidth.mcause,
    fun _ => hlt hwidth.mbadaddr, fun _ => hlt hwidth.stvec, fun _ => hlt hwidth.sscratch,
    fun _ => hlt hwidth.sepc, fun _ => hlt hwidth.scause, fun _ => hlt hwidth.sbadaddr,
    fun _ => hlt hwidth.sptbr, fun _ => hlt hwidth.mucounteren,
    fun _ => hlt hwidth.mscounteren, fun _ => by omega, fun _ => by omega, ?_⟩
  intro entry hmem
  cases hmem

end WellFormed

/-! ## Parameters never change -/

theorem BuiltFrom.effect {c : Config} (built : BuiltFrom c h) {op : Operation}
    {result : Except Unwind Reply} {calls : List PlatformCall}
    (heffect : Effect answers h op result h' calls) : BuiltFrom c h' := by
  cases heffect with
  | quiet hsame =>
      obtain ⟨pc, cause, badaddr, waiting, rfl⟩ := hsame.exists_eq
      exact { built with }
  | trapped hsame hcalls =>
      obtain ⟨pc, cause, badaddr, waiting, rfl⟩ := hsame.exists_eq
      exact { built with }
  | @written _ _ _ r value hop hwrite => cases r <;> exact { built with }
  | _ => exact { built with }

/-! ## Reachable harts -/

/-- A valid configuration makes a hart, at exactly the level that it names. -/
theorem ofConfig_of_validate {c : Config} (hc : c.validate = .ok ()) :
    ∃ p, ofConfig c = .ok (atReset c p) ∧ p.level = c.effectiveResetPrivilege.toNat := by
  obtain ⟨-, -, hreset⟩ := (c.validate_eq_ok_iff).1 hc
  rw [Config.hasResetPrivilege, Bool.and_eq_true, bne_iff_ne] at hreset
  -- the level is none above Machine, and not the one that would be taken as User
  obtain ⟨hraw, hsome⟩ := hreset
  obtain ⟨p, hp⟩ := Option.isSome_iff_exists.1 hsome
  refine ⟨p, ?_, Privilege.level_of_ofLevel? hp hraw⟩
  rw [ofConfig, hp]

namespace Session

variable {platform : Platform} {s : Session}

theorem run_wellFormed (wf : WellFormed s.hart) (ops : List Operation) :
    WellFormed (s.run platform ops).2.hart :=
  run_invariant (fun wf heffect => wf.effect heffect) wf ops

theorem run_builtFrom {c : Config} (built : BuiltFrom c s.hart) (ops : List Operation) :
    BuiltFrom c (s.run platform ops).2.hart :=
  run_invariant (fun built heffect => built.effect heffect) built ops

end Session

/-- A hart that a run can end with.  The configuration has made a hart, but it need not be valid. -/
def Reachable (c : Config) (h : Hart) : Prop :=
  ∃ (h₀ : Hart) (platform : Platform) (ops : List Operation),
    ofConfig c = .ok h₀ ∧ h = ((Session.start h₀).run platform ops).2.hart

theorem eq_atReset_of_ofConfig {c : Config} {h₀ : Hart} (hc : ofConfig c = .ok h₀) :
    ∃ p, h₀ = atReset c p := by
  unfold ofConfig at hc
  split at hc <;> cases hc
  exact ⟨_, rfl⟩

theorem Reachable.atReset {c : Config} {h₀ : Hart} (hc : ofConfig c = .ok h₀) : Reachable c h₀ :=
  ⟨h₀, fun _ => .identity, [], hc, rfl⟩

theorem Reachable.wellFormed {c : Config} {h : Hart} (reachable : Reachable c h) : WellFormed h := by
  obtain ⟨h₀, platform, ops, hc, rfl⟩ := reachable
  obtain ⟨p, rfl⟩ := eq_atReset_of_ofConfig hc
  exact Session.run_wellFormed (.reset c p) ops

theorem Reachable.builtFrom {c : Config} {h : Hart} (reachable : Reachable c h) : BuiltFrom c h := by
  obtain ⟨h₀, platform, ops, hc, rfl⟩ := reachable
  obtain ⟨p, rfl⟩ := eq_atReset_of_ofConfig hc
  exact Session.run_builtFrom ⟨rfl, rfl, rfl, rfl⟩ ops

/-- A valid configuration makes a hart, and whatever happens to it, it has its parameters and is well
formed.  In particular its reserved status fields are zero, and a 32-bit hart stores no wider values. -/
theorem reachable_wellFormed (c : Config) (hc : c.validate = .ok ()) :
    ∃ h, ofConfig c = .ok h ∧ h.privilege.level = c.effectiveResetPrivilege.toNat ∧
      ∀ (platform : Platform) (ops : List Operation),
        let h' := ((Session.start h).run platform ops).2.hart
        BuiltFrom c h' ∧ WellFormed h' ∧ h'.csrs.mstatus &&& Status.reserved h'.xlen = 0 ∧
          (h'.xlen = .rv32 →
            ∀ entry ∈ h'.csrs.entries, entry.1 ≠ "misa" → entry.2.toNat < 2 ^ 32) := by
  obtain ⟨p, hofConfig, hlevel⟩ := ofConfig_of_validate hc
  refine ⟨atReset c p, hofConfig, hlevel, ?_⟩
  intro platform ops h'
  have wf : WellFormed h' := Session.run_wellFormed (.reset c p) ops
  have built : BuiltFrom c h' := Session.run_builtFrom ⟨rfl, rfl, rfl, rfl⟩ ops
  exact ⟨built, wf, wf.status.reserved_eq_zero, wf.entries_lt⟩

/-- A default hart is such a hart. -/
theorem reachable_wellFormed_default :
    ({} : Config).validate = .ok () ∧
      ∃ h, ofConfig {} = .ok h ∧ h.privilege.level = 3 ∧
        ∀ (platform : Platform) (ops : List Operation),
          WellFormed ((Session.start h).run platform ops).2.hart := by
  refine ⟨Config.validate_default, ?_⟩
  obtain ⟨h, hofConfig, hlevel, hreachable⟩ := reachable_wellFormed {} Config.validate_default
  exact ⟨h, hofConfig, hlevel, fun platform ops => (hreachable platform ops).2.1⟩

end Hart
end PrivilegedHart
