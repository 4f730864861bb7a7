import PrivilegedHart.Proofs.Instruction
import PrivilegedHart.Proofs.Readback

/-!
# Floating-point control is one register

`fflags` and `frm` are parts of `fcsr`, but the hart stores the parts, and `fcsr` is packed when it is read
and taken apart when it is written.  It does not show: reading the whole is reading the parts side by side,
and writing the whole leaves the hart that writing the parts leaves, whichever is written first.

Every write of one of the three marks the floating-point state as dirty, even one that changes nothing, and
touches nothing else.  The marks do not add up, which is why the order of the parts does not matter.
-/

namespace PrivilegedHart

open Word

/-! ## Packing -/

namespace FloatControl

/-- The whole is the parts side by side, if they are no wider than their fields. -/
theorem pack_eq {flags rounding : Word} (hflags : flags.toNat ≤ 0x1F) (hrounding : rounding.toNat ≤ 7) :
    pack flags rounding = flags ||| rounding <<< 5 := by
  have hlow : Within flagsField flags := by
    have hbits : Within (lowBits 5) flags := within_lowBits_iff.2 (by omega)
    exact hbits.mono (by decide)
  have hhigh : rounding <<< 5 &&& roundingField = rounding <<< 5 := by
    have hbits : Within (lowBits 3) rounding := within_lowBits_iff.2 (by omega)
    have hmask : roundingField = lowBits 3 <<< 5 := by decide
    rw [hmask, ← BitVec.shiftLeft_and_distrib, within_iff_and_eq.1 hbits]
  have hspared : flags &&& ~~~roundingField = flags :=
    within_iff_and_eq.1 (hlow.mono (by decide))
  have hflagsPosition : BitField.position flagsField = 0 := by decide +kernel
  have hroundingPosition : BitField.position roundingField = 5 := by decide +kernel
  calc pack flags rounding
      = BitField.merge (BitField.merge 0 flags flagsField) (rounding <<< 5) roundingField := by
        rw [pack, set_eq_merge, set_eq_merge, hflagsPosition, hroundingPosition,
          BitVec.shiftLeft_zero]
    _ = BitField.merge flags (rounding <<< 5) roundingField := by
        rw [← and_eq_merge (within_zero _), within_iff_and_eq.1 hlow]
    _ = flags ||| rounding <<< 5 := by rw [BitField.merge, hspared, hhigh]

theorem flags_eq (value : Word) : flags value = value &&& 0x1F := by
  have hne : flagsField ≠ 0 := by decide
  have hposition : BitField.position flagsField = 0 := by decide +kernel
  rw [flags, BitField.get, if_neg hne, hposition, BitVec.ushiftRight_zero]
  rfl

theorem rounding_eq (value : Word) : rounding value = value >>> 5 &&& 7 := by
  have hne : roundingField ≠ 0 := by decide
  have hposition : BitField.position roundingField = 5 := by decide +kernel
  have hmask : roundingField >>> 5 = 7 := by decide
  rw [rounding, BitField.get, if_neg hne, hposition, BitVec.ushiftRight_and_distrib, hmask]

end FloatControl

/-! ## Dirty floating-point state -/

namespace Status

variable (x : Xlen) (old : Word)

/-- The floating-point state and the summary have all their bits set. -/
theorem agreeOn_markFloat : AgreeOn (fs ||| sd x) (markFloat x old) (fs ||| sd x) := by
  have hset : AgreeOn fs (BitField.set old fs dirty) fs :=
    (agreeOn_set_new old fs dirty).trans (by decide +kernel)
  have hdirty : isDirty (BitField.set old fs dirty) = true := by
    have hread : BitField.get (BitField.set old fs dirty) fs = dirty :=
      hset.get_eq.trans (by decide +kernel)
    rw [isDirty, hread, beq_self_eq_true, Bool.true_or]
  refine AgreeOn.union ?_ ?_
  · refine ((agreeOn_summarize_of x _ (by cases x <;> decide)).trans hset).trans ?_
    cases x <;> decide
  · rw [AgreeOn, markFloat, summarize_and_sd, if_pos hdirty]
    cases x <;> decide

theorem get_markFloat : BitField.get (markFloat x old) fs = dirty := by
  have hbits : AgreeOn fs (markFloat x old) (fs ||| sd x) :=
    (agreeOn_markFloat x old).mono (by cases x <;> decide)
  rw [hbits.get_eq]
  cases x <;> decide +kernel

theorem markFloat_and_sd : markFloat x old &&& sd x = sd x := by
  have hbits : AgreeOn (sd x) (markFloat x old) (fs ||| sd x) :=
    (agreeOn_markFloat x old).mono (by cases x <;> decide)
  refine Eq.trans hbits ?_
  cases x <;> decide

/-- Marking twice is marking once. -/
theorem markFloat_markFloat : markFloat x (markFloat x old) = markFloat x old :=
  eq_of_agreeOn (markFloat_keeps x _)
    ((agreeOn_markFloat x _).trans (agreeOn_markFloat x old).symm)

end Status

namespace Hart

open Status HartAction

/-! ## Writes of the three registers -/

namespace Opens

theorem fflags : Opens .fflags .fflags := ⟨⟨_, rfl, rfl, rfl⟩, fun _ => rfl, fun _ => rfl⟩
theorem frm : Opens .frm .frm := ⟨⟨_, rfl, rfl, rfl⟩, fun _ => rfl, fun _ => rfl⟩
theorem fcsr : Opens .fcsr .fcsr := ⟨⟨_, rfl, rfl, rfl⟩, fun _ => rfl, fun _ => rfl⟩

end Opens

/-- The hart after flags and a rounding mode have been written. -/
def withFloat (h : Hart) (flags rounding : Word) : Hart :=
  { h.markFloatDirty with csrs.fflags := flags, csrs.frm := rounding }

/-- Of two writes the second one decides. -/
theorem withFloat_withFloat (h : Hart) (flags flags' rounding rounding' : Word) :
    (h.withFloat flags rounding).withFloat flags' rounding' = h.withFloat flags' rounding' := by
  have hstatus : (h.withFloat flags rounding).markFloatDirty.csrs.mstatus =
      h.markFloatDirty.csrs.mstatus := markFloat_markFloat h.xlen h.csrs.mstatus
  have hfiles : (h.withFloat flags rounding).markFloatDirty =
      { h.withFloat flags rounding with csrs.mstatus := h.markFloatDirty.csrs.mstatus } := by
    rw [← hstatus]
    rfl
  rw [withFloat, hfiles]
  rfl

section Writes

variable (answers : Answers) (h : Hart) (value : Word)

theorem user_le (p : Privilege) : .user ≤ p := Nat.zero_le _

theorem comesTo_writeFlags :
    ((writeCsr .fflags value).run answers h).ComesTo (.ok ())
      (h.withFloat (value &&& 0x1F) h.csrs.frm) [] := by
  have htruncated : h.xlen.truncate value &&& 0x1F = value &&& 0x1F :=
    (h.xlen.agreeOn_truncate value).mono (by cases h.xlen <;> decide)
  rw [← htruncated]
  exact comesTo_writeCsr (Opens.fflags.writeDecision_iff.2 (user_le _)) value

theorem comesTo_writeRounding :
    ((writeCsr .frm value).run answers h).ComesTo (.ok ())
      (h.withFloat h.csrs.fflags (value &&& 7)) [] := by
  have htruncated : h.xlen.truncate value &&& 7 = value &&& 7 :=
    (h.xlen.agreeOn_truncate value).mono (by cases h.xlen <;> decide)
  rw [← htruncated]
  exact comesTo_writeCsr (Opens.frm.writeDecision_iff.2 (user_le _)) value

theorem comesTo_writeControl :
    ((writeCsr .fcsr value).run answers h).ComesTo (.ok ())
      (h.withFloat (value &&& 0x1F) (value >>> 5 &&& 7)) [] := by
  have hflags : FloatControl.flags (h.xlen.truncate value) = FloatControl.flags value :=
    ((h.xlen.agreeOn_truncate value).mono (by cases h.xlen <;> decide)).get_eq
  have hrounding : FloatControl.rounding (h.xlen.truncate value) = FloatControl.rounding value :=
    ((h.xlen.agreeOn_truncate value).mono (by cases h.xlen <;> decide)).get_eq
  rw [← FloatControl.flags_eq, ← FloatControl.rounding_eq, ← hflags, ← hrounding]
  exact comesTo_writeCsr (Opens.fcsr.writeDecision_iff.2 (user_le _)) value

end Writes

/-- A write half of one of the three registers writes flags and a rounding mode, and calls nobody. -/
theorem float_afterInstall {h : Hart} {n : CsrNumber} {r : Register}
    (hn : n ∈ [CsrNumber.fflags, .frm, .fcsr]) (hwrite : h.writeDecision n = .ok r) (value : Word) :
    (∃ flags rounding, h.afterInstall r value = h.withFloat flags rounding) ∧
      h.installCalls r value = [] := by
  obtain ⟨row, hrow, rfl⟩ := find?_of_writeDecision hwrite
  simp only [List.mem_cons, List.not_mem_nil, or_false] at hn
  rcases hn with rfl | rfl | rfl
  · cases hrow
    exact ⟨⟨_, _, rfl⟩, rfl⟩
  · cases hrow
    exact ⟨⟨_, _, rfl⟩, rfl⟩
  · cases hrow
    exact ⟨⟨_, _, rfl⟩, rfl⟩

/-- What every write of one of the three registers leaves behind: a dirty floating-point state, its
summary, and everything apart from flags and rounding mode as it was. -/
structure FloatMarked (h h' : Hart) : Prop where
  state : BitField.get h'.csrs.mstatus fs = 3
  summary : h'.csrs.mstatus &&& sd h.xlen = sd h.xlen
  kept : AgreeOn (~~~(fs ||| sd h.xlen)) h'.csrs.mstatus h.csrs.mstatus
  rest : h' = { h with
    csrs.mstatus := h'.csrs.mstatus, csrs.fflags := h'.csrs.fflags, csrs.frm := h'.csrs.frm }

theorem floatMarked_withFloat (h : Hart) (flags rounding : Word) :
    FloatMarked h (h.withFloat flags rounding) where
  state := get_markFloat h.xlen h.csrs.mstatus
  summary := markFloat_and_sd h.xlen h.csrs.mstatus
  kept := markFloat_keeps h.xlen h.csrs.mstatus
  rest := rfl

/-- Whatever operation it is that has written one of the three registers. -/
theorem floatMarked_of_written {answers : Answers} {h : Hart} {op : Operation} {reply : Reply}
    {n : CsrNumber} {value : Word}
    (hresult : (op.perform.run answers h).result = .ok reply)
    (hwritten : op.written? reply = some (n, value))
    (hn : n ∈ [CsrNumber.fflags, .frm, .fcsr]) :
    FloatMarked h (op.perform.run answers h).hart ∧ (op.perform.run answers h).calls = [] := by
  have hop : op.isRegisterInstruction = true := by
    rw [← Bool.not_eq_false]
    intro hother
    rw [Operation.written?_eq_none hother] at hwritten
    cases hwritten
  have houtcome : AccessOutcome answers h op (op.perform.run answers h) := accessOutcome_perform hop
  cases houtcome with
  | refused ho => cases ho.result_eq.symm.trans hresult
  | shown hread ho =>
      cases ho.result_eq.symm.trans hresult
      cases hread.symm.trans hwritten
  | wrote hwritten' hwrite ho =>
      cases ho.result_eq.symm.trans hresult
      cases hwritten'.symm.trans hwritten
      obtain ⟨⟨flags, rounding, hafter⟩, hcalls⟩ :=
        float_afterInstall hn hwrite (h.xlen.truncate value)
      rw [ho.hart_eq, ho.calls_eq, hafter, hcalls]
      exact ⟨floatMarked_withFloat h flags rounding, rfl⟩

/-! ## Reads -/

theorem WellFormed.result_readFloat {h : Hart} (wf : WellFormed h) (answers : Answers) :
    ((readCsr .fflags).run answers h).result = .ok h.csrs.fflags ∧
      ((readCsr .frm).run answers h).result = .ok h.csrs.frm ∧
      ((readCsr .fcsr).run answers h).result = .ok (h.csrs.fflags ||| h.csrs.frm <<< 5) := by
  have hpack := FloatControl.pack_eq wf.fflags wf.frm
  have hflagBits : Within (lowBits 5) h.csrs.fflags :=
    within_lowBits_iff.2 (Nat.lt_succ_of_le wf.fflags)
  have hroundingBits : Within (lowBits 3) h.csrs.frm :=
    within_lowBits_iff.2 (Nat.lt_succ_of_le wf.frm)
  have hflags : Within h.xlen.mask h.csrs.fflags := hflagBits.mono (by cases h.xlen <;> decide)
  have hrounding : Within h.xlen.mask h.csrs.frm := hroundingBits.mono (by cases h.xlen <;> decide)
  have hwhole : Within h.xlen.mask (FloatControl.pack h.csrs.fflags h.csrs.frm) :=
    (FloatControl.within_pack ..).mono (by cases h.xlen <;> decide)
  refine ⟨?_, ?_, ?_⟩
  · exact result_readCsr_eq_ok_iff.2 (Opens.fflags.readDecision_iff.2
      ⟨user_le _, Xlen.truncate_eq hflags⟩)
  · exact result_readCsr_eq_ok_iff.2 (Opens.frm.readDecision_iff.2
      ⟨user_le _, Xlen.truncate_eq hrounding⟩)
  · rw [← hpack]
    exact result_readCsr_eq_ok_iff.2 (Opens.fcsr.readDecision_iff.2
      ⟨user_le _, Xlen.truncate_eq hwhole⟩)

/-! ## Coherence -/

/-- On every reachable hart, at whatever privilege it runs and on either register width: `fcsr` reads as
`fflags` with `frm` above it.  Writing `fcsr` leaves the hart that writing its parts leaves, in either
order.  And whatever operation writes one of the three, and whatever it writes, the floating-point state is
marked as dirty, nothing else changes but flags and rounding mode, and the platform is not called. -/
theorem float_coherent {c : Config} {h : Hart} (reachable : Reachable c h) :
    (∀ answers, ∃ flags rounding,
      ((readCsr .fflags).run answers h).result = .ok flags ∧
        ((readCsr .frm).run answers h).result = .ok rounding ∧
        ((readCsr .fcsr).run answers h).result = .ok (flags ||| rounding <<< 5)) ∧
    (∀ answers value,
      let whole := (writeCsr .fcsr value).run answers h
      let flags := (writeCsr .fflags (value &&& 0x1F)).run answers
      let rounding := (writeCsr .frm (value >>> 5 &&& 7)).run answers
      whole.result = .ok () ∧ (flags h).result = .ok () ∧ (rounding h).result = .ok () ∧
        (rounding (flags h).hart).ComesTo (.ok ()) whole.hart [] ∧
        (flags (rounding h).hart).ComesTo (.ok ()) whole.hart []) ∧
    ∀ answers (op : Operation) reply n value,
      (op.perform.run answers h).result = .ok reply → op.written? reply = some (n, value) →
        n ∈ [CsrNumber.fflags, .frm, .fcsr] →
          FloatMarked h (op.perform.run answers h).hart ∧ (op.perform.run answers h).calls = [] := by
  refine ⟨?_, ?_, ?_⟩
  · intro answers
    exact ⟨_, _, reachable.wellFormed.result_readFloat answers⟩
  · intro answers value whole flags rounding
    have hmasked : ∀ w mask : Word, w &&& mask &&& mask = w &&& mask := by
      intro w mask
      rw [BitVec.and_assoc, BitVec.and_self]
    have hflags : ∀ h : Hart, (flags h).ComesTo (.ok ())
        (h.withFloat (value &&& 0x1F) h.csrs.frm) [] := by
      intro h
      rw [← hmasked]
      exact comesTo_writeFlags answers h _
    have hrounding : ∀ h : Hart, (rounding h).ComesTo (.ok ())
        (h.withFloat h.csrs.fflags (value >>> 5 &&& 7)) [] := by
      intro h
      rw [← hmasked]
      exact comesTo_writeRounding answers h _
    have hwhole : whole.ComesTo (.ok ()) (h.withFloat (value &&& 0x1F) (value >>> 5 &&& 7)) [] :=
      comesTo_writeControl answers h value
    refine ⟨hwhole.result_eq, (hflags h).result_eq, (hrounding h).result_eq, ?_, ?_⟩
    -- the second part is written over the first, and the mark of the first is there already
    · have hsecond := hrounding (h.withFloat (value &&& 0x1F) h.csrs.frm)
      rw [withFloat_withFloat] at hsecond
      rw [hwhole.hart_eq, (hflags h).hart_eq]
      exact hsecond
    · have hsecond := hflags (h.withFloat h.csrs.fflags (value >>> 5 &&& 7))
      rw [withFloat_withFloat] at hsecond
      rw [hwhole.hart_eq, (hrounding h).hart_eq]
      exact hsecond
  · intro answers op reply n value hresult hwritten hn
    exact floatMarked_of_written hresult hwritten hn

/-- A 32-bit hart in User mode, with flags and a rounding mode but a clean state.  Setting no bit of the
rounding mode marks the state as dirty, and changes nothing else. -/
theorem float_coherent_narrow :
    ∃ h, Reachable { xlen := .rv32 } h ∧ h.privilege = .user ∧ h.csrs.mstatus = 0 ∧
      ((readCsr .fcsr).run .identity h).result = .ok 0xE5 ∧
      let o := (Operation.setCsr .frm 0 true).perform.run .identity h
      o.result = .ok (.word 7) ∧ FloatMarked h o.hart ∧ o.hart = { h with csrs.mstatus := 0x80006000 } ∧
        o.calls = [] := by
  have hc : ofConfig { xlen := .rv32 } = .ok (atReset { xlen := .rv32 } .machine) := by rfl
  let h := { atReset { xlen := .rv32 } .user with csrs.fflags := 5, csrs.frm := 7 }
  have hrun : h = ((Session.start (atReset { xlen := .rv32 } .machine)).run (fun _ => .identity)
      [.writeCsr .fcsr 0x1E5, .writeCsr .mstatus 0, .setPrivilege 0]).2.hart := by
    decide +kernel
  have reachable : Reachable { xlen := .rv32 } h := ⟨_, _, _, hc, hrun⟩
  have hflags : ((readCsr .fflags).run .identity h).result = .ok 5 := by cbv
  have hrounding : ((readCsr .frm).run .identity h).result = .ok 7 := by cbv
  have hset : ((Operation.setCsr .frm 0 true).perform.run .identity h).result = .ok (.word 7) := by
    cbv
  obtain ⟨hreads, -, hmarked⟩ := float_coherent reachable
  obtain ⟨flags, rounding, hflags', hrounding', hwhole⟩ := hreads .identity
  cases hflags.symm.trans hflags'
  cases hrounding.symm.trans hrounding'
  obtain ⟨marked, hcalls⟩ := hmarked .identity (.setCsr .frm 0 true) (.word 7) .frm 7 hset rfl (by simp)
  exact ⟨h, reachable, rfl, rfl, hwhole, hset, marked, by decide +kernel,
    hcalls⟩

end Hart
end PrivilegedHart
