import PrivilegedHart.Proofs.Counter
import PrivilegedHart.Proofs.WellFormed

/-!
# Reading back what was written

A register takes some bits of a written value and keeps the others, and the next read shows exactly that.
`writeMask` says for every register which bits it takes.  The law covers registers that are written through
another register and read through a view of it, and it holds after truncation to the register width.

The summary bit of `mstatus` and `sstatus` is neither taken nor kept: it tells whether the floating-point
state that the register then shows is dirty.
-/

namespace PrivilegedHart

/-! ## Floating-point control -/

namespace FloatControl

open Word

/-- Unpacking a value and packing it again keeps the bits that `fcsr` has. -/
theorem pack_flags_rounding (value : Word) :
    pack (flags value) (rounding value) = value &&& 0xFF := by
  have hmask : (0xFF : Word) = flagsField ||| roundingField := by decide
  rw [pack, flags, rounding, set_get, set_get, hmask]
  apply BitVec.eq_of_getLsbD_eq
  intro i _
  rw [BitField.getLsbD_merge, BitField.getLsbD_merge, BitVec.getLsbD_and, BitVec.getLsbD_or]
  cases roundingField.getLsbD i <;> cases flagsField.getLsbD i <;> simp

theorem within_pack (flags rounding : Word) : Within 0xFF (pack flags rounding) :=
  ((within_zero 0xFF).set (by decide) flags).set (by decide) rounding

end FloatControl

/-! ## The summary bit -/

namespace Status

open Word

/-- The fields that a write of `sstatus` may change. -/
def supervisorWritable : Word := sie ||| spie ||| spp ||| fs ||| pum

/-- A status with the summary bit that its floating-point state asks for. -/
def withSummary (x : Xlen) (status : Word) : Word :=
  if BitField.get status fs = dirty then status ||| sd x else status &&& ~~~sd x

variable {x : Xlen} {status status' : Word}

theorem withSummary_eq_merge (x : Xlen) (status : Word) :
    withSummary x status =
      BitField.merge status (if BitField.get status fs = dirty then BitVec.allOnes 64 else 0)
        (sd x) := by
  unfold withSummary
  split
  · apply BitVec.eq_of_getLsbD_eq
    intro i hi
    rw [BitVec.getLsbD_or, BitField.getLsbD_merge]
    cases (sd x).getLsbD i with
    | true => rw [if_pos rfl, Bool.or_true, BitVec.getLsbD_allOnes, decide_eq_true hi]
    | false => rw [if_neg Bool.false_ne_true, Bool.or_false]
  · rw [BitField.merge, BitVec.ofNat_eq_ofNat, BitVec.zero_and, BitVec.or_zero]

theorem withSummary_congr (h : AgreeOn (~~~sd x) status status') :
    withSummary x status = withSummary x status' := by
  have hfs : BitField.get status fs = BitField.get status' fs :=
    (h.mono (by cases x <;> decide)).get_eq
  rw [withSummary_eq_merge, withSummary_eq_merge, hfs]
  exact merge_congr h (.refl ..)

theorem agreeOn_withSummary (x : Xlen) (status : Word) :
    AgreeOn (~~~sd x) (withSummary x status) status := by
  rw [withSummary_eq_merge]
  exact agreeOn_merge_old ..

/-- A mask with the floating-point state and the summary bit in it commutes with the summary. -/
theorem withSummary_and {mask : Word} (hfs : fs &&& mask = fs) (hsd : sd x &&& mask = sd x)
    (status : Word) : withSummary x (status &&& mask) = withSummary x status &&& mask := by
  have hmasked : AgreeOn fs (status &&& mask) status := by
    rw [AgreeOn, BitVec.and_assoc, BitVec.and_comm mask, hfs]
  rw [withSummary_eq_merge, withSummary_eq_merge, hmasked.get_eq, merge_and]
  refine merge_congr (.refl ..) ?_
  rw [AgreeOn, BitVec.and_assoc, BitVec.and_comm mask, hsd]

theorem truncate_withSummary (x : Xlen) (status : Word) :
    x.truncate (withSummary x status) = withSummary x (x.truncate status) :=
  (withSummary_and (by cases x <;> decide) (by cases x <;> decide) status).symm

theorem isDirty_eq (hxs : AgreeOn xs status 0) :
    isDirty status = decide (BitField.get status fs = dirty) := by
  have hread : BitField.get status xs = 0 := hxs.get_eq.trans (by decide +kernel)
  have hclean : ((0 : Word) == dirty) = false := by decide
  rw [isDirty, hread, hclean, Bool.or_false]
  rfl

/-- Without further extensions the summary is that of the floating-point state. -/
theorem summarize_eq_withSummary (hxs : AgreeOn xs status 0) :
    summarize x status = withSummary x status := by
  rw [summarize, set_eq_merge, withSummary_eq_merge, isDirty_eq hxs]
  refine merge_congr (.refl ..) ?_
  -- the value that moves into the field is `0` or `1`
  by_cases hdirty : BitField.get status fs = dirty
  · rw [if_pos hdirty, decide_eq_true hdirty]
    cases x <;> decide +kernel
  · rw [if_neg hdirty, decide_eq_false hdirty]
    cases x <;> decide +kernel

variable {old : Word}

theorem Sound.extensions (sound : Sound x status) : AgreeOn xs status 0 :=
  sound.agreeOn_reserved.mono (by cases x <;> decide)

theorem Sound.withSummary_eq (sound : Sound x status) : withSummary x status = status :=
  (summarize_eq_withSummary sound.extensions).symm.trans sound.summarize_eq

/-- No commit brings up further extensions, so its summary is that of the floating-point state. -/
theorem Sound.commit_eq (sound : Sound x old) (value : Word) :
    Status.commit x old value = withSummary x (BitField.merge old value (commitMask value)) := by
  refine summarize_eq_withSummary (AgreeOn.trans ?_ sound.extensions)
  have hdisjoint : xs &&& (writable ||| vm) = 0 := by decide
  refine AgreeOn.merge_keeps ?_ (commitMask_and value)
  rw [hdisjoint, AgreeOn, BitVec.ofNat_eq_ofNat, BitVec.and_zero, BitVec.and_zero]

end Status

theorem Word.within_of_isAligned {w : Word} (hw : Word.isAligned w = true) :
    Word.Within (~~~Word.misaligned) w := by
  simpa [Word.isAligned, Word.Within] using hw

namespace Hart

open Word

/-! ## The Supervisor view of the status -/

section Supervisor

open Status

variable {x : Xlen} {status old : Word}

theorem supervisorStatus_eq (hxs : AgreeOn xs status 0) :
    supervisorStatus x status = withSummary x (status &&& supervisorView) := by
  have hvisible : AgreeOn xs (status &&& supervisorView) 0 := by
    simpa using hxs.and supervisorView
  -- the view has no summary bit of its own
  have hsummary : Within (~~~sd x) (status &&& supervisorView) :=
    (within_and ..).mono (by cases x <;> decide)
  unfold supervisorStatus withSummary
  simp only [isDirty_eq hvisible, decide_eq_true_eq, within_iff_and_eq.1 hsummary]

/-- Through the view, a commit takes the fields that Supervisor mode may change. -/
theorem supervisorStatus_commit (sound : Sound x old) (value : Word) :
    supervisorStatus x (commit x old (BitField.merge old value supervisorView)) =
      withSummary x (BitField.merge (supervisorStatus x old) value supervisorWritable) := by
  have hcommitted : AgreeOn supervisorView
      (commit x old (BitField.merge old value supervisorView))
      (BitField.merge old value supervisorWritable) := by
    refine (agreeOn_summarize_of x _ (by cases x <;> decide)).trans ?_
    refine AgreeOn.merge (.refl ..) (agreeOn_merge_new ..) ?_
    exact (agreeOn_commitMask _ (by decide)).trans (by decide)
  have hvalue : AgreeOn supervisorWritable (value &&& supervisorView) value := by
    rw [AgreeOn, BitVec.and_assoc]
    rfl
  rw [supervisorStatus_eq (sound.commit _).extensions, hcommitted,
    supervisorStatus_eq sound.extensions, merge_and, merge_congr (.refl ..) hvalue]
  refine withSummary_congr ?_
  exact AgreeOn.merge (agreeOn_withSummary ..).symm (.refl ..) (.refl ..)

end Supervisor

/-! ## The law of each register -/

/-- The bits that a register takes from a written value.  Registers that cannot be written take none. -/
def writeMask (h : Hart) (value : Word) : Register → Word
  | .fflags => 0x1F
  | .frm => 0x7
  | .fcsr => 0xFF
  | .sstatus => Status.supervisorWritable
  | .sie => h.csrs.mideleg
  | .stvec | .mtvec => ~~~misaligned
  | .sip => h.csrs.mideleg &&& Interrupt.softwarePending
  | .sptbr => lowBits (h.physAddrBits.toNat - Page.shift)
  | .mstatus =>
      if BitField.get value Status.vm ∈ [0, 8, 9, 10] then Status.writable ||| Status.vm
      else Status.writable
  | .misa => Isa.writable &&& h.maxIsa
  | .medeleg => 0xFFF
  | .mideleg => Interrupt.delegable
  | .mie => Interrupt.enableable
  | .mip => Interrupt.softwarePending
  | .sscratch | .sepc | .scause | .sbadaddr | .mscratch | .mepc | .mcause | .mbadaddr
  | .mucounteren | .mscounteren | .mcycle | .minstret => BitVec.allOnes 64
  | .mcycleh | .minstreth => lowHalf
  | _ => 0

def requested (value : Word) : Register → Word
  | .misa => Isa.normalize value
  | _ => value

/-- What a register shows after `value` has been written over `old`. -/
def readback (h : Hart) (r : Register) (old value : Word) : Word :=
  let merged := BitField.merge old (requested value r) (h.writeMask value r)
  match r with
  | .mstatus | .sstatus => Status.withSummary h.xlen merged
  | _ => merged

variable {h : Hart} {r : Register} {value : Word}

theorem commitMask_eq_writeMask (h : Hart) (value : Word) :
    Status.commitMask value = h.writeMask value .mstatus := by
  have hsupported : Status.supportsScheme (BitField.get value Status.vm) = true ↔
      BitField.get value Status.vm ∈ [0, 8, 9, 10] := by
    simp [Status.supportsScheme, Status.schemeBare, Status.schemeSv32, Status.schemeSv39,
      Status.schemeSv48, or_assoc]
  simp only [Status.commitMask, writeMask, hsupported]

theorem within_requested {mask : Word} (hvalue : Within mask value) (r : Register) :
    Within mask (requested value r) := by
  cases r with
  | misa =>
      change Within mask (Isa.normalize value)
      unfold Isa.normalize
      split
      · exact hvalue.and _
      · exact hvalue
  | _ => exact hvalue

/-- A merge that a register performs on the whole word is what it shows after truncation. -/
theorem truncate_merge_requested (old : Word) (hvalue : Within h.xlen.mask value) :
    h.xlen.truncate (BitField.merge old (requested value r) (h.writeMask value r)) =
      BitField.merge (h.xlen.truncate old) (requested value r) (h.writeMask value r) := by
  rw [Xlen.truncate_merge, Xlen.truncate_eq (within_requested hvalue r)]

theorem view_sie (hmideleg : Within Interrupt.delegable h.csrs.mideleg) (value : Word) :
    (h.afterInstall .sie value).view .sie =
      BitField.merge (h.view .sie) value h.csrs.mideleg := by
  -- a delegable interrupt can be enabled, so the second mask takes what the first one has taken
  have henableable : h.csrs.mideleg &&& Interrupt.enableable = h.csrs.mideleg :=
    within_iff_and_eq.1 (hmideleg.mono (by decide))
  have htaken : AgreeOn h.csrs.mideleg
      (h.enablesAfterWrite (BitField.merge h.csrs.mie value h.csrs.mideleg)) value :=
    ((agreeOn_merge_new ..).mono henableable).trans (agreeOn_merge_new ..)
  exact Eq.trans htaken (and_eq_merge (within_and ..) value)

theorem view_sip (h : Hart) (value : Word) :
    (h.afterInstall .sip value).view .sip =
      BitField.merge (h.view .sip) value (h.csrs.mideleg &&& Interrupt.softwarePending) := by
  have hvalue : AgreeOn (h.csrs.mideleg &&& Interrupt.softwarePending) (value &&& h.csrs.mideleg)
      value := by
    rw [AgreeOn, BitVec.and_assoc, ← BitVec.and_assoc h.csrs.mideleg, BitVec.and_self]
  exact (merge_and ..).trans (merge_congr (.refl ..) hvalue)

/-- Most registers merge the value into what they show. -/
theorem view_afterInstall_eq_merge (wf : h.WellFormed) (hr : h.writeFault? r = none)
    (value : Word)
    (hr' : r ∉ [.mstatus, .sstatus, .mcycle, .minstret, .mcycleh, .minstreth]) :
    (h.afterInstall r value).view r =
      BitField.merge (h.view r) (requested value r) (h.writeMask value r) := by
  cases r with
  | fflags =>
      have hflags : Within (lowBits 5) h.csrs.fflags :=
        within_lowBits_iff.2 (Nat.lt_succ_of_le wf.fflags)
      exact and_eq_merge hflags value
  | frm =>
      have hrounding : Within (lowBits 3) h.csrs.frm :=
        within_lowBits_iff.2 (Nat.lt_succ_of_le wf.frm)
      exact and_eq_merge hrounding value
  | fcsr =>
      exact (FloatControl.pack_flags_rounding value).trans
        (and_eq_merge (FloatControl.within_pack ..) value)
  | sie => exact view_sie wf.mideleg value
  | sip => exact view_sip h value
  | stvec => exact and_eq_merge (within_of_isAligned wf.stvec) value
  | mtvec => exact and_eq_merge (within_of_isAligned wf.mtvec) value
  | sptbr => exact and_eq_merge (within_lowBits_iff.2 wf.sptbr) value
  | mip => exact congrArg (BitField.merge h.mip value) BitVec.and_self
  | misa | medeleg | mideleg | mie => rfl
  | tselect => exact (merge_zero ..).symm
  | sscratch | sepc | scause | sbadaddr | mscratch | mepc | mcause | mbadaddr | mucounteren
  | mscounteren => exact (merge_allOnes ..).symm
  | mstatus | sstatus | mcycle | minstret | mcycleh | minstreth => simp at hr'
  -- the others cannot be written
  | _ => cases hr

theorem truncate_current_writeLow (x : Xlen) (c : VirtualCounter) (raw : Word)
    (hvalue : Within x.mask value) : x.truncate ((c.writeLow raw value x).current raw) = value := by
  cases x with
  | rv64 => rw [VirtualCounter.current_writeLow_rv64, Xlen.truncate_eq hvalue]
  | rv32 =>
      have hkept : value &&& lowHalf = value := within_iff_and_eq.1 hvalue
      rw [VirtualCounter.current_writeLow_rv32, Xlen.truncate, Xlen.mask, and_lowHalf, low_ofHalves,
        ← and_lowHalf, hkept]

theorem current_writeHigh_shift (c : VirtualCounter) (raw : Word) (hvalue : Within lowHalf value) :
    (c.writeHigh raw value).current raw >>> halfShift = value := by
  rw [VirtualCounter.current_writeHigh, shiftRight_half, high_ofHalves, ← and_lowHalf,
    within_iff_and_eq.1 hvalue]

theorem truncate_view_afterInstall (wf : h.WellFormed) (hr : h.writeFault? r = none)
    (hvalue : Within h.xlen.mask value) :
    h.xlen.truncate ((h.afterInstall r value).view r) =
      h.readback r (h.xlen.truncate (h.view r)) value := by
  cases r with
  | mstatus =>
      change h.xlen.truncate (Status.commit h.xlen h.csrs.mstatus value) = _
      rw [wf.status.commit_eq, Status.truncate_withSummary, commitMask_eq_writeMask h value]
      exact congrArg _ (truncate_merge_requested (r := .mstatus) _ hvalue)
  | sstatus =>
      change h.xlen.truncate (supervisorStatus h.xlen (Status.commit h.xlen h.csrs.mstatus
        (BitField.merge h.csrs.mstatus value Status.supervisorView))) = _
      rw [supervisorStatus_commit wf.status, Status.truncate_withSummary]
      exact congrArg _ (truncate_merge_requested (r := .sstatus) _ hvalue)
  | mcycle | minstret =>
      exact (truncate_current_writeLow h.xlen _ _ hvalue).trans (merge_allOnes ..).symm
  -- there are high halves on 32-bit harts only
  | mcycleh | minstreth =>
      have hxlen : h.xlen = .rv32 := requireRv32_eq_none_iff.1 hr
      have hmask : h.xlen.mask = lowHalf := by rw [hxlen]; rfl
      have hwithin : Within lowHalf value := hmask ▸ hvalue
      have hold : ∀ w, Within lowHalf (h.xlen.truncate w) := fun w => hmask ▸ h.xlen.within_truncate w
      refine (congrArg h.xlen.truncate (current_writeHigh_shift _ _ hwithin)).trans ?_
      rw [Xlen.truncate_eq hvalue]
      exact (within_iff_and_eq.1 hwithin).symm.trans (and_eq_merge (hold _) value)
  | _ =>
      rw [view_afterInstall_eq_merge wf hr value (by decide)]
      exact truncate_merge_requested _ hvalue

/-! ## Reads after writes -/

theorem readFault?_afterInstall (hr : h.writeFault? r = none) (value : Word) :
    (h.afterInstall r value).readFault? r = h.readFault? r := by
  cases r with
  -- the enables of the counters matter to the views of the counters, and those cannot be written
  | cycle | instret | cycleh | instreth => cases hr
  | _ => rfl

theorem readDecision_afterInstall (wf : h.WellFormed) {n : CsrNumber} {old : Word}
    (hread : h.readDecision n = .ok old) (hwrite : h.writeDecision n = .ok r)
    (hvalue : Within h.xlen.mask value) :
    (h.afterInstall r value).readDecision n = .ok (h.readback r old value) := by
  obtain ⟨row, hrow, rfl⟩ := find?_of_writeDecision hwrite
  obtain ⟨hallowed, row', hrow', hfault, rfl⟩ := of_readDecision hread
  cases hrow.symm.trans hrow'
  have haccepts : h.writeFault? row.register = none := (of_writeDecision hwrite).2
  have hallowed' : (h.afterInstall row.register value).denies n false = false := by
    rw [denies, privilege_afterInstall]
    exact hallowed
  have hfault' : (h.afterInstall row.register value).readFault? row.register = none :=
    (readFault?_afterInstall haccepts value).trans hfault
  rw [readDecision_of_find? hrow hallowed' hfault', xlen_afterInstall]
  exact congrArg Except.ok (truncate_view_afterInstall wf haccepts hvalue)

/-- A value is read and another one is written.  The next read succeeds, and it shows the bits that the
register takes from the written value and the other bits of the value that was there, except that the
summary of a status is that of the value shown. -/
theorem read_after_write {c : Config} (reachable : Reachable c h) (n : CsrNumber) (value : Word)
    {old : Word} {answers₁ answers₂ : Answers}
    (hread : ((readCsr n).run answers₁ h).result = .ok old)
    (hwrite : ((writeCsr n value).run answers₂ ((readCsr n).run answers₁ h).hart).result = .ok ()) :
    ∃ row, CsrRow.find? n = some row ∧ ∀ answers₃ : Answers,
      ((readCsr n).run answers₃
        ((writeCsr n value).run answers₂ ((readCsr n).run answers₁ h).hart).hart).result =
          .ok (h.readback row.register old (h.xlen.truncate value)) := by
  rw [result_readCsr_eq_ok_iff] at hread
  rw [(comesTo_readCsr hread).hart_eq] at hwrite ⊢
  obtain ⟨r, hdecision⟩ := writeDecision_of_result_writeCsr hwrite
  obtain ⟨row, hrow, rfl⟩ := find?_of_writeDecision hdecision
  refine ⟨row, hrow, fun answers₃ => ?_⟩
  rw [(comesTo_writeCsr hdecision value).hart_eq, result_readCsr_eq_ok_iff]
  exact readDecision_afterInstall reachable.wellFormed hread hdecision (h.xlen.within_truncate value)

theorem readDecision_reset : (atReset {} .machine).readDecision .mstatus = .ok 0 := by rfl

theorem writeDecision_reset : (atReset {} .machine).writeDecision .mstatus = .ok .mstatus := by rfl

/-- On a hart at reset, `mstatus` takes the floating-point state and a supported translation scheme from a
value, and nothing of its reserved bits. -/
theorem read_after_write_status :
    let h := atReset {} .machine
    ((readCsr .mstatus).run .identity h).result = .ok 0 ∧
      ((writeCsr .mstatus 0x0900E001).run .identity h).result = .ok () ∧
      ((readCsr .mstatus).run .identity
        ((writeCsr .mstatus 0x0900E001).run .identity h).hart).result = .ok 0x8000000009006000 := by
  intro h
  have hread : ((readCsr .mstatus).run .identity h).result = .ok 0 :=
    result_readCsr_eq_ok_iff.2 readDecision_reset
  have hunchanged : ((readCsr .mstatus).run .identity h).hart = h :=
    (comesTo_readCsr readDecision_reset).hart_eq
  have hwrite : ((writeCsr .mstatus 0x0900E001).run .identity h).result = .ok () :=
    (comesTo_writeCsr writeDecision_reset _).result_eq
  have hwrite' : ((writeCsr .mstatus 0x0900E001).run .identity
      ((readCsr .mstatus).run .identity h).hart).result = .ok () := by
    rw [hunchanged]
    exact hwrite
  have reachable : Reachable {} h := .atReset rfl
  obtain ⟨row, hrow, hafter⟩ := read_after_write reachable .mstatus 0x0900E001 hread hwrite'
  have hregister : row.register = .mstatus := by cases hrow; rfl
  have hvalue : h.readback .mstatus 0 (h.xlen.truncate 0x0900E001) = 0x8000000009006000 := by
    decide +kernel
  rw [hunchanged, hregister, hvalue] at hafter
  exact ⟨hread, hwrite, hafter .identity⟩

/-- The summary is not one of the bits that the register keeps: writing a dirty floating-point state over a
clean one sets it. -/
theorem not_merged_summary :
    let h := atReset {} .machine
    let written := (writeCsr .mstatus 0x6000).run .identity h
    Reachable {} h ∧ ((readCsr .mstatus).run .identity h).result = .ok 0 ∧
      written.result = .ok () ∧
      ((readCsr .mstatus).run .identity written.hart).result = .ok 0x8000000000006000 ∧
      .ok (BitField.merge 0 0x6000 (h.writeMask 0x6000 .mstatus)) ≠
        ((readCsr .mstatus).run .identity written.hart).result := by
  have hafter : ((readCsr .mstatus).run .identity
      ((writeCsr .mstatus 0x6000).run .identity (atReset {} .machine)).hart).result =
        .ok 0x8000000000006000 := by
    cbv
  intro h written
  have hmerged : BitField.merge 0 0x6000 (h.writeMask 0x6000 .mstatus) = 0x6000 := by decide +kernel
  refine ⟨.atReset rfl, result_readCsr_eq_ok_iff.2 readDecision_reset,
    (comesTo_writeCsr writeDecision_reset _).result_eq, hafter, ?_⟩
  rw [hafter, hmerged]
  simp

end Hart
end PrivilegedHart
