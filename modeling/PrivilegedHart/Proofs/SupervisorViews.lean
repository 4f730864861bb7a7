import PrivilegedHart.Proofs.Readback

/-!
# Supervisor registers are views of Machine registers

Supervisor mode has registers for its status, its interrupt enables and its pending interrupts, but no state
behind them: each shows some bits of a Machine register.  A write through the view comes to the same as
Machine mode writing the old value with some bits replaced, down to the calls that the platform sees.

Three details could break this and do not.  The status view computes a summary bit of its own, where
Machine mode reads a stored one.  Pending interrupts are updated in place under a smaller mask, and never
merged into a value that is then written.  And devices may hold lines beyond the register width, which no
read shows and no write touches.
-/

namespace PrivilegedHart

open Word

namespace Hart

open Status

/-! ## The status that Supervisor mode sees -/

/-- The summary that the view computes is the summary that is stored. -/
theorem supervisorStatus_eq_and {x : Xlen} {status : Word} (sound : Sound x status) :
    supervisorStatus x status = status &&& (supervisorView ||| sd x) := by
  have hshown : AgreeOn (~~~sd x) (status &&& supervisorView)
      (status &&& (supervisorView ||| sd x)) := by
    rw [AgreeOn, BitVec.and_assoc, BitVec.and_assoc]
    exact congrArg (status &&& ·) (by cases x <;> decide)
  have hfs : fs &&& (supervisorView ||| sd x) = fs := by cases x <;> decide
  have hsd : sd x &&& (supervisorView ||| sd x) = sd x := by cases x <;> decide
  calc supervisorStatus x status
      = withSummary x (status &&& supervisorView) := supervisorStatus_eq sound.extensions
    _ = withSummary x (status &&& (supervisorView ||| sd x)) := withSummary_congr hshown
    _ = withSummary x status &&& (supervisorView ||| sd x) := withSummary_and hfs hsd status
    _ = status &&& (supervisorView ||| sd x) := by rw [sound.withSummary_eq]

/-! ## Registers by their numbers -/

namespace Opens

theorem sstatus : Opens .sstatus .sstatus := ⟨⟨_, rfl, rfl, rfl⟩, fun _ => rfl, fun _ => rfl⟩
theorem sie : Opens .sie .sie := ⟨⟨_, rfl, rfl, rfl⟩, fun _ => rfl, fun _ => rfl⟩
theorem sip : Opens .sip .sip := ⟨⟨_, rfl, rfl, rfl⟩, fun _ => rfl, fun _ => rfl⟩
theorem mstatus : Opens .mstatus .mstatus := ⟨⟨_, rfl, rfl, rfl⟩, fun _ => rfl, fun _ => rfl⟩
theorem mie : Opens .mie .mie := ⟨⟨_, rfl, rfl, rfl⟩, fun _ => rfl, fun _ => rfl⟩
theorem mip : Opens .mip .mip := ⟨⟨_, rfl, rfl, rfl⟩, fun _ => rfl, fun _ => rfl⟩
theorem mideleg : Opens .mideleg .mideleg := ⟨⟨_, rfl, rfl, rfl⟩, fun _ => rfl, fun _ => rfl⟩

end Opens

/-! ## Views -/

/-- A register shows the bits `shown` of another one, whose value is `old`, and a write of it replaces the
bits `taken`.  What Machine mode reads and writes is meant on the same hart in Machine mode. -/
structure MaskedView (h : Hart) (part whole : CsrNumber) (old shown taken : Word) : Prop where
  machineRead : ∀ answers,
    ((readCsr whole).run answers { h with privilege := .machine }).result = .ok old
  read : ∀ answers value,
    ((readCsr part).run answers h).result = .ok value ↔
      .supervisor ≤ h.privilege ∧ value = old &&& shown
  writable : ∀ answers value,
    ((writeCsr part value).run answers h).result = .ok () ↔ .supervisor ≤ h.privilege
  /-- The privilege stays what it is; all else is as after the write in Machine mode. -/
  write : ∀ answers value,
    let written := (writeCsr part value).run answers h
    written.result = .ok () →
      written.hart.privilege = h.privilege ∧
        ((writeCsr whole (BitField.merge old value taken)).run answers
          { h with privilege := .machine }).ComesTo (.ok ())
            { written.hart with privilege := .machine } written.calls

variable {h : Hart}

theorem view_machine (h : Hart) (r : Register) :
    { h with privilege := .machine }.view r = h.view r := by
  cases r <;> rfl

theorem lowest_le_machine (r : Register) : r.lowest ≤ .machine := by
  cases r <;> decide

theorem result_readCsr_machine {n : CsrNumber} {r : Register} (opens : Opens n r)
    (answers : Answers) :
    ((readCsr n).run answers { h with privilege := .machine }).result =
      .ok (h.xlen.truncate (h.view r)) := by
  rw [result_readCsr_eq_ok_iff, opens.readDecision_iff, view_machine]
  exact ⟨lowest_le_machine r, rfl⟩

/-- What two registers show and what they make of a value decide whether the first is a view of the
second. -/
theorem maskedView_of_install {part whole : CsrNumber} {r r' : Register} {shown taken : Word}
    (hpart : Opens part r) (hwhole : Opens whole r') (hlowest : r.lowest = .supervisor)
    (hshown : h.xlen.truncate (h.view r) = h.xlen.truncate (h.view r') &&& shown)
    (hinstalled : ∀ value,
      { h with privilege := .machine }.afterInstall r'
          (BitField.merge (h.xlen.truncate (h.view r')) value taken) =
        { h.afterInstall r value with privilege := .machine })
    (hcalls : ∀ value,
      { h with privilege := .machine }.installCalls r'
          (BitField.merge (h.xlen.truncate (h.view r')) value taken) =
        h.installCalls r value) :
    MaskedView h part whole (h.xlen.truncate (h.view r')) shown taken := by
  constructor
  case machineRead => exact result_readCsr_machine hwhole
  case read =>
    intro answers value
    rw [result_readCsr_eq_ok_iff, hpart.readDecision_iff, hlowest, hshown, eq_comm (a := value)]
  case writable =>
    intro answers value
    rw [hpart.result_writeCsr_iff, hlowest]
  case write =>
    intro answers value written hwritten
    have hdecision := hpart.writeDecision_iff.2 (hpart.result_writeCsr_iff.1 hwritten)
    have hmachine : { h with privilege := .machine }.writeDecision whole = .ok r' :=
      hwhole.writeDecision_iff.2 (lowest_le_machine r')
    have hpartial : written.ComesTo (.ok ()) (h.afterInstall r (h.xlen.truncate value))
        (h.installCalls r (h.xlen.truncate value)) := comesTo_writeCsr hdecision value
    -- truncating the merged value and truncating the written one come to the same
    have hvalue : h.xlen.truncate (BitField.merge (h.xlen.truncate (h.view r')) value taken) =
        BitField.merge (h.xlen.truncate (h.view r')) (h.xlen.truncate value) taken := by
      rw [Xlen.truncate_merge, Xlen.truncate_truncate]
    rw [hpartial.hart_eq, hpartial.calls_eq, ← hinstalled, ← hcalls, ← hvalue]
    exact ⟨privilege_afterInstall .., comesTo_writeCsr hmachine _⟩

/-! ## The three views -/

theorem maskedView_sstatus (wf : h.WellFormed) :
    MaskedView h .sstatus .mstatus (h.xlen.truncate h.csrs.mstatus)
      (supervisorView ||| sd h.xlen) supervisorView := by
  have hfits : h.xlen.truncate h.csrs.mstatus = h.csrs.mstatus :=
    Xlen.truncate_eq (wf.status.fields.mono (by cases h.xlen <;> decide))
  have hshown : h.xlen.truncate (supervisorStatus h.xlen h.csrs.mstatus) =
      h.xlen.truncate h.csrs.mstatus &&& (supervisorView ||| sd h.xlen) := by
    rw [supervisorStatus_eq_and wf.status, Xlen.truncate_and]
  refine maskedView_of_install .sstatus .mstatus rfl hshown ?_ ?_
  -- both registers commit the same value
  · intro value
    change committed _ (BitField.merge (h.xlen.truncate h.csrs.mstatus) value supervisorView) = _
    rw [hfits]
    rfl
  · intro value
    change commitCalls _ (BitField.merge (h.xlen.truncate h.csrs.mstatus) value supervisorView) = _
    rw [hfits]
    rfl

theorem maskedView_sie (wf : h.WellFormed) :
    MaskedView h .sie .mie (h.xlen.truncate h.csrs.mie) h.csrs.mideleg h.csrs.mideleg := by
  have hfits : h.xlen.truncate h.csrs.mie = h.csrs.mie :=
    Xlen.truncate_eq (wf.mie.mono (by cases h.xlen <;> decide))
  refine maskedView_of_install .sie .mie rfl (Xlen.truncate_and ..) ?_ fun _ => rfl
  intro value
  change afterInstall _ .mie (BitField.merge (h.xlen.truncate h.csrs.mie) value _) = _
  rw [hfits]
  rfl

/-- Software owns no line beyond the register width, so it does not matter that a read cuts those off. -/
theorem withPending_merge_truncate (h : Hart) (value taken : Word) :
    h.withPending Interrupt.softwarePending (BitField.merge (h.xlen.truncate h.mip) value taken) =
      h.withPending taken value := by
  have hcopy : AgreeOn Interrupt.softwarePending (h.xlen.truncate h.mip) h.mip :=
    (h.xlen.agreeOn_truncate h.mip).mono (by cases h.xlen <;> decide)
  simp only [withPending, Pending.update, BitVec.and_self, merge_merge hcopy]

theorem maskedView_sip (h : Hart) :
    MaskedView h .sip .mip (h.xlen.truncate h.mip) h.csrs.mideleg h.csrs.mideleg := by
  refine maskedView_of_install .sip .mip rfl (Xlen.truncate_and ..) ?_ ?_
  · intro value
    exact withPending_merge_truncate { h with privilege := .machine } value h.csrs.mideleg
  -- the controller is told what is pending, which is the same
  · intro value
    have hmip := congrArg Hart.mip (withPending_merge_truncate h value h.csrs.mideleg)
    exact congrArg (fun pending => [PlatformCall.pendingChanged pending]) hmip

/-- The Supervisor registers of every reachable hart, of either width: each is a view of the Machine register
that Machine mode reads as `status`, `enables` or `pending`. -/
theorem supervisor_views {c : Config} (reachable : Reachable c h) :
    ∃ status enables pending delegated,
      (∀ answers, ((readCsr .mideleg).run answers { h with privilege := .machine }).result =
        .ok delegated) ∧
      MaskedView h .sstatus .mstatus status (supervisorView ||| sd h.xlen) supervisorView ∧
      MaskedView h .sie .mie enables delegated delegated ∧
      MaskedView h .sip .mip pending delegated delegated := by
  have wf := reachable.wellFormed
  have hfits : h.xlen.truncate h.csrs.mideleg = h.csrs.mideleg :=
    Xlen.truncate_eq (wf.mideleg.mono (by cases h.xlen <;> decide))
  have hdelegated := fun answers => result_readCsr_machine (h := h) .mideleg answers
  rw [show h.view .mideleg = h.csrs.mideleg from rfl, hfits] at hdelegated
  exact ⟨_, _, _, _, hdelegated, maskedView_sstatus wf, maskedView_sie wf, maskedView_sip h⟩

/-- A 32-bit hart in Supervisor mode with a dirty floating-point state.  Of the three pending lines one is not
delegated, and one lies beyond the register. -/
theorem supervisor_views_narrow :
    ∃ h, Reachable { xlen := .rv32 } h ∧ h.privilege = .supervisor ∧
      h.csrs.mstatus = 0x80006802 ∧ h.mip = 0x100000021 ∧ h.csrs.mideleg = 0x22 ∧
      ((readCsr .sstatus).run .identity h).result = .ok 0x80006002 ∧
      ((readCsr .sip).run .identity h).result = .ok 0x20 := by
  have hc : ofConfig { xlen := .rv32 } = .ok (atReset { xlen := .rv32 } .machine) := by rfl
  let h := ((Session.start (atReset { xlen := .rv32 } .machine)).run (fun _ => .identity)
    [.writeCsr .mstatus 0x6802, .writeCsr .mideleg 0x22, .raiseLines 0x100000021,
      .setPrivilege 1]).2.hart
  have reachable : Reachable { xlen := .rv32 } h := ⟨_, _, _, hc, rfl⟩
  have hsupervisor : .supervisor ≤ h.privilege := by decide +kernel
  obtain ⟨status, -, pending, delegated, hdelegated, hsstatus, -, hsip⟩ := supervisor_views reachable
  -- what Machine mode reads is what the registers hold
  have hstatus := Except.ok.inj
    ((result_readCsr_machine .mstatus .identity).symm.trans (hsstatus.machineRead .identity))
  have hpending := Except.ok.inj
    ((result_readCsr_machine .mip .identity).symm.trans (hsip.machineRead .identity))
  have hmideleg := Except.ok.inj
    ((result_readCsr_machine .mideleg .identity).symm.trans (hdelegated .identity))
  refine ⟨h, reachable, by decide +kernel, by decide +kernel, by decide +kernel, by decide +kernel,
    ?_, ?_⟩
  · refine (hsstatus.read .identity _).2 ⟨hsupervisor, ?_⟩
    rw [← hstatus]
    decide +kernel
  · refine (hsip.read .identity _).2 ⟨hsupervisor, ?_⟩
    rw [← hpending, ← hmideleg]
    decide +kernel

end Hart
end PrivilegedHart
