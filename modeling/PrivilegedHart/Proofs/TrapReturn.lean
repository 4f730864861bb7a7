import PrivilegedHart.Proofs.WellFormed

/-!
# What a return from a trap changes

A return restores an interrupt enable, clears two fields of the status and changes the privilege.  The new
status is built with an enable that is named by the previous privilege, which need not be one that the hart
has, and then goes through a commit.  On a reachable hart nothing more comes of it than the architecture
says: one enable, two cleared fields, and every other bit as before, the summary included.
-/

namespace PrivilegedHart

open Word

namespace Status

/-! ## Kinds of traps -/

/-- The traps that a hart can return from. -/
inductive TrapKind where
  | supervisor
  | machine
  deriving DecidableEq, Repr

namespace TrapKind

/-- The field that holds the privilege before the trap. -/
def previous : TrapKind → Word
  | supervisor => spp
  | machine => mpp

/-- The field that holds the enable before the trap. -/
def saved : TrapKind → Word
  | supervisor => spie
  | machine => mpie

end TrapKind

/-- The enable of the privilege that a code stands for.  User mode and the former hypervisor level have
none. -/
def enableOf : Nat → Word
  | 1 => sie
  | 3 => mie
  | _ => 0

/-- The bits that a return changes, if the privilege before the trap has a code. -/
def TrapKind.changed (kind : TrapKind) (code : Nat) : Word :=
  enableOf code ||| kind.saved ||| kind.previous

variable {x : Xlen} {old status : Word} (kind : TrapKind)

theorem toNat_get_previous_lt (status : Word) : (BitField.get status kind.previous).toNat < 4 := by
  have hle := toNat_get_le status kind.previous
  have hbound : (kind.previous >>> BitField.position kind.previous).toNat < 4 := by
    cases kind <;> decide +kernel
  omega

/-- A saved enable is one bit. -/
theorem get_saved (status : Word) :
    BitField.get status kind.saved = if status &&& kind.saved = 0 then 0 else 1 := by
  have hne : kind.saved ≠ 0 := by cases kind <;> decide
  have hone : kind.saved >>> BitField.position kind.saved = 1 := by cases kind <;> decide +kernel
  have hbit : status &&& kind.saved = 0 ∨ status &&& kind.saved = kind.saved := by
    cases kind with
    | supervisor => exact and_bit status 5
    | machine => exact and_bit status 7
  rw [BitField.get, if_neg hne]
  rcases hbit with hzero | hfull
  · rw [hzero, if_pos rfl, BitVec.ofNat_eq_ofNat, BitVec.zero_ushiftRight]
  · rw [hfull, if_neg hne, hone]

/-! ## Sound statuses and commits -/

/-- A commit keeps even the summary, if the written value leaves the extension states as they were. -/
theorem Sound.commit_keeps (sound : Sound x old) {mask value : Word}
    (hvalue : AgreeOn (mask &&& (writable ||| vm)) value old) (hfs : fs &&& mask = fs)
    (hxs : xs &&& mask = xs) : AgreeOn mask (Status.commit x old value) old := by
  have hmerged : AgreeOn mask (BitField.merge old value (commitMask value)) old :=
    hvalue.merge_keeps (commitMask_and value)
  have hdirty : isDirty (BitField.merge old value (commitMask value)) = isDirty old := by
    rw [isDirty, isDirty, (hmerged.mono hfs).get_eq, (hmerged.mono hxs).get_eq]
  have hsummary : AgreeOn mask (Status.commit x old value) (summarize x old) := by
    rw [Status.commit, summarize, summarize, hdirty]
    exact hmerged.set ..
  rw [sound.summarize_eq] at hsummary
  exact hsummary

/-- A commit takes what is written into fields that a write may change. -/
theorem commit_takes (x : Xlen) (old value : Word) {mask : Word} (hmask : mask &&& writable = mask) :
    AgreeOn mask (Status.commit x old value) value := by
  have hwritable : writable &&& commitMask value = writable := by
    unfold commitMask
    split <;> decide
  have htaken : mask &&& commitMask value = mask := by
    rw [← hmask, BitVec.and_assoc, hwritable]
  have hsummary : mask &&& ~~~sd x = mask := by
    have hdisjoint : writable &&& ~~~sd x = writable := by cases x <;> decide
    rw [← hmask, BitVec.and_assoc, hdisjoint]
  exact (agreeOn_summarize_of x _ hsummary).trans ((agreeOn_merge_new ..).mono htaken)

end Status

/-- The privilege that a code stands for after a trap. -/
def Privilege.ofCode : Nat → Privilege
  | 1 => .supervisor
  | 3 => .machine
  | _ => .user

theorem Privilege.eq_ofCode {raw : Word} {p : Privilege} (hp : ofLevel? raw = some p) :
    p = ofCode raw.toNat := by
  unfold ofLevel? at hp
  split at hp <;> cases hp <;> simp_all [ofCode]

namespace Hart

open Status

/-! ## The status after a return -/

section StatusAfterReturn

variable (kind : TrapKind) (status : Word)

theorem cleared_statusAfterReturn :
    AgreeOn (kind.saved ||| kind.previous) (statusAfterReturn status kind.previous kind.saved) 0 := by
  have hdisjoint : kind.saved &&& ~~~kind.previous = kind.saved := by cases kind <;> decide
  refine AgreeOn.union ?_ (agreeOn_set_zero ..)
  exact ((agreeOn_set ..).mono hdisjoint).trans (agreeOn_set_zero ..)

/-- The saved enable goes to a bit named by the previous privilege, and stays there if that bit is in
neither of the two fields. -/
theorem moved_statusAfterReturn {target : Word}
    (htarget : uie <<< (BitField.get status kind.previous).toNat = target)
    (hprevious : target &&& ~~~kind.previous = target) (hsaved : target &&& ~~~kind.saved = target) :
    AgreeOn target (statusAfterReturn status kind.previous kind.saved)
      (BitField.get status kind.saved <<< BitField.position target) := by
  unfold statusAfterReturn
  rw [htarget]
  refine ((agreeOn_set ..).mono hprevious).trans (((agreeOn_set ..).mono hsaved).trans ?_)
  exact agreeOn_set_new ..

/-- The enable of the previous privilege becomes what was saved.  Where there is no such enable, this says
nothing. -/
theorem restored_statusAfterReturn {code : Nat}
    (hcode : (BitField.get status kind.previous).toNat = code) :
    AgreeOn (enableOf code) (statusAfterReturn status kind.previous kind.saved)
      (if status &&& kind.saved = 0 then 0 else enableOf code) := by
  have hlt := toNat_get_previous_lt kind status
  have hcases : code = 1 ∨ code = 3 ∨ code = 0 ∨ code = 2 := by omega
  rcases hcases with rfl | rfl | rfl | rfl
  · have hmoved := moved_statusAfterReturn kind status (show _ = sie by rw [hcode]; decide)
      (by cases kind <;> decide) (by cases kind <;> decide)
    rw [get_saved] at hmoved
    refine hmoved.trans ?_
    split <;> decide +kernel
  · have hmoved := moved_statusAfterReturn kind status (show _ = mie by rw [hcode]; decide)
      (by cases kind <;> decide) (by cases kind <;> decide)
    rw [get_saved] at hmoved
    refine hmoved.trans ?_
    split <;> decide +kernel
  -- User mode and the former hypervisor mode: no enable
  · exact agreeOn_zero ..
  · exact agreeOn_zero ..

/-- A bit that a commit can take over is as before, unless it is in one of the two fields or the enable.
The enables of User mode and of the former hypervisor mode are no such bits. -/
theorem kept_statusAfterReturn {code : Nat}
    (hcode : (BitField.get status kind.previous).toNat = code) :
    AgreeOn (~~~kind.changed code &&& (writable ||| vm))
      (statusAfterReturn status kind.previous kind.saved) status := by
  have hspared : ∀ code < 4,
      ~~~kind.changed code &&& (writable ||| vm) &&& ~~~(uie <<< code) =
          ~~~kind.changed code &&& (writable ||| vm) ∧
        ~~~kind.changed code &&& (writable ||| vm) &&& ~~~kind.saved =
          ~~~kind.changed code &&& (writable ||| vm) ∧
        ~~~kind.changed code &&& (writable ||| vm) &&& ~~~kind.previous =
          ~~~kind.changed code &&& (writable ||| vm) := by
    cases kind <;> decide
  have hlt := toNat_get_previous_lt kind status
  rw [hcode] at hlt
  obtain ⟨henable, hsaved, hprevious⟩ := hspared code hlt
  refine agreeOn_statusAfterReturn status ?_ hsaved hprevious
  rw [hcode]
  exact henable

end StatusAfterReturn

/-! ## The hart after a return -/

/-- What a return from a kind of trap makes of a hart. -/
structure Returned (kind : TrapKind) (h h' : Hart) : Prop where
  /-- Nothing but the privilege and the status is touched. -/
  rest : h' = { h with privilege := h'.privilege, csrs.mstatus := h'.csrs.mstatus }
  privilege : h'.privilege = .ofCode (BitField.get h.csrs.mstatus kind.previous).toNat
  lowered : h'.privilege ≤ h.privilege
  cleared : h'.csrs.mstatus &&& (kind.saved ||| kind.previous) = 0
  restored :
    let enable := enableOf (BitField.get h.csrs.mstatus kind.previous).toNat
    h'.csrs.mstatus &&& enable = if h.csrs.mstatus &&& kind.saved = 0 then 0 else enable
  /-- Every other bit of the status is as before. -/
  kept : AgreeOn (~~~kind.changed (BitField.get h.csrs.mstatus kind.previous).toNat)
    h'.csrs.mstatus h.csrs.mstatus
  /-- The enables that the hart lacks stay clear. -/
  lacking : h'.csrs.mstatus &&& (uie ||| hie) = 0

theorem returned_of_sound {h : Hart} {kind : TrapKind} {p : Privilege}
    (sound : Sound h.xlen h.csrs.mstatus)
    (hp : Privilege.ofLevel? (BitField.get h.csrs.mstatus kind.previous) = some p)
    (hle : p ≤ h.privilege) : Returned kind h (h.returned p kind.previous kind.saved) := by
  generalize hcode : (BitField.get h.csrs.mstatus kind.previous).toNat = code
  have hlt := toNat_get_previous_lt kind h.csrs.mstatus
  rw [hcode] at hlt
  have hfields : (kind.saved ||| kind.previous) &&& writable = kind.saved ||| kind.previous := by
    cases kind <;> decide
  have henable : ∀ code < 4, enableOf code &&& writable = enableOf code := by decide
  have hfs : ∀ code < 4, fs &&& ~~~kind.changed code = fs := by
    cases kind <;> decide
  have hxs : ∀ code < 4, xs &&& ~~~kind.changed code = xs := by
    cases kind <;> decide
  have hcleared := (commit_takes h.xlen h.csrs.mstatus _ hfields).trans
    (cleared_statusAfterReturn kind h.csrs.mstatus)
  have hrestored := (commit_takes h.xlen h.csrs.mstatus _ (henable code hlt)).trans
    (restored_statusAfterReturn kind h.csrs.mstatus hcode)
  constructor
  case rest => rfl
  case privilege => exact Privilege.eq_ofCode hp
  case lowered => exact hle
  case cleared => exact Eq.trans hcleared BitVec.zero_and
  case restored =>
    simp only [hcode]
    refine Eq.trans hrestored ?_
    split
    · exact BitVec.zero_and
    · exact BitVec.and_self
  case kept =>
    rw [hcode]
    exact sound.commit_keeps (kept_statusAfterReturn kind h.csrs.mstatus hcode)
      (hfs code hlt) (hxs code hlt)
  case lacking =>
    have hlacking : AgreeOn (uie ||| hie) (h.returned p kind.previous kind.saved).csrs.mstatus 0 :=
      (sound.commit _).agreeOn_reserved.mono (by cases h.xlen <;> decide)
    exact Eq.trans hlacking BitVec.zero_and

theorem supervisorReturn_exact {h : Hart} (wf : WellFormed h) (answers : Answers) :
    let o := returnFromSupervisorTrap.run answers h
    (o.result =
        if h.privilege < .supervisor then .error (.exception .illegalInstruction)
        else if Word.isAligned h.csrs.sepc then .ok h.csrs.sepc
        else .error (.exception .instructionAddressMisaligned)) ∧
      ∀ pc, o.result = .ok pc → Returned .supervisor h o.hart := by
  intro o
  rcases comesTo_returnFromSupervisorTrap answers h with
    ⟨hlow, ho⟩ | ⟨hhigh, haligned, ho⟩ | ⟨hhigh, haligned, p, hp, hle, ho⟩
  · refine ⟨by rw [if_pos hlow]; exact ho.result_eq, fun pc hpc => ?_⟩
    cases ho.result_eq.symm.trans hpc
  · refine ⟨by rw [if_neg hhigh, haligned]; exact ho.result_eq, fun pc hpc => ?_⟩
    cases ho.result_eq.symm.trans hpc
  · rw [Xlen.truncate_eq wf.width.sepc] at ho
    refine ⟨by rw [if_neg hhigh, haligned]; exact ho.result_eq, fun pc hpc => ?_⟩
    have hbelow : p ≤ h.privilege := by
      rw [Privilege.lt_def] at hhigh
      rw [Privilege.le_def] at hle ⊢
      omega
    rw [ho.hart_eq]
    exact returned_of_sound wf.status hp hbelow

theorem machineReturn_exact {h : Hart} (wf : WellFormed h) (answers : Answers) :
    let o := returnFromMachineTrap.run answers h
    (o.result =
        if h.privilege = .machine then .ok h.csrs.mepc
        else .error (.exception .illegalInstruction)) ∧
      ∀ pc, o.result = .ok pc → Returned .machine h o.hart := by
  intro o
  rcases comesTo_returnFromMachineTrap answers h with ⟨hlow, ho⟩ | ⟨hhigh, p, hp, ho⟩
  · have hne : h.privilege ≠ .machine := by
      intro hmachine
      rw [hmachine] at hlow
      exact absurd hlow (by decide)
    refine ⟨by rw [if_neg hne]; exact ho.result_eq, fun pc hpc => ?_⟩
    cases ho.result_eq.symm.trans hpc
  · have hmachine : h.privilege = .machine := by
      refine Privilege.eq_machine_of_le ?_
      rw [Privilege.lt_def] at hhigh
      rw [Privilege.le_def]
      omega
    rw [Xlen.truncate_eq wf.width.mepc] at ho
    refine ⟨by rw [if_pos hmachine]; exact ho.result_eq, fun pc hpc => ?_⟩
    have hbelow : p ≤ h.privilege := by
      rw [hmachine]
      cases p <;> decide
    rw [ho.hart_eq]
    exact returned_of_sound wf.status hp hbelow

/-- Both returns, on every reachable hart: when they succeed, in which order they fail, where they go on,
and what they change. -/
theorem trap_returns_exact {c : Config} {h : Hart} (reachable : Reachable c h) (answers : Answers) :
    let sret := returnFromSupervisorTrap.run answers h
    let mret := returnFromMachineTrap.run answers h
    (sret.result =
        if h.privilege < .supervisor then .error (.exception .illegalInstruction)
        else if Word.isAligned h.csrs.sepc then .ok h.csrs.sepc
        else .error (.exception .instructionAddressMisaligned)) ∧
      (∀ pc, sret.result = .ok pc → Returned .supervisor h sret.hart) ∧
      (mret.result =
        if h.privilege = .machine then .ok h.csrs.mepc
        else .error (.exception .illegalInstruction)) ∧
      ∀ pc, mret.result = .ok pc → Returned .machine h mret.hart := by
  intro sret mret
  obtain ⟨hsret, hsreturned⟩ := supervisorReturn_exact reachable.wellFormed answers
  obtain ⟨hmret, hmreturned⟩ := machineReturn_exact reachable.wellFormed answers
  exact ⟨hsret, hsreturned, hmret, hmreturned⟩

/-- A Machine return to the former hypervisor level, at a misaligned address.  It comes out in User mode,
the saved enable goes nowhere, and the dirty state stays. -/
theorem trap_returns_exact_hypervisor :
    ∃ h, Reachable {} h ∧ h.csrs.mstatus = 0x8000000000007082 ∧
      (returnFromMachineTrap.run .identity h).result = .ok 0x1002 ∧
      Returned .machine h (returnFromMachineTrap.run .identity h).hart ∧
      (returnFromMachineTrap.run .identity h).hart.privilege = .user ∧
      (returnFromMachineTrap.run .identity h).hart.csrs.mstatus = 0x8000000000006002 := by
  have hc : ofConfig {} = .ok (atReset {} .machine) := by rfl
  let h := ((Session.start (atReset {} .machine)).run (fun _ => .identity)
    [.writeCsr CsrNumber.mepc 0x1002, .writeCsr CsrNumber.mstatus 0x7082]).2.hart
  have reachable : Reachable {} h := ⟨_, _, _, hc, rfl⟩
  have hstatus : h.csrs.mstatus = 0x8000000000007082 := by decide +kernel
  have hmachine : h.privilege = .machine := by decide +kernel
  have hmepc : h.csrs.mepc = 0x1002 := by decide +kernel
  obtain ⟨-, -, hmret, hreturned⟩ := trap_returns_exact reachable .identity
  rw [if_pos hmachine, hmepc] at hmret
  refine ⟨h, reachable, hstatus, hmret, hreturned _ hmret, ?_, ?_⟩
  · rw [(hreturned _ hmret).privilege, hstatus]
    decide +kernel
  · decide +kernel

end Hart
end PrivilegedHart
