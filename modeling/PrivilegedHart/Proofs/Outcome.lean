import PrivilegedHart.Hart.TlbMiss
import PrivilegedHart.Proofs.Status

/-!
# Outcomes of traps, returns and TLB misses

An action is a program over the hart and its platform; what it comes to is a result, a hart and a list of
calls.  For the actions that commit a status, change the privilege, return from traps or resolve TLB misses
this module states that outcome outright.  Diagnostics never influence a hart, so they are left out.
-/

namespace PrivilegedHart

/-- What an outcome is, apart from its diagnostics. -/
structure Outcome.ComesTo {α : Type} (o : Outcome α) (result : Except Unwind α) (hart : Hart)
    (calls : List PlatformCall) : Prop where
  result_eq : o.result = result
  hart_eq : o.hart = hart
  calls_eq : o.calls = calls

namespace Outcome

variable {α β : Type}

@[simp] theorem comesTo_mk {result result' : Except Unwind α} {hart hart' : Hart}
    {calls calls' : List PlatformCall} {diagnostics : List Diagnostic} :
    (⟨result, hart, calls, diagnostics⟩ : Outcome α).ComesTo result' hart' calls' ↔
      result = result' ∧ hart = hart' ∧ calls = calls' :=
  ⟨fun ⟨hr, hh, hc⟩ => ⟨hr, hh, hc⟩, fun ⟨hr, hh, hc⟩ => ⟨hr, hh, hc⟩⟩

end Outcome

namespace HartAction

variable {α β : Type} {answers : Answers} {h h' h'' : Hart} {calls calls' : List PlatformCall}

/-- After a success the next action goes on, and its calls follow. -/
theorem comesTo_bind {x : HartAction α} {f : α → HartAction β} {a : α} {result : Except Unwind β}
    (hx : (x.run answers h).ComesTo (.ok a) h' calls)
    (hf : ((f a).run answers h').ComesTo result h'' calls') :
    ((x >>= f).run answers h).ComesTo result h'' (calls ++ calls') := by
  rw [run_bind]
  generalize x.run answers h = o at hx
  obtain ⟨r, hart, c, d⟩ := o
  obtain ⟨rfl, rfl, rfl⟩ := Outcome.comesTo_mk.1 hx
  obtain ⟨hr, hh, hc⟩ := hf
  rw [Outcome.andThen_ok, Outcome.comesTo_mk]
  exact ⟨hr, hh, by rw [hc]⟩

/-- After an unwind nothing further happens. -/
theorem comesTo_bind_error {x : HartAction α} {u : Unwind} (f : α → HartAction β)
    (hx : (x.run answers h).ComesTo (.error u) h' calls) :
    ((x >>= f).run answers h).ComesTo (.error u) h' calls := by
  rw [run_bind]
  generalize x.run answers h = o at hx
  obtain ⟨r, hart, c, d⟩ := o
  obtain ⟨rfl, rfl, rfl⟩ := Outcome.comesTo_mk.1 hx
  exact ⟨rfl, rfl, rfl⟩

theorem comesTo_bind_pure {x : HartAction α} {a : α} (g : α → β)
    (hx : (x.run answers h).ComesTo (.ok a) h' calls) :
    ((x >>= fun a => pure (g a)).run answers h).ComesTo (.ok (g a)) h' calls := by
  have hpure : ((pure (g a) : HartAction β).run answers h').ComesTo (.ok (g a)) h' [] :=
    ⟨rfl, rfl, rfl⟩
  rw [← List.append_nil calls]
  exact comesTo_bind hx hpure

end HartAction

namespace Privilege

theorem ofLevel?_get_spp (status : Word) :
    ∃ p, ofLevel? (BitField.get status Status.spp) = some p ∧ p ≤ .supervisor := by
  unfold ofLevel?
  rcases Status.toNat_get_spp status with h | h
  · exact ⟨.user, by rw [h]; rfl, by decide⟩
  · exact ⟨.supervisor, by rw [h]; rfl, by decide⟩

theorem ofLevel?_get_mpp (status : Word) :
    ∃ p, ofLevel? (BitField.get status Status.mpp) = some p := by
  -- two bits cannot name a level above Machine
  have hle : (BitField.get status Status.mpp).toNat ≤ 3 :=
    Nat.le_trans (Word.toNat_get_le ..) (by decide +kernel)
  cases h : ofLevel? (BitField.get status Status.mpp) with
  | some p => exact ⟨p, rfl⟩
  | none =>
      have hlt := (ofLevel?_eq_none_iff _).1 h
      omega

end Privilege

namespace Hart

open HartAction

variable {α : Type} (answers : Answers) (h : Hart)

/-! ## Commits -/

/-- The hart after a value has been committed to its status. -/
def committed (value : Word) : Hart :=
  { h with csrs.mstatus := Status.commit h.xlen h.csrs.mstatus value }

/-- A commit empties the TLB if the value differs in a field that address mappings depend on. -/
def commitCalls (value : Word) : List PlatformCall :=
  if Status.affectsMapping h.csrs.mstatus value then [.flushTlb] else []

theorem comesTo_commitStatus (value : Word) :
    ((commitStatus value).run answers h).ComesTo (.ok ()) (h.committed value)
      (h.commitCalls value) := by
  rw [run_commitStatus]
  exact ⟨rfl, rfl, rfl⟩

/-- Without a call to empty the TLB, no field that address mappings depend on differs. -/
theorem agreeOn_of_commitCalls {value : Word} (hquiet : .flushTlb ∉ h.commitCalls value) :
    Word.AgreeOn Status.mappingFields value h.csrs.mstatus := by
  unfold commitCalls at hquiet
  split at hquiet
  · exact absurd (List.mem_singleton_self _) hquiet
  · next hsame =>
      apply Word.agreeOn_of_xor
      simpa [Status.affectsMapping] using hsame

theorem eq_flushTlb_of_mem_commitCalls {value : Word} {call : PlatformCall}
    (hcall : call ∈ h.commitCalls value) : call = .flushTlb := by
  unfold commitCalls at hcall
  split at hcall
  · exact List.mem_singleton.1 hcall
  · cases hcall

/-! ## Changes of privilege -/

theorem comesTo_setPrivilege {level : Word} {p : Privilege}
    (hlevel : Privilege.ofLevel? level = some p) :
    ((setPrivilege level).run answers h).ComesTo (.ok ()) { h with privilege := p }
      [.flushTlb] := by
  rw [run_setPrivilege_of_some answers h hlevel]
  exact ⟨rfl, rfl, rfl⟩

theorem comesTo_setPrivilege_none {level : Word} (hlevel : Privilege.ofLevel? level = none) :
    ((setPrivilege level).run answers h).ComesTo (.error (.fatal (.invalidPrivilege level))) h
      [] := by
  rw [run_setPrivilege_of_none answers h hlevel]
  exact ⟨rfl, rfl, rfl⟩

/-- The hart after a return to privilege `p` from a trap with the status fields `privilege` and
`enable`. -/
def returned (p : Privilege) (privilege enable : Word) : Hart :=
  { h with privilege := p }.committed (statusAfterReturn h.csrs.mstatus privilege enable)

theorem agreeOn_statusAfterReturn {mask privilege enable : Word} (status : Word)
    (htarget : mask &&& ~~~(Status.uie <<< (BitField.get status privilege).toNat) = mask)
    (henable : mask &&& ~~~enable = mask) (hprivilege : mask &&& ~~~privilege = mask) :
    Word.AgreeOn mask (statusAfterReturn status privilege enable) status := by
  unfold statusAfterReturn
  -- the fields are set from the inside out
  refine ((Word.agreeOn_set ..).mono hprivilege).trans ?_
  refine ((Word.agreeOn_set ..).mono henable).trans ?_
  exact (Word.agreeOn_set ..).mono htarget

/-- A return empties the TLB for the change of privilege, and again if the commit asks for it. -/
def returnCalls (privilege enable : Word) : List PlatformCall :=
  .flushTlb :: h.commitCalls (statusAfterReturn h.csrs.mstatus privilege enable)

theorem eq_flushTlb_of_mem_returnCalls {privilege enable : Word} {call : PlatformCall}
    (hcall : call ∈ h.returnCalls privilege enable) : call = .flushTlb := by
  rcases List.mem_cons.1 hcall with hflush | hcommit
  · exact hflush
  · exact eq_flushTlb_of_mem_commitCalls h hcommit

/-- The part that both returns share: they change the privilege, commit a status and go on at an address. -/
theorem comesTo_return {privilege enable : Word} {p : Privilege}
    (hlevel : Privilege.ofLevel? (BitField.get h.csrs.mstatus privilege) = some p)
    (target : Word) :
    ((do
      setPrivilege (BitField.get h.csrs.mstatus privilege)
      commitStatus (statusAfterReturn h.csrs.mstatus privilege enable)
      return target : HartAction Word).run answers h).ComesTo
        (.ok target) (h.returned p privilege enable) (h.returnCalls privilege enable) := by
  refine comesTo_bind (comesTo_setPrivilege answers h hlevel) ?_
  exact comesTo_bind_pure (fun _ => target) (comesTo_commitStatus answers { h with privilege := p }
    (statusAfterReturn h.csrs.mstatus privilege enable))

/-- A Supervisor return is refused below Supervisor mode, then for a misaligned address, and succeeds
otherwise. -/
theorem comesTo_returnFromSupervisorTrap :
    (h.privilege < .supervisor ∧ (returnFromSupervisorTrap.run answers h).ComesTo
      (.error (.exception .illegalInstruction))
      { h with pendingCause := some .illegalInstruction } []) ∨
    (¬ h.privilege < .supervisor ∧ Word.isAligned h.csrs.sepc = false ∧
      (returnFromSupervisorTrap.run answers h).ComesTo
        (.error (.exception .instructionAddressMisaligned))
        { h with pendingCause := some .instructionAddressMisaligned } []) ∨
    (¬ h.privilege < .supervisor ∧ Word.isAligned h.csrs.sepc = true ∧
      ∃ p, Privilege.ofLevel? (BitField.get h.csrs.mstatus Status.spp) = some p ∧
        p ≤ .supervisor ∧ (returnFromSupervisorTrap.run answers h).ComesTo
          (.ok (h.xlen.truncate h.csrs.sepc)) (h.returned p Status.spp Status.spie)
          (h.returnCalls Status.spp Status.spie)) := by
  by_cases hlow : h.privilege < .supervisor
  · refine Or.inl ⟨hlow, ?_⟩
    simp [returnFromSupervisorTrap, hlow, run_raise]
  · cases haligned : Word.isAligned h.csrs.sepc with
    | false =>
        refine Or.inr (Or.inl ⟨hlow, rfl, ?_⟩)
        simp [returnFromSupervisorTrap, hlow, haligned, run_raise]
    | true =>
        obtain ⟨p, hp, hle⟩ := Privilege.ofLevel?_get_spp h.csrs.mstatus
        refine Or.inr (Or.inr ⟨hlow, rfl, p, hp, hle, ?_⟩)
        have hrun : returnFromSupervisorTrap.run answers h = (do
            setPrivilege (BitField.get h.csrs.mstatus Status.spp)
            commitStatus (statusAfterReturn h.csrs.mstatus Status.spp Status.spie)
            return h.xlen.truncate h.csrs.sepc : HartAction Word).run answers h := by
          simp [returnFromSupervisorTrap, hlow, haligned]
        rw [hrun]
        exact comesTo_return answers h hp _

/-- A Machine return is refused below Machine mode and succeeds otherwise. -/
theorem comesTo_returnFromMachineTrap :
    (h.privilege < .machine ∧ (returnFromMachineTrap.run answers h).ComesTo
      (.error (.exception .illegalInstruction))
      { h with pendingCause := some .illegalInstruction } []) ∨
    (¬ h.privilege < .machine ∧
      ∃ p, Privilege.ofLevel? (BitField.get h.csrs.mstatus Status.mpp) = some p ∧
        (returnFromMachineTrap.run answers h).ComesTo
          (.ok (h.xlen.truncate h.csrs.mepc)) (h.returned p Status.mpp Status.mpie)
          (h.returnCalls Status.mpp Status.mpie)) := by
  by_cases hlow : h.privilege < .machine
  · refine Or.inl ⟨hlow, ?_⟩
    simp [returnFromMachineTrap, hlow, run_raise]
  · obtain ⟨p, hp⟩ := Privilege.ofLevel?_get_mpp h.csrs.mstatus
    refine Or.inr ⟨hlow, p, hp, ?_⟩
    have hrun : returnFromMachineTrap.run answers h = (do
        setPrivilege (BitField.get h.csrs.mstatus Status.mpp)
        commitStatus (statusAfterReturn h.csrs.mstatus Status.mpp Status.mpie)
        return h.xlen.truncate h.csrs.mepc : HartAction Word).run answers h := by
      simp [returnFromMachineTrap, hlow]
    rw [hrun]
    exact comesTo_return answers h hp _

/-! ## TLB misses -/

/-- A TLB miss walks the page table once.  A failed walk raises the cause that the walker chose, and the
address that a successful walk found is put into the TLB. -/
theorem comesTo_tlbMiss (vaddr : VirtAddr) (access : Access) (mode : Privilege) :
    (∃ fault, (answers.walk h.csrs vaddr access mode).fault = some fault ∧
      ((tlbMiss vaddr access mode).run answers h).ComesTo (.error (.exception fault.cause))
        { h with badaddr := fault.badaddr.value, pendingCause := some fault.cause }
        [.walk h.csrs vaddr access mode]) ∨
    (∃ paddr, answers.walk h.csrs vaddr access mode = .success paddr ∧
      ((tlbMiss vaddr access mode).run answers h).ComesTo (.ok paddr) h
        [.walk h.csrs vaddr access mode, .install vaddr paddr access mode]) := by
  generalize hfound : answers.walk h.csrs vaddr access mode = found
  obtain ⟨paddr, fault⟩ := found
  cases fault with
  | some fault =>
      refine Or.inl ⟨fault, rfl, ?_⟩
      simp [tlbMiss, hfound, run_raiseWithBadaddr]
  | none =>
      refine Or.inr ⟨paddr, rfl, ?_⟩
      simp [tlbMiss, hfound]

end Hart
end PrivilegedHart
