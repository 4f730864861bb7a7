import Mathlib.Data.List.Induction
import PrivilegedHart.Proofs.Effect

/-!
# No stale translation survives

A TLB holds what a hart has installed since it last asked for the TLB to be emptied.  Every such entry was
found by the walk right before it, and that walk saw the privilege and the status fields that address
mappings depend on as they are now: whatever changes one of them empties the TLB in the same operation.

The root of the page table is not among them.  Writing `sptbr` does not empty the TLB, and nothing is said
here about the tables themselves.
-/

namespace PrivilegedHart
namespace Hart

open Word

/-- Two harts agree on what address mappings depend on. -/
structure SameMapping (h h' : Hart) : Prop where
  status : AgreeOn Status.mappingFields h.csrs.mstatus h'.csrs.mstatus
  privilege : h.privilege = h'.privilege

variable {answers : Answers} {h h' h'' : Hart} {op : Operation}
  {result : Except Unwind Reply} {calls : List PlatformCall}

theorem SameMapping.refl (h : Hart) : SameMapping h h := ⟨.refl .., rfl⟩

theorem SameMapping.trans (same : SameMapping h h') (same' : SameMapping h' h'') :
    SameMapping h h'' :=
  ⟨same.status.trans same'.status, same.privilege.trans same'.privilege⟩

theorem SameState.sameMapping (s : SameState h h') : SameMapping h h' := by
  obtain ⟨pc, cause, badaddr, waiting, rfl⟩ := s.exists_eq
  exact ⟨.refl .., rfl⟩

/-! ## What changes a mapping empties the TLB -/

/-- A commit that does not empty the TLB keeps every field that mappings depend on. -/
theorem sameMapping_committed {value : Word} (hquiet : .flushTlb ∉ h.commitCalls value) :
    SameMapping h (h.committed value) := by
  have hvalue := agreeOn_of_commitCalls h hquiet
  have hkept : AgreeOn Status.mappingFields (Status.commit h.xlen h.csrs.mstatus value)
      h.csrs.mstatus :=
    Status.commit_keeps _ _ _ (hvalue.mono (by decide)) (by cases h.xlen <;> decide)
  exact ⟨hkept.symm, rfl⟩

/-- Dirty floating-point state does not concern mappings, so nothing needs to be emptied. -/
theorem sameMapping_float (h : Hart) (flags rounding : Word) :
    SameMapping h { h.markFloatDirty with csrs.fflags := flags, csrs.frm := rounding } := by
  have hkept : AgreeOn Status.mappingFields (Status.markFloat h.xlen h.csrs.mstatus)
      h.csrs.mstatus :=
    (Status.markFloat_keeps ..).mono (by cases h.xlen <;> decide)
  exact ⟨hkept.symm, rfl⟩

theorem sameMapping_afterInstall {r : Register} {value : Word}
    (hquiet : .flushTlb ∉ h.installCalls r value) : SameMapping h (h.afterInstall r value) := by
  cases r with
  | mstatus => exact sameMapping_committed hquiet
  | sstatus => exact sameMapping_committed hquiet
  | fflags => exact sameMapping_float h _ _
  | frm => exact sameMapping_float h _ _
  | fcsr => exact sameMapping_float h _ _
  | _ => exact ⟨.refl .., rfl⟩

/-- An operation that does not empty the TLB keeps what mappings depend on. -/
theorem sameMapping_of_effect (heffect : Effect answers h op result h' calls)
    (hquiet : .flushTlb ∉ calls) : SameMapping h h' := by
  cases heffect with
  | quiet hsame => exact hsame.sameMapping
  | trapped hsame hcalls => exact hsame.sameMapping
  | written hop hwrite => exact sameMapping_afterInstall hquiet
  | stopped | filled | retired | raisedLines | loweredLines => exact ⟨.refl .., rfl⟩
  -- all others empty the TLB first
  | flushed | fenced | switched | supervisorReturn | machineReturn =>
      exact absurd List.mem_cons_self hquiet

/-! ## Where translations come from -/

variable {vaddr : VirtAddr} {paddr : PhysAddr} {access : Access} {mode : Privilege}

/-- Only a TLB miss puts a translation into the TLB, right after the walk that found it. -/
theorem fill_of_effect (heffect : Effect answers h op result h' calls)
    {before after : List PlatformCall}
    (hcalls : calls = before ++ .install vaddr paddr access mode :: after) :
    op = .tlbMiss vaddr access mode ∧ h' = h ∧
      before = [.walk h.csrs vaddr access mode] ∧ after = [] ∧
      answers.walk h.csrs vaddr access mode = .success paddr := by
  have hmem : .install vaddr paddr access mode ∈ calls := by
    rw [hcalls]
    exact List.mem_append_right _ List.mem_cons_self
  cases heffect with
  | filled hwalk =>
      -- the second of two calls
      match before, hcalls with
      | [], hcalls => cases hcalls
      | [_], hcalls =>
          cases hcalls
          exact ⟨rfl, rfl, rfl, rfl, hwalk⟩
      | _ :: _ :: before, hcalls => simp at hcalls
  | trapped hsame hquestions => exact absurd (hquestions _ hmem) Bool.false_ne_true
  | written hop hwrite => rcases eq_of_mem_installCalls hmem with hcall | ⟨_, hcall⟩ <;> cases hcall
  | supervisorReturn | machineReturn => cases eq_flushTlb_of_mem_returnCalls h hmem
  | _ => simp at hmem

/-! ## Runs -/

/-- A call in the log of two parts was made in the first or in the second. -/
theorem append_eq_append_cons {α : Type} {xs ys before after : List α} {x : α}
    (h : xs ++ ys = before ++ x :: after) :
    (∃ after', xs = before ++ x :: after' ∧ after = after' ++ ys) ∨
      ∃ before', before = xs ++ before' ∧ ys = before' ++ x :: after := by
  rcases List.append_eq_append_iff.1 h with ⟨before', hbefore, hys⟩ | ⟨rest, hxs, hrest⟩
  · exact Or.inr ⟨before', hbefore, hys⟩
  · cases rest with
    | nil => exact Or.inr ⟨[], by simpa using hxs.symm, by simpa using hrest.symm⟩
    | cons y after' =>
        rw [List.cons_append, List.cons.injEq] at hrest
        obtain ⟨rfl, hafter⟩ := hrest
        exact Or.inl ⟨after', hxs, hafter⟩

/-- At every point of a run, every translation that the hart has installed since it last emptied the TLB
is one that the walk right before found, without a fault, and that walk was given the status fields that
mappings depend on, at the privilege, that the hart has now. -/
theorem no_stale_translation (platform : Platform) (h : Hart) (ops : List Operation)
    {before after : List PlatformCall}
    (hcalls : ((Session.start h).run platform ops).2.calls =
      before ++ .install vaddr paddr access mode :: after)
    (hlast : .flushTlb ∉ after) :
    ∃ earlier later, ops = earlier ++ .tlbMiss vaddr access mode :: later ∧
      let s := ((Session.start h).run platform earlier).2
      before = s.calls ++ [.walk s.hart.csrs vaddr access mode] ∧
        (platform s.calls).walk s.hart.csrs vaddr access mode = .success paddr ∧
        SameMapping s.hart ((Session.start h).run platform ops).2.hart := by
  -- the last operation made the call, or it came after the call and did not empty the TLB
  induction ops using List.reverseRecOn generalizing after with
  | nil => exact absurd hcalls.symm (by simp [Session.start, Session.run_nil])
  | append_singleton ops op ih =>
      rw [Session.run_append] at hcalls ⊢
      generalize hs : ((Session.start h).run platform ops).2 = s at hcalls ih ⊢
      have heffect := effect_perform (platform s.calls) s.hart op
      change s.calls ++ (op.perform.run (platform s.calls) s.hart).calls = _ at hcalls
      rcases append_eq_append_cons hcalls with ⟨after', hold, hafter⟩ | ⟨before', hbefore, hnew⟩
      · rw [hafter, List.mem_append, not_or] at hlast
        obtain ⟨earlier, later, hops, hwalk, hfound, hsame⟩ := ih hold hlast.1
        refine ⟨earlier, later ++ [op], by rw [hops]; simp, hwalk, hfound, ?_⟩
        exact hsame.trans (sameMapping_of_effect heffect hlast.2)
      · obtain ⟨rfl, hhart, rfl, rfl, hfound⟩ := fill_of_effect heffect hnew
        refine ⟨ops, [], rfl, ?_⟩
        rw [hs]
        refine ⟨hbefore, hfound, ?_⟩
        change SameMapping s.hart ((Operation.tlbMiss vaddr access mode).perform.run _ _).hart
        rw [hhart]
        exact .refl _

/-- A translation that outlives a floating-point write, but not a switch of the privilege. -/
theorem no_stale_translation_float :
    let platform : Platform := fun _ => .identity
    let ops : List Operation :=
      [.tlbMiss ⟨0x1000⟩ .fetch .supervisor, .setPrivilege 0, .tlbMiss ⟨0x2000⟩ .read .user,
        .setCsr CsrNumber.fflags 1 true]
    ∃ earlier later, ops = earlier ++ .tlbMiss ⟨0x2000⟩ .read .user :: later ∧
      let s := ((Session.start (atReset {} .supervisor)).run platform earlier).2
      [.walk (.reset (Isa.full .rv64)) ⟨0x1000⟩ .fetch .supervisor,
          .install ⟨0x1000⟩ ⟨0x1000⟩ .fetch .supervisor, .flushTlb,
          .walk (.reset (Isa.full .rv64)) ⟨0x2000⟩ .read .user] =
        s.calls ++ [.walk s.hart.csrs ⟨0x2000⟩ .read .user] ∧
      (platform s.calls).walk s.hart.csrs ⟨0x2000⟩ .read .user = .success ⟨0x2000⟩ ∧
      SameMapping s.hart ((Session.start (atReset {} .supervisor)).run platform ops).2.hart :=
  no_stale_translation (fun _ => .identity) (atReset {} .supervisor)
    [.tlbMiss ⟨0x1000⟩ .fetch .supervisor, .setPrivilege 0, .tlbMiss ⟨0x2000⟩ .read .user,
      .setCsr CsrNumber.fflags 1 true] rfl List.not_mem_nil

end Hart
end PrivilegedHart
