import Mathlib.Logic.Function.Basic
import PrivilegedHart.PendingHandles
import PrivilegedHart.Proofs.Events

/-!
# The last writer decides a pending line

Handles fall into families: a fresh handle founds one, and a copy belongs to the family of the handle that
it was made from.  One register stands behind each family, and no two families share theirs.  So whoever
keeps a ledger of the families and of the operations that each of them has seen, and never looks at a
register, knows what every handle loads: each line is as the last operation that selected it has left it,
and it is clear if there was none.

The result says nothing of two operations at once.  Each is atomic, so a history is a list.
-/

namespace PrivilegedHart
namespace PendingHandles

/-! ## The ledger -/

namespace Operation

/-- The handle that an operation goes through. -/
def handle? : Operation → Option Nat
  | fresh => none
  | copy handle | load handle | raise handle _ | lower handle _ | update handle _ _ => some handle

/-- What an operation makes of a line, if it selects it. -/
def decides? (line : Nat) : Operation → Option Bool
  | raise _ bits => if bits.getLsbD line then some true else none
  | lower _ bits => if bits.getLsbD line then some false else none
  | update _ mask value => if mask.getLsbD line then some (value.getLsbD line) else none
  | _ => none

/-- The family that an operation goes to, if the handles belong to `families`. -/
def family? (families : List Nat) (op : Operation) : Option Nat := op.handle?.bind (families[·]?)

end Operation

/-- Who descends from whom, and what was done. -/
structure Ledger where
  /-- The family of each handle, named by the handle that founded it. -/
  families : List Nat
  /-- The operations that each family has seen, the earliest first. -/
  operations : Nat → List Operation

namespace Ledger

/-- The families after an operation, which may have created one more handle. -/
def enroll (families : List Nat) : Operation → List Nat
  | .fresh => families ++ [families.length]
  | .copy handle => families ++ families[handle]?.toList
  | _ => families

/-- Enter an operation under the family that it goes to. -/
def record (l : Ledger) (op : Operation) : Ledger where
  families := enroll l.families op
  operations family :=
    if op.family? l.families = some family then l.operations family ++ [op] else l.operations family

/-- The ledger of a history. -/
def ofHistory (ops : List Operation) : Ledger := ops.foldl record ⟨[], fun _ => []⟩

/-- What the last operation of a family that selected a line has made of it; before that a line is clear. -/
def level (l : Ledger) (family line : Nat) : Bool :=
  (mostRecent? (Operation.decides? line) (l.operations family)).getD false

variable {l : Ledger} {op : Operation} {family : Nat}

theorem operations_record_of_ne (hfamily : op.family? l.families ≠ some family) :
    (l.record op).operations family = l.operations family := if_neg hfamily

theorem level_record_of_ne (hfamily : op.family? l.families ≠ some family) (line : Nat) :
    (l.record op).level family line = l.level family line := by
  rw [level, operations_record_of_ne hfamily, level]

theorem level_record_fresh (family line : Nat) :
    (l.record .fresh).level family line = l.level family line :=
  level_record_of_ne (by simp [Operation.family?, Operation.handle?]) line

theorem level_record (hfamily : op.family? l.families = some family) (line : Nat) :
    (l.record op).level family line = (op.decides? line).getD (l.level family line) := by
  have hoperations : (l.record op).operations family = l.operations family ++ [op] := if_pos hfamily
  rw [level, hoperations, mostRecent?_concat, level]
  cases op.decides? line <;> rfl

theorem mem_of_family? {families : List Nat} (hfamily : op.family? families = some family) :
    family ∈ families := by
  obtain ⟨handle, -, hmem⟩ := Option.bind_eq_some_iff.1 hfamily
  exact List.mem_of_getElem? hmem

theorem length_le_enroll (families : List Nat) (op : Operation) :
    families.length ≤ (enroll families op).length := by
  cases op <;> simp [enroll]

/-- A handle stays in its family. -/
theorem getElem?_enroll {families : List Nat} {handle : Nat} (op : Operation)
    (hfamily : families[handle]? = some family) : (enroll families op)[handle]? = some family := by
  have hlt : handle < families.length := (List.getElem?_eq_some_iff.1 hfamily).1
  cases op with
  | fresh | copy => exact (List.getElem?_append_left hlt).trans hfamily
  | _ => exact hfamily

/-- Only a fresh handle founds a family. -/
theorem mem_of_mem_enroll {families : List Nat} (hop : op ≠ .fresh)
    (hmem : family ∈ enroll families op) : family ∈ families := by
  cases op with
  | fresh => exact absurd rfl hop
  | copy handle =>
      rcases List.mem_append.1 hmem with hold | hcopied
      · exact hold
      · exact List.mem_of_getElem? (Option.mem_toList.1 hcopied)
  | _ => exact hmem

end Ledger

/-! ## One operation on registers -/

/-- What an operation makes of the contents of the register that it goes to. -/
def Operation.change : Operation → Word → Word
  | raise _ bits => Pending.raise bits
  | lower _ bits => Pending.lower bits
  | update _ mask value => Pending.update mask value
  | _ => id

theorem getLsbD_change (op : Operation) (old : Word) (line : Nat) :
    (op.change old).getLsbD line = (op.decides? line).getD (old.getLsbD line) := by
  cases op with
  | raise _ bits =>
      rw [Operation.change, Pending.getLsbD_raise, Operation.decides?]
      cases bits.getLsbD line <;> rfl
  | lower _ bits =>
      rw [Operation.change, Pending.getLsbD_lower, Operation.decides?]
      cases bits.getLsbD line <;> rfl
  | update _ mask value =>
      rw [Operation.change, Pending.update, BitField.getLsbD_merge, Operation.decides?]
      cases mask.getLsbD line <;> rfl
  | _ => rfl

section Perform

variable {s : PendingHandles} {op : Operation} {handle r : Nat} {old : Word}

/-- What is returned is computed a second time, and still is what the register then holds. -/
theorem modify_fst (s : PendingHandles) (handle : Nat) (f : Word → Word) :
    (s.modify handle f).1 = (s.modify handle f).2.load? handle := by
  unfold modify exchange load?
  cases htarget : s.targets[handle]? with
  | none => simp [htarget]
  | some r =>
      cases hregister : s.registers[r]? with
      | none => simp [htarget, hregister]
      | some old =>
          have hlt : r < s.registers.length := (List.getElem?_eq_some_iff.1 hregister).1
          simp [htarget, hlt]

theorem modify_snd (htarget : s.targets[handle]? = some r) (hregister : s.registers[r]? = some old)
    (f : Word → Word) : (s.modify handle f).2 = { s with registers := s.registers.set r (f old) } := by
  simp [modify, exchange, htarget, hregister]

theorem modify_targets (s : PendingHandles) (handle : Nat) (f : Word → Word) :
    (s.modify handle f).2.targets = s.targets := by
  change (s.exchange handle f).2.targets = s.targets
  unfold exchange
  split
  · rfl
  · split <;> rfl

theorem perform_of_no_target (hop : op.handle? = some handle) (htarget : s.targets[handle]? = none) :
    (s.perform op).2 = s := by
  cases op <;> cases hop <;> simp [perform, copy, modify, exchange, htarget]

theorem registers_perform (hop : op.handle? = some handle) (htarget : s.targets[handle]? = some r)
    (hregister : s.registers[r]? = some old) :
    (s.perform op).2.registers = s.registers.set r (op.change old) := by
  have hkept : s.registers.set r old = s.registers := by
    obtain ⟨hlt, rfl⟩ := List.getElem?_eq_some_iff.1 hregister
    exact List.set_getElem_self hlt
  cases op with
  | fresh => cases hop
  | copy => cases hop; simp [perform, copy, htarget, Operation.change, hkept]
  | load => simp [perform, Operation.change, hkept]
  | raise | lower | update => cases hop; rw [perform, modify_snd htarget hregister]; rfl

end Perform

/-! ## The ledger and the registers -/

/-- A register of its own stands behind each family, and shows what the ledger says. -/
structure Follows (register : Nat → Nat) (l : Ledger) (s : PendingHandles) : Prop where
  targets : s.targets = l.families.map register
  separate : ∀ f ∈ l.families, ∀ g ∈ l.families, register f = register g → f = g
  contents : ∀ f ∈ l.families, ∃ pending, s.registers[register f]? = some pending ∧
    ∀ line, pending.getLsbD line = l.level f line
  founder_lt : ∀ f ∈ l.families, f < l.families.length
  unborn : ∀ f, l.families.length ≤ f → l.operations f = []

namespace Follows

variable {s : PendingHandles} {l : Ledger} {register : Nat → Nat} {op : Operation}

theorem register_lt (hs : Follows register l s) {f : Nat} (hf : f ∈ l.families) :
    register f < s.registers.length := by
  obtain ⟨pending, hpending, -⟩ := hs.contents f hf
  exact (List.getElem?_eq_some_iff.1 hpending).1

theorem getElem?_targets (hs : Follows register l s) (handle : Nat) :
    s.targets[handle]? = l.families[handle]?.map register := by
  rw [hs.targets, List.getElem?_map]

theorem unborn_record (hs : Follows register l s) (op : Operation) {f : Nat}
    (hf : (l.record op).families.length ≤ f) : (l.record op).operations f = [] := by
  have hlength : l.families.length ≤ f := Nat.le_trans (Ledger.length_le_enroll ..) hf
  have hne : op.family? l.families ≠ some f := by
    intro hfamily
    exact Nat.not_lt_of_le hlength (hs.founder_lt f (Ledger.mem_of_family? hfamily))
  rw [Ledger.operations_record_of_ne hne, hs.unborn f hlength]

/-- A fresh handle founds a family, with a register that no other family has. -/
theorem fresh (hs : Follows register l s) :
    Follows (Function.update register l.families.length s.registers.length) (l.record .fresh)
      s.fresh := by
  have hold : ∀ f ∈ l.families,
      Function.update register l.families.length s.registers.length f = register f :=
    fun f hf => Function.update_of_ne (Nat.ne_of_lt (hs.founder_lt f hf)) _ _
  have hnew : Function.update register l.families.length s.registers.length l.families.length =
      s.registers.length := Function.update_self ..
  have hmem : ∀ f ∈ (l.record .fresh).families, f ∈ l.families ∨ f = l.families.length := by
    intro f hf
    simpa [Ledger.record, Ledger.enroll] using hf
  refine ⟨?_, ?_, ?_, ?_, fun f => hs.unborn_record .fresh⟩
  · change s.targets ++ [s.registers.length] = (l.families ++ [l.families.length]).map _
    rw [List.map_append, List.map_congr_left hold, ← hs.targets, List.map_singleton, hnew]
  · intro f hf g hg hshared
    rcases hmem f hf with hf | rfl
    · rcases hmem g hg with hg | rfl
      · rw [hold f hf, hold g hg] at hshared
        exact hs.separate f hf g hg hshared
      · rw [hold f hf, hnew] at hshared
        exact absurd hshared (Nat.ne_of_lt (hs.register_lt hf))
    · rcases hmem g hg with hg | rfl
      · rw [hold g hg, hnew] at hshared
        exact absurd hshared.symm (Nat.ne_of_lt (hs.register_lt hg))
      · rfl
  · intro f hf
    simp only [Ledger.level_record_fresh]
    change ∃ pending, (s.registers ++ [0])[_]? = some pending ∧ _
    rcases hmem f hf with hf | rfl
    · obtain ⟨pending, hpending, hlines⟩ := hs.contents f hf
      rw [hold f hf, List.getElem?_append_left (hs.register_lt hf)]
      exact ⟨pending, hpending, hlines⟩
    · -- nothing was done to the family before it was founded
      have hclear : ∀ line, l.level l.families.length line = false := by
        intro line
        rw [Ledger.level, hs.unborn _ (Nat.le_refl _)]
        rfl
      rw [hnew, List.getElem?_concat_length]
      exact ⟨0, rfl, fun line => by simp [hclear]⟩
  · intro f hf
    have hlength : (l.record .fresh).families.length = l.families.length + 1 := List.length_append
    rw [hlength]
    rcases hmem f hf with hf | rfl
    · exact Nat.lt_succ_of_lt (hs.founder_lt f hf)
    · exact Nat.lt_succ_self _

theorem targets_perform (hs : Follows register l s) (hop : op ≠ .fresh) :
    (s.perform op).2.targets = (l.record op).families.map register := by
  cases op with
  | fresh => exact absurd rfl hop
  | copy handle =>
      change (s.copy handle).targets = (l.families ++ l.families[handle]?.toList).map register
      rw [List.map_append, ← hs.targets, copy, hs.getElem?_targets]
      cases l.families[handle]? with
      | none => simp
      | some f => simp
  | load => exact hs.targets
  | raise | lower | update => exact (modify_targets ..).trans hs.targets

/-- The register of the family that an operation goes to changes as the operation says, and those of all
other families stay as they are. -/
theorem contents_perform (hs : Follows register l s) {handle : Nat} (hop : op.handle? = some handle) :
    ∀ f ∈ l.families, ∃ pending, (s.perform op).2.registers[register f]? = some pending ∧
      ∀ line, pending.getLsbD line = (l.record op).level f line := by
  intro f hf
  obtain ⟨pending, hpending, hlines⟩ := hs.contents f hf
  have htarget := hs.getElem?_targets handle
  have hfamily : op.family? l.families = l.families[handle]? := by
    rw [Operation.family?, hop, Option.bind_some]
  cases hg : l.families[handle]? with
  | none =>
      rw [hg] at htarget hfamily
      rw [perform_of_no_target hop htarget]
      refine ⟨pending, hpending, fun line => ?_⟩
      rw [hlines, Ledger.level_record_of_ne (by simp [hfamily])]
  | some g =>
      rw [hg] at htarget hfamily
      have hgmem : g ∈ l.families := List.mem_of_getElem? hg
      obtain ⟨old, hold, hlines'⟩ := hs.contents g hgmem
      rw [registers_perform hop htarget hold]
      by_cases hfg : f = g
      · subst hfg
        have hlt : register f < s.registers.length := (List.getElem?_eq_some_iff.1 hold).1
        refine ⟨op.change old, List.getElem?_set_self hlt, fun line => ?_⟩
        rw [getLsbD_change, hlines', Ledger.level_record hfamily]
      · have hapart : register g ≠ register f := by
          intro hshared
          exact hfg (hs.separate g hgmem f hf hshared).symm
        refine ⟨pending, (List.getElem?_set_ne hapart).trans hpending, fun line => ?_⟩
        rw [hlines, Ledger.level_record_of_ne]
        rw [hfamily, Ne, Option.some.injEq]
        exact fun h => hfg h.symm

/-- No operation on a handle founds a family or gives a register to another one. -/
theorem perform (hs : Follows register l s) {handle : Nat} (hop : op.handle? = some handle) :
    Follows register (l.record op) (s.perform op).2 := by
  have hne : op ≠ .fresh := by
    rintro rfl
    cases hop
  have hmem : ∀ f ∈ (l.record op).families, f ∈ l.families := fun f => Ledger.mem_of_mem_enroll hne
  refine ⟨hs.targets_perform hne, ?_, ?_, ?_, fun f => hs.unborn_record op⟩
  · intro f hf g hg hshared
    exact hs.separate f (hmem f hf) g (hmem g hg) hshared
  · intro f hf
    exact hs.contents_perform hop f (hmem f hf)
  · intro f hf
    exact Nat.lt_of_lt_of_le (hs.founder_lt f (hmem f hf)) (Ledger.length_le_enroll ..)

theorem step (hs : Follows register l s) (op : Operation) :
    ∃ register', Follows register' (l.record op) (s.perform op).2 := by
  cases hop : op.handle? with
  | none =>
      cases op with
      | fresh => exact ⟨_, hs.fresh⟩
      | _ => cases hop
  | some handle => exact ⟨register, hs.perform hop⟩

theorem run (hs : Follows register l s) (ops : List Operation) :
    ∃ register', Follows register' (ops.foldl Ledger.record l) (s.run ops) := by
  induction ops generalizing register l s with
  | nil => exact ⟨register, hs⟩
  | cons op ops ih =>
      obtain ⟨register', hstep⟩ := hs.step op
      exact ih hstep

/-- What a handle loads is what the ledger says of its family. -/
theorem load?_eq (hs : Follows register l s) {handle f : Nat} (hf : l.families[handle]? = some f) :
    ∃ pending, s.load? handle = some pending ∧ ∀ line, pending.getLsbD line = l.level f line := by
  obtain ⟨pending, hpending, hlines⟩ := hs.contents f (List.mem_of_getElem? hf)
  refine ⟨pending, ?_, hlines⟩
  have htarget : s.targets[handle]? = some (register f) := by
    rw [hs.getElem?_targets, hf, Option.map_some]
  rw [load?, htarget]
  exact hpending

end Follows

/-! ## All histories -/

theorem follows_empty : Follows id ⟨[], fun _ => []⟩ empty where
  targets := rfl
  separate := by simp
  contents := by simp
  founder_lt := by simp
  unborn _ _ := rfl

theorem exists_follows_run (ops : List Operation) :
    ∃ register, Follows register (.ofHistory ops) (empty.run ops) := follows_empty.run ops

/-- A handle loads the word whose lines the ledger of the history gives. -/
theorem load?_run {ops : List Operation} {handle f : Nat}
    (hf : (Ledger.ofHistory ops).families[handle]? = some f) :
    ∃ pending, (empty.run ops).load? handle = some pending ∧
      ∀ line, pending.getLsbD line = (Ledger.ofHistory ops).level f line := by
  obtain ⟨register, hs⟩ := exists_follows_run ops
  exact hs.load?_eq hf

/-- And so it does after whatever operation comes next. -/
theorem load?_perform {ops : List Operation} {handle f : Nat} (op : Operation)
    (hf : (Ledger.ofHistory ops).families[handle]? = some f) :
    ∃ pending, ((empty.run ops).perform op).2.load? handle = some pending ∧
      ∀ line, pending.getLsbD line = ((Ledger.ofHistory ops).record op).level f line := by
  obtain ⟨register, hs⟩ := exists_follows_run ops
  obtain ⟨register', hstep⟩ := hs.step op
  exact hstep.load?_eq (Ledger.getElem?_enroll op hf)

/-- After every history, every handle has a family.  Handles of one family load equal values.  Whatever is
done next, a handle of another family loads what it did before.  Each line that a handle loads is as the last
operation of its family that selected the line has left it, and is clear if there was none.  And whoever
raises, lowers or replaces lines is returned what a load then gives. -/
theorem last_writer_wins (ops : List Operation) :
    let s := empty.run ops
    let l := Ledger.ofHistory ops
    s.targets.length = l.families.length ∧
    (∀ a b family : Nat, l.families[a]? = some family → l.families[b]? = some family →
      ∃ pending, s.load? a = some pending ∧ s.load? b = some pending) ∧
    (∀ op b family, l.families[b]? = some family → op.family? l.families ≠ some family →
      (s.perform op).2.load? b = s.load? b) ∧
    (∀ a family, l.families[a]? = some family →
      ∃ pending, s.load? a = some pending ∧ ∀ line, pending.getLsbD line = l.level family line) ∧
    ∀ a family bits mask value, l.families[a]? = some family →
      ∀ op ∈ [Operation.raise a bits, .lower a bits, .update a mask value],
        ∃ pending, (s.perform op).1 = some pending ∧ (s.perform op).2.load? a = some pending := by
  intro s l
  have heq : ∀ {v w : Word} {f : Nat}, (∀ line, v.getLsbD line = l.level f line) →
      (∀ line, w.getLsbD line = l.level f line) → v = w := by
    intro v w f hv hw
    apply BitVec.eq_of_getLsbD_eq
    intro line _
    rw [hv, hw]
  refine ⟨?_, ?_, ?_, fun a family ha => load?_run ha, ?_⟩
  · obtain ⟨register, hs⟩ := exists_follows_run ops
    rw [hs.targets, List.length_map]
  · intro a b family ha hb
    obtain ⟨pending, hload, hlines⟩ := load?_run ha
    obtain ⟨pending', hload', hlines'⟩ := load?_run hb
    cases heq hlines hlines'
    exact ⟨pending, hload, hload'⟩
  · intro op b family hb hother
    obtain ⟨pending, hload, hlines⟩ := load?_run hb
    obtain ⟨pending', hload', hlines'⟩ := load?_perform op hb
    -- the ledger has nothing new on this family
    have hkept : ∀ line, pending'.getLsbD line = l.level family line :=
      fun line => (hlines' line).trans (Ledger.level_record_of_ne hother line)
    rw [hload', hload, heq hkept hlines]
  · intro a family bits mask value ha op hop
    obtain ⟨pending, hload, -⟩ := load?_perform op ha
    have hreturned : ((empty.run ops).perform op).1 = ((empty.run ops).perform op).2.load? a := by
      simp only [List.mem_cons, List.not_mem_nil, or_false] at hop
      rcases hop with rfl | rfl | rfl
      · exact modify_fst ..
      · exact modify_fst ..
      · exact modify_fst ..
    exact ⟨pending, hreturned.trans hload, hload⟩

/-- Four handles, of which the second and the last descend from the first.  What is done through any of
these three shows through all of them, a full mask included, and the third one is left alone. -/
theorem last_writer_wins_copies :
    let ops : List Operation :=
      [.fresh, .copy 0, .fresh, .raise 1 0xA0, .update 0 0x33 0x11, .raise 2 0xFF, .copy 1, .lower 3 0x80]
    let s := empty.run ops
    let replaced := s.perform (.update 1 (BitVec.allOnes 64) 0x5A)
    (Ledger.ofHistory ops).families = [0, 0, 2, 0] ∧ s.load? 0 = some 0x11 ∧ s.load? 3 = some 0x11 ∧
      s.load? 2 = some 0xFF ∧ replaced.1 = some 0x5A ∧ replaced.2.load? 1 = some 0x5A ∧
      replaced.2.load? 2 = some 0xFF := by
  intro ops s replaced
  have hfamilies : (Ledger.ofHistory ops).families = [0, 0, 2, 0] := by decide
  have hfirst : s.load? 0 = some 0x11 := by decide +kernel
  have hthird : s.load? 2 = some 0xFF := by decide +kernel
  have hreplaced : replaced.1 = some 0x5A := by decide +kernel
  obtain ⟨-, hshared, hkept, -, hreturned⟩ := last_writer_wins ops
  simp only [hfamilies] at hshared hkept hreturned
  obtain ⟨_, hload, hlast⟩ := hshared 0 3 0 rfl rfl
  cases hfirst.symm.trans hload
  obtain ⟨_, hresult, hsecond⟩ := hreturned 1 0 0 (BitVec.allOnes 64) 0x5A rfl
    (.update 1 (BitVec.allOnes 64) 0x5A) (by simp)
  cases hreplaced.symm.trans hresult
  have hother := hkept (.update 1 (BitVec.allOnes 64) 0x5A) 2 2 rfl (by decide)
  exact ⟨hfamilies, hfirst, hlast, hthird, hresult, hsecond, hother.trans hthird⟩

end PendingHandles
end PrivilegedHart
