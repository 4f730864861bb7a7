import Mathlib.Data.List.Induction
import PrivilegedHart.Proofs.Effect

/-!
# Histories of runs

A run returns results and leaves a hart behind.  Its history says more: which hart every operation found,
what the platform would have answered it, and everything that it did.  What holds of every operation on
every hart holds of every event, and whoever follows a run from outside, event by event, computes a fold
over the history.
-/

namespace PrivilegedHart

/-- What the last element with something to say has said. -/
def mostRecent? {α β : Type} (f : α → Option β) (xs : List α) : Option β := xs.reverse.findSome? f

theorem mostRecent?_eq_none {α β : Type} {f : α → Option β} {xs : List α}
    (hsilent : ∀ x ∈ xs, f x = none) : mostRecent? f xs = none := by
  rw [mostRecent?, List.findSome?_eq_none_iff]
  intro x hx
  exact hsilent x (List.mem_reverse.1 hx)

/-- Whoever says something, and nobody says anything after it. -/
theorem mostRecent?_cons {α β : Type} {f : α → Option β} {x : α} {xs : List α}
    (hsilent : ∀ y ∈ xs, f y = none) : mostRecent? f (x :: xs) = f x := by
  have hnone := mostRecent?_eq_none hsilent
  rw [mostRecent?] at hnone
  rw [mostRecent?, List.reverse_cons, List.findSome?_append, hnone, Option.none_or]
  cases hx : f x <;> simp [hx]

/-- One more element is the last one, if it says anything. -/
theorem mostRecent?_concat {α β : Type} (f : α → Option β) (xs : List α) (x : α) :
    mostRecent? f (xs ++ [x]) = (f x).or (mostRecent? f xs) := by
  rw [mostRecent?, List.reverse_append, List.findSome?_append, mostRecent?]
  cases hx : f x <;> simp [hx]

/-- The most recent element that decides something decides what a fold ends with. -/
theorem foldl_getD {α β : Type} (f : α → Option β) (xs : List α) (b : β) :
    xs.foldl (fun b x => (f x).getD b) b = (mostRecent? f xs).getD b := by
  induction xs using List.reverseRecOn with
  | nil => rfl
  | append_singleton xs x ih =>
      rw [List.foldl_append, ih, mostRecent?_concat]
      cases hx : f x <;> simp [hx]

namespace Hart

/-- One operation of a run: what the platform would answer it, the hart that it found, and what it did. -/
structure Event where
  answers : Answers
  before : Hart
  op : Operation
  outcome : Outcome Reply

/-- The event that an operation is on a hart. -/
def Operation.event (op : Operation) (answers : Answers) (h : Hart) : Event :=
  ⟨answers, h, op, op.perform.run answers h⟩

namespace Session

/-- The events of a run, the earliest first. -/
def events (platform : Platform) (s : Session) : List Operation → List Event
  | [] => []
  | op :: ops => op.event (platform s.calls) s.hart :: (s.step platform op).2.events platform ops

variable (platform : Platform) (s : Session) (op : Operation) (ops : List Operation)

theorem events_cons :
    s.events platform (op :: ops) =
      op.event (platform s.calls) s.hart :: (s.step platform op).2.events platform ops := rfl

/-- What every event keeps of the hart may be used to show what holds of every event. -/
theorem forall_mem_events_of_invariant {I : Hart → Prop} {P : Event → Prop} (hs : I s.hart)
    (hkept : ∀ (op : Operation) (answers : Answers) (h : Hart),
      I h → I (op.event answers h).outcome.hart)
    (hevent : ∀ (op : Operation) (answers : Answers) (h : Hart), I h → P (op.event answers h)) :
    ∀ e ∈ s.events platform ops, P e := by
  induction ops generalizing s with
  | nil => simp [events]
  | cons op ops ih =>
      rw [events_cons, List.forall_mem_cons]
      exact ⟨hevent _ _ _ hs, ih _ (hkept op _ _ hs)⟩

theorem forall_mem_events {P : Event → Prop}
    (hevent : ∀ (op : Operation) (answers : Answers) (h : Hart), P (op.event answers h)) :
    ∀ e ∈ s.events platform ops, P e :=
  forall_mem_events_of_invariant (I := fun _ => True) platform s ops trivial
    (fun _ _ _ _ => trivial) fun op answers h _ => hevent op answers h

/-- Whoever can tell what each event makes of a view of the hart keeps that view through the whole run. -/
theorem foldl_events {β : Type} {follow : β → Event → β} {view : Hart → β}
    (hevent : ∀ (op : Operation) (answers : Answers) (h : Hart),
      follow (view h) (op.event answers h) = view (op.event answers h).outcome.hart) :
    (s.events platform ops).foldl follow (view s.hart) = view (s.run platform ops).2.hart := by
  induction ops generalizing s with
  | nil => rfl
  | cons op ops ih =>
      rw [events_cons, List.foldl_cons, hevent, run_cons]
      exact ih (s.step platform op).2

end Session

end Hart
end PrivilegedHart
