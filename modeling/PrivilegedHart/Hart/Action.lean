import PrivilegedHart.Hart.Basic
import PrivilegedHart.Platform

/-!
# Actions of a hart

An action runs on a hart and ends with a result or an unwind.  In both cases it leaves a hart behind,
together with the calls it made to the platform and what it reported, each in order.  After an unwind
nothing further happens.

The lemmas `run_…` say what each basic action does and how a composed action runs; with them every action
runs by simplification.
-/

namespace PrivilegedHart

/-- What an action did. -/
structure Outcome (α : Type) where
  /-- The result, or why the action left early. -/
  result : Except Unwind α
  /-- The hart afterwards. -/
  hart : Hart
  /-- The calls to the platform, the earliest first. -/
  calls : List PlatformCall
  /-- The diagnostics, the earliest first. -/
  diagnostics : List Diagnostic

namespace Outcome

variable {α β : Type}

/-- Go on with the result, unless the action left early. -/
def andThen (first : Outcome α) (next : α → Hart → Outcome β) : Outcome β :=
  match first.result with
  | .error u => ⟨.error u, first.hart, first.calls, first.diagnostics⟩
  | .ok a =>
      let second := next a first.hart
      ⟨second.result, second.hart, first.calls ++ second.calls,
        first.diagnostics ++ second.diagnostics⟩

@[simp] theorem andThen_ok (a : α) (h : Hart) (calls : List PlatformCall)
    (diagnostics : List Diagnostic) (next : α → Hart → Outcome β) :
    (⟨.ok a, h, calls, diagnostics⟩ : Outcome α).andThen next =
      ⟨(next a h).result, (next a h).hart, calls ++ (next a h).calls,
        diagnostics ++ (next a h).diagnostics⟩ := rfl

@[simp] theorem andThen_error (u : Unwind) (h : Hart) (calls : List PlatformCall)
    (diagnostics : List Diagnostic) (next : α → Hart → Outcome β) :
    (⟨.error u, h, calls, diagnostics⟩ : Outcome α).andThen next =
      ⟨.error u, h, calls, diagnostics⟩ := rfl

end Outcome

/-- Something that a hart can do, given what its platform answers. -/
structure HartAction (α : Type) where
  /-- What the action does to a hart. -/
  run : Answers → Hart → Outcome α

namespace HartAction

variable {α β : Type}

instance : Monad HartAction where
  pure a := ⟨fun _ h => ⟨.ok a, h, [], []⟩⟩
  bind x f := ⟨fun answers h => (x.run answers h).andThen fun a h' => (f a).run answers h'⟩

/-! ## Steps that never leave early -/

/-- Look at the hart. -/
def current : HartAction Hart := ⟨fun _ h => ⟨.ok h, h, [], []⟩⟩

/-- Change the hart. -/
def update (f : Hart → Hart) : HartAction Unit := ⟨fun _ h => ⟨.ok (), f h, [], []⟩⟩

/-- Call the platform. -/
def call (c : PlatformCall) : HartAction Unit := ⟨fun _ h => ⟨.ok (), h, [c], []⟩⟩

/-- Report a diagnostic. -/
def report (d : Diagnostic) : HartAction Unit := ⟨fun _ h => ⟨.ok (), h, [], [d]⟩⟩

/-- Ask the platform to walk the page table. -/
def walk (vaddr : VirtAddr) (access : Access) (mode : Privilege) : HartAction WalkResult :=
  ⟨fun answers h =>
    ⟨.ok (answers.walk h.csrs vaddr access mode), h, [.walk h.csrs vaddr access mode], []⟩⟩

/-- Ask the platform to restore the state at `pc`. -/
def restore (pc : Word) : HartAction (Option Word) :=
  ⟨fun answers h => ⟨.ok (answers.restore pc), h, [.restore pc], []⟩⟩

/-! ## Leaving early -/

/-- Leave the instruction. -/
def unwind (u : Unwind) : HartAction α := ⟨fun _ h => ⟨.error u, h, [], []⟩⟩

/-! ## Running actions -/

section Run

variable (answers : Answers) (h : Hart)

@[simp] theorem run_pure (a : α) :
    (pure a : HartAction α).run answers h = ⟨.ok a, h, [], []⟩ := rfl

@[simp] theorem run_bind (x : HartAction α) (f : α → HartAction β) :
    (x >>= f).run answers h =
      (x.run answers h).andThen fun a h' => (f a).run answers h' := rfl

@[simp] theorem run_ite (c : Prop) [Decidable c] (x y : HartAction α) :
    (if c then x else y).run answers h = if c then x.run answers h else y.run answers h := by
  split <;> rfl

@[simp] theorem run_current : current.run answers h = ⟨.ok h, h, [], []⟩ := rfl

@[simp] theorem run_update (f : Hart → Hart) :
    (update f).run answers h = ⟨.ok (), f h, [], []⟩ := rfl

@[simp] theorem run_call (c : PlatformCall) :
    (call c).run answers h = ⟨.ok (), h, [c], []⟩ := rfl

@[simp] theorem run_report (d : Diagnostic) :
    (report d).run answers h = ⟨.ok (), h, [], [d]⟩ := rfl

@[simp] theorem run_walk (vaddr : VirtAddr) (access : Access) (mode : Privilege) :
    (walk vaddr access mode).run answers h =
      ⟨.ok (answers.walk h.csrs vaddr access mode), h, [.walk h.csrs vaddr access mode], []⟩ :=
  rfl

@[simp] theorem run_restore (pc : Word) :
    (restore pc).run answers h = ⟨.ok (answers.restore pc), h, [.restore pc], []⟩ := rfl

@[simp] theorem run_unwind (u : Unwind) :
    (unwind u : HartAction α).run answers h = ⟨.error u, h, [], []⟩ := rfl

end Run

end HartAction
end PrivilegedHart
