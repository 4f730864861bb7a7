import PrivilegedHart.Interrupt

/-!
# Handles to pending registers

Devices reach the pending register of a hart through handles.  Copying a handle gives another handle to the
same register; only a fresh handle comes with a register of its own.  Each operation is one atomic step, so
a history of operations is a list.
-/

namespace PrivilegedHart

/-- All pending registers in use, and the register that each handle leads to. -/
structure PendingHandles where
  /-- The contents of the registers. -/
  registers : List Word
  /-- The number of the register behind each handle. -/
  targets : List Nat
  deriving DecidableEq, Repr

namespace PendingHandles

/-- An operation on handles, which are numbered in the order of their creation. -/
inductive Operation where
  /-- Create a handle to a register with nothing pending. -/
  | fresh
  /-- Create another handle to the register behind `handle`. -/
  | copy (handle : Nat)
  /-- Read the register. -/
  | load (handle : Nat)
  /-- Assert lines. -/
  | raise (handle : Nat) (bits : Word)
  /-- Clear lines. -/
  | lower (handle : Nat) (bits : Word)
  /-- Replace the lines under a mask. -/
  | update (handle : Nat) (mask value : Word)
  deriving DecidableEq, Repr

/-- No registers and no handles. -/
def empty : PendingHandles := ⟨[], []⟩

/-- Add a handle to a register with nothing pending. -/
def fresh (s : PendingHandles) : PendingHandles :=
  ⟨s.registers ++ [0], s.targets ++ [s.registers.length]⟩

/-- Add a handle to the register behind `handle`. -/
def copy (s : PendingHandles) (handle : Nat) : PendingHandles :=
  match s.targets[handle]? with
  | none => s
  | some r => { s with targets := s.targets ++ [r] }

/-- The pending lines that `handle` shows, if there is such a handle. -/
def load? (s : PendingHandles) (handle : Nat) : Option Word :=
  match s.targets[handle]? with
  | none => none
  | some r => s.registers[r]?

/-- Change the register behind `handle` by `f`, in one atomic step, and return what it held before. -/
def exchange (s : PendingHandles) (handle : Nat) (f : Word → Word) : Option Word × PendingHandles :=
  match s.targets[handle]? with
  | none => (none, s)
  | some r =>
      match s.registers[r]? with
      | none => (none, s)
      | some old => (some old, { s with registers := s.registers.set r (f old) })

/-- Change the register behind `handle` by `f`.  What it held before is all that the change gives back, so
the contents that are returned are computed from it once more. -/
def modify (s : PendingHandles) (handle : Nat) (f : Word → Word) : Option Word × PendingHandles :=
  let (previous, s') := s.exchange handle f
  (previous.map f, s')

/-- Perform one operation.  Creating a handle returns nothing, every other operation the contents of the
register afterwards. -/
def perform (s : PendingHandles) : Operation → Option Word × PendingHandles
  | .fresh => (none, s.fresh)
  | .copy handle => (none, s.copy handle)
  | .load handle => (s.load? handle, s)
  | .raise handle bits => s.modify handle (Pending.raise bits)
  | .lower handle bits => s.modify handle (Pending.lower bits)
  | .update handle mask value => s.modify handle (Pending.update mask value)

/-- Perform operations in order, dropping what they return. -/
def run (s : PendingHandles) (ops : List Operation) : PendingHandles :=
  ops.foldl (fun s op => (s.perform op).2) s

/-- The pending lines that each handle shows. -/
def values (s : PendingHandles) : List Word :=
  s.targets.map fun r => s.registers[r]?.getD 0

end PendingHandles
end PrivilegedHart
