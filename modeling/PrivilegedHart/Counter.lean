import PrivilegedHart.Xlen
import PrivilegedHart.Numeral
import PrivilegedHart.RecordText

/-!
# Performance counters

The cycle counter and the retired-instruction counter are views of one raw count, which only ever advances.
Writing a counter leaves the raw count alone: it records the written value together with the raw count at
that moment, and the counter goes on from there.
-/

namespace PrivilegedHart

/-- A counter that can be written, seen through the raw count. -/
structure VirtualCounter where
  /-- The raw count at the last write. -/
  snapshot : Word
  /-- The value of the counter at the last write. -/
  offset : Word
  deriving DecidableEq, Repr

namespace VirtualCounter

/-- A counter that has never been written. -/
def zero : VirtualCounter := ⟨0, 0⟩

instance : Inhabited VirtualCounter := ⟨zero⟩

/-- The value of a counter at raw count `raw`. -/
def current (c : VirtualCounter) (raw : Word) : Word := raw - c.snapshot + c.offset

/-- A counter that shows `value` at raw count `raw`. -/
def startingAt (raw value : Word) : VirtualCounter := ⟨raw, value⟩

/-- Write the counter register: all of it on a 64-bit hart, its low half on a 32-bit hart. -/
def writeLow (c : VirtualCounter) (raw value : Word) : Xlen → VirtualCounter
  | .rv64 => startingAt raw value
  | .rv32 => startingAt raw ((c.current raw &&& Word.highHalf) ||| (value &&& Word.lowHalf))

/-- Write the high half of the counter. -/
def writeHigh (c : VirtualCounter) (raw value : Word) : VirtualCounter :=
  startingAt raw
    ((c.current raw &&& Word.lowHalf) ||| ((value &&& Word.lowHalf) <<< Word.halfShift))

@[simp] theorem current_startingAt (raw value : Word) : (startingAt raw value).current raw = value := by
  simp [current, startingAt]

/-- A counter advances with the raw count. -/
theorem current_add (c : VirtualCounter) (raw n : Word) :
    c.current (raw + n) = c.current raw + n := by
  simp only [current, BitVec.sub_eq_add_neg, BitVec.add_assoc]
  rw [← BitVec.add_assoc n, BitVec.add_comm n, BitVec.add_assoc, BitVec.add_comm n]

/-- A counter as reports show it. -/
def describe (c : VirtualCounter) : String :=
  RecordText.complete "VirtualCounter"
    [("snapshot", Numeral.decimal c.snapshot), ("offset", Numeral.decimal c.offset)]

end VirtualCounter

/-- The counters of a hart.  One retired instruction takes one cycle. -/
structure Counters where
  /-- The instructions retired since reset. -/
  raw : Word
  /-- The cycle counter. -/
  cycle : VirtualCounter
  /-- The retired-instruction counter. -/
  instret : VirtualCounter
  deriving DecidableEq, Repr

namespace Counters

/-- The counters at reset. -/
def zero : Counters := ⟨0, .zero, .zero⟩

instance : Inhabited Counters := ⟨zero⟩

/-- Retire `count` instructions. -/
def retire (c : Counters) (count : Word) : Counters := { c with raw := c.raw + count }

/-- The value of the cycle counter. -/
def mcycle (c : Counters) : Word := c.cycle.current c.raw

/-- The value of the retired-instruction counter. -/
def minstret (c : Counters) : Word := c.instret.current c.raw

/-- Write the cycle counter register. -/
def writeCycleLow (c : Counters) (value : Word) (x : Xlen) : Counters :=
  { c with cycle := c.cycle.writeLow c.raw value x }

/-- Write the high half of the cycle counter. -/
def writeCycleHigh (c : Counters) (value : Word) : Counters :=
  { c with cycle := c.cycle.writeHigh c.raw value }

/-- Write the retired-instruction counter register. -/
def writeInstretLow (c : Counters) (value : Word) (x : Xlen) : Counters :=
  { c with instret := c.instret.writeLow c.raw value x }

/-- Write the high half of the retired-instruction counter. -/
def writeInstretHigh (c : Counters) (value : Word) : Counters :=
  { c with instret := c.instret.writeHigh c.raw value }

/-- The counters as reports show them. -/
def describe (c : Counters) : String :=
  RecordText.complete "Counters"
    [("raw", Numeral.decimal c.raw), ("cycle", c.cycle.describe),
      ("instret", c.instret.describe)]

end Counters
end PrivilegedHart
