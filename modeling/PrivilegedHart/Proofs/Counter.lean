import PrivilegedHart.Counter

/-!
# Counters and their halves

A 32-bit hart reads and writes a counter in two halves.  Both kinds of write are described here by the word
that they leave behind: one half of it is the written value and the other half is what was there before.
Retired instructions advance both counters.
-/

namespace PrivilegedHart
namespace Word

def low (w : Word) : BitVec 32 := w.extractLsb' 0 32

def high (w : Word) : BitVec 32 := w.extractLsb' 32 32

/-- The word with given halves. -/
def ofHalves (high low : BitVec 32) : Word := high ++ low

theorem getLsbD_ofHalves (hi lo : BitVec 32) (i : Nat) :
    (ofHalves hi lo).getLsbD i = if i < 32 then lo.getLsbD i else hi.getLsbD (i - 32) :=
  BitVec.getLsbD_append

theorem getLsbD_lowHalf (i : Nat) : lowHalf.getLsbD i = decide (i < 32) := by
  by_cases hi : i < 64
  · have hall : ∀ j : Fin 64, lowHalf.getLsbD j = decide (j.val < 32) := by decide
    exact hall ⟨i, hi⟩
  · rw [BitVec.getLsbD_of_ge _ _ (by omega), decide_eq_false (by omega)]

theorem highHalf_eq_not : highHalf = ~~~lowHalf := by decide

theorem and_lowHalf (w : Word) : w &&& lowHalf = ofHalves 0 w.low := by
  apply BitVec.eq_of_getLsbD_eq
  intro i _
  rw [BitVec.getLsbD_and, getLsbD_lowHalf, getLsbD_ofHalves, low, BitVec.getLsbD_extractLsb']
  by_cases hi : i < 32 <;> simp [hi]

theorem shiftRight_half (w : Word) : w >>> halfShift = ofHalves 0 w.high := by
  apply BitVec.eq_of_getLsbD_eq
  intro i _
  rw [halfShift, BitVec.getLsbD_ushiftRight, getLsbD_ofHalves, high, BitVec.getLsbD_extractLsb']
  by_cases hi : i < 32
  · simp [hi]
  · rw [BitVec.getLsbD_of_ge _ _ (by omega)]
    simp [hi]

@[simp] theorem low_ofHalves (hi lo : BitVec 32) : (ofHalves hi lo).low = lo := by
  apply BitVec.eq_of_getLsbD_eq
  intro i hlt
  simp [low, getLsbD_ofHalves, hlt]

@[simp] theorem high_ofHalves (hi lo : BitVec 32) : (ofHalves hi lo).high = hi := by
  apply BitVec.eq_of_getLsbD_eq
  intro i hlt
  simp [high, getLsbD_ofHalves, hlt]

/-- Two words with the same halves are the same. -/
theorem eq_of_halves {w w' : Word} (hlow : w &&& lowHalf = w' &&& lowHalf)
    (hhigh : w >>> halfShift = w' >>> halfShift) : w = w' := by
  apply BitVec.eq_of_getLsbD_eq
  intro i _
  by_cases hi : i < 32
  · have hbit := congrArg (BitVec.getLsbD · i) hlow
    simpa [getLsbD_lowHalf, hi] using hbit
  · have hbit := congrArg (BitVec.getLsbD · (i - 32)) hhigh
    have hsum : 32 + (i - 32) = i := by omega
    simpa [halfShift, BitVec.getLsbD_ushiftRight, hsum] using hbit

theorem and_highHalf_or_and_lowHalf (w value : Word) :
    (w &&& highHalf) ||| (value &&& lowHalf) = ofHalves w.high value.low := by
  apply BitVec.eq_of_getLsbD_eq
  intro i hlt
  rw [highHalf_eq_not, BitVec.getLsbD_or, BitVec.getLsbD_and, BitVec.getLsbD_and,
    BitVec.getLsbD_not, getLsbD_lowHalf, getLsbD_ofHalves, high, low,
    BitVec.getLsbD_extractLsb', BitVec.getLsbD_extractLsb']
  by_cases hi : i < 32
  · simp [hi]
  · have hsum : 32 + (i - 32) = i := by omega
    have hhigh : i - 32 < 32 := by omega
    simp [hi, hlt, hsum, hhigh]

theorem and_lowHalf_or_shiftLeft_half (w value : Word) :
    (w &&& lowHalf) ||| ((value &&& lowHalf) <<< halfShift) = ofHalves value.low w.low := by
  apply BitVec.eq_of_getLsbD_eq
  intro i hlt
  rw [halfShift, BitVec.getLsbD_or, BitVec.getLsbD_shiftLeft, BitVec.getLsbD_and,
    BitVec.getLsbD_and, getLsbD_lowHalf, getLsbD_lowHalf, getLsbD_ofHalves, low, low,
    BitVec.getLsbD_extractLsb', BitVec.getLsbD_extractLsb']
  by_cases hi : i < 32
  · simp [hi]
  · have hhigh : i - 32 < 32 := by omega
    simp [hi, hlt, hhigh]

end Word

namespace VirtualCounter

open Word

variable (c : VirtualCounter) (raw value : Word)

theorem current_writeLow_rv64 : (c.writeLow raw value .rv64).current raw = value :=
  current_startingAt raw value

theorem current_writeLow_rv32 :
    (c.writeLow raw value .rv32).current raw = ofHalves (c.current raw).high value.low := by
  rw [writeLow, current_startingAt, and_highHalf_or_and_lowHalf]

theorem current_writeHigh :
    (c.writeHigh raw value).current raw = ofHalves value.low (c.current raw).low := by
  rw [writeHigh, current_startingAt, and_lowHalf_or_shiftLeft_half]

/-- On a 32-bit hart, a write of the counter register keeps the high half. -/
theorem high_current_writeLow {x : Xlen} (hx : x = .rv32) :
    (c.writeLow raw value x).current raw >>> halfShift = c.current raw >>> halfShift := by
  rw [hx, current_writeLow_rv32, shiftRight_half, shiftRight_half, high_ofHalves]

theorem low_current_writeHigh :
    (c.writeHigh raw value).current raw &&& lowHalf = c.current raw &&& lowHalf := by
  rw [current_writeHigh, and_lowHalf, and_lowHalf, low_ofHalves]

end VirtualCounter

namespace Counters

theorem mcycle_retire (c : Counters) (count : Word) :
    (c.retire count).mcycle = c.mcycle + count := c.cycle.current_add ..

theorem minstret_retire (c : Counters) (count : Word) :
    (c.retire count).minstret = c.minstret + count := c.instret.current_add ..

end Counters

end PrivilegedHart
