/-!
# Machine words

Every architectural quantity of the hart is a 64-bit word.  Additions and subtractions of words wrap,
which is what the counters and the retired-instruction count rely on.
-/

namespace PrivilegedHart

/-- A 64-bit register value, address or bit mask. -/
abbrev Word := BitVec 64

namespace Word

/-- The mask of bits `0` to `31`. -/
def lowHalf : Word := 0x00000000FFFFFFFF#64

/-- The mask of bits `32` to `63`. -/
def highHalf : Word := 0xFFFFFFFF00000000#64

/-- How far the high half lies above the low half. -/
def halfShift : Nat := 32

/-- The mask of the low `n` bits; all 64 bits as soon as `n` reaches 64. -/
def lowBits (n : Nat) : Word :=
  if n < 64 then (1#64 <<< n) - 1 else BitVec.allOnes 64

/-- The bits that must be clear in a four-byte aligned address. -/
def misaligned : Word := 0b11#64

/-- Clear the low two bits, which rounds an address down to a multiple of four. -/
def alignDown (w : Word) : Word := w &&& ~~~misaligned

/-- A word whose low two bits are clear is four-byte aligned. -/
def isAligned (w : Word) : Bool := w &&& misaligned == 0

theorem getLsbD_misaligned (i : Nat) : misaligned.getLsbD i = decide (i < 2) := by
  have hones : Nat.testBit 3 i = decide (i < 2) := Nat.testBit_two_pow_sub_one 2 i
  have hwithin : i < 2 → i < 64 := by omega
  rw [misaligned, BitVec.getLsbD_ofNat, hones]
  simpa using hwithin

theorem isAligned_iff {w : Word} :
    isAligned w = true ↔ w.getLsbD 0 = false ∧ w.getLsbD 1 = false := by
  rw [isAligned, beq_iff_eq]
  constructor
  · intro hclear
    have hbit : ∀ i < 2, w.getLsbD i = false := by
      intro i hi
      have hboth := congrArg (fun v => v.getLsbD i) hclear
      simpa [getLsbD_misaligned, hi] using hboth
    exact ⟨hbit 0 (by omega), hbit 1 (by omega)⟩
  · rintro ⟨hzero, hone⟩
    apply BitVec.eq_of_getLsbD_eq
    intro i _
    rw [BitVec.getLsbD_and, getLsbD_misaligned]
    match i with
    | 0 => rw [hzero, Bool.false_and, BitVec.ofNat_eq_ofNat, BitVec.getLsbD_zero]
    | 1 => rw [hone, Bool.false_and, BitVec.ofNat_eq_ofNat, BitVec.getLsbD_zero]
    | i + 2 => simp

end Word
end PrivilegedHart
