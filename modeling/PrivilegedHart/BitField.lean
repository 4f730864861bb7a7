import PrivilegedHart.Word

/-!
# Bit fields named by masks

A field of a register is named by the mask of its bits.  The position of the field is read off the mask,
so no caller shifts by hand.  Contiguous masks are the usual case, but every mask is accepted: an empty
mask names the field without bits, which reads as zero and cannot be changed.
-/

namespace PrivilegedHart
namespace BitField

/-- The number of the lowest bit of a nonempty mask. -/
def position (mask : Word) : Nat := mask.ctz.toNat

/-- The field of `reg` under `mask`, moved down to bit `0`. -/
def get (reg mask : Word) : Word :=
  if mask = 0 then 0 else (reg &&& mask) >>> position mask

/-- Replace the field of `reg` under `mask` by `val`, dropping the bits of `val` that do not fit. -/
def set (reg mask val : Word) : Word :=
  if mask = 0 then reg else (reg &&& ~~~mask) ||| ((val <<< position mask) &&& mask)

/-- Take the bits under `mask` from `new` and all others from `old`. -/
def merge (old new mask : Word) : Word :=
  (old &&& ~~~mask) ||| (new &&& mask)

/-- Every bit of `mask` is set in `reg`. -/
def allSet (reg mask : Word) : Bool := reg &&& mask == mask

/-- A merged bit comes from the new word under the mask and from the old word elsewhere. -/
theorem getLsbD_merge (old new mask : Word) (i : Nat) :
    (merge old new mask).getLsbD i =
      if mask.getLsbD i then new.getLsbD i else old.getLsbD i := by
  by_cases hi : i < 64
  · simp only [merge, BitVec.getLsbD_or, BitVec.getLsbD_and, BitVec.getLsbD_not]
    cases mask.getLsbD i <;> simp [hi]
  · simp [BitVec.getLsbD_of_ge _ _ (Nat.le_of_not_lt hi)]

/-- A nonempty mask has its lowest bit below bit `64`, so no field is shifted out of the word. -/
theorem position_lt {mask : Word} (h : mask ≠ 0) : position mask < 64 := by
  have hbit := BitVec.getLsbD_true_ctz_of_ne_zero h
  exact BitVec.lt_of_getLsbD hbit

end BitField
end PrivilegedHart
