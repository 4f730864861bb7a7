import Mathlib.Algebra.Group.Nat.Defs
import PrivilegedHart.BitField
import PrivilegedHart.Xlen

/-!
# Words under masks

A register write takes some bits from the new value and leaves the others alone.  Two relations say what
that means without naming single bits: two words agree on a mask, and a word lies within a mask.  Merging
and setting fields respect both, so a chain of writes is followed by composing masks, and the masks are
closed words that evaluation compares.

Nothing here knows which registers or fields a hart has.
-/

namespace PrivilegedHart
namespace Word

/-! ## Agreement -/

/-- Two words have the same bits under a mask. -/
def AgreeOn (mask a b : Word) : Prop := a &&& mask = b &&& mask

/-- A word has no bit outside a mask. -/
def Within (mask a : Word) : Prop := a &&& ~~~mask = 0

instance (mask a b : Word) : Decidable (AgreeOn mask a b) :=
  inferInstanceAs (Decidable (a &&& mask = b &&& mask))

instance (mask a : Word) : Decidable (Within mask a) :=
  inferInstanceAs (Decidable (a &&& ~~~mask = 0))

variable {mask sub a b c : Word}

theorem agreeOn_iff :
    AgreeOn mask a b ↔ ∀ i, mask.getLsbD i = true → a.getLsbD i = b.getLsbD i := by
  constructor
  · intro h i hi
    have hbit := congrArg (fun w => w.getLsbD i) h
    simpa [hi] using hbit
  · intro h
    apply BitVec.eq_of_getLsbD_eq
    intro i _
    -- outside the mask both sides are zero
    cases hi : mask.getLsbD i with
    | false => simp [hi]
    | true => simp [hi, h i hi]

theorem AgreeOn.refl (mask a : Word) : AgreeOn mask a a := rfl

theorem agreeOn_zero (a b : Word) : AgreeOn 0 a b := by
  rw [AgreeOn, BitVec.ofNat_eq_ofNat, BitVec.and_zero, BitVec.and_zero]

theorem AgreeOn.symm (h : AgreeOn mask a b) : AgreeOn mask b a := Eq.symm h

theorem AgreeOn.trans (hab : AgreeOn mask a b) (hbc : AgreeOn mask b c) : AgreeOn mask a c :=
  Eq.trans hab hbc

theorem AgreeOn.mono (h : AgreeOn mask a b) (hsub : sub &&& mask = sub) : AgreeOn sub a b := by
  have hmasked := congrArg (· &&& sub) h
  simp only [BitVec.and_assoc] at hmasked
  rw [BitVec.and_comm mask sub, hsub] at hmasked
  exact hmasked

theorem agreeOn_of_xor (h : (a ^^^ b) &&& mask = 0) : AgreeOn mask a b := by
  rw [agreeOn_iff]
  intro i hi
  have hbit := congrArg (fun w => w.getLsbD i) h
  simpa [hi] using hbit

theorem AgreeOn.or (h : AgreeOn mask a b) (c : Word) : AgreeOn mask (a ||| c) (b ||| c) := by
  rw [agreeOn_iff] at *
  intro i hi
  rw [BitVec.getLsbD_or, BitVec.getLsbD_or, h i hi]

theorem AgreeOn.and (h : AgreeOn mask a b) (c : Word) : AgreeOn mask (a &&& c) (b &&& c) := by
  rw [agreeOn_iff] at *
  intro i hi
  rw [BitVec.getLsbD_and, BitVec.getLsbD_and, h i hi]

theorem AgreeOn.not (h : AgreeOn mask a b) : AgreeOn mask (~~~a) (~~~b) := by
  rw [agreeOn_iff] at *
  intro i hi
  rw [BitVec.getLsbD_not, BitVec.getLsbD_not, h i hi]

theorem AgreeOn.union {mask' : Word} (h : AgreeOn mask a b) (h' : AgreeOn mask' a b) :
    AgreeOn (mask ||| mask') a b := by
  rw [AgreeOn, BitVec.and_or_distrib_left, BitVec.and_or_distrib_left, h, h']

theorem agreeOn_or_iff {mask' : Word} :
    AgreeOn (mask ||| mask') a b ↔ AgreeOn mask a b ∧ AgreeOn mask' a b := by
  constructor
  · intro h
    rw [agreeOn_iff] at h
    exact ⟨agreeOn_iff.2 fun i hi => h i (by rw [BitVec.getLsbD_or, hi, Bool.true_or]),
      agreeOn_iff.2 fun i hi => h i (by rw [BitVec.getLsbD_or, hi, Bool.or_true])⟩
  · intro h
    exact h.1.union h.2

theorem agreeOn_iff_xor : AgreeOn mask a b ↔ (a ^^^ b) &&& mask = 0 := by
  constructor
  · intro h
    apply BitVec.eq_of_getLsbD_eq
    intro i _
    cases hi : mask.getLsbD i with
    | false => simp [hi]
    | true => simp [hi, agreeOn_iff.1 h i hi]
  · exact agreeOn_of_xor

/-! ## Merging and setting -/

theorem agreeOn_merge_old (old new mask : Word) :
    AgreeOn (~~~mask) (BitField.merge old new mask) old := by
  rw [agreeOn_iff]
  intro i hi
  rw [BitVec.getLsbD_not, Bool.and_eq_true, Bool.not_eq_true'] at hi
  rw [BitField.getLsbD_merge, hi.2, if_neg Bool.false_ne_true]

theorem agreeOn_merge_new (old new mask : Word) :
    AgreeOn mask (BitField.merge old new mask) new := by
  rw [agreeOn_iff]
  intro i hi
  rw [BitField.getLsbD_merge, if_pos hi]

/-- Merging words that agree gives words that agree, as far as the two masks are the same. -/
theorem AgreeOn.merge {old old' new new' taken taken' : Word} (hold : AgreeOn mask old old')
    (hnew : AgreeOn mask new new') (htaken : AgreeOn mask taken taken') :
    AgreeOn mask (BitField.merge old new taken) (BitField.merge old' new' taken') := by
  rw [agreeOn_iff] at *
  intro i hi
  rw [BitField.getLsbD_merge, BitField.getLsbD_merge, hold i hi, hnew i hi, htaken i hi]

/-- A merge keeps the old bits if the new word agrees on those that may be taken. -/
theorem AgreeOn.merge_keeps {old new taken bound : Word} (h : AgreeOn (mask &&& bound) new old)
    (htaken : taken &&& bound = taken) : AgreeOn mask (BitField.merge old new taken) old := by
  rw [agreeOn_iff] at *
  intro i hi
  rw [BitField.getLsbD_merge]
  -- a bit that is taken is one of those that may be
  cases hi' : taken.getLsbD i with
  | false => rfl
  | true =>
      have hbound : bound.getLsbD i = true := by
        rw [← htaken, BitVec.getLsbD_and, Bool.and_eq_true] at hi'
        exact hi'.2
      exact h i (by rw [BitVec.getLsbD_and, hi, hbound, Bool.and_self])

/-- A merge changes something under a mask only where it takes a bit that differs. -/
theorem agreeOn_merge_iff {old new taken : Word} :
    AgreeOn mask (BitField.merge old new taken) old ↔ AgreeOn (mask &&& taken) new old := by
  simp only [agreeOn_iff, BitField.getLsbD_merge, BitVec.getLsbD_and, Bool.and_eq_true]
  constructor
  · intro h i hi
    have hbit := h i hi.1
    rw [if_pos hi.2] at hbit
    exact hbit
  · intro h i hi
    split
    · next htaken => exact h i ⟨hi, htaken⟩
    · rfl

/-- Outside a mask nothing is said of the bits beyond the word, but those are all clear. -/
theorem AgreeOn.getLsbD_eq {i : Nat} (h : AgreeOn (~~~mask) a b) (hi : mask.getLsbD i = false) :
    a.getLsbD i = b.getLsbD i := by
  by_cases hlt : i < 64
  · refine agreeOn_iff.1 h i ?_
    rw [BitVec.getLsbD_not, hi, decide_eq_true hlt]
    rfl
  · rw [BitVec.getLsbD_of_ge _ _ (Nat.le_of_not_lt hlt), BitVec.getLsbD_of_ge _ _ (Nat.le_of_not_lt hlt)]

/-- A word that agrees with the new word under the mask and with the old one elsewhere is their merge. -/
theorem eq_merge_of_agreeOn {old new : Word} (hold : AgreeOn (~~~mask) a old)
    (hnew : AgreeOn mask a new) : a = BitField.merge old new mask := by
  apply BitVec.eq_of_getLsbD_eq
  intro i _
  rw [BitField.getLsbD_merge]
  cases hi : mask.getLsbD i with
  | false => exact hold.getLsbD_eq hi
  | true => exact agreeOn_iff.1 hnew i hi

theorem eq_of_agreeOn (hout : AgreeOn (~~~mask) a b) (hin : AgreeOn mask a b) : a = b := by
  rw [eq_merge_of_agreeOn hout hin, BitField.merge, ← BitVec.and_or_distrib_left,
    BitVec.not_or_self, BitVec.and_allOnes]

theorem merge_congr {old old' new new' : Word} (hold : AgreeOn (~~~mask) old old')
    (hnew : AgreeOn mask new new') :
    BitField.merge old new mask = BitField.merge old' new' mask := by
  rw [BitField.merge, BitField.merge, hold, hnew]

theorem merge_and (old new mask c : Word) :
    BitField.merge old new mask &&& c = BitField.merge (old &&& c) (new &&& c) mask := by
  apply BitVec.eq_of_getLsbD_eq
  intro i _
  simp only [BitVec.getLsbD_and, BitField.getLsbD_merge]
  split <;> rfl

/-- Merging into a copy first and taking some bits over from there is merging under fewer bits, if the copy
agrees on those that are taken over. -/
theorem merge_merge {old copy new taken : Word} (hcopy : AgreeOn mask copy old) :
    BitField.merge old (BitField.merge copy new taken) mask =
      BitField.merge old new (taken &&& mask) := by
  apply BitVec.eq_of_getLsbD_eq
  intro i _
  rw [BitField.getLsbD_merge, BitField.getLsbD_merge, BitField.getLsbD_merge, BitVec.getLsbD_and]
  cases hi : mask.getLsbD i with
  | false => rw [Bool.and_false]; rfl
  | true => rw [agreeOn_iff.1 hcopy i hi, Bool.and_true, if_pos rfl]

theorem merge_allOnes (old new : Word) : BitField.merge old new (BitVec.allOnes 64) = new := by
  rw [BitField.merge, BitVec.not_allOnes, BitVec.and_zero, BitVec.zero_or, BitVec.and_allOnes]

theorem merge_zero (old new : Word) : BitField.merge old new 0 = old := by
  rw [BitField.merge, BitVec.ofNat_eq_ofNat, BitVec.not_zero, BitVec.and_allOnes, BitVec.and_zero,
    BitVec.or_zero]

theorem set_eq_merge (reg field val : Word) :
    BitField.set reg field val =
      BitField.merge reg (val <<< BitField.position field) field := by
  unfold BitField.set BitField.merge
  split
  · next hempty =>
      simp only [hempty, BitVec.ofNat_eq_ofNat, BitVec.not_zero, BitVec.and_allOnes,
        BitVec.and_zero, BitVec.or_zero]
  · rfl

theorem agreeOn_set (reg field val : Word) :
    AgreeOn (~~~field) (BitField.set reg field val) reg := by
  rw [set_eq_merge]
  exact agreeOn_merge_old ..

theorem agreeOn_set_new (reg field val : Word) :
    AgreeOn field (BitField.set reg field val) (val <<< BitField.position field) := by
  rw [set_eq_merge]
  exact agreeOn_merge_new ..

theorem agreeOn_set_zero (reg field : Word) : AgreeOn field (BitField.set reg field 0) 0 := by
  have hzero := agreeOn_set_new reg field 0
  rw [BitVec.ofNat_eq_ofNat, BitVec.zero_shiftLeft] at hzero
  exact hzero

theorem AgreeOn.set (h : AgreeOn mask a b) (field val : Word) :
    AgreeOn mask (BitField.set a field val) (BitField.set b field val) := by
  rw [set_eq_merge, set_eq_merge]
  exact h.merge (.refl ..) (.refl ..)

theorem AgreeOn.get_eq (h : AgreeOn mask a b) : BitField.get a mask = BitField.get b mask := by
  unfold BitField.get
  rw [h]

/-- No bit of a mask lies below its position. -/
theorem position_le {i : Nat} (hi : mask.getLsbD i = true) : BitField.position mask ≤ i := by
  refine Nat.le_of_not_lt fun hlt => ?_
  rw [BitVec.getLsbD_false_of_lt_ctz hlt] at hi
  cases hi

/-- Setting a field to what was read from a value takes over the field of that value. -/
theorem set_get (reg field value : Word) :
    BitField.set reg field (BitField.get value field) = BitField.merge reg value field := by
  rw [set_eq_merge]
  refine merge_congr (.refl ..) ?_
  rw [agreeOn_iff]
  intro i hi
  have hne : field ≠ 0 := by
    rintro rfl
    simp at hi
  have hlt : i < 64 := BitVec.lt_of_getLsbD hi
  -- the field is moved down and up again, and none of its bits is lost at the bottom
  have hpos := position_le hi
  rw [BitField.get, if_neg hne, BitVec.getLsbD_shiftLeft, BitVec.getLsbD_ushiftRight,
    Nat.add_sub_cancel' hpos, BitVec.getLsbD_and, hi]
  simp [hlt, hpos]

/-- Two words have the same bits in a field exactly if they read the same there. -/
theorem agreeOn_iff_get_eq : AgreeOn mask a b ↔ BitField.get a mask = BitField.get b mask := by
  constructor
  · exact AgreeOn.get_eq
  · intro hread
    have hset := congrArg (BitField.set 0 mask) hread
    rw [set_get, set_get] at hset
    have htaken := agreeOn_merge_new 0 a mask
    rw [hset] at htaken
    exact htaken.symm.trans (agreeOn_merge_new 0 b mask)

/-- The value of a field is at most the mask of the field moved down to bit `0`. -/
theorem toNat_get_le (reg field : Word) :
    (BitField.get reg field).toNat ≤ (field >>> BitField.position field).toNat := by
  unfold BitField.get
  split
  · exact Nat.zero_le _
  · rw [BitVec.toNat_ushiftRight, BitVec.toNat_ushiftRight, BitVec.toNat_and,
      Nat.shiftRight_eq_div_pow, Nat.shiftRight_eq_div_pow]
    exact Nat.div_le_div_right Nat.and_le_right

/-! ## Containment -/

theorem within_iff : Within mask a ↔ ∀ i, a.getLsbD i = true → mask.getLsbD i = true := by
  constructor
  · intro h i hi
    have hbit := congrArg (fun w => w.getLsbD i) h
    have hlt : i < 64 := BitVec.lt_of_getLsbD hi
    simpa [hi, hlt] using hbit
  · intro h
    apply BitVec.eq_of_getLsbD_eq
    intro i hlt
    cases hi : a.getLsbD i with
    | false => simp [hi]
    | true => simp [hi, h i hi, hlt]

theorem within_iff_and_eq : Within mask a ↔ a &&& mask = a := by
  rw [within_iff]
  constructor
  · intro h
    apply BitVec.eq_of_getLsbD_eq
    intro i _
    cases hi : a.getLsbD i with
    | false => simp [hi]
    | true => simp [hi, h i hi]
  · intro h i hi
    rw [← h, BitVec.getLsbD_and, Bool.and_eq_true] at hi
    exact hi.2

theorem within_zero (mask : Word) : Within mask 0 := by simp [Within]

theorem within_and (a mask : Word) : Within mask (a &&& mask) := by
  rw [within_iff]
  intro i hi
  simp_all

theorem Within.mono (h : Within sub a) (hsub : sub &&& mask = sub) : Within mask a := by
  rw [within_iff] at *
  intro i hi
  have hbit := h i hi
  rw [← hsub, BitVec.getLsbD_and, Bool.and_eq_true] at hbit
  exact hbit.2

theorem Within.and (h : Within mask a) (b : Word) : Within mask (a &&& b) := by
  rw [within_iff] at *
  intro i hi
  rw [BitVec.getLsbD_and, Bool.and_eq_true] at hi
  exact h i hi.1

theorem Within.and_eq_zero (h : Within mask a) (hdisjoint : mask &&& c = 0) : a &&& c = 0 := by
  rw [← within_iff_and_eq.1 h, BitVec.and_assoc, hdisjoint]
  exact BitVec.and_zero

/-- A merge stays within a mask if the old word and the new bits do. -/
theorem Within.merge {old new taken : Word} (hold : Within mask old)
    (hnew : Within mask (new &&& taken)) : Within mask (BitField.merge old new taken) := by
  rw [within_iff] at *
  intro i hi
  rw [BitField.getLsbD_merge] at hi
  cases htaken : taken.getLsbD i with
  | false => exact hold i (by simpa [htaken] using hi)
  | true => exact hnew i (by simp_all)

theorem Within.set {field : Word} (h : Within mask a) (hfield : field &&& mask = field)
    (val : Word) : Within mask (BitField.set a field val) := by
  rw [set_eq_merge]
  exact h.merge ((within_and ..).mono hfield)

/-- Masking a value merges it over a word that has nothing outside the mask. -/
theorem and_eq_merge {old : Word} (hold : Within mask old) (new : Word) :
    new &&& mask = BitField.merge old new mask := by
  rw [BitField.merge, hold, BitVec.ofNat_eq_ofNat, BitVec.zero_or]

/-- A field of one bit is clear or full. -/
theorem and_bit (a : Word) (i : Nat) : a &&& 1#64 <<< i = 0 ∨ a &&& 1#64 <<< i = 1#64 <<< i := by
  rw [← BitVec.twoPow_eq, BitVec.and_twoPow]
  split
  · exact Or.inr rfl
  · exact Or.inl rfl

/-! ## Low halves and page numbers -/

theorem toNat_and_lowBits (a : Word) (n : Nat) : (a &&& lowBits n).toNat = a.toNat % 2 ^ n := by
  unfold lowBits
  split
  · next hn =>
      have hone : (1#64 <<< n).toNat = 2 ^ n := by
        rw [BitVec.toNat_shiftLeft, BitVec.toNat_ofNat, Nat.one_mod, Nat.one_shiftLeft]
        exact Nat.mod_eq_of_lt (Nat.pow_lt_pow_right (by omega) hn)
      have hpow : 2 ^ n < 2 ^ 64 := Nat.pow_lt_pow_right (by omega) hn
      have hpos : 0 < 2 ^ n := Nat.two_pow_pos n
      have hmask : ((1#64 <<< n) - 1).toNat = 2 ^ n - 1 := by
        rw [BitVec.toNat_sub_of_le (by rw [BitVec.le_def, hone]; exact hpos), hone]
        rfl
      rw [BitVec.toNat_and, hmask]
      exact Nat.and_two_pow_sub_one_eq_mod ..
  -- from 64 bits on the mask is the whole word
  · next hn =>
      have hpow : 2 ^ 64 ≤ 2 ^ n := Nat.pow_le_pow_right (by omega) (by omega)
      rw [BitVec.and_allOnes, Nat.mod_eq_of_lt (Nat.lt_of_lt_of_le a.isLt hpow)]

theorem getLsbD_lowBits (n i : Nat) :
    (lowBits n).getLsbD i = (decide (i < n) && decide (i < 64)) := by
  have hnat := toNat_and_lowBits (BitVec.allOnes 64) n
  rw [BitVec.allOnes_and, BitVec.toNat_allOnes] at hnat
  rw [BitVec.getLsbD, hnat, Nat.testBit_mod_two_pow, Nat.testBit_two_pow_sub_one]

theorem lowHalf_eq : lowHalf = lowBits 32 := by decide

theorem within_lowBits_iff {n : Nat} : Within (lowBits n) a ↔ a.toNat < 2 ^ n := by
  rw [within_iff_and_eq, ← BitVec.toNat_inj, toNat_and_lowBits]
  constructor
  · intro h
    rw [← h]
    exact Nat.mod_lt _ (Nat.two_pow_pos n)
  · exact Nat.mod_eq_of_lt

end Word

theorem Xlen.truncate_merge (x : Xlen) (old new mask : Word) :
    x.truncate (BitField.merge old new mask) =
      BitField.merge (x.truncate old) (x.truncate new) mask :=
  Word.merge_and ..

theorem Xlen.truncate_and (x : Xlen) (w mask : Word) :
    x.truncate (w &&& mask) = x.truncate w &&& mask := by
  rw [truncate, truncate, BitVec.and_assoc, BitVec.and_assoc, BitVec.and_comm mask]

theorem Xlen.truncate_eq {x : Xlen} {w : Word} (hw : Word.Within x.mask w) : x.truncate w = w :=
  Word.within_iff_and_eq.1 hw

theorem Xlen.within_truncate (x : Xlen) (w : Word) : Word.Within x.mask (x.truncate w) :=
  Word.within_and ..

theorem Xlen.agreeOn_truncate (x : Xlen) (w : Word) : Word.AgreeOn x.mask (x.truncate w) w := by
  rw [Word.AgreeOn, truncate, BitVec.and_assoc, BitVec.and_self]

end PrivilegedHart
