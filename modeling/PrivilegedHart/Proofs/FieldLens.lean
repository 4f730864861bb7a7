import PrivilegedHart.Proofs.Masks

/-!
# A bit field is a lens

Reading a field and replacing it obey the laws of a lens under every mask: contiguous or with gaps, empty or
full.  What is read back is what was written, as far as the field has a bit for it: a value is moved up to
the position of the mask as one piece, so a gap of the mask is a gap of the value too.  Fields under
disjoint masks know nothing of each other.

An empty mask has no lowest bit, and its position is the width of a word.  That no word is shifted so far is
stated of the same operations with every shift checked.
-/

namespace PrivilegedHart
namespace BitField

open Word

/-! ## Checked shifts -/

/-- Shift a word up, unless that is so far that no bit of it could stay. -/
def shiftUp? (w : Word) (n : Nat) : Option Word := if n < 64 then some (w <<< n) else none

/-- Shift a word down, unless that is so far that no bit of it could stay. -/
def shiftDown? (w : Word) (n : Nat) : Option Word := if n < 64 then some (w >>> n) else none

/-- Read a field with the shift checked. -/
def get? (reg mask : Word) : Option Word :=
  if mask = 0 then some 0 else shiftDown? (reg &&& mask) (position mask)

/-- Replace a field with the shift checked. -/
def set? (reg mask val : Word) : Option Word :=
  if mask = 0 then some reg
  else (shiftUp? val (position mask)).map fun moved => (reg &&& ~~~mask) ||| (moved &&& mask)

theorem get?_eq_some (reg mask : Word) : get? reg mask = some (get reg mask) := by
  unfold get? get
  split
  · rfl
  · next hne => rw [shiftDown?, if_pos (position_lt hne)]

theorem set?_eq_some (reg mask val : Word) : set? reg mask val = some (set reg mask val) := by
  unfold set? set
  split
  · rfl
  · next hne => rw [shiftUp?, if_pos (position_lt hne), Option.map_some]

/-! ## Contiguous masks -/

/-- How far a field is moved: by the position of its mask, and not at all if it has no bits. -/
def shift (mask : Word) : Nat := if mask = 0 then 0 else position mask

theorem shift_lt (mask : Word) : shift mask < 64 := by
  unfold shift
  split
  · decide
  · next hne => exact position_lt hne

/-- The mask of `width` bits, the lowest of which is bit `low`. -/
def block (low width : Nat) : Word := lowBits width <<< low

variable {low width : Nat}

theorem getLsbD_block (hfits : low + width ≤ 64) (i : Nat) :
    (block low width).getLsbD i = decide (low ≤ i ∧ i < low + width) := by
  rw [block, BitVec.getLsbD_shiftLeft, getLsbD_lowBits, Bool.eq_iff_iff]
  simp only [Bool.and_eq_true, Bool.not_eq_true', decide_eq_true_eq, decide_eq_false_iff_not]
  omega

theorem shift_block (hfits : low + width ≤ 64) (hwidth : 0 < width) :
    shift (block low width) = low := by
  have hlowest : (block low width).getLsbD low = true := by
    rw [getLsbD_block hfits, decide_eq_true_eq]
    omega
  have hne : block low width ≠ 0 := by
    intro hempty
    simp [hempty] at hlowest
  have hposition : (block low width).getLsbD (position (block low width)) = true :=
    BitVec.getLsbD_true_ctz_of_ne_zero hne
  rw [getLsbD_block hfits, decide_eq_true_eq] at hposition
  rw [shift, if_neg hne]
  exact Nat.le_antisymm (position_le hlowest) hposition.1

/-! ## One field -/

variable (reg mask a b : Word)

theorem set_get_self : set reg mask (get reg mask) = reg := by
  rw [Word.set_get]
  exact (eq_merge_of_agreeOn (.refl ..) (.refl ..)).symm

/-- A value comes back without the bits that it has at the gaps of the mask or above it. -/
theorem get_set : get (set reg mask a) mask = a &&& mask >>> shift mask := by
  rw [(agreeOn_set_new reg mask a).get_eq, get, shift]
  split
  · next hempty => rw [hempty, BitVec.ushiftRight_zero, BitVec.ofNat_eq_ofNat, BitVec.and_zero]
  · rw [BitVec.ushiftRight_and_distrib]
    apply BitVec.eq_of_getLsbD_eq
    intro i _
    rw [BitVec.getLsbD_and, BitVec.getLsbD_and, BitVec.getLsbD_ushiftRight,
      BitVec.getLsbD_ushiftRight, BitVec.getLsbD_shiftLeft]
    -- a bit that was shifted out at the top is one that the mask does not have
    cases hbit : mask.getLsbD (position mask + i) with
    | false => rw [Bool.and_false, Bool.and_false]
    | true =>
        have hlt : position mask + i < 64 := BitVec.lt_of_getLsbD hbit
        simp [hlt]

/-- A field without gaps gives back every value that has no more bits than the field. -/
theorem get_set_block (hfits : low + width ≤ 64) (ha : a.toNat < 2 ^ width) :
    get (set reg (block low width) a) (block low width) = a := by
  have hwithin : Within (lowBits width) a := within_lowBits_iff.2 ha
  rw [get_set, ← within_iff_and_eq, within_iff]
  intro i hi
  have hlt := within_iff.1 hwithin i hi
  rw [getLsbD_lowBits, Bool.and_eq_true, decide_eq_true_eq] at hlt
  -- the value has a bit, so the field has one, and its position is its lowest bit
  have hwidth : 0 < width := Nat.lt_of_le_of_lt (Nat.zero_le i) hlt.1
  rw [shift_block hfits hwidth, BitVec.getLsbD_ushiftRight, getLsbD_block hfits, decide_eq_true_eq]
  omega

theorem set_set : set (set reg mask a) mask b = set reg mask b := by
  rw [set_eq_merge, set_eq_merge reg mask b]
  exact merge_congr (agreeOn_set ..) (.refl ..)

/-! ## Two fields -/

variable {mask other : Word}

theorem merge_merge_comm (hdisjoint : mask &&& other = 0) :
    merge (merge reg a mask) b other = merge (merge reg b other) a mask := by
  apply BitVec.eq_of_getLsbD_eq
  intro i _
  have hapart := congrArg (fun w => w.getLsbD i) hdisjoint
  rw [getLsbD_merge, getLsbD_merge, getLsbD_merge, getLsbD_merge]
  cases hmask : mask.getLsbD i with
  | false => rfl
  | true =>
      cases hother : other.getLsbD i with
      | false => rfl
      | true => simp [hmask, hother] at hapart

theorem set_set_comm (hdisjoint : mask &&& other = 0) :
    set (set reg mask a) other b = set (set reg other b) mask a := by
  rw [set_eq_merge, set_eq_merge reg mask, set_eq_merge _ mask, set_eq_merge reg other]
  exact merge_merge_comm _ _ _ hdisjoint

theorem get_set_of_disjoint (hdisjoint : mask &&& other = 0) :
    get (set reg mask a) other = get reg other := by
  have hkept : other &&& ~~~mask = other := by
    rw [← within_iff_and_eq, Within, BitVec.not_not, BitVec.and_comm, hdisjoint]
  exact ((agreeOn_set reg mask a).mono hkept).get_eq

/-! ## The laws together -/

/-- The laws of the field under a mask. -/
structure Lens (mask : Word) : Prop where
  set_get : ∀ reg, set reg mask (get reg mask) = reg
  get_set : ∀ reg a, get (set reg mask a) mask = a &&& mask >>> shift mask
  get_set_block : ∀ reg a low width, mask = block low width → low + width ≤ 64 →
    a.toNat < 2 ^ width → get (set reg mask a) mask = a
  set_set : ∀ reg a b, set (set reg mask a) mask b = set reg mask b
  set_outside : ∀ reg a, AgreeOn (~~~mask) (set reg mask a) reg
  set_comm : ∀ other, mask &&& other = 0 → ∀ reg a b,
    set (set reg mask a) other b = set (set reg other b) mask a
  get_set_other : ∀ other, mask &&& other = 0 → ∀ reg a, get (set reg mask a) other = get reg other
  set_eq_merge : mask ≠ 0 → ∀ reg a, set reg mask a = merge reg (a <<< position mask) mask
  merge_comm : ∀ other, mask &&& other = 0 → ∀ old a b,
    merge (merge old a mask) b other = merge (merge old b other) a mask
  shift_lt : shift mask < 64
  /-- No shift is refused. -/
  get_checked : ∀ reg, get? reg mask = some (get reg mask)
  set_checked : ∀ reg a, set? reg mask a = some (set reg mask a)

/-- Whatever its mask is, a bit field is a lens, and reading or replacing it never shifts a word by its whole
width. -/
theorem field_lens (mask : Word) : Lens mask where
  set_get reg := set_get_self reg mask
  get_set reg a := BitField.get_set reg mask a
  get_set_block reg a low width hmask hfits ha := by
    subst hmask
    exact BitField.get_set_block reg a hfits ha
  set_set reg a b := BitField.set_set reg mask a b
  set_outside reg a := agreeOn_set reg mask a
  set_comm other hdisjoint reg a b := set_set_comm reg a b hdisjoint
  get_set_other other hdisjoint reg a := get_set_of_disjoint reg a hdisjoint
  set_eq_merge hmask reg a := Word.set_eq_merge reg mask a
  merge_comm other hdisjoint old a b := merge_merge_comm old a b hdisjoint
  shift_lt := BitField.shift_lt mask
  get_checked reg := get?_eq_some reg mask
  set_checked reg a := set?_eq_some reg mask a

/-- Bits `11` and `12` beside a field with gaps, which keeps the bits `4` and `12` of its value and drops the
others, and beside the field without bits. -/
theorem field_lens_gapped :
    let pair : Word := block 11 2
    let gapped : Word := 0x8088
    pair &&& gapped = 0 ∧ (2 : Word).toNat < 2 ^ 2 ∧
      get (set 0xFFFF pair 2) pair = 2 ∧ get (set 0xFFFF gapped 0x1ABC) gapped = 0x1010 ∧
      set (set 0xFFFF pair 2) gapped 0x1ABC = set (set 0xFFFF gapped 0x1ABC) pair 2 ∧
      get (set 0xFFFF pair 2) gapped = get 0xFFFF gapped ∧
      set? 0xFFFF 0 7 = some (set 0xFFFF 0 7) := by
  intro pair gapped
  have hdisjoint : pair &&& gapped = 0 := by decide
  have htwo : (2 : Word).toNat < 2 ^ 2 := by decide
  have hkept : 0x1ABC &&& gapped >>> shift gapped = 0x1010 := by decide +kernel
  refine ⟨hdisjoint, htwo, ?_, ?_, ?_, ?_, ?_⟩
  · exact (field_lens pair).get_set_block _ 2 11 2 rfl (by decide) htwo
  · exact ((field_lens gapped).get_set _ _).trans hkept
  · exact (field_lens pair).set_comm gapped hdisjoint _ _ _
  · exact (field_lens pair).get_set_other gapped hdisjoint _ _
  · exact (field_lens 0).set_checked _ _

end BitField
end PrivilegedHart
