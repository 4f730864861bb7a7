import PrivilegedHart.Json.Token

/-!
# How numbers and strings are written

The grammar of JSON says how a number and a string may be spelled, without saying how they are read.  Here
are its rules as relations between a literal and its characters, and the scanner is shown to find the
literal again.

The integer part of a number has no leading zeros, so that it is the decimal numeral of a natural number.
A string is spelled unit by unit, each unit in any of several ways, and its units are those that some text
has in UTF-16, except that characters need not be split; or they are those of no text.
-/

namespace PrivilegedHart
namespace JsonText

open JsonToken

/-! ## Numbers -/

/-- One decimal digit or more. -/
def Digits (cs : List Char) : Prop := cs ≠ [] ∧ ∀ c ∈ cs, c.isDigit = true

/-- A point with digits, or nothing. -/
inductive Fraction : List Char → Prop
  | absent : Fraction []
  | point {ds : List Char} (hdigits : Digits ds) : Fraction ('.' :: ds)

/-- A letter with digits that may be signed, or nothing. -/
inductive Exponent : List Char → Prop
  | absent : Exponent []
  | letter {e : Char} {sign ds : List Char} (he : e = 'e' ∨ e = 'E')
      (hsign : sign = [] ∨ sign = ['+'] ∨ sign = ['-']) (hdigits : Digits ds) :
      Exponent (e :: (sign ++ ds))

/-- The characters of a number.  It has a value if there is nothing but the integer part. -/
inductive Number : Option Nat → List Char → Prop
  | natural (n : Nat) : Number (some n) (Nat.toDigits 10 n)
  | other {sign fraction exponent : List Char} (n : Nat) (hsign : sign = [] ∨ sign = ['-'])
      (hfraction : Fraction fraction) (hexponent : Exponent exponent)
      (hmore : sign ++ (fraction ++ exponent) ≠ []) :
      Number none (sign ++ (Nat.toDigits 10 n ++ (fraction ++ exponent)))

theorem Digits.isDigits {cs : List Char} (hdigits : Digits cs) : isDigits cs = true := by
  simp only [JsonToken.isDigits, Bool.and_eq_true, Bool.not_eq_true', List.isEmpty_eq_false_iff,
    List.all_eq_true]
  exact hdigits

theorem digits_toDigits (n : Nat) : Digits (Nat.toDigits 10 n) :=
  ⟨Nat.toDigits_ne_nil, fun _ hc => Nat.isDigit_of_mem_toDigits (by omega) (by omega) hc⟩

/-- The numeral of a positive number has no leading zero. -/
theorem head?_toDigits {n : Nat} (hn : 0 < n) : (Nat.toDigits 10 n).head? ≠ some '0' := by
  induction n using Nat.strongRecOn with
  | ind n ih =>
      by_cases hlt : n < 10
      · have hone : ∀ m < 10, 0 < m → Nat.digitChar m ≠ '0' := by decide
        rw [Nat.toDigits_of_lt_base hlt, List.head?_cons, ne_eq, Option.some.injEq]
        exact hone n hlt hn
      · have hhigh := ih (n / 10) (by omega) (by omega)
        have hne : Nat.toDigits 10 (n / 10) ≠ [] := Nat.toDigits_ne_nil
        obtain ⟨d, ds, hds⟩ := List.exists_cons_of_ne_nil hne
        rw [hds] at hhigh
        rw [Nat.toDigits_of_base_le (by omega) (by omega), hds]
        exact hhigh

theorem isNatural_toDigits (n : Nat) : isNatural (Nat.toDigits 10 n) = true := by
  rw [isNatural, (digits_toDigits n).isDigits, Bool.true_and]
  cases n with
  | zero => rfl
  | succ n =>
      rw [bne_iff_ne.2 (head?_toDigits n.succ_pos), Bool.or_true]

theorem naturalValue_toDigits (n : Nat) : naturalValue (Nat.toDigits 10 n) = n :=
  Nat.ofDigitChars_toDigits (by omega) (by omega)

/-! ### Runs of digits -/

/-- What follows a run of digits ends it. -/
def EndsDigits (cs : List Char) : Prop := ∀ c, cs.head? = some c → c.isDigit = false

theorem span_digits {ds rest : List Char} (hdigits : Digits ds) (hrest : EndsDigits rest) :
    (ds ++ rest).takeWhile Char.isDigit = ds ∧ (ds ++ rest).dropWhile Char.isDigit = rest := by
  rw [List.takeWhile_append_of_pos hdigits.2, List.dropWhile_append_of_pos hdigits.2]
  cases rest with
  | nil => simp
  | cons c rest =>
      have hc : ¬ c.isDigit = true := by simp [hrest c rfl]
      rw [List.takeWhile_cons_of_neg hc, List.dropWhile_cons_of_neg hc, List.append_nil]
      exact ⟨rfl, rfl⟩

theorem Exponent.endsDigits {cs : List Char} (hexponent : Exponent cs) : EndsDigits cs := by
  intro c hc
  cases hexponent with
  | absent => cases hc
  | letter he =>
      cases hc
      rcases he with rfl | rfl <;> decide

theorem endsDigits_tail {fraction exponent : List Char} (hfraction : Fraction fraction)
    (hexponent : Exponent exponent) : EndsDigits (fraction ++ exponent) := by
  cases hfraction with
  | absent => exact hexponent.endsDigits
  | point =>
      intro c hc
      cases hc
      decide

/-- Digits are no sign. -/
theorem isExponent_letter {e : Char} {ds : List Char} (he : e = 'e' ∨ e = 'E') (hdigits : Digits ds) :
    isExponent (e :: ds) = true := by
  obtain ⟨hne, hall⟩ := hdigits
  have hds := Digits.isDigits ⟨hne, hall⟩
  cases ds with
  | nil => exact absurd rfl hne
  | cons d ds =>
      have hd := hall d List.mem_cons_self
      rcases he with rfl | rfl
      · unfold isExponent
        split <;> simp_all
      · unfold isExponent
        split <;> simp_all

/-- A letter with digits that carry no sign, or with a sign in front of them. -/
theorem Exponent.isExponent {cs : List Char} (hexponent : Exponent cs) : isExponent cs = true := by
  cases hexponent with
  | absent => rfl
  | letter he hsign hdigits =>
      rcases hsign with rfl | rfl | rfl
      · exact isExponent_letter he hdigits
      · rcases he with rfl | rfl <;> exact hdigits.isDigits
      · rcases he with rfl | rfl <;> exact hdigits.isDigits

theorem isFraction_append {fraction exponent : List Char} (hfraction : Fraction fraction)
    (hexponent : Exponent exponent) : isFraction (fraction ++ exponent) = true := by
  cases hfraction with
  | absent =>
      cases hexponent with
      | absent => rfl
      | letter he hsign hdigits =>
          have hrest := (Exponent.letter he hsign hdigits).isExponent
          rcases he with rfl | rfl <;> exact hrest
  | point hdigits =>
      obtain ⟨htake, hdrop⟩ := span_digits hdigits hexponent.endsDigits
      rw [List.cons_append, isFraction, htake, hdrop, hdigits.isDigits, hexponent.isExponent]
      rfl

theorem isUnsigned_append (n : Nat) {fraction exponent : List Char} (hfraction : Fraction fraction)
    (hexponent : Exponent exponent) :
    isUnsigned (Nat.toDigits 10 n ++ (fraction ++ exponent)) = true := by
  obtain ⟨htake, hdrop⟩ := span_digits (digits_toDigits n) (endsDigits_tail hfraction hexponent)
  rw [isUnsigned, htake, hdrop, isNatural_toDigits, isFraction_append hfraction hexponent]
  rfl

theorem isNumber_append {sign cs : List Char} (hsign : sign = [] ∨ sign = ['-'])
    (hunsigned : isUnsigned cs = true) : isNumber (sign ++ cs) = true := by
  rcases hsign with rfl | rfl
  · rw [List.nil_append, isNumber.eq_def]
    split
    -- no number without a sign starts with one
    · cases hunsigned
    · exact hunsigned
  · exact hunsigned

theorem isNatural_eq_false {cs : List Char} {c : Char} (hc : c ∈ cs) (hdigit : c.isDigit = false) :
    isNatural cs = false := by
  have hall : cs.all Char.isDigit = false := List.all_eq_false.2 ⟨c, hc, by simp [hdigit]⟩
  rw [isNatural, JsonToken.isDigits, hall, Bool.and_false, Bool.false_and]

/-! ### Words -/

/-- The characters that a word is made of. -/
def isWordChar (c : Char) : Bool := !isBlank c && c != '"' && (ofPunctuation? c).isNone

/-- The characters of a word that stands for a token. -/
structure Word (t : JsonToken) (cs : List Char) : Prop where
  token : ofWord? cs = some t
  chars : ∀ c ∈ cs, isWordChar c = true

theorem isWordChar_of_isDigit {c : Char} (hc : c.isDigit = true) : isWordChar c = true := by
  have hne : ∀ d : Char, d.isDigit = false → c ≠ d := by
    rintro d hd rfl
    rw [hc] at hd
    cases hd
  have hpunctuation : ofPunctuation? c = none := by
    unfold ofPunctuation?
    split <;> first | rfl | exact absurd rfl (hne _ rfl)
  simp [isWordChar, isBlank, hpunctuation, hne]

theorem ofWord?_of_isNatural {cs : List Char} (hnatural : isNatural cs = true) :
    ofWord? cs = some (.number (some (naturalValue cs))) := by
  have hne : ∀ word : List Char, isNatural word = false → cs ≠ word := by
    rintro word hword rfl
    rw [hnatural] at hword
    cases hword
  rw [ofWord?, if_neg (hne _ rfl), if_neg (hne _ rfl), if_neg (hne _ rfl), if_pos hnatural]

theorem ofWord?_of_isNumber {cs : List Char} (hnumber : isNumber cs = true)
    (hnatural : isNatural cs = false) : ofWord? cs = some (.number none) := by
  have hne : ∀ word : List Char, isNumber word = false → cs ≠ word := by
    rintro word hword rfl
    rw [hnumber] at hword
    cases hword
  rw [ofWord?, if_neg (hne _ rfl), if_neg (hne _ rfl), if_neg (hne _ rfl),
    if_neg (by simp [hnatural]), if_pos hnumber]

example : ofWord? "-1.50e-07".toList = some (.number none) := by decide +kernel

theorem Digits.isWordChar {cs : List Char} (hdigits : Digits cs) :
    ∀ c ∈ cs, isWordChar c = true :=
  fun c hc => isWordChar_of_isDigit (hdigits.2 c hc)

theorem Fraction.isWordChar {cs : List Char} (hfraction : Fraction cs) :
    ∀ c ∈ cs, isWordChar c = true := by
  cases hfraction with
  | absent => simp
  | point hdigits =>
      rw [List.forall_mem_cons]
      exact ⟨rfl, hdigits.isWordChar⟩

theorem Exponent.isWordChar {cs : List Char} (hexponent : Exponent cs) :
    ∀ c ∈ cs, isWordChar c = true := by
  cases hexponent with
  | absent => simp
  | letter he hsign hdigits =>
      rw [List.forall_mem_cons, List.forall_mem_append]
      refine ⟨?_, ?_, hdigits.isWordChar⟩
      · rcases he with rfl | rfl <;> rfl
      · rcases hsign with rfl | rfl | rfl <;> simp [JsonText.isWordChar, isBlank, ofPunctuation?]

/-- A number is a word, and stands for itself. -/
theorem Number.word {value : Option Nat} {cs : List Char} (hnumber : Number value cs) :
    Word (.number value) cs := by
  cases hnumber with
  | natural n =>
      refine ⟨?_, (digits_toDigits n).isWordChar⟩
      rw [ofWord?_of_isNatural (isNatural_toDigits n), naturalValue_toDigits]
  | @other sign fraction exponent n hsign hfraction hexponent hmore =>
      have hgrammar := isNumber_append hsign (isUnsigned_append n hfraction hexponent)
      refine ⟨ofWord?_of_isNumber hgrammar ?_, ?_⟩
      · rcases hsign with rfl | rfl
        · obtain ⟨c, tail, htail⟩ := List.exists_cons_of_ne_nil hmore
          rw [List.nil_append] at htail ⊢
          have hc : c.isDigit = false := endsDigits_tail hfraction hexponent c (by rw [htail]; rfl)
          exact isNatural_eq_false (by rw [htail]; simp) hc
        · exact isNatural_eq_false List.mem_cons_self rfl
      · simp only [List.forall_mem_append]
        refine ⟨?_, (digits_toDigits n).isWordChar, hfraction.isWordChar, hexponent.isWordChar⟩
        rcases hsign with rfl | rfl <;> simp [JsonText.isWordChar, isBlank, ofPunctuation?]

/-! ## Strings -/

/-- The escapes of two characters: what follows the backslash, and the unit. -/
def shortEscapes : List (Char × Nat) :=
  [('"', 0x22), ('\\', 0x5C), ('/', 0x2F), ('b', 0x08), ('f', 0x0C), ('n', 0x0A), ('r', 0x0D),
    ('t', 0x09)]

/-- A hexadecimal digit, in lower or upper case. -/
def HexDigit (value : Nat) (c : Char) : Prop :=
  value < 16 ∧ (c = Nat.digitChar value ∨ c = (Nat.digitChar value).toUpper)

/-- How a code unit is spelled. -/
inductive SpellsUnit : Nat → List Char → Prop
  | plain {c : Char} (hcontrol : 0x20 ≤ c.toNat) (hquote : c ≠ '"') (hbackslash : c ≠ '\\') :
      SpellsUnit c.toNat [c]
  | short {c : Char} {u : Nat} (hescape : (c, u) ∈ shortEscapes) : SpellsUnit u ['\\', c]
  | unicode {a b c d : Char} {i j k l : Nat} (ha : HexDigit i a) (hb : HexDigit j b)
      (hc : HexDigit k c) (hd : HexDigit l d) :
      SpellsUnit (0x1000 * i + 0x100 * j + 0x10 * k + l) ['\\', 'u', a, b, c, d]

/-- How code units are spelled, one after the other. -/
inductive Spells : List Nat → List Char → Prop
  | nil : Spells [] []
  | cons {u : Nat} {us : List Nat} {cs ds : List Char} (hunit : SpellsUnit u cs)
      (hunits : Spells us ds) : Spells (u :: us) (cs ++ ds)

/-- The first of the two units of a character beyond the basic plane. -/
def highSurrogate (c : Char) : Nat := 0xD800 + (c.toNat - 0x10000) / 0x400

/-- The second one. -/
def lowSurrogate (c : Char) : Nat := 0xDC00 + (c.toNat - 0x10000) % 0x400

/-- The units of a text.  A character beyond the basic plane may stay in one piece. -/
inductive Encodes : List Char → List Nat → Prop
  | nil : Encodes [] []
  | whole {c : Char} {s : List Char} {us : List Nat} (hrest : Encodes s us) :
      Encodes (c :: s) (c.toNat :: us)
  | split {c : Char} {s : List Char} {us : List Nat} (hc : 0x10000 ≤ c.toNat) (hrest : Encodes s us) :
      Encodes (c :: s) (highSurrogate c :: lowSurrogate c :: us)

/-- The characters of a string.  It has no text if its units are not those of any. -/
inductive StringLiteral : Option String → List Char → Prop
  | text {s : String} {us : List Nat} {cs : List Char} (hspells : Spells us cs)
      (hunits : Encodes s.toList us) : StringLiteral (some s) ('"' :: (cs ++ ['"']))
  | alone {us : List Nat} {cs : List Char} (hspells : Spells us cs)
      (halone : ∀ s, ¬ Encodes s us) : StringLiteral none ('"' :: (cs ++ ['"']))

/-- The characters that need no escape. -/
def isPlain (c : Char) : Bool := 0x20 ≤ c.toNat && c != '"' && c != '\\'

/-- A text of such characters can be spelled as it is. -/
theorem stringLiteral_plain {s : String} (hplain : s.toList.all isPlain = true) :
    StringLiteral (some s) ('"' :: (s.toList ++ ['"'])) := by
  have hspells : ∀ cs : List Char, cs.all isPlain = true →
      Spells (cs.map Char.toNat) cs ∧ Encodes cs (cs.map Char.toNat) := by
    intro cs hcs
    induction cs with
    | nil => exact ⟨.nil, .nil⟩
    | cons c cs ih =>
        rw [List.all_cons, Bool.and_eq_true] at hcs
        obtain ⟨hc, hcs⟩ := hcs
        simp only [isPlain, Bool.and_eq_true, decide_eq_true_eq, bne_iff_ne] at hc
        obtain ⟨⟨hcontrol, hquote⟩, hbackslash⟩ := hc
        obtain ⟨hspells, hunits⟩ := ih hcs
        exact ⟨.cons (.plain hcontrol hquote hbackslash) hspells, .whole hunits⟩
  obtain ⟨hspells, hunits⟩ := hspells s.toList hplain
  exact .text hspells hunits

/-! ### The text of code units -/

section Decode

open CodeUnits

theorem toNat_lt (c : Char) : c.toNat < 0x110000 := by
  have hvalid : c.toNat.isValidChar := c.valid
  rcases hvalid with hlow | ⟨-, hhigh⟩ <;> omega

/-- No character is a surrogate. -/
theorem not_surrogate (c : Char) :
    isHighSurrogate c.toNat = false ∧ isLowSurrogate c.toNat = false := by
  have hvalid : c.toNat.isValidChar := c.valid
  simp only [isHighSurrogate, isLowSurrogate, Bool.and_eq_false_iff, decide_eq_false_iff_not]
  rcases hvalid with hlow | ⟨hhigh, -⟩ <;> omega

theorem join_surrogates {c : Char} (hc : 0x10000 ≤ c.toNat) :
    join (highSurrogate c) (lowSurrogate c) = c := by
  have hsum : 0x10000 + (highSurrogate c - 0xD800) * 0x400 + (lowSurrogate c - 0xDC00) = c.toNat := by
    simp only [highSurrogate, lowSurrogate]
    omega
  rw [join, hsum, Char.ofNat_toNat]

theorem isHighSurrogate_iff {u : Nat} : isHighSurrogate u = true ↔ 0xD800 ≤ u ∧ u < 0xDC00 := by
  simp [isHighSurrogate]

theorem isLowSurrogate_iff {u : Nat} : isLowSurrogate u = true ↔ 0xDC00 ≤ u ∧ u < 0xE000 := by
  simp [isLowSurrogate]

theorem foldlM_step_of_encodes {s : List Char} {us : List Nat} (hunits : Encodes s us)
    (read : List Char) : us.foldlM step (read, none) = some (s.reverse ++ read, none) := by
  induction hunits generalizing read with
  | nil => rfl
  | @whole c s us hrest ih =>
      obtain ⟨hhigh, hlow⟩ := not_surrogate c
      have hstep : step (read, none) c.toNat = some (c :: read, none) := by
        simp [step, hhigh, hlow]
      rw [List.foldlM_cons, hstep, Option.bind_eq_bind, Option.bind_some, ih]
      simp
  | @split c s us hc hrest ih =>
      have hlt := toNat_lt c
      have hhigh : isHighSurrogate (highSurrogate c) = true := by
        rw [isHighSurrogate_iff, highSurrogate]
        omega
      have hlow : isLowSurrogate (lowSurrogate c) = true := by
        rw [isLowSurrogate_iff, lowSurrogate]
        omega
      have hfirst : step (read, none) (highSurrogate c) = some (read, some (highSurrogate c)) := by
        simp [step, hhigh]
      have hsecond : step (read, some (highSurrogate c)) (lowSurrogate c) = some (c :: read, none) := by
        simp [step, hlow, join_surrogates hc]
      rw [List.foldlM_cons, hfirst, Option.bind_eq_bind, Option.bind_some, List.foldlM_cons, hsecond,
        Option.bind_eq_bind, Option.bind_some, ih]
      simp

theorem toNat_ofNat {u : Nat} (hu : u.isValidChar) : (Char.ofNat u).toNat = u := by
  rw [Char.ofNat, dif_pos hu]
  rfl

theorem surrogates_join {high low : Nat} (hhigh : isHighSurrogate high = true)
    (hlow : isLowSurrogate low = true) :
    0x10000 ≤ (join high low).toNat ∧ highSurrogate (join high low) = high ∧
      lowSurrogate (join high low) = low := by
  rw [isHighSurrogate_iff] at hhigh
  rw [isLowSurrogate_iff] at hlow
  have hvalid : (0x10000 + (high - 0xD800) * 0x400 + (low - 0xDC00)).isValidChar := Or.inr (by omega)
  rw [highSurrogate, lowSurrogate, join, toNat_ofNat hvalid]
  omega

/-- The other direction.  A first half that waits belongs to the units that are still to come. -/
theorem encodes_of_foldlM_step {us : List Nat} (hbound : ∀ u ∈ us, u < 0x110000)
    {waiting : Option Nat} (hwaiting : ∀ high ∈ waiting, isHighSurrogate high = true)
    {read out : List Char} (hfold : us.foldlM step (read, waiting) = some (out, none)) :
    ∃ s, Encodes s (waiting.toList ++ us) ∧ out = s.reverse ++ read := by
  induction us generalizing waiting read with
  | nil =>
      cases hfold
      exact ⟨[], .nil, rfl⟩
  | cons u us ih =>
      rw [List.forall_mem_cons] at hbound
      obtain ⟨hu, hbound⟩ := hbound
      rw [List.foldlM_cons, Option.bind_eq_bind, Option.bind_eq_some_iff] at hfold
      obtain ⟨state, hstep, hfold⟩ := hfold
      cases waiting with
      | some high =>
          have hhigh := hwaiting high rfl
          cases hlow : isLowSurrogate u with
          | false => simp [step, hlow] at hstep
          | true =>
              have hstate : (join high u :: read, none) = state := by simpa [step, hlow] using hstep
              subst hstate
              obtain ⟨s, hunits, rfl⟩ := ih hbound (by simp) hfold
              obtain ⟨hbeyond, hfirst, hsecond⟩ := surrogates_join hhigh hlow
              have hsplit := Encodes.split hbeyond hunits
              rw [hfirst, hsecond] at hsplit
              exact ⟨join high u :: s, hsplit, by simp⟩
      | none =>
          cases hhigh : isHighSurrogate u with
          | true =>
              have hstate : (read, some u) = state := by simpa [step, hhigh] using hstep
              subst hstate
              exact ih hbound (by simpa using hhigh) hfold
          | false =>
              cases hlow : isLowSurrogate u with
              | true => simp [step, hhigh, hlow] at hstep
              | false =>
                  have hstate : (Char.ofNat u :: read, none) = state := by
                    simpa [step, hhigh, hlow] using hstep
                  subst hstate
                  obtain ⟨s, hunits, rfl⟩ := ih hbound (by simp) hfold
                  have hvalid : u.isValidChar := by
                    rw [← Bool.not_eq_true, isHighSurrogate_iff] at hhigh
                    rw [← Bool.not_eq_true, isLowSurrogate_iff] at hlow
                    unfold Nat.isValidChar
                    omega
                  have hwhole := Encodes.whole (c := Char.ofNat u) hunits
                  rw [toNat_ofNat hvalid] at hwhole
                  exact ⟨Char.ofNat u :: s, hwhole, by simp⟩

theorem decode_of_encodes {s : String} {us : List Nat} (hunits : Encodes s.toList us) :
    decode us = some s := by
  rw [decode, foldlM_step_of_encodes hunits]
  simp

example : decode [0x61, 0xD83D, 0xDE00] = some "a😀" := by decide +kernel

theorem decode_eq_none {us : List Nat} (hbound : ∀ u ∈ us, u < 0x110000)
    (halone : ∀ s, ¬ Encodes s us) : decode us = none := by
  unfold decode
  split
  · next out hfold =>
      obtain ⟨s, hunits, -⟩ := encodes_of_foldlM_step hbound (by simp) hfold
      exact absurd hunits (halone s)
  · rfl

example : decode [0xDE00, 0xD83D] = none := by decide +kernel

end Decode

/-! ### Scanning strings -/

theorem hexDigit?_eq {value : Nat} {c : Char} (hdigit : HexDigit value c) :
    hexDigit? c = some value := by
  have hall : ∀ v < 16, hexDigit? (Nat.digitChar v) = some v ∧
      hexDigit? (Nat.digitChar v).toUpper = some v := by
    decide
  obtain ⟨hvalue, rfl | rfl⟩ := hdigit
  · exact (hall value hvalue).1
  · exact (hall value hvalue).2

theorem escaped?_eq :
    ∀ escape ∈ shortEscapes, escaped? escape.1 = some escape.2 ∧ escape.1 ≠ 'u' := by
  decide

theorem SpellsUnit.lt {u : Nat} {cs : List Char} (hunit : SpellsUnit u cs) : u < 0x110000 := by
  cases hunit with
  | plain => exact toNat_lt _
  | short hescape =>
      have hall : ∀ escape ∈ shortEscapes, escape.2 < 0x110000 := by decide
      exact hall _ hescape
  | unicode ha hb hc hd =>
      obtain ⟨hi, -⟩ := ha
      obtain ⟨hj, -⟩ := hb
      obtain ⟨hk, -⟩ := hc
      obtain ⟨hl, -⟩ := hd
      omega

theorem Spells.lt {us : List Nat} {cs : List Char} (hspells : Spells us cs) : ∀ u ∈ us, u < 0x110000 := by
  induction hspells with
  | nil => simp
  | cons hunit _ ih =>
      rw [List.forall_mem_cons]
      exact ⟨hunit.lt, ih⟩

variable (tokens : List JsonToken) (units : List Nat)

theorem SpellsUnit.scan {u : Nat} {cs : List Char} (hunit : SpellsUnit u cs) :
    cs.foldlM scanStep ⟨tokens, .text units⟩ = some ⟨tokens, .text (u :: units)⟩ := by
  cases hunit with
  | plain hcontrol hquote hbackslash =>
      simp [scanStep, hquote, hbackslash, hcontrol]
  | short hescape =>
      obtain ⟨hunit, hu⟩ := escaped?_eq _ hescape
      simp only at hunit hu
      simp [scanStep, hunit, hu]
  | @unicode a b c d i j k l ha hb hc hd =>
      have hsum : 16 * (16 * (16 * (16 * 0 + i) + j) + k) + l =
          0x1000 * i + 0x100 * j + 0x10 * k + l := by
        omega
      rw [← hsum]
      simp [scanStep, hexDigit?_eq ha, hexDigit?_eq hb, hexDigit?_eq hc, hexDigit?_eq hd]

theorem Spells.scan {us : List Nat} {cs : List Char} (hspells : Spells us cs) :
    cs.foldlM scanStep ⟨tokens, .text units⟩ = some ⟨tokens, .text (us.reverse ++ units)⟩ := by
  induction hspells generalizing units with
  | nil => rfl
  | cons hunit _ ih =>
      rw [List.foldlM_append, hunit.scan, Option.bind_eq_bind, Option.bind_some, ih]
      simp

/-- From quote to quote a string becomes one token, with its text if it has one. -/
theorem StringLiteral.scan {text : Option String} {cs : List Char} (hliteral : StringLiteral text cs) :
    cs.foldlM scanStep ⟨tokens, .plain []⟩ = some ⟨.string text :: tokens, .plain []⟩ := by
  have hquoted : ∀ {us : List Nat} {cs : List Char}, Spells us cs →
      ('"' :: (cs ++ ['"'])).foldlM scanStep ⟨tokens, .plain []⟩ =
        some ⟨.string (CodeUnits.decode us) :: tokens, .plain []⟩ := by
    intro us cs hspells
    have hopen : scanStep ⟨tokens, .plain []⟩ '"' = some ⟨tokens, .text []⟩ := rfl
    rw [List.foldlM_cons, hopen, Option.bind_eq_bind, Option.bind_some, List.foldlM_append,
      hspells.scan]
    simp [scanStep]
  cases hliteral with
  | text hspells hunits => rw [hquoted hspells, decode_of_encodes hunits]
  | alone hspells halone => rw [hquoted hspells, decode_eq_none hspells.lt halone]

end JsonText
end PrivilegedHart
