import PrivilegedHart.Config.Decode
import PrivilegedHart.Proofs.JsonTexts

/-!
# Configurations survive being written

A configuration can be written in many ways: its fields may stand in any order, those that have their
defaults may be left out, members that nobody knows may stand between them, and all of it in any spelling
that JSON allows.  Or the fields stand in an array, from the first to any that only defaults follow.
However it is written, it is read as the same configuration, and then validated.

An object that gives a field twice is no configuration, whatever else is in it.
-/

namespace PrivilegedHart
namespace Config

open JsonText

/-! ## The values of fields -/

/-- A word is written as its value. -/
def naturalJson {w : Nat} (value : BitVec w) : Json := .number (some value.toNat)

/-- An optional word that is absent may be written as `null`. -/
def optionalJson {w : Nat} : Option (BitVec w) → Json
  | none => .null
  | some value => naturalJson value

namespace Field

/-- What is written for a field. -/
def json (c : Config) : Field → Json
  | xlen => .string (some c.xlen.name)
  | maxIsa => optionalJson c.maxIsa
  | physAddrBits => optionalJson c.physAddrBits
  | hartId => naturalJson c.hartId
  | resetPrivilege => optionalJson c.resetPrivilege

/-- A field has the value that it takes if nothing is written for it. -/
def IsDefault (c : Config) : Field → Prop
  | xlen => c.xlen = .rv64
  | maxIsa => c.maxIsa = none
  | physAddrBits => c.physAddrBits = none
  | hartId => c.hartId = 0
  | resetPrivilege => c.resetPrivilege = none

end Field

theorem readXlen_name (x : Xlen) : readXlen (.string (some x.name)) = some x := by
  cases x <;> rfl

theorem readBits_naturalJson {w : Nat} (value : BitVec w) :
    readBits w (naturalJson value) = some value := by
  have hlt : value.toNat < 1 <<< w := by
    rw [Nat.one_shiftLeft]
    exact value.isLt
  rw [naturalJson, readBits, if_pos hlt, BitVec.ofNat_toNat, BitVec.setWidth_eq]

theorem readOptional_optionalJson {w : Nat} (value? : Option (BitVec w)) :
    readOptional (readBits w) (optionalJson value?) = some value? := by
  cases value? with
  | none => rfl
  | some value =>
      have hread : readOptional (readBits w) (naturalJson value) =
          (readBits w (naturalJson value)).map some := rfl
      rw [optionalJson, hread, readBits_naturalJson]
      rfl

/-! ## Records -/

/-- A field is given its value, or nothing and its default is meant. -/
def Given (c : Config) (f : Field) (value? : Option Json) : Prop :=
  value? = some (f.json c) ∨ value? = none ∧ f.IsDefault c

theorem readOr_given {α : Type} {c : Config} {f : Field} {value? : Option Json} {x default : α}
    {read : Json → Option α} (hgiven : Given c f value?) (hread : read (f.json c) = some x)
    (hdefault : f.IsDefault c → x = default) : readOr default read value? = some x := by
  rcases hgiven with rfl | ⟨rfl, hx⟩
  · exact hread
  · rw [hdefault hx]
    rfl

theorem ofFields?_of_given {c : Config} {value? : Field → Option Json}
    (hgiven : ∀ f, Given c f (value? f)) : ofFields? value? = some c := by
  rw [ofFields?, readOr_given (hgiven .xlen) (readXlen_name c.xlen) id,
    readOr_given (hgiven .maxIsa) (readOptional_optionalJson c.maxIsa) id,
    readOr_given (hgiven .physAddrBits) (readOptional_optionalJson c.physAddrBits) id,
    readOr_given (hgiven .hartId) (readBits_naturalJson c.hartId) id,
    readOr_given (hgiven .resetPrivilege) (readOptional_optionalJson c.resetPrivilege) id]
  rfl

/-! ## Objects and arrays -/

/-- The members of an object that encodes a configuration, in any order and among others. -/
structure EncodedByMembers (c : Config) (members : List (Option String × Json)) : Prop where
  /-- Every key has a text. -/
  text : ∀ m ∈ members, m.1.isSome = true
  /-- What is written for a field is its value. -/
  value : ∀ f v, (some (Field.key f), v) ∈ members → v = f.json c
  /-- No field is given twice. -/
  once : ∀ f, (members.map Prod.fst).count (some (Field.key f)) ≤ 1
  /-- A field is left out only if it has its default. -/
  absent : ∀ f, some (Field.key f) ∉ members.map Prod.fst → f.IsDefault c

/-- The values that encode a configuration. -/
inductive Encodes (c : Config) : Json → Prop
  | object {members : List (Option String × Json)} (hmembers : EncodedByMembers c members) :
      Encodes c (.object members)
  | array (n : Nat) (habsent : ∀ f ∈ Field.all.drop n, f.IsDefault c) :
      Encodes c (.array ((Field.all.take n).map (Field.json c)))

variable {c : Config} {members : List (Option String × Json)}

theorem length_memberValues (members : List (Option String × Json)) (f : Field) :
    (memberValues members f).length = (members.map Prod.fst).count (some f.key) := by
  rw [memberValues, List.length_map, ← List.countP_eq_length_filter, List.count_eq_countP,
    List.countP_map]
  rfl

theorem mem_memberValues {v : Json} {f : Field} :
    v ∈ memberValues members f ↔ (some f.key, v) ∈ members := by
  simp only [memberValues, List.mem_map, List.mem_filter, beq_iff_eq]
  constructor
  · rintro ⟨⟨key, v⟩, ⟨hmem, rfl⟩, rfl⟩
    exact hmem
  · intro hmem
    exact ⟨_, ⟨hmem, rfl⟩, rfl⟩

theorem EncodedByMembers.hasUsableKeys (hmembers : EncodedByMembers c members) :
    hasUsableKeys members = true := by
  rw [Config.hasUsableKeys, Bool.and_eq_true, List.all_eq_true, List.all_eq_true]
  refine ⟨hmembers.text, fun f _ => ?_⟩
  rw [decide_eq_true_eq, length_memberValues]
  exact hmembers.once f

theorem EncodedByMembers.given (hmembers : EncodedByMembers c members) (f : Field) :
    Given c f (memberValues members f).head? := by
  cases hvalues : memberValues members f with
  | nil =>
      have habsent : some f.key ∉ members.map Prod.fst := by
        rw [← List.count_eq_zero, ← length_memberValues, hvalues]
        rfl
      exact Or.inr ⟨rfl, hmembers.absent f habsent⟩
  | cons v vs =>
      have hmem : v ∈ memberValues members f := by
        rw [hvalues]
        exact List.mem_cons_self
      rw [List.head?_cons, hmembers.value f v (mem_memberValues.1 hmem)]
      exact Or.inl rfl

theorem all_index (f : Field) : Field.all[f.index]? = some f := by
  cases f <;> rfl

theorem given_item {n : Nat} (habsent : ∀ f ∈ Field.all.drop n, f.IsDefault c) (f : Field) :
    Given c f ((Field.all.take n).map (Field.json c))[f.index]? := by
  by_cases hindex : f.index < n
  · refine Or.inl ?_
    rw [List.getElem?_map, List.getElem?_take_of_lt hindex, all_index]
    rfl
  · have hf : (Field.all.drop n)[f.index - n]? = some f := by
      rw [List.getElem?_drop, Nat.add_sub_cancel' (by omega), all_index]
    refine Or.inr ⟨?_, habsent f (List.mem_of_getElem? hf)⟩
    rw [List.getElem?_map, List.getElem?_take_eq_none (by omega)]
    rfl

/-- However a configuration is encoded, it is decoded as itself. -/
theorem Encodes.ofJson? {json : Json} (hencodes : Encodes c json) : ofJson? json = some c := by
  cases hencodes with
  | object hmembers =>
      rw [Config.ofJson?, if_pos hmembers.hasUsableKeys]
      exact ofFields?_of_given hmembers.given
  | array n habsent =>
      have hlength : ((Field.all.take n).map (Field.json c)).length ≤ Field.all.length := by
        rw [List.length_map]
        exact List.length_take_le' ..
      rw [Config.ofJson?, if_pos hlength]
      exact ofFields?_of_given (given_item habsent)

theorem ofJson?_of_repeated {f : Field} (htwice : 2 ≤ (members.map Prod.fst).count (some f.key)) :
    ofJson? (.object members) = none := by
  have hunusable : ¬ hasUsableKeys members = true := by
    intro husable
    rw [hasUsableKeys, Bool.and_eq_true, List.all_eq_true, List.all_eq_true] at husable
    have honce := husable.2 f (by cases f <;> decide)
    rw [decide_eq_true_eq, length_memberValues] at honce
    omega
  rw [Config.ofJson?, if_neg hunusable]

/-! ## Texts -/

/-- Every configuration can be written, for example as an array of all its fields. -/
theorem exists_written (c : Config) :
    ∃ (json : Json) (text : String), Written (.element json) text.toList ∧ Encodes c json := by
  have hoptional : ∀ {w : Nat} (value? : Option (BitVec w)),
      ∃ cs, Written (.value (optionalJson value?)) cs := by
    intro w value?
    cases value? with
    | none => exact ⟨_, .nullWord⟩
    | some value => exact ⟨_, .number (.natural value.toNat)⟩
  have hfield : ∀ f : Field, ∃ cs, Written (.value (f.json c)) cs := by
    intro f
    cases f with
    | xlen =>
        refine ⟨_, .string (stringLiteral_plain (s := c.xlen.name) ?_)⟩
        cases c.xlen <;> decide +kernel
    | hartId => exact ⟨_, .number (.natural c.hartId.toNat)⟩
    | maxIsa => exact hoptional c.maxIsa
    | physAddrBits => exact hoptional c.physAddrBits
    | resetPrivilege => exact hoptional c.resetPrivilege
  have hfields : ∃ cs, Written (.elements (Field.all.map (Field.json c))) cs := by
    refine exists_written_elements (by simp [Field.all]) ?_
    simpa using fun f _ => hfield f
  obtain ⟨cs, hfields⟩ := hfields
  refine ⟨_, String.ofList ('[' :: (cs ++ [']'])), ?_, .array Field.all.length (by simp)⟩
  rw [String.toList_ofList]
  exact (Written.array hfields).bare

/-- Every text of a value that encodes a configuration is read as that configuration, and then refused only
for a reason that validation finds.  Every text of an object that gives a field twice is refused as a
text. -/
theorem parse_written (c : Config) (text : String) :
    (∀ json, Written (.element json) text.toList → Encodes c json →
      parse text = c.validate.map fun _ => c) ∧
    ∀ (members : List (Option String × Json)) (f : Field),
      Written (.element (.object members)) text.toList →
        2 ≤ (members.map Prod.fst).count (some f.key) → parse text = .error .malformed := by
  constructor
  · intro json hwritten hencodes
    have htext : ofText? text = some c := by
      rw [ofText?, parse?_of_written hwritten, Option.bind_some, hencodes.ofJson?]
    simp only [parse, htext]
    cases c.validate <;> rfl
  · intro members f hwritten htwice
    have htext : ofText? text = none := by
      rw [ofText?, parse?_of_written hwritten, Option.bind_some, ofJson?_of_repeated htwice]
    rw [parse, htext]

/-- A 32-bit hart with the largest number.  Two members that nobody knows have one name, and the first holds a
signed number with an exponent and a surrogate that is alone.  The key of the width has an escape.  A second
text gives the width twice. -/
theorem parse_written_scrambled :
    let c : Config := { xlen := .rv32, hartId := 0xFFFFFFFFFFFFFFFF }
    let json : Json := .object
      [(some "note", .array [.number none, .string none]),
        (some "hart_id", .number (some 18446744073709551615)), (some "xlen", .string (some "Rv32")),
        (some "note", .null), (some "max_isa", .null)]
    let text := "\x7b\"note\":[-1.5e+3,\"\\uD800\"],\n \"hart_id\" : 18446744073709551615," ++
      "\"xl\\u0065n\":\"Rv32\",\"note\":null,\"max_isa\":null\x7d"
    let twice := "\x7b\"xlen\":\"Rv64\",\"xlen\":\"Rv64\"\x7d"
    Written (.element json) text.toList ∧ Encodes c json ∧ parse text = .ok c ∧
      parse twice = .error .malformed := by
  intro c json text twice
  have hspace : Blanks [' '] := by simp [Blanks]
  have hline : Blanks ['\n', ' '] := by simp [Blanks]
  have hnone : Blanks [] := by simp [Blanks]
  -- the spellings that are not plain
  have hdigit : ∀ d : Char, d.isDigit = true → Digits [d] := by
    intro d hd
    simp [Digits, hd]
  have hnumber : Number none "-1.5e+3".toList :=
    .other 1 (Or.inr rfl) (.point (hdigit '5' rfl))
      (.letter (Or.inl rfl) (Or.inr (Or.inl rfl)) (hdigit '3' rfl)) (by simp)
  have hzero : HexDigit 0 '0' := ⟨by omega, Or.inl rfl⟩
  have hfirst : HexDigit 13 'D' := ⟨by omega, Or.inr rfl⟩
  have halone : StringLiteral none "\"\\uD800\"".toList := by
    have hspells : Spells [0xD800] "\\uD800".toList :=
      .cons (.unicode hfirst (j := 8) ⟨by omega, Or.inl rfl⟩ hzero hzero) .nil
    refine .alone hspells ?_
    intro s hs
    have hdecoded := foldlM_step_of_encodes hs []
    simp [CodeUnits.step, CodeUnits.isHighSurrogate] at hdecoded
  have hescaped : StringLiteral (some "xlen") "\"xl\\u0065n\"".toList := by
    have hspells : Spells [0x78, 0x6C, 0x65, 0x6E] "xl\\u0065n".toList :=
      .cons (.plain (c := 'x') (by decide) (by decide) (by decide))
        (.cons (.plain (c := 'l') (by decide) (by decide) (by decide))
          (.cons (.unicode hzero hzero (k := 6) ⟨by omega, Or.inl rfl⟩ (l := 5)
              ⟨by omega, Or.inl rfl⟩)
            (.cons (.plain (c := 'n') (by decide) (by decide) (by decide)) .nil)))
    exact .text hspells (.whole (.whole (.whole (.whole .nil))))
  -- the members
  have hnote : Written (.member (some "note") (.array [.number none, .string none])) _ :=
    .bareMember (stringLiteral_plain (by decide +kernel)) (Written.bare (.array (.consElement
      (Written.bare (.number hnumber)) (.lastElement (Written.bare (.string halone))))))
  have hhartId : Written (.member (some "hart_id") (.number (some 18446744073709551615))) _ :=
    .member hline (stringLiteral_plain (by decide +kernel)) hspace
      (.element hspace (.number (.natural _)) hnone)
  have hxlen : Written (.member (some "xlen") (.string (some "Rv32"))) _ :=
    .bareMember hescaped (Written.bare (.string (stringLiteral_plain (by decide +kernel))))
  have hnull : Written (.member (some "note") .null) _ :=
    .bareMember (stringLiteral_plain (by decide +kernel)) (Written.bare .nullWord)
  have hmaxIsa : Written (.member (some "max_isa") .null) _ :=
    .bareMember (stringLiteral_plain (by decide +kernel)) (Written.bare .nullWord)
  have hjson := Written.bare (.object (.consMember hnote (.consMember hhartId (.consMember hxlen
    (.consMember hnull (.lastMember hmaxIsa))))))
  have hwritten : Written (.element json) text.toList :=
    Eq.mp (congrArg (Written (.element json)) (by decide +kernel)) hjson
  have hencodes : Encodes c json := by
    refine .object ⟨by simp, ?_, ?_, ?_⟩
    · intro f v hmem
      cases f <;> simp [Field.key] at hmem
      all_goals exact hmem
    · intro f
      cases f <;> decide
    · intro f habsent
      cases f with
      | physAddrBits | resetPrivilege => rfl
      | _ => exact absurd (by decide) habsent
  -- the width that is given twice
  have hwidth : Written (.member (some "xlen") (.string (some "Rv64"))) _ :=
    .bareMember (stringLiteral_plain (by decide +kernel))
      (Written.bare (.string (stringLiteral_plain (by decide +kernel))))
  have htwice := Written.bare (.object (.consMember hwidth (.lastMember hwidth)))
  have hwritten' : Written _ twice.toList := Eq.mp (congrArg (Written _) (by decide +kernel)) htwice
  refine ⟨hwritten, hencodes, ?_, (parse_written c twice).2 _ .xlen hwritten' (by decide)⟩
  have hvalid : c.validate = .ok () := (validate_eq_ok_iff c).2 (by decide +kernel)
  rw [(parse_written c text).1 json hwritten hencodes, hvalid]
  rfl

end Config
end PrivilegedHart
