import PrivilegedHart.Json.Value
import PrivilegedHart.Proofs.JsonLiterals

/-!
# How values are written

`Written` is the grammar of JSON: it relates values, and the parts that they are written in, to all texts
that stand for them.  The reader is shown to read every such text as the value that it stands for, whatever
blanks there are in it and however deep its arrays and objects are nested.

The proof follows a text through both stages.  Scanning its parts one after the other yields the tokens of
each, because a word ends where the next part begins; and a part read with any stack of open arrays and
objects leaves that stack as it is.
-/

namespace PrivilegedHart
namespace JsonText

open JsonToken

/-! ## The grammar -/

/-- Spaces, tabulators, line feeds and carriage returns, or nothing. -/
def Blanks (cs : List Char) : Prop := ∀ c ∈ cs, c ∈ [' ', '\t', '\n', '\r']

/-- What a part of a text stands for. -/
inductive Phrase where
  | value (v : Json)
  /-- A value with blanks around it. -/
  | element (v : Json)
  | elements (vs : List Json)
  | member (key : Option String) (v : Json)
  | members (ms : List (Option String × Json))

/-- The characters of values and of their parts. -/
inductive Written : Phrase → List Char → Prop
  | nullWord : Written (.value .null) ['n', 'u', 'l', 'l']
  | trueWord : Written (.value (.bool true)) ['t', 'r', 'u', 'e']
  | falseWord : Written (.value (.bool false)) ['f', 'a', 'l', 's', 'e']
  | number {n : Option Nat} {cs : List Char} (hnumber : Number n cs) :
      Written (.value (.number n)) cs
  | string {s : Option String} {cs : List Char} (hliteral : StringLiteral s cs) :
      Written (.value (.string s)) cs
  | emptyArray {blanks : List Char} (hblanks : Blanks blanks) :
      Written (.value (.array [])) ('[' :: (blanks ++ [']']))
  | array {vs : List Json} {cs : List Char} (hvs : Written (.elements vs) cs) :
      Written (.value (.array vs)) ('[' :: (cs ++ [']']))
  | emptyObject {blanks : List Char} (hblanks : Blanks blanks) :
      Written (.value (.object [])) ('\x7b' :: (blanks ++ ['\x7d']))
  | object {ms : List (Option String × Json)} {cs : List Char} (hms : Written (.members ms) cs) :
      Written (.value (.object ms)) ('\x7b' :: (cs ++ ['\x7d']))
  | element {v : Json} {before cs after : List Char} (hbefore : Blanks before)
      (hv : Written (.value v) cs) (hafter : Blanks after) :
      Written (.element v) (before ++ (cs ++ after))
  | lastElement {v : Json} {cs : List Char} (hv : Written (.element v) cs) :
      Written (.elements [v]) cs
  | consElement {v : Json} {vs : List Json} {cs ds : List Char} (hv : Written (.element v) cs)
      (hvs : Written (.elements vs) ds) : Written (.elements (v :: vs)) (cs ++ ',' :: ds)
  | member {key : Option String} {v : Json} {before ks after cs : List Char}
      (hbefore : Blanks before) (hkey : StringLiteral key ks) (hafter : Blanks after)
      (hv : Written (.element v) cs) :
      Written (.member key v) (before ++ (ks ++ (after ++ ':' :: cs)))
  | lastMember {key : Option String} {v : Json} {cs : List Char} (hm : Written (.member key v) cs) :
      Written (.members [(key, v)]) cs
  | consMember {key : Option String} {v : Json} {ms : List (Option String × Json)} {cs ds : List Char}
      (hm : Written (.member key v) cs) (hms : Written (.members ms) ds) :
      Written (.members ((key, v) :: ms)) (cs ++ ',' :: ds)

/-- No blanks are needed around a value. -/
theorem Written.bare {v : Json} {cs : List Char} (hv : Written (.value v) cs) :
    Written (.element v) cs := by
  have hnone : Blanks [] := by simp [Blanks]
  have helement := Written.element hnone hv hnone
  rw [List.nil_append, List.append_nil] at helement
  exact helement

/-- Nor around a key. -/
theorem Written.bareMember {key : Option String} {v : Json} {ks cs : List Char}
    (hkey : StringLiteral key ks) (hv : Written (.element v) cs) :
    Written (.member key v) (ks ++ ':' :: cs) :=
  have hnone : Blanks [] := by simp [Blanks]
  .member hnone hkey hnone hv

/-- What can be written one by one can be written as a list. -/
theorem exists_written_elements {vs : List Json} (hne : vs ≠ [])
    (hvs : ∀ v ∈ vs, ∃ cs, Written (.value v) cs) : ∃ cs, Written (.elements vs) cs := by
  induction vs with
  | nil => exact absurd rfl hne
  | cons v vs ih =>
      rw [List.forall_mem_cons] at hvs
      obtain ⟨⟨cs, hv⟩, hvs⟩ := hvs
      cases vs with
      | nil => exact ⟨cs, .lastElement hv.bare⟩
      | cons w vs =>
          obtain ⟨ds, hrest⟩ := ih (by simp) hvs
          exact ⟨_, .consElement hv.bare hrest⟩

/-! ## Scanning parts one after the other -/

/-- From outside of a word a text yields its tokens, and ends outside of a word. -/
def ScansClosed (cs : List Char) (ts : List JsonToken) : Prop :=
  ∀ before, cs.foldlM scanStep ⟨before, .plain []⟩ = some ⟨ts.reverse ++ before, .plain []⟩

/-- From outside of a word a text yields its tokens, the last one perhaps as a word that is still to be
ended. -/
def Scans (cs : List Char) (ts : List JsonToken) : Prop :=
  ∀ before, ∃ scanned word,
    cs.foldlM scanStep ⟨before, .plain []⟩ = some ⟨scanned, .plain word⟩ ∧
      endWord scanned word = some (ts.reverse ++ before)

/-- A word in front of a text ends there. -/
def EndsWord (cs : List Char) : Prop := ∀ c, cs.head? = some c → isWordChar c = false

variable {cs ds : List Char} {ts us : List JsonToken} {t : JsonToken} {c : Char}

theorem ScansClosed.scans (hcs : ScansClosed cs ts) : Scans cs ts :=
  fun before => ⟨_, [], hcs before, rfl⟩

theorem ScansClosed.append (hcs : ScansClosed cs ts) (hds : Scans ds us) :
    Scans (cs ++ ds) (ts ++ us) := by
  intro before
  rw [List.foldlM_append, hcs before, Option.bind_eq_bind, Option.bind_some, List.reverse_append,
    List.append_assoc]
  exact hds (ts.reverse ++ before)

/-- A character that belongs to no word does the same within a word and after it. -/
theorem scanStep_of_endWord (hc : isWordChar c = false) {scanned ended : List JsonToken}
    {word : List Char} (hend : endWord scanned word = some ended) :
    scanStep ⟨scanned, .plain word⟩ c = scanStep ⟨ended, .plain []⟩ c := by
  have hempty : endWord ended [] = some ended := rfl
  have hcases : isBlank c = true ∨ c = '"' ∨ ∃ t, ofPunctuation? c = some t := by
    simp only [isWordChar, Bool.and_eq_false_iff, Bool.not_eq_false', bne_eq_false_iff_eq,
      Option.isNone_eq_false_iff, Option.isSome_iff_exists, or_assoc] at hc
    exact hc
  simp only [scanStep, hend, hempty]
  rcases hcases with hblank | rfl | ⟨t, ht⟩
  · rw [if_pos hblank, if_pos hblank]
  · rfl
  · simp only [ht]

theorem Scans.append (hcs : Scans cs ts) (hends : EndsWord ds) (hds : Scans ds us) :
    Scans (cs ++ ds) (ts ++ us) := by
  intro before
  obtain ⟨scanned, word, hfold, hend⟩ := hcs before
  cases ds with
  | nil =>
      obtain ⟨scanned', word', hfold', hend'⟩ := hds (ts.reverse ++ before)
      cases hfold'
      -- without characters there are no tokens
      have hnone : us = [] := by simpa [endWord] using hend'
      subst hnone
      simpa using ⟨scanned, word, hfold, hend⟩
  | cons c ds =>
      have hstep := scanStep_of_endWord (hends c rfl) hend
      rw [List.foldlM_append, hfold, Option.bind_eq_bind, Option.bind_some, List.foldlM_cons, hstep,
        ← List.foldlM_cons, List.reverse_append, List.append_assoc]
      exact hds (ts.reverse ++ before)

theorem foldlM_wordChars (hchars : ∀ c ∈ cs, isWordChar c = true) (before : List JsonToken)
    (word : List Char) :
    cs.foldlM scanStep ⟨before, .plain word⟩ = some ⟨before, .plain (cs.reverse ++ word)⟩ := by
  induction cs generalizing word with
  | nil => rfl
  | cons c cs ih =>
      rw [List.forall_mem_cons] at hchars
      obtain ⟨hc, hchars⟩ := hchars
      have hstep : scanStep ⟨before, .plain word⟩ c = some ⟨before, .plain (c :: word)⟩ := by
        simp only [isWordChar, Bool.and_eq_true, Bool.not_eq_true', bne_iff_ne, Option.isNone_iff_eq_none]
          at hc
        simp [scanStep, hc]
      rw [List.foldlM_cons, hstep, Option.bind_eq_bind, Option.bind_some, ih hchars]
      simp

theorem Word.scans (hword : Word t cs) : Scans cs [t] := by
  intro before
  refine ⟨before, cs.reverse, ?_, ?_⟩
  · rw [foldlM_wordChars hword.chars, List.append_nil]
  · have hne : cs ≠ [] := by
      rintro rfl
      cases hword.token
    simp [endWord, hne, hword.token]

theorem StringLiteral.scansClosed {s : Option String} (hliteral : StringLiteral s cs) :
    ScansClosed cs [.string s] :=
  fun before => hliteral.scan before

theorem Blanks.scansClosed (hblanks : Blanks cs) : ScansClosed cs [] := by
  intro before
  induction cs with
  | nil => rfl
  | cons c cs ih =>
      rw [Blanks, List.forall_mem_cons] at hblanks
      obtain ⟨hc, hblanks⟩ := hblanks
      have hall : ∀ c ∈ [' ', '\t', '\n', '\r'], isBlank c = true := by simp [isBlank]
      have hstep : scanStep ⟨before, .plain []⟩ c = some ⟨before, .plain []⟩ := by
        simp [scanStep, hall c hc, endWord]
      rw [List.foldlM_cons, hstep, Option.bind_eq_bind, Option.bind_some]
      exact ih hblanks

theorem Blanks.endsWord (hblanks : Blanks cs) : EndsWord cs := by
  intro c hc
  have hall : ∀ c ∈ [' ', '\t', '\n', '\r'], isWordChar c = false := by simp [isWordChar, isBlank]
  exact hall c (hblanks c (List.mem_of_mem_head? hc))

theorem endsWord_cons (hc : isWordChar c = false) : EndsWord (c :: cs) := by
  intro d hd
  cases hd
  exact hc

/-- A text in brackets or braces. -/
theorem Scans.enclosed {first last : Char} {t u : JsonToken}
    (hfirst : ScansClosed [first] [t]) (hcs : Scans cs ts) (hlast : ScansClosed [last] [u])
    (hends : isWordChar last = false) :
    Scans (first :: (cs ++ [last])) (t :: (ts ++ [u])) :=
  hfirst.append (hcs.append (endsWord_cons hends) hlast.scans)

/-- Two parts with a comma or a colon between them. -/
theorem Scans.separated {c : Char} {t : JsonToken} (hcs : Scans cs ts) (hc : ScansClosed [c] [t])
    (hends : isWordChar c = false) (hds : Scans ds us) : Scans (cs ++ c :: ds) (ts ++ t :: us) :=
  hcs.append (endsWord_cons hends) (hc.append hds)

theorem scan_of_scans (hcs : Scans cs ts) : scan cs = some ts := by
  obtain ⟨scanned, word, hfold, hend⟩ := hcs []
  rw [scan, hfold]
  simp [hend]

/-! ## Reading parts with any stack -/

/-- A part is read from tokens if they take the reader from where it waits for the part to where the part
is complete, whatever is open around it.  A list of elements or members is complete only with the bracket
or brace behind it. -/
def Phrase.ReadFrom (ts : List JsonToken) : Phrase → Prop
  | .value v | .element v =>
      ∀ stack, ts.foldlM Json.readStep (.value stack) = some (.next v stack)
  | .elements vs =>
      ∀ stack done, (ts ++ [closeBracket]).foldlM Json.readStep (.value (.array done :: stack)) =
        some (.next (.array (done.reverse ++ vs)) stack)
  | .member key v =>
      ∀ stack done, ts.foldlM Json.readStep (.key done stack) = some (.next v (.object done key :: stack))
  | .members ms =>
      ∀ stack done, (ts ++ [closeBrace]).foldlM Json.readStep (.key done stack) =
        some (.next (.object (done.reverse ++ ms)) stack)

/-- Where the first item or the end of an array may follow, an item is read as anywhere else. -/
theorem foldlM_firstItem {stack : List Json.Frame} {v : Json} {stack' : List Json.Frame}
    (hread : ts.foldlM Json.readStep (.value (.array [] :: stack)) = some (.next v stack')) :
    ts.foldlM Json.readStep (.firstItem stack) = some (.next v stack') := by
  cases ts with
  | nil => cases hread
  | cons t ts =>
      have hstep : Json.readStep (.firstItem stack) t = Json.readStep (.value (.array [] :: stack)) t := by
        cases t with
        | closeBracket => cases hread
        | _ => rfl
      rw [List.foldlM_cons, hstep]
      exact hread

theorem foldlM_firstKey {stack : List Json.Frame} {v : Json} {stack' : List Json.Frame}
    (hread : ts.foldlM Json.readStep (.key [] stack) = some (.next v stack')) :
    ts.foldlM Json.readStep (.firstKey stack) = some (.next v stack') := by
  cases ts with
  | nil => cases hread
  | cons t ts =>
      have hstep : Json.readStep (.firstKey stack) t = Json.readStep (.key [] stack) t := by
        cases t with
        | closeBrace => cases hread
        | _ => rfl
      rw [List.foldlM_cons, hstep]
      exact hread

/-- Every part of a text is scanned and read as what it stands for. -/
theorem Written.scans_readFrom {p : Phrase} (hp : Written p cs) : ∃ ts, Scans cs ts ∧ p.ReadFrom ts := by
  induction hp with
  | nullWord => exact ⟨[.null], Word.scans ⟨rfl, List.all_eq_true.1 rfl⟩, fun _ => rfl⟩
  | trueWord => exact ⟨[.bool true], Word.scans ⟨rfl, List.all_eq_true.1 rfl⟩, fun _ => rfl⟩
  | falseWord => exact ⟨[.bool false], Word.scans ⟨rfl, List.all_eq_true.1 rfl⟩, fun _ => rfl⟩
  | number hnumber => exact ⟨[.number _], hnumber.word.scans, fun _ => rfl⟩
  | string hliteral => exact ⟨[.string _], hliteral.scansClosed.scans, fun _ => rfl⟩
  | emptyArray hblanks =>
      exact ⟨[.openBracket, .closeBracket],
        Scans.enclosed (fun _ => rfl) hblanks.scansClosed.scans (fun _ => rfl) rfl, fun _ => rfl⟩
  | array _ ih =>
      obtain ⟨ts, hscans, hread⟩ := ih
      refine ⟨.openBracket :: (ts ++ [.closeBracket]),
        hscans.enclosed (fun _ => rfl) (fun _ => rfl) rfl, ?_⟩
      intro stack
      exact foldlM_firstItem (hread stack [])
  | emptyObject hblanks =>
      exact ⟨[.openBrace, .closeBrace],
        Scans.enclosed (fun _ => rfl) hblanks.scansClosed.scans (fun _ => rfl) rfl, fun _ => rfl⟩
  | object _ ih =>
      obtain ⟨ts, hscans, hread⟩ := ih
      refine ⟨.openBrace :: (ts ++ [.closeBrace]),
        hscans.enclosed (fun _ => rfl) (fun _ => rfl) rfl, ?_⟩
      intro stack
      exact foldlM_firstKey (hread stack [])
  | element hbefore _ hafter ih =>
      obtain ⟨ts, hscans, hread⟩ := ih
      have hpadded := hbefore.scansClosed.append (hscans.append hafter.endsWord hafter.scansClosed.scans)
      rw [List.nil_append, List.append_nil] at hpadded
      exact ⟨ts, hpadded, hread⟩
  | @lastElement v cs _ ih =>
      obtain ⟨ts, hscans, hread⟩ := ih
      refine ⟨ts, hscans, ?_⟩
      intro stack done
      rw [List.foldlM_append, hread]
      simp [Json.readStep]
  | @consElement v vs cs ds _ _ ih ihs =>
      obtain ⟨ts, hscans, hread⟩ := ih
      obtain ⟨us, hscans', hread'⟩ := ihs
      refine ⟨ts ++ .comma :: us, hscans.separated (fun _ => rfl) rfl hscans', ?_⟩
      intro stack done
      have hrest := hread' stack (v :: done)
      rw [List.append_assoc, List.foldlM_append, hread]
      simpa [Json.readStep] using hrest
  | @member key v before ks after cs hbefore hkey hafter _ ih =>
      obtain ⟨ts, hscans, hread⟩ := ih
      have hvalue : Scans (after ++ ':' :: cs) (.colon :: ts) :=
        hafter.scansClosed.scans.separated (fun _ => rfl) rfl hscans
      refine ⟨.string key :: .colon :: ts,
        hbefore.scansClosed.append (hkey.scansClosed.append hvalue), ?_⟩
      intro stack done
      exact hread (.object done key :: stack)
  | @lastMember key v cs _ ih =>
      obtain ⟨ts, hscans, hread⟩ := ih
      refine ⟨ts, hscans, ?_⟩
      intro stack done
      rw [List.foldlM_append, hread]
      simp [Json.readStep]
  | @consMember key v ms cs ds _ _ ih ihs =>
      obtain ⟨ts, hscans, hread⟩ := ih
      obtain ⟨us, hscans', hread'⟩ := ihs
      refine ⟨ts ++ .comma :: us, hscans.separated (fun _ => rfl) rfl hscans', ?_⟩
      intro stack done
      have hrest := hread' stack ((key, v) :: done)
      rw [List.append_assoc, List.foldlM_append, hread]
      simpa [Json.readStep] using hrest

/-- A text that is written as a value is read as that value. -/
theorem parse?_of_written {text : String} {v : Json} (htext : Written (.element v) text.toList) :
    Json.parse? text = some v := by
  obtain ⟨ts, hscans, hread⟩ := htext.scans_readFrom
  rw [Json.parse?, scan_of_scans hscans, Option.bind_some, Json.ofTokens?, hread []]

end JsonText
end PrivilegedHart
