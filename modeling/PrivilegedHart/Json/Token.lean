import PrivilegedHart.Json.CodeUnits

/-!
# Tokens of JSON texts

A text is cut into tokens by a scanner that reads one character at a time.  Outside of strings, everything
between blanks, punctuation and quotes is a word, and a word has to be a literal name or a number.  Numbers
keep their value only if they are written as a natural number; strings keep their text only if they have
one.
-/

namespace PrivilegedHart

/-- A token of a JSON text. -/
inductive JsonToken where
  | openBrace
  | closeBrace
  | openBracket
  | closeBracket
  | comma
  | colon
  | null
  | bool (value : Bool)
  /-- A number, with its value if it is written as a natural number. -/
  | number (value : Option Nat)
  /-- A string, with its text if no surrogate in it is alone. -/
  | string (text : Option String)
  deriving DecidableEq, Repr

namespace JsonToken

/-! ## Words -/

/-- A nonempty run of decimal digits. -/
def isDigits (cs : List Char) : Bool := !cs.isEmpty && cs.all Char.isDigit

/-- The literal of a natural number: `0`, or digits that do not start with `0`. -/
def isNatural (cs : List Char) : Bool := isDigits cs && (cs == ['0'] || cs.head? != some '0')

/-- The value of a run of decimal digits. -/
def naturalValue (cs : List Char) : Nat := cs.foldl (fun n c => 10 * n + (c.toNat - '0'.toNat)) 0

/-- An optional exponent: `e` or `E`, a sign or none, and digits. -/
def isExponent : List Char → Bool
  | [] => true
  | 'e' :: '+' :: cs | 'e' :: '-' :: cs | 'E' :: '+' :: cs | 'E' :: '-' :: cs => isDigits cs
  | 'e' :: cs | 'E' :: cs => isDigits cs
  | _ => false

/-- An optional fraction, a point followed by digits, and an optional exponent. -/
def isFraction : List Char → Bool
  | '.' :: cs => isDigits (cs.takeWhile Char.isDigit) && isExponent (cs.dropWhile Char.isDigit)
  | cs => isExponent cs

/-- A natural number with an optional fraction and an optional exponent. -/
def isUnsigned (cs : List Char) : Bool :=
  isNatural (cs.takeWhile Char.isDigit) && isFraction (cs.dropWhile Char.isDigit)

/-- The literal of any number. -/
def isNumber : List Char → Bool
  | '-' :: cs => isUnsigned cs
  | cs => isUnsigned cs

/-- The token of a word. -/
def ofWord? (cs : List Char) : Option JsonToken :=
  if cs = ['n', 'u', 'l', 'l'] then some null
  else if cs = ['t', 'r', 'u', 'e'] then some (bool true)
  else if cs = ['f', 'a', 'l', 's', 'e'] then some (bool false)
  else if isNatural cs then some (number (some (naturalValue cs)))
  else if isNumber cs then some (number none)
  else none

/-! ## Characters -/

/-- Space, tabulator, line feed and carriage return separate tokens. -/
def isBlank (c : Char) : Bool := c == ' ' || c == '\t' || c == '\n' || c == '\r'

/-- The token of a punctuation character. -/
def ofPunctuation? : Char → Option JsonToken
  | '{' => some openBrace
  | '}' => some closeBrace
  | '[' => some openBracket
  | ']' => some closeBracket
  | ',' => some comma
  | ':' => some colon
  | _ => none

/-- The value of a hexadecimal digit. -/
def hexDigit? (c : Char) : Option Nat :=
  if '0' ≤ c ∧ c ≤ '9' then some (c.toNat - '0'.toNat)
  else if 'a' ≤ c ∧ c ≤ 'f' then some (c.toNat - 'a'.toNat + 10)
  else if 'A' ≤ c ∧ c ≤ 'F' then some (c.toNat - 'A'.toNat + 10)
  else none

/-- The code unit of an escape of two characters. -/
def escaped? : Char → Option Nat
  | '"' => some 0x22
  | '\\' => some 0x5C
  | '/' => some 0x2F
  | 'b' => some 0x08
  | 'f' => some 0x0C
  | 'n' => some 0x0A
  | 'r' => some 0x0D
  | 't' => some 0x09
  | _ => none

/-! ## The scanner -/

/-- Where the scanner stands.  Characters and code units are collected with the latest first. -/
inductive Mode where
  /-- Outside of strings, with the characters of the current word. -/
  | plain (word : List Char)
  /-- In a string. -/
  | text (units : List Nat)
  /-- In a string, after a backslash. -/
  | escape (units : List Nat)
  /-- In a string, after `\u` and `count` hexadecimal digits of the given value. -/
  | unicode (units : List Nat) (count value : Nat)
  deriving DecidableEq, Repr

/-- The tokens scanned so far, latest first, and where the scanner stands. -/
structure Scan where
  tokens : List JsonToken
  mode : Mode
  deriving DecidableEq, Repr

/-- The tokens after the end of a word, which may be empty. -/
def endWord (tokens : List JsonToken) (word : List Char) : Option (List JsonToken) :=
  if word.isEmpty then some tokens else (ofWord? word.reverse).map (· :: tokens)

/-- Scan one character. -/
def scanStep (s : Scan) (c : Char) : Option Scan :=
  match s.mode with
  | .plain word =>
      if isBlank c then (endWord s.tokens word).map fun ts => ⟨ts, .plain []⟩
      else if c = '"' then (endWord s.tokens word).map fun ts => ⟨ts, .text []⟩
      else
        match ofPunctuation? c with
        | some t => (endWord s.tokens word).map fun ts => ⟨t :: ts, .plain []⟩
        | none => some ⟨s.tokens, .plain (c :: word)⟩
  | .text units =>
      if c = '"' then some ⟨string (CodeUnits.decode units.reverse) :: s.tokens, .plain []⟩
      else if c = '\\' then some ⟨s.tokens, .escape units⟩
      else if c.toNat < 0x20 then none
      else some ⟨s.tokens, .text (c.toNat :: units)⟩
  | .escape units =>
      if c = 'u' then some ⟨s.tokens, .unicode units 0 0⟩
      else (escaped? c).map fun u => ⟨s.tokens, .text (u :: units)⟩
  | .unicode units count value =>
      (hexDigit? c).map fun d =>
        if count = 3 then ⟨s.tokens, .text ((16 * value + d) :: units)⟩
        else ⟨s.tokens, .unicode units (count + 1) (16 * value + d)⟩

/-- The tokens of a text; a text that ends within a string has none. -/
def scan (cs : List Char) : Option (List JsonToken) :=
  match cs.foldlM scanStep ⟨[], .plain []⟩ with
  | some ⟨tokens, .plain word⟩ => (endWord tokens word).map List.reverse
  | _ => none

end JsonToken
end PrivilegedHart
