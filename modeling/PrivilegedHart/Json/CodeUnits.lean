/-!
# Code units of string literals

A JSON string literal is a sequence of code units.  Characters written out are units of their own; an
escape `\u` gives one unit of UTF-16, so that two escapes may have to be joined to one character.  A
surrogate without its partner stands for no character, and a literal with one has no text.
-/

namespace PrivilegedHart
namespace CodeUnits

/-- The first half of a character above the basic plane. -/
def isHighSurrogate (u : Nat) : Bool := 0xD800 ≤ u && u < 0xDC00

/-- The second half of a character above the basic plane. -/
def isLowSurrogate (u : Nat) : Bool := 0xDC00 ≤ u && u < 0xE000

/-- The character of two surrogates. -/
def join (high low : Nat) : Char :=
  Char.ofNat (0x10000 + (high - 0xD800) * 0x400 + (low - 0xDC00))

/-- The characters read so far, latest first, and a first half that waits for its partner. -/
abbrev State := List Char × Option Nat

/-- Read one unit; refuse surrogates that have no partner. -/
def step : State → Nat → Option State
  | (chars, some high), u => if isLowSurrogate u then some (join high u :: chars, none) else none
  | (chars, none), u =>
      if isHighSurrogate u then some (chars, some u)
      else if isLowSurrogate u then none
      else some (Char.ofNat u :: chars, none)

/-- The text of a sequence of units, unless a surrogate is left alone. -/
def decode (units : List Nat) : Option String :=
  match units.foldlM step ([], none) with
  | some (chars, none) => some (String.ofList chars.reverse)
  | _ => none

end CodeUnits
end PrivilegedHart
