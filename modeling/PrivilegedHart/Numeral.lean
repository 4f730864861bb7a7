import PrivilegedHart.Word

/-!
# Numerals in messages

Addresses and register values are written in lower-case hexadecimal after `0x`, without leading zeros.
Register numbers are padded to three digits, the width of an architectural register number.
-/

namespace PrivilegedHart
namespace Numeral

/-- The hexadecimal digits of `n`, filled up with zeros to at least `width` digits. -/
def hexPadded (width n : Nat) : String :=
  let digits := Nat.toDigits 16 n
  "0x" ++ String.ofList (List.replicate (width - digits.length) '0' ++ digits)

/-- The hexadecimal numeral of a word. -/
def hex (w : Word) : String := hexPadded 0 w.toNat

/-- The decimal numeral of a word. -/
def decimal (w : Word) : String := toString w.toNat

end Numeral
end PrivilegedHart
