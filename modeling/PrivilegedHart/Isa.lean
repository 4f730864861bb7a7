import PrivilegedHart.Xlen

/-!
# The ISA register

`misa` has one bit for each extension letter and the register width in its top two bits.
-/

namespace PrivilegedHart
namespace Isa

/-- The bit of an extension letter from `A` to `Z`. -/
def extension (letter : Char) : Word := 1#64 <<< (letter.toNat - 'A'.toNat)

/-- Atomic operations. -/
def atomic : Word := extension 'A'

/-- Compressed instructions. -/
def compressed : Word := extension 'C'

/-- Double-precision floating point. -/
def double : Word := extension 'D'

/-- Single-precision floating point. -/
def single : Word := extension 'F'

/-- The base integer instructions. -/
def base : Word := extension 'I'

/-- Integer multiplication and division. -/
def multiply : Word := extension 'M'

/-- Supervisor mode. -/
def supervisor : Word := extension 'S'

/-- User mode. -/
def user : Word := extension 'U'

/-- The extensions that a register write may switch, as far as the hart has them. -/
def writable : Word := multiply ||| atomic ||| single ||| double ||| compressed

/-- The field that tells the register width. -/
def width : Xlen → Word
  | .rv32 => 1#64 <<< 30
  | .rv64 => 2#64 <<< 62

/-- A hart with every named extension. -/
def full (x : Xlen) : Word :=
  width x ||| base ||| multiply ||| atomic ||| single ||| double ||| compressed
    ||| supervisor ||| user

/-- Double precision needs single precision, so asking for `D` without `F` asks for neither. -/
def normalize (value : Word) : Word :=
  if value &&& single = 0 then value &&& ~~~double else value

end Isa
end PrivilegedHart
