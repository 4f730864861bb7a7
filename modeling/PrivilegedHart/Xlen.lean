import PrivilegedHart.Word

/-!
# Register width

A hart has 32-bit or 64-bit registers.  Values are stored as 64-bit words in both cases; a 32-bit hart
truncates every register value to its low half on the way in and on the way out.
-/

namespace PrivilegedHart

/-- The register width of a hart. -/
inductive Xlen where
  | rv32
  | rv64
  deriving DecidableEq, Repr, Inhabited

namespace Xlen

/-- The number of bits of a register. -/
def bits : Xlen → Nat
  | rv32 => 32
  | rv64 => 64

/-- The bits of a word that a register can hold. -/
def mask : Xlen → Word
  | rv32 => Word.lowHalf
  | rv64 => BitVec.allOnes 64

/-- Cut a word down to the register width. -/
def truncate (x : Xlen) (w : Word) : Word := w &&& x.mask

/-- Counters have separate registers for their high halves exactly on 32-bit harts. -/
def isRv32 : Xlen → Bool
  | rv32 => true
  | rv64 => false

/-- The name of the width in configurations and messages. -/
def name : Xlen → String
  | rv32 => "Rv32"
  | rv64 => "Rv64"

theorem truncate_truncate (x : Xlen) (w : Word) : x.truncate (x.truncate w) = x.truncate w := by
  simp [truncate, BitVec.and_assoc]

end Xlen
end PrivilegedHart
