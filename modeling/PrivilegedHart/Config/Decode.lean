import PrivilegedHart.Config.Basic
import PrivilegedHart.Json.Value

/-!
# Configurations as JSON

A configuration is written as an object, whose members may come in any order, or as an array of the fields
in their order.  Absent fields take their defaults, and members of unknown names are ignored, whatever
their values.  A field that is given twice, or a key without text, is refused.
-/

namespace PrivilegedHart
namespace Config

/-- A field of a configuration. -/
inductive Field where
  | xlen
  | maxIsa
  | physAddrBits
  | hartId
  | resetPrivilege
  deriving DecidableEq, Repr

namespace Field

/-- Every field, in the order of arrays. -/
def all : List Field := [xlen, maxIsa, physAddrBits, hartId, resetPrivilege]

/-- The key of a field in objects. -/
def key : Field → String
  | xlen => "xlen"
  | maxIsa => "max_isa"
  | physAddrBits => "phys_addr_bits"
  | hartId => "hart_id"
  | resetPrivilege => "reset_privilege"

/-- The place of a field in arrays. -/
def index : Field → Nat
  | xlen => 0
  | maxIsa => 1
  | physAddrBits => 2
  | hartId => 3
  | resetPrivilege => 4

end Field

/-! ## Values of fields -/

/-- The register width of a name. -/
def xlenOfName? (name : String) : Option Xlen :=
  if name = "Rv32" then some .rv32 else if name = "Rv64" then some .rv64 else none

/-- A register width is its name, or an object with the name as its only key and the value `null`. -/
def readXlen : Json → Option Xlen
  | .string (some name) => xlenOfName? name
  | .object [(some name, .null)] => xlenOfName? name
  | _ => none

/-- An unsigned integer of `w` bits is a natural number that fits. -/
def readBits (w : Nat) : Json → Option (BitVec w)
  | .number (some n) => if n < 1 <<< w then some (BitVec.ofNat w n) else none
  | _ => none

/-- An optional value may be `null`. -/
def readOptional {α : Type} (read : Json → Option α) : Json → Option (Option α)
  | .null => some none
  | json => (read json).map some

/-- A field that is absent takes its default; one that is present must be readable. -/
def readOr {α : Type} (default : α) (read : Json → Option α) : Option Json → Option α
  | none => some default
  | some json => read json

/-! ## Records -/

/-- The configuration whose fields are given by `value?`. -/
def ofFields? (value? : Field → Option Json) : Option Config := do
  let xlen ← readOr .rv64 readXlen (value? .xlen)
  let maxIsa ← readOr none (readOptional (readBits 64)) (value? .maxIsa)
  let physAddrBits ← readOr none (readOptional (readBits 32)) (value? .physAddrBits)
  let hartId ← readOr 0 (readBits 64) (value? .hartId)
  let resetPrivilege ← readOr none (readOptional (readBits 64)) (value? .resetPrivilege)
  return { xlen, maxIsa, physAddrBits, hartId, resetPrivilege }

/-- The values that the members of an object give to a field. -/
def memberValues (members : List (Option String × Json)) (f : Field) : List Json :=
  (members.filter (·.1 == some f.key)).map (·.2)

/-- Every key has a text, and no field is given twice. -/
def hasUsableKeys (members : List (Option String × Json)) : Bool :=
  members.all (·.1.isSome) && Field.all.all fun f => (memberValues members f).length ≤ 1

/-- The configuration that a JSON value denotes. -/
def ofJson? : Json → Option Config
  | .object members =>
      if hasUsableKeys members then ofFields? fun f => (memberValues members f).head? else none
  | .array items =>
      if items.length ≤ Field.all.length then ofFields? fun f => items[f.index]? else none
  | _ => none

/-- The configuration that a text denotes, whether or not a hart can be built from it. -/
def ofText? (text : String) : Option Config := (Json.parse? text).bind ofJson?

/-- Read a configuration and validate it. -/
def parse (text : String) : Except ConfigError Config :=
  match ofText? text with
  | none => .error .malformed
  | some c =>
      match c.validate with
      | .ok () => .ok c
      | .error e => .error e

end Config
end PrivilegedHart
