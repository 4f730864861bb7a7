import PrivilegedHart.Json.Token

/-!
# JSON values

A value is read from tokens by a machine with an explicit stack of the arrays and objects that are still
open, so the depth of nesting does not matter.  Members of objects keep their order, and repeated keys are
all kept.
-/

namespace PrivilegedHart

/-- A JSON value. -/
inductive Json where
  | null
  | bool (value : Bool)
  /-- A number, with its value if it is written as a natural number. -/
  | number (value : Option Nat)
  /-- A string, with its text if it has one. -/
  | string (text : Option String)
  | array (items : List Json)
  /-- The members in order; a key without text is kept as `none`. -/
  | object (members : List (Option String × Json))
  deriving Inhabited

namespace Json

/-- An array or object that is still open.  Completed items and members have the latest first. -/
inductive Frame where
  | array (items : List Json)
  /-- The value of `key` is being read. -/
  | object (members : List (Option String × Json)) (key : Option String)

/-- What the reader waits for. -/
inductive Awaiting where
  /-- A value. -/
  | value (stack : List Frame)
  /-- The first item of an array, or the end of the array. -/
  | firstItem (stack : List Frame)
  /-- The first key of an object, or the end of the object. -/
  | firstKey (stack : List Frame)
  /-- The next key of an object. -/
  | key (members : List (Option String × Json)) (stack : List Frame)
  /-- The colon after a key. -/
  | colon (members : List (Option String × Json)) (key : Option String) (stack : List Frame)
  /-- What follows a value: a comma or a closing bracket, or the end of the text. -/
  | next (value : Json) (stack : List Frame)

/-- Begin a value. -/
def begin (stack : List Frame) : JsonToken → Option Awaiting
  | .null => some (.next .null stack)
  | .bool b => some (.next (.bool b) stack)
  | .number n => some (.next (.number n) stack)
  | .string s => some (.next (.string s) stack)
  | .openBracket => some (.firstItem stack)
  | .openBrace => some (.firstKey stack)
  | _ => none

/-- Read one token. -/
def readStep : Awaiting → JsonToken → Option Awaiting
  | .value stack, t => begin stack t
  | .firstItem stack, .closeBracket => some (.next (.array []) stack)
  | .firstItem stack, t => begin (.array [] :: stack) t
  | .firstKey stack, .closeBrace => some (.next (.object []) stack)
  | .firstKey stack, .string k => some (.colon [] k stack)
  | .key members stack, .string k => some (.colon members k stack)
  | .colon members k stack, .colon => some (.value (.object members k :: stack))
  | .next v (.array items :: stack), .comma => some (.value (.array (v :: items) :: stack))
  | .next v (.array items :: stack), .closeBracket =>
      some (.next (.array (v :: items).reverse) stack)
  | .next v (.object members k :: stack), .comma => some (.key ((k, v) :: members) stack)
  | .next v (.object members k :: stack), .closeBrace =>
      some (.next (.object ((k, v) :: members).reverse) stack)
  | _, _ => none

/-- The value that a list of tokens forms. -/
def ofTokens? (tokens : List JsonToken) : Option Json :=
  match tokens.foldlM readStep (.value []) with
  | some (.next v []) => some v
  | _ => none

/-- The value that a text denotes. -/
def parse? (text : String) : Option Json := (JsonToken.scan text.toList).bind ofTokens?

end Json
end PrivilegedHart
