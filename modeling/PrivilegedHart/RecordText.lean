/-!
# Records in reports

Reports show a record as its name and its fields in braces.  A record that does not show all of its fields
ends with two dots.
-/

namespace PrivilegedHart
namespace RecordText

/-- The texts of fields, each after its name. -/
def fields (fs : List (String × String)) : String :=
  String.intercalate ", " (fs.map fun f => f.1 ++ ": " ++ f.2)

/-- A record that shows all of its fields. -/
def complete (name : String) (fs : List (String × String)) : String :=
  name ++ " \x7b " ++ fields fs ++ " \x7d"

/-- A record with more fields than it shows. -/
def partly (name : String) (fs : List (String × String)) : String :=
  name ++ " \x7b " ++ fields fs ++ ", .. \x7d"

/-- A truth value in a report. -/
def ofBool (b : Bool) : String := if b then "true" else "false"

end RecordText
end PrivilegedHart
