import Rulebook.Value

/-!
# JSON values

A value of the data format JSON, the members of an object in the order in which they are written.
-/

namespace Rulebook

inductive Json
  | null
  | bool (b : Bool)
  | int (n : Int)
  | real (x : Binary64)
  | text (s : String)
  | array (items : List Json)
  | object (members : List (String × Json))
  deriving Inhabited

namespace Json

/-- The last member of an object under a name. -/
def find? (members : List (String × Json)) (name : String) : Option Json :=
  (members.findRev? fun (key, _) => key == name).map (·.2)

/-- The value that a JSON value is, if it is none of the two compound ones. -/
def scalar? : Json → Option Value
  | .null => some .missing
  | .bool b => some (.bool b)
  | .int n => some (.int n)
  | .real x => some (.real x)
  | .text s => some (.text s)
  | .array _ | .object _ => none

end Json

end Rulebook
