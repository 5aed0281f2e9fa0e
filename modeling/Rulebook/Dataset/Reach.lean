import Rulebook.Dataset.Basic
import Rulebook.Formula.Row
import Rulebook.Text.Pattern.Read

/-!
# Data sets — the columns that a name stands for

In a data set a star stands for every column, and a name that begins with a circumflex and ends
with a dollar sign is a pattern and stands for the columns in whose names it is found.  Any other
name stands for the column that has it.

* `Formula.spelledOut`: the conditions on single columns that a formula stands for in a data set.
  An atom needs one column; a conjunction is spelled out over all of them, even over none.
-/

namespace Rulebook

/-- Whether a name is read as a pattern. -/
def isPattern (name : String) : Bool :=
  name.toList.head? = some '^' && name.toList.getLast? = some '$'

/-- Whether a name stands for the column that has it. -/
def standsForOne (name : String) : Bool := name ≠ "*" && !isPattern name

/-- The names of columns that a name stands for; its own, if that is not read otherwise. -/
def Schema.namesFor (schema : Schema) (name : String) : Except Fault (List String) :=
  let names := schema.map (·.name)
  if name = "*" then .ok names
  else if isPattern name then
    match Text.Pattern.read? name with
    | some pattern => .ok (names.filter pattern.isIn)
    | none => .error (.unreadablePattern name)
  else .ok [name]

namespace Condition

/-- The condition on each of the columns that its name stands for. -/
def spelledOut (c : Condition) (schema : Schema) : Except Fault (List Condition) :=
  (schema.namesFor c.name).map fun names => names.map fun name => { c with name }

theorem spelledOut_of_standsForOne {c : Condition} (h : standsForOne c.name) (schema : Schema) :
    c.spelledOut schema = .ok [c] := by
  simp only [standsForOne, Bool.and_eq_true, Bool.not_eq_eq_eq_not, Bool.not_true,
    decide_eq_true_eq] at h
  simp [spelledOut, Schema.namesFor, h.1, h.2, Except.map]

end Condition

/-- The conditions on single columns that a formula stands for. -/
def Formula.spelledOut (schema : Schema) : Formula → Except Fault (List Condition)
  | .atom c => do
    match ← c.spelledOut schema with
    | [] => .error (.absentColumn c.name)
    | [c] => .ok [c]
    | _ => .error (.severalColumns c.name)
  | .conjunction cs => do return (← cs.mapM (·.spelledOut schema)).flatten
  | .top => .ok []

end Rulebook
