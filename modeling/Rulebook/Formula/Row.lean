import Rulebook.Fault

/-!
# Formulas — checking one row

A row gives values to variables.  A variable that a row gives no value to is a fault; a missing
value, and a double that is not a number, satisfy no condition.

* `Condition.holds`: numbers are compared exactly, texts by the order of their characters.
* `Formula.check`: the conditions are checked in order, up to the first that does not hold.
-/

namespace Rulebook

/-- The values of the variables of one interpretation. -/
abbrev Row := List (String × Value)

/-- The value that a row gives to a variable. -/
def Row.find? (row : Row) (name : String) : Option Value := row.lookup name

namespace Condition

/-- The fault of a value of the wrong kind; its wording shows the value, which so has to be
written. -/
def misfit (c : Condition) (v : Value) : Fault :=
  if v.isWritable then .wrongKind c.name (.value v) c.threshold else .oversized

/-- Whether a value satisfies the condition.  A number is compared as it is, but an integer that
no double is near is a fault. -/
def holdsOf (c : Condition) (v : Value) : Except Fault Bool :=
  match c.threshold, v with
  | _, .missing => .ok false
  | .numeric x, .int n =>
    if Binary64.inRange n then .ok (c.op.admits? (x.place?.map (Extended.ofInt n).compare))
    else .error .outOfRange
  | .numeric x, .real y => .ok (!y.isNaN && c.op.admits? (y.compare? x))
  | .numeric _, _ => .error (c.misfit v)
  | .symbolic token, .text s => .ok (c.op.admits (compare s token))
  | .symbolic _, _ => .error (c.misfit v)

/-- Whether a row satisfies the condition. -/
def holds (c : Condition) (row : Row) : Except Fault Bool :=
  match row.find? c.name with
  | none => .error (.absentVariable c.name)
  | some v => c.holdsOf v

/-- Whether a row satisfies every condition; those after the first failure are not looked at. -/
def allHold : List Condition → Row → Except Fault Bool
  | [], _ => .ok true
  | c :: cs, row =>
    match c.holds row with
    | .error fault => .error fault
    | .ok false => .ok false
    | .ok true => allHold cs row

end Condition

/-- Whether a row satisfies the formula. -/
def Formula.check (f : Formula) (row : Row) : Except Fault Bool :=
  Condition.allHold f.conditions row

end Rulebook
