import Rulebook.Number.Shortest
import Rulebook.Text.Digit
import Rulebook.Text.Quoted

/-!
# Values

What a row gives to a variable and what a model answers: nothing, a truth value, an integer, a
double, a text, or a list of these.

* `Value.toText` is a value on its own, `Value.literal` a value inside a message; a value with an
  integer of too many digits has neither (`Value.isWritable`).
* `Value.same` is equality of labels: truth values, integers and doubles are equal when their
  places on the line are, so `1`, `1.0` and `True` are one label, and a double that is not a
  number differs from every value.
* `Value.precedes` orders labels by the name of their kind first.
-/

namespace Rulebook

inductive Value
  | missing
  | bool (b : Bool)
  | int (n : Int)
  | real (x : Binary64)
  | text (s : String)
  | list (items : List Value)
  deriving Repr, Inhabited

namespace Value

/-- The name of a value's kind. -/
def kindName : Value → String
  | .missing => "NoneType"
  | .bool _ => "bool"
  | .int _ => "int"
  | .real _ => "float"
  | .text _ => "str"
  | .list _ => "list"

mutual

/-- A value inside a message: a text is quoted. -/
def literal : Value → String
  | .missing => "None"
  | .bool b => if b then "True" else "False"
  | .int n => toString n
  | .real x => x.text
  | .text s => Text.quote s
  | .list items => Text.bracketed (literals items)

/-- The members of a list, each as it stands inside a message. -/
def literals : List Value → List String
  | [] => []
  | item :: items => literal item :: literals items

end

mutual

/-- Whether a value can be written: no integer in it has too many digits. -/
def isWritable : Value → Bool
  | .int n => Text.isWritable n
  | .list items => areWritable items
  | _ => true

/-- Whether every member of a list can be written. -/
def areWritable : List Value → Bool
  | [] => true
  | item :: items => isWritable item && areWritable items

end

/-- A value on its own: a text stands for itself. -/
protected def toText : Value → String
  | .text s => s
  | v => v.literal

/-- The place of a number on the line; a truth value counts as zero or one. -/
def place? : Value → Option Extended
  | .bool b => some (.ofInt (if b then 1 else 0))
  | .int n => some (.ofInt n)
  | .real x => x.place?
  | _ => none

/-- Whether two values are numbers at the same place. -/
def samePlace (v w : Value) : Bool :=
  match v.place?, w.place? with
  | some p, some q => p.compare q == .eq
  | _, _ => false

mutual

/-- Whether two values are equal as labels. -/
def same : Value → Value → Bool
  | .missing, .missing => true
  | .text s, .text t => s == t
  | .list vs, .list ws => sameAll vs ws
  | v, w => samePlace v w

/-- Whether two lists have equal members in the same order. -/
def sameAll : List Value → List Value → Bool
  | [], [] => true
  | v :: vs, w :: ws => same v w && sameAll vs ws
  | _, _ => false

end

/-- Whether `v` comes before `w` among values of one kind. -/
def less : Value → Value → Bool
  | .text s, .text t => s < t
  | v, w =>
    match v.place?, w.place? with
    | some p, some q => p.compare q == .lt
    | _, _ => false

/-- The order of labels: by the name of the kind, then by the value. -/
def precedes (v w : Value) : Bool :=
  if v.kindName = w.kindName then v.less w else v.kindName < w.kindName

end Value

end Rulebook
