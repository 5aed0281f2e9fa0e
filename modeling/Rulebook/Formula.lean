import Rulebook.Value
import Rulebook.Number.Decimal

/-!
# Formulas

A condition compares one variable with a threshold; a formula is a condition, a conjunction of
conditions, or the formula that always holds.

* `Threshold.ofText` reads a threshold as a number when the text is a numeral, and keeps it as a
  token otherwise.
* `Formula.WellFormed`: every variable has a name, and a conjunction has a member.
-/

namespace Rulebook

inductive Comparison
  | le | lt | ge | gt | eq | ne
  deriving DecidableEq, Repr

namespace Comparison

/-- The six comparisons. -/
def all : List Comparison := [.le, .lt, .ge, .gt, .eq, .ne]

def symbol : Comparison → String
  | .le => "<="
  | .lt => "<"
  | .ge => ">="
  | .gt => ">"
  | .eq => "=="
  | .ne => "!="

def ofSymbol? (s : String) : Option Comparison := all.find? (·.symbol == s)

/-- Whether a comparison holds of two things in the given order. -/
def admits : Comparison → Ordering → Bool
  | .le, o => o.isLE
  | .lt, o => o == .lt
  | .ge, o => o.isGE
  | .gt, o => o == .gt
  | .eq, o => o == .eq
  | .ne, o => o != .eq

/-- Whether a comparison holds of two things that may have no order: then they differ. -/
def admits? (op : Comparison) : Option Ordering → Bool
  | some o => op.admits o
  | none => op == .ne

end Comparison

/-- What a variable is compared with. -/
inductive Threshold
  | numeric (x : Binary64)
  | symbolic (token : String)
  deriving DecidableEq, Repr

namespace Threshold

/-- A text that is a numeral is a number, any other a token. -/
def ofText (s : String) : Threshold :=
  match Binary64.ofText? s with
  | some x => .numeric x
  | none => .symbolic s

protected def toText : Threshold → String
  | .numeric x => x.text
  | .symbolic token => token

/-- A threshold inside a message. -/
def literal : Threshold → String
  | .numeric x => x.text
  | .symbolic token => Text.quote token

end Threshold

structure Condition where
  name : String
  op : Comparison
  threshold : Threshold
  deriving DecidableEq, Repr

protected def Condition.toText (c : Condition) : String :=
  c.name ++ " " ++ c.op.symbol ++ " " ++ c.threshold.toText

inductive Formula
  | atom (condition : Condition)
  | conjunction (conditions : List Condition)
  | top
  deriving DecidableEq, Repr

namespace Formula

/-- The conditions that all have to hold, in order. -/
def conditions : Formula → List Condition
  | .atom c => [c]
  | .conjunction cs => cs
  | .top => []

/-- The names of the variables that a formula mentions. -/
def names (f : Formula) : List String := f.conditions.map (·.name)

protected def toText : Formula → String
  | .atom c => "(" ++ c.toText ++ ")"
  | .conjunction cs => String.intercalate " ∧ " (cs.map fun c => "(" ++ c.toText ++ ")")
  | .top => "⊤"

/-- Every variable has a name, and a conjunction has a member. -/
structure WellFormed (f : Formula) : Prop where
  named : ∀ c ∈ f.conditions, c.name ≠ ""
  inhabited : f ≠ .conjunction []

end Formula

end Rulebook
