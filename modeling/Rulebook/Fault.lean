import Rulebook.Formula
import Rulebook.Dataset.Column
import Rulebook.Settings.Basic

/-!
# Faults of evaluation

What can go wrong when a formula is checked, a vote is counted or a model is applied.

* `Fault.message` is the wording, for the faults that have one.
-/

namespace Rulebook

/-- What a threshold of the other kind was met by: a value of a row, or a column of a data set. -/
inductive Opposite
  | value (v : Value)
  | column (t : ColumnType)
  deriving Repr

namespace Opposite

def literal : Opposite → String
  | .value v => v.literal
  | .column t => t.literal

def kindName : Opposite → String
  | .value v => v.kindName
  | .column t => t.name

end Opposite

/-- A fault of evaluation. -/
inductive Fault
  /-- A row does not give the variable a value. -/
  | absentVariable (name : String)
  /-- A data set has no column of the name. -/
  | absentColumn (name : String)
  /-- A number was to be compared with a token, or something else with a number. -/
  | wrongKind (name : String) (found : Opposite) (threshold : Threshold)
  /-- An integer is out of the range of the doubles. -/
  | outOfRange
  /-- An integer has too many digits to be written. -/
  | oversized
  /-- A name that has to stand for one column stands for several. -/
  | severalColumns (name : String)
  /-- A name is to be read as a pattern but is none. -/
  | unreadablePattern (name : String)
  /-- A token was to be compared with the numbers of a column. -/
  | incomparable (name : String)
  /-- A text of a column was to be compared as a number but is no numeral. -/
  | noNumeral (name : String)
  /-- A token is to be ordered among categories but is none of them. -/
  | unknownCategory (token : String)
  /-- A slice without columns has lost its rows. -/
  | lostRows
  /-- A vote was counted with nobody voting. -/
  | noVotes
  /-- A label cannot be counted. -/
  | uncountable (kindName : String)
  /-- A value has no negative. -/
  | noNegative (kindName : String)
  /-- A model without a kind has no rule of evaluation. -/
  | unspecified
  /-- Only the vote of a forest can be told to be quiet. -/
  | noVoteToQuiet
  /-- Only a rule has an antecedent that can be asked for. -/
  | noAntecedent (kindName : String)
  /-- The settings cannot be read. -/
  | settings (faults : List Settings.Fault)
  deriving Repr

/-- The wording of a fault. -/
def Fault.message : Fault → String
  | .absentVariable name => Text.quote name
  | .wrongKind name found threshold =>
    "Cannot compare " ++ name ++ "=" ++ found.literal ++ " (" ++ found.kindName
      ++ ") against threshold " ++ threshold.literal
  | .outOfRange => "int too large to convert to float"
  | .oversized =>
    "Exceeds the limit (4300 digits) for integer string conversion; use "
      ++ "sys.set_int_max_str_digits() to increase the limit"
  | .lostRows => "zip() argument 2 is shorter than argument 1"
  | .noVotes => "Cannot compute a best guess from an empty list of votes"
  | .uncountable kindName => "unhashable type: " ++ Text.quote kindName
  | .noNegative kindName => "bad operand type for unary -: " ++ Text.quote kindName
  | .noVoteToQuiet =>
    "SymbolicModel.apply() got an unexpected keyword argument 'suppress_parity_warning'"
  | .noAntecedent kindName =>
    Text.quote kindName ++ " object has no attribute 'check_antecedent'"
  | .absentColumn _ | .severalColumns _ | .unreadablePattern _ | .incomparable _ | .noNumeral _
  | .unknownCategory _ | .unspecified | .settings _ => ""

end Rulebook
