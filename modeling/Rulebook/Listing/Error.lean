import Rulebook.Listing.Token
import Rulebook.Formula

/-!
# Listings — errors

Why a listing cannot be read, with the line to blame where there is one.

* `ListingError.message` is the wording.
-/

namespace Rulebook

/-- What was expected of a line. -/
def LineFault.reason : LineFault → String
  | .noOpeningBracket => "expected '[' opening the class distribution"
  | .noClosingBracket => "expected ']' closing the class distribution"
  | .noCount => "expected a non-negative integer"
  | .noSeparator => "expected ',' or ']' in the class distribution"
  | .noIf => "expected 'IF'"
  | .noThen => "expected 'THEN'"
  | .noAntecedent => "expected an antecedent between 'IF' and 'THEN'"
  | .noClauseBeforeAnd => "expected a condition before 'AND'"
  | .noClauseAfterAnd => "expected a condition after 'AND'"
  | .conjoinedTrue => "'TRUE' cannot be conjoined with other conditions"
  | .noOperator clause =>
    "expected one of ['<=', '>=', '==', '!=', '<', '>'] in condition " ++ Text.quote clause
  | .noName => "expected a variable name before the operator"
  | .noThreshold => "expected a threshold after the operator"
  | .noPrediction => "expected '<variable>=<value> <score>' after 'THEN'"
  | .noScore => "expected a signed decimal score"
  | .noAssignment => "expected '<variable>=<value>' after 'THEN'"
  | .classCount expected found =>
    "expected " ++ toString expected ++ " class counts, found " ++ toString found

/-- A line and its number in the text, counted from one. -/
structure NumberedLine where
  number : Nat
  text : List Char
  deriving DecidableEq, Repr

/-- Why a listing cannot be read. -/
inductive ListingError
  /-- A line is not written as a line has to be. -/
  | malformed (line : NumberedLine) (fault : LineFault) (column : Nat)
  /-- A count has too many digits. -/
  | oversized (digits : Nat)
  /-- No line has the antecedent that always holds. -/
  | noDefault
  /-- A rule covers more examples than are left. -/
  | overdrawn (line : NumberedLine) (uncovered : List Int) (covered : List Nat)
  /-- The default is to be ignored, but no rule can take its place. -/
  | defaultAlone (line : NumberedLine)
  deriving DecidableEq, Repr

/-- An error in a line of a listing. -/
def ListingError.ofLine (line : NumberedLine) : LineError → ListingError
  | .malformed fault column => .malformed line fault column
  | .oversized digits => .oversized digits

namespace ListingError

/-- The line to blame. -/
def line? : ListingError → Option NumberedLine
  | .malformed line _ _ | .overdrawn line _ _ | .defaultAlone line => some line
  | .oversized _ | .noDefault => none

/-- The wording of an error. -/
def message : ListingError → String
  | .malformed line fault column =>
    "Malformed decision list line " ++ toString line.number ++ ", column " ++ toString column
      ++ ": " ++ fault.reason ++ ": " ++ Text.quote (String.ofList line.text)
  | .oversized digits =>
    "Exceeds the limit (4300 digits) for integer string conversion: value has "
      ++ toString digits ++ " digits; use sys.set_int_max_str_digits() to increase the limit"
  | .noDefault => "Malformed decision list: default rule was not found."
  | .overdrawn line uncovered covered =>
    "Rule on line " ++ toString line.number ++ " covers "
      ++ Text.bracketed (covered.map toString) ++ " but only "
      ++ Text.bracketed (uncovered.map toString) ++ " examples remain uncovered"
  | .defaultAlone _ => "Cannot ignore the default rule: no rule precedes it"

/-- An error with its kind, its message and its line, as one text. -/
def describe (kindName : String) (e : ListingError) : String :=
  let number := match e.line? with
    | some line => toString line.number
    | none => "None"
  let text := match e.line? with
    | some line => Text.quote (String.ofList line.text)
    | none => "None"
  kindName ++ "(message=" ++ Text.quote e.message ++ ", line_number=" ++ number ++ ", line="
    ++ text ++ ")"

end ListingError

end Rulebook
