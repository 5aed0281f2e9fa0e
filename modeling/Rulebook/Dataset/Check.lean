import Rulebook.Dataset.Reach
import Rulebook.Number.Decimal

/-!
# Data sets — checking a formula on every row

First every condition is compared with the type of the column that has its name.  Then the formula
is spelled out in conditions on single columns, every one of which must be there, and their cells
must be comparable with the threshold.  Then the rows are checked.  Numbers are compared as doubles;
an empty cell, and a double that is not a number, satisfy no condition.

* `Dataset.answers`: what stands in the column of the answers, for an atom that stands for no column
  the values of a column that has the name of that one.
* `Dataset.check`: one answer per row.  A data set without rows is not looked at.
-/

namespace Rulebook

namespace ColumnType

/-- The double that a cell counts as; a text has to be a numeral. -/
def asReal? : (t : ColumnType) → t.Cell → Option Binary64
  | .integer _, n => some (.ofInt n.val)
  | .single, x | .double, x => some x
  | .text, s | .categorical, s => Binary64.ofPlain? s.toList
  | .enumeration categories, i => Binary64.ofPlain? (categories.texts.get i).toList
  | .boolean, b => some (.ofInt (Bool.toInt b))
  | .null, e => nomatch e

/-- Whether the texts that have to be numerals are: of an enumeration every category, of another
column the cell. -/
def readsAsNumber : (t : ColumnType) → Option t.Cell → Bool
  | .enumeration categories, _ =>
    categories.texts.all fun s => (Binary64.ofPlain? s.toList).isSome
  | _, none => true
  | t, some cell => (t.asReal? cell).isSome

end ColumnType

namespace Condition

/-- The order of a number and a threshold.  A threshold that is not a number lies above them. -/
def rank (x threshold : Binary64) : Ordering :=
  (x.compare? threshold).getD .lt

/-- Whether a number satisfies the condition. -/
def holdsOfDouble (op : Comparison) (x threshold : Binary64) : Bool :=
  !x.isNaN && op.admits (rank x threshold)

/-- Whether a text satisfies the condition. -/
def holdsOfText (op : Comparison) (s token : String) : Bool :=
  op.admits (compare s token)

/-- Whether a cell satisfies a comparison with a token.  The categories of an enumeration are
ordered as they are listed, and a token that is none of them differs from all. -/
def holdsOfToken (op : Comparison) (token : String) : (t : ColumnType) → t.Cell → Bool
  | .text, s | .categorical, s => holdsOfText op s token
  | .enumeration categories, i =>
    op.admits? ((categories.texts.finIdxOf? token).map (compare i.val ·.val))
  | .boolean, b => holdsOfText op (bif b then "true" else "false") token
  | .integer _, _ | .single, _ | .double, _ => false
  | .null, e => nomatch e

/-- Whether a cell satisfies the condition. -/
def holdsIn (c : Condition) (t : ColumnType) : Option t.Cell → Bool
  | none => false
  | some cell =>
    match c.threshold with
    | .numeric x => (t.asReal? cell).any (holdsOfDouble c.op · x)
    | .symbolic token => holdsOfToken c.op token t cell

/-- Whether a row of cells satisfies the condition. -/
def holdsInCells (c : Condition) : (schema : Schema) → schema.Cells → Bool
  | [], _ => false
  | column :: columns, (cell, cells) =>
    if column.name = c.name then c.holdsIn column.type cell else holdsInCells c columns cells

/-- Refuses a number for a column without numbers and a token for a column without texts; a
column that is not there or has only empty cells is left to pass. -/
def checkType (c : Condition) (schema : Schema) : Except Fault Unit :=
  match schema.type? c.name with
  | none | some .null => .ok ()
  | some t =>
    let suits := match c.threshold with
      | .numeric _ => t.isNumeric
      | .symbolic _ => t.isSymbolic
    if suits then .ok () else .error (.wrongKind c.name (.column t) c.threshold)

/-- Refuses a variable without a column. -/
def checkPresence (c : Condition) (schema : Schema) : Except Fault Unit :=
  if (schema.type? c.name).isSome then .ok () else .error (.absentColumn c.name)

/-- Whether the cells of the column with the name, if there is one, can be read as numbers. -/
def readsAsNumber (name : String) : (schema : Schema) → schema.Cells → Bool
  | [], _ => true
  | column :: columns, (cell, cells) =>
    if column.name = name then column.type.readsAsNumber cell
    else readsAsNumber name columns cells

/-- Refuses to compare a token with numbers, to order it among categories that it is none of, and
to compare a number with texts that are no numerals. -/
def checkCells (c : Condition) (d : Dataset) : Except Fault Unit :=
  match c.threshold with
  | .numeric _ =>
    if d.records.all (readsAsNumber c.name d.schema) then .ok () else .error (.noNumeral c.name)
  | .symbolic token =>
    match d.schema.type? c.name with
    | some (.integer _) | some .single | some .double => .error (.incomparable c.name)
    | some (.enumeration categories) =>
      if c.op = .eq ∨ c.op = .ne ∨ token ∈ categories.texts then .ok ()
      else .error (.unknownCategory token)
    | _ => .ok ()

end Condition

/-- Whether a formula is an atom whose name stands for no column. -/
def Formula.selectsNone (schema : Schema) : Formula → Bool
  | .atom c => match schema.namesFor c.name with
    | .ok [] => true
    | _ => false
  | .conjunction _ | .top => false

/-- Whether a value counts as true: not one that is missing, a zero, or an empty text or list. -/
def Value.isTrue : Value → Bool
  | .missing => false
  | .bool b => b
  | .int n => n ≠ 0
  | .real x => x.compare? .zero != some .eq
  | .text s => s ≠ ""
  | .list items => !items.isEmpty

namespace Dataset

/-- The name of the column that the answers to a formula are written to. -/
def answerName : String := "__symkit_satisfied__"

/-- What stands in the column of the answers once a formula is checked.  The answers take the place
of a column that has the name already; an atom that stands for no column gives no answers, and
leaves such a column as it is. -/
def answers (d : Dataset) (f : Formula) : Except Fault (List Value) := do
  if d.size = 0 then return []
  f.conditions.forM (·.checkType d.schema)
  if f.selectsNone d.schema then
    if (d.schema.type? answerName).isNone then throw (.absentColumn answerName)
    return d.rows.map fun row => (row.find? answerName).getD .missing
  let conditions ← f.spelledOut d.schema
  conditions.forM (·.checkPresence d.schema)
  conditions.forM (·.checkCells d)
  return d.records.map fun cells => .bool (conditions.all (·.holdsInCells d.schema cells))

/-- Whether each row of a data set satisfies the formula. -/
def check (d : Dataset) (f : Formula) : Except Fault (List Bool) :=
  (d.answers f).map fun answers => answers.map (·.isTrue)

end Dataset

end Rulebook
