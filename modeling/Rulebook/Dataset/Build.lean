import Rulebook.Dataset.Basic
import Rulebook.Number.Decimal

/-!
# Data sets — from columns and from records

* `Dataset.ofColumns`: a data set from typed columns of one length.
* `Dataset.ofRecords?`: a data set from rows of values.  The types are inferred from the first
  hundred rows; a later row gives no new column, and its values are brought to the types.
-/

namespace Rulebook

/-- A column with its cells. -/
structure Column where
  spec : ColumnSpec
  cells : List (Option spec.type.Cell)

/-- A column that holds the given values as they are, if its type can hold them. -/
def Column.ofValues? (spec : ColumnSpec) (values : List Value) : Option Column :=
  (values.mapM spec.type.cell?).map (⟨spec, ·⟩)

namespace Dataset

/-- The cells of the columns at a position; past the end of a column they are empty. -/
def cellsAt (position : Nat) : (columns : List Column) → Schema.Cells (columns.map (·.spec))
  | [] => ()
  | column :: columns => ((column.cells[position]?).join, cellsAt position columns)

/-- The data set of the given columns, as long as the first of them. -/
def ofColumns (columns : List Column) : Dataset where
  schema := columns.map (·.spec)
  records := (List.range ((columns.head?.map (·.cells.length)).getD 0)).map (cellsAt · columns)

end Dataset

namespace ColumnType

/-- The type of a column that holds one value. -/
def ofValue : Value → ColumnType
  | .missing => .null
  | .bool _ => .boolean
  | .int _ => .integer .int64
  | .real _ => .double
  | .text _ | .list _ => .text

/-- The type that holds the values of both: of two kinds of number the wider, of a text and
anything else the text. -/
def join : ColumnType → ColumnType → ColumnType
  | .null, t => t
  | t, .null => t
  | .text, _ => .text
  | _, .text => .text
  | .double, _ => .double
  | _, .double => .double
  | .boolean, t => t
  | t, _ => t

/-- The double that a text writes; a whole number has no negative zero. -/
def real? (cs : List Char) : Option Binary64 :=
  match Numeral.integer? cs with
  | some n => some (.ofInt n)
  | none => Binary64.ofPlain? cs

/-- The integer that a value is brought to: a fraction is dropped, and a text has to be a
numeral. -/
def wholePart? : Value → Option Int
  | .int n => some n
  | .bool b => some (if b then 1 else 0)
  | .real x => x.truncate?
  | .text s => (Numeral.integer? s.toList).or ((real? s.toList).bind (·.truncate?))
  | .missing | .list _ => none

/-- A value brought to an inferred type.  A number becomes the text that it is written as; as a
truth value it has to fit into eight bits, and only one is true. -/
def coerce? : (t : ColumnType) → Value → Option (Option t.Cell)
  | _, .missing => some none
  | .integer t, v => ((wholePart? v).bind t.cell?).map some
  | .double, .int n => some (some (.ofInt n))
  | .double, .bool b => some (some (.ofInt (if b then 1 else 0)))
  | .double, .real x => some (some x)
  | .double, .text s => (real? s.toList).map some
  | .boolean, .bool b => some (some b)
  | .boolean, v => ((wholePart? v).bind IntegerType.uint8.cell?).map fun n => some (n.val == 1)
  | .text, .text s => some (some s)
  | .text, .int n => some (some (toString n))
  | .text, .bool b => some (some (if b then "true" else "false"))
  | .text, .real x => some (some (NumberLayout.cell.write x))
  | _, _ => none

end ColumnType

namespace Schema

/-- How many rows the types are inferred from. -/
def inferenceLength : Nat := 100

/-- The columns of the given rows, in the order of their first appearance. -/
def infer (rows : List Row) : Schema :=
  let rows := rows.take inferenceLength
  let names := (rows.flatMap fun row => row.map (·.1)).eraseDups
  names.map fun name =>
    ⟨name, (rows.filterMap (·.find? name)).foldl (fun t v => t.join (.ofValue v)) .null⟩

/-- The cells of a row, brought to the types of the columns. -/
def coerceRow? (row : Row) : (schema : Schema) → Option schema.Cells
  | [] => some ()
  | column :: columns => do
    let cell ← column.type.coerce? ((row.find? column.name).getD .missing)
    let cells ← coerceRow? row columns
    return (cell, cells)

end Schema

/-- The data set of the given rows; none, if a value cannot be brought to the type of its
column. -/
def Dataset.ofRecords? (rows : List Row) : Option Dataset := do
  let schema := Schema.infer rows
  let records ← rows.mapM fun row => Schema.coerceRow? row schema
  return ⟨schema, records⟩

end Rulebook
