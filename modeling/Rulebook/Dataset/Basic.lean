import Rulebook.Dataset.Column
import Rulebook.Formula.Row

/-!
# Data sets

A data set is a schema, the names and types of its columns, and rows of cells of those types.

* `Dataset.rows`: the row of values at each position.
* `Dataset.slice`: the rows at the given positions, in the given order.  A data set without
  columns has rows that hold nothing, and its slices have no rows.
* `Dataset.select?`: the slice at positions from outside, if they are positions.
-/

namespace Rulebook

/-- The name and the type of a column. -/
structure ColumnSpec where
  name : String
  type : ColumnType
  deriving DecidableEq, Repr

abbrev Schema := List ColumnSpec

namespace Schema

/-- One cell for each column. -/
def Cells : Schema → Type
  | [] => Unit
  | column :: columns => Option column.type.Cell × Cells columns

/-- The type of the column with the name. -/
def type? (schema : Schema) (name : String) : Option ColumnType :=
  (schema.find? (·.name == name)).map (·.type)

/-- The values of a row, by name. -/
def row : (schema : Schema) → schema.Cells → Row
  | [], _ => []
  | column :: columns, (cell, cells) =>
    (column.name, column.type.value cell) :: row columns cells

end Schema

structure Dataset where
  schema : Schema
  records : List schema.Cells

namespace Dataset

/-- The number of rows. -/
def size (d : Dataset) : Nat := d.records.length

/-- The names of the columns. -/
def names (d : Dataset) : List String := d.schema.map (·.name)

/-- The rows of values. -/
def rows (d : Dataset) : List Row := d.records.map d.schema.row

/-- The row at a position; a negative one counts from the end. -/
def instance? (d : Dataset) (index : Int) : Option Row :=
  let position := if index < 0 then index + d.size else index
  if position < 0 then none else d.rows[position.toNat]?

/-- The rows at the given positions; a position outside is passed over. -/
def slice (d : Dataset) (positions : List Nat) : Dataset :=
  match d.schema with
  | [] => { d with records := [] }
  | _ :: _ => { d with records := positions.filterMap (d.records[·]?) }

@[simp]
theorem length_rows (d : Dataset) : d.rows.length = d.size := by simp [rows, size]

@[simp]
theorem schema_slice (d : Dataset) (positions : List Nat) :
    (d.slice positions).schema = d.schema := by
  obtain ⟨schema, records⟩ := d
  cases schema <;> rfl

/-- Why positions from outside are refused: one is negative or too large to be written, or one is
not less than the number of rows. -/
inductive SliceFault
  | unwritable | outside
  deriving DecidableEq, Repr

/-- The slice at positions from outside.  In a data set without columns every position that can
be written in 32 bits stands. -/
def select? (d : Dataset) (positions : List Int) : Except SliceFault Dataset :=
  if positions.any fun i => i < 0 || (power 2 32 : Int) ≤ i then .error .unwritable
  else if d.schema ≠ [] ∧ positions.any (fun i => (d.size : Int) ≤ i) then .error .outside
  else .ok (d.slice (positions.map Int.toNat))

/-- A data set as a text: the number of its rows and the names of its columns. -/
protected def toText (d : Dataset) : String :=
  "InterpretationSet(ninstances=" ++ toString d.size ++ ", variables="
    ++ Text.bracketed (d.names.map Text.quote) ++ ")"

end Dataset

end Rulebook
