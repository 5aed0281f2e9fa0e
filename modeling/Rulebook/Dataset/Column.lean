import Rulebook.Value

/-!
# Data sets — column types

The type of a column says which cells it may hold, so a data set is well typed by construction.

* `Categories`: the categories of an enumeration, which are distinct.
* `ColumnType.Cell`: the cells of a type, an empty cell apart.
* `ColumnType.value`: the value a cell gives to its variable.
-/

namespace Rulebook

/-- The integer types of a column. -/
inductive IntegerType
  | int8 | int16 | int32 | int64 | uint8 | uint16 | uint32 | uint64
  deriving DecidableEq, Repr

namespace IntegerType

def all : List IntegerType :=
  [.int8, .int16, .int32, .int64, .uint8, .uint16, .uint32, .uint64]

def name : IntegerType → String
  | .int8 => "Int8"
  | .int16 => "Int16"
  | .int32 => "Int32"
  | .int64 => "Int64"
  | .uint8 => "UInt8"
  | .uint16 => "UInt16"
  | .uint32 => "UInt32"
  | .uint64 => "UInt64"

/-- How many bits a cell has. -/
def width : IntegerType → Nat
  | .int8 | .uint8 => 8
  | .int16 | .uint16 => 16
  | .int32 | .uint32 => 32
  | .int64 | .uint64 => 64

/-- Whether a cell may be negative; then one of the bits is its sign. -/
def isSigned : IntegerType → Bool
  | .int8 | .int16 | .int32 | .int64 => true
  | .uint8 | .uint16 | .uint32 | .uint64 => false

def lowest (t : IntegerType) : Int := if t.isSigned then -(power 2 (t.width - 1 : Nat) : Int) else 0

def highest (t : IntegerType) : Int :=
  (power 2 (if t.isSigned then t.width - 1 else t.width : Nat) : Int) - 1

/-- The integers in the range of the type. -/
def Cell (t : IntegerType) : Type := { n : Int // t.lowest ≤ n ∧ n ≤ t.highest }

/-- An integer as a cell, if it is in range. -/
def cell? (t : IntegerType) (n : Int) : Option t.Cell :=
  if h : t.lowest ≤ n ∧ n ≤ t.highest then some ⟨n, h⟩ else none

end IntegerType

/-- The categories of an enumeration: distinct texts, in their order. -/
structure Categories where
  texts : List String
  distinct : texts.Nodup
  deriving DecidableEq, Repr

/-- Texts as categories, if they are distinct. -/
def Categories.ofTexts? (texts : List String) : Option Categories :=
  if h : texts.Nodup then some ⟨texts, h⟩ else none

/-- The type of a column.  A column of singles holds doubles that single precision can hold; a
column of the type `null` has only empty cells; the cells of an enumeration are positions among
its categories. -/
inductive ColumnType
  | integer (t : IntegerType)
  | single
  | double
  | text
  | boolean
  | null
  | categorical
  | enumeration (categories : Categories)
  deriving DecidableEq, Repr

namespace ColumnType

/-- The name of the type, without its categories. -/
def name : ColumnType → String
  | .integer t => t.name
  | .single => "Float32"
  | .double => "Float64"
  | .text => "String"
  | .boolean => "Boolean"
  | .null => "Null"
  | .categorical => "Categorical"
  | .enumeration _ => "Enum"

/-- The types that a name alone determines. -/
def named : List ColumnType :=
  IntegerType.all.map .integer ++ [.single, .double, .text, .boolean, .null, .categorical]

def ofName? (s : String) : Option ColumnType := named.find? (·.name == s)

/-- The type inside a message. -/
def literal : ColumnType → String
  | .enumeration categories =>
    "Enum(categories=" ++ Text.bracketed (categories.texts.map Text.quote) ++ ")"
  | t => t.name

/-- Whether the cells are numbers. -/
def isNumeric : ColumnType → Bool
  | .integer _ | .single | .double => true
  | _ => false

/-- Whether the cells are texts. -/
def isSymbolic : ColumnType → Bool
  | .text | .categorical | .enumeration _ => true
  | _ => false

/-- The cells of a type. -/
def Cell : ColumnType → Type
  | .integer t => t.Cell
  | .single | .double => Binary64
  | .text | .categorical => String
  | .boolean => Bool
  | .null => Empty
  | .enumeration categories => Fin categories.texts.length

/-- The value that a cell gives to its variable. -/
def value : (t : ColumnType) → Option t.Cell → Value
  | _, none => .missing
  | .integer _, some n => .int n.val
  | .single, some x => .real x
  | .double, some x => .real x
  | .text, some s => .text s
  | .categorical, some s => .text s
  | .boolean, some b => .bool b
  | .null, some e => nomatch e
  | .enumeration categories, some i => .text (categories.texts.get i)

/-- The cell that holds a value as it is, up to the rounding of the type: an integer column takes
integers in range, a column of doubles also integers, an enumeration its categories. -/
def cell? : (t : ColumnType) → Value → Option (Option t.Cell)
  | _, .missing => some none
  | .integer t, .int n => (t.cell? n).map some
  | .single, .real x => some (some x.toSingle)
  | .single, .int n => some (some (Binary64.ofInt n).toSingle)
  | .double, .real x => some (some x)
  | .double, .int n => some (some (.ofInt n))
  | .text, .text s => some (some s)
  | .categorical, .text s => some (some s)
  | .boolean, .bool b => some (some b)
  | .enumeration categories, .text s => (categories.texts.finIdxOf? s).map some
  | _, _ => none

end ColumnType

end Rulebook
