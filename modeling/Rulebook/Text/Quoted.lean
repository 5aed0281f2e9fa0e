import Rulebook.Text.Printable

/-!
# Text — quoted text

A text as it stands inside a message: between quotes, on one line, every character visible.

* `quote` takes double quotes for a text that holds a single quote and no double one, and single
  quotes for every other text.
-/

namespace Rulebook.Text

/-- The hexadecimal digits of `n`, at least `width` of them. -/
def hex (width n : Nat) : List Char :=
  let digits := Nat.toDigits 16 n
  List.replicate (width - digits.length) '0' ++ digits

/-- A character between quotes: as itself, or behind a backslash. -/
def escape (mark c : Char) : List Char :=
  if c = mark ∨ c = '\\' then ['\\', c]
  else if c = '\t' then ['\\', 't']
  else if c = '\n' then ['\\', 'n']
  else if c = '\r' then ['\\', 'r']
  else if isPrintable c then [c]
  else if c.toNat < 0x100 then '\\' :: 'x' :: hex 2 c.toNat
  else if c.toNat < 0x10000 then '\\' :: 'u' :: hex 4 c.toNat
  else '\\' :: 'U' :: hex 8 c.toNat

/-- The quote a text is put between. -/
def markOf (cs : List Char) : Char :=
  if '\'' ∈ cs ∧ '"' ∉ cs then '"' else '\''

/-- A text between quotes. -/
def quote (s : String) : String :=
  let mark := markOf s.toList
  String.ofList (mark :: s.toList.flatMap (escape mark) ++ [mark])

/-- Items between `opening` and `closing`, a comma and a space between two. -/
def enclose (opening closing : String) (items : List String) : String :=
  opening ++ String.intercalate ", " items ++ closing

/-- Items as a list: `[a, b]`. -/
def bracketed : List String → String := enclose "[" "]"

/-- Items as a tuple: `(a, b)`, a single one `(a,)`. -/
def parenthesized : List String → String
  | [item] => "(" ++ item ++ ",)"
  | items => enclose "(" ")" items

end Rulebook.Text
