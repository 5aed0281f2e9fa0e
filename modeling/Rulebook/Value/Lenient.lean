import Rulebook.Value
import Rulebook.Number.Decimal

/-!
# Values — lenient readings

A place that wants a number also takes a truth value, as zero or one, and the text of a numeral in
the digits of ASCII; a place that wants an integer also takes a double that is equal to one.

* `plainReal?`, `plainInteger?`: the number that a text writes.
* `asReal?`, `asInteger?`, `asIntegers?`: the number, or the numbers, that a value stands for.
-/

namespace Rulebook.Value

/-- The text without its underscores, if there are some, none at an end and no two together. -/
def joined? (cs : List Char) : Option (List Char) :=
  let words := cs.splitOn '_'
  if 1 < words.length && words.all (!·.isEmpty) then some words.flatten else none

/-- The double that a text writes: between blanks, or with underscores in it. -/
def plainReal? (s : String) : Option Binary64 :=
  (Binary64.ofPlain? (Text.stripWith Text.isWhiteSpace s.toList)).or
    ((joined? s.toList).bind Binary64.ofPlain?)

/-- How many characters the text of an integer may have. -/
def longestInteger : Nat := 4300

/-- The text without its leading zeros and the underscores among them; a zero that nothing
follows but a point is kept. -/
def withoutZeros (cs : List Char) : List Char :=
  if cs.head? = some '0' then
    let isZero := fun c => c = '0' || c = '_'
    match (cs.takeWhile isZero).getLast?, cs.dropWhile isZero with
    | some zero, [] => [zero]
    | some zero, '.' :: rest => zero :: '.' :: rest
    | _, rest => rest
  else cs

/-- The text without a point and the zeros behind it, if there is one zero at least. -/
def withoutFraction (cs : List Char) : List Char :=
  match cs.dropWhile (· ≠ '.') with
  | '.' :: '0' :: zeros => if zeros.all (· = '0') then cs.takeWhile (· ≠ '.') else cs
  | _ => cs

/-- The text without a plus sign at its start; nothing, if a minus sign follows. -/
def withoutPlus : List Char → List Char
  | '+' :: '-' :: _ => []
  | '+' :: cs => cs
  | cs => cs

/-- The integer that digits of ASCII behind a minus sign write: the digits may be joined by
underscores, and only zero begins with a zero. -/
def canonicalInteger? (cs : List Char) : Option Int :=
  let (negative, digits) := match cs with
    | '-' :: digits => (true, digits)
    | digits => (false, digits)
  let digits := (joined? digits).getD digits
  let length := digits.length + (if negative then 1 else 0)
  if digits.all Char.isDigit && (digits.head? ≠ some '0' || digits.length = 1)
      && length ≤ longestInteger then
    (Numeral.integer? digits).map fun n => if negative then -n else n
  else none

/-- The integer that a text writes between blanks: behind a plus sign and zeros, and before a point
with zeros behind it. -/
def plainInteger? (s : String) : Option Int :=
  let cs := Text.stripWith Text.isWhiteSpace s.toList
  canonicalInteger? (withoutFraction (withoutZeros (withoutPlus cs)))

/-- A double from a value. -/
def asReal? : Value → Option Binary64
  | .real x => some x
  | .int n => if Binary64.inRange n then some (.ofInt n) else none
  | .bool b => some (.ofInt (if b then 1 else 0))
  | .text s => plainReal? s
  | .missing | .list _ => none

/-- An integer from a value; a double has to lie in the range of 64 bits. -/
def asInteger? : Value → Option Int
  | .int n => some n
  | .bool b => some (if b then 1 else 0)
  | .real x => x.toInt?.filter fun n => decide (-(power 2 63 : Int) ≤ n ∧ n < power 2 63)
  | .text s => plainInteger? s
  | .missing | .list _ => none

/-- The integers of a list. -/
def asIntegers? : Value → Option (List Int)
  | .list vs => vs.mapM asInteger?
  | _ => none

end Rulebook.Value
