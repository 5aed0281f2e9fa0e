import Rulebook.Number.Binary64
import Rulebook.Text.Blank
import Rulebook.Text.Digit

/-!
# Numbers — reading a decimal numeral

A numeral is a sign, digits with a decimal point among them or at an end, and an exponent; or a
sign and one of the words `inf`, `infinity`, `nan` in any case.  White space around it is dropped,
a single underscore may stand between two digits, and the digits are those of any script.

* `Numeral.value`: the double nearest to what the numeral writes.
* `Binary64.ofText?`: the value of a text that is a numeral.
* `Binary64.ofPlain?`: the same for the digits of ASCII, with no blanks and no underscores.
-/

namespace Rulebook

/-- A numeral without a word: the digits before and after the point, and the exponent. -/
structure Numeral where
  negative : Bool
  whole : List Nat
  fraction : List Nat
  exponent : Int
  deriving Repr

namespace Numeral

/-- The text without its underscores, each of which stands between two digits. -/
def dropUnderscores (afterDigit : Bool) : List Char → Option (List Char)
  | [] => some []
  | c :: cs =>
    if c = '_' then
      match cs with
      | [] => none
      | d :: ds =>
        if afterDigit && Text.isDigit d then (dropUnderscores true ds).map (d :: ·) else none
    else (dropUnderscores (Text.isDigit c) cs).map (c :: ·)

/-- A leading sign, and whether it is a minus. -/
def splitSign : List Char → Bool × List Char
  | '-' :: cs => (true, cs)
  | '+' :: cs => (false, cs)
  | cs => (false, cs)

/-- A leading run of digits, and what follows it. -/
def splitDigits (cs : List Char) : List Nat × List Char :=
  ((cs.takeWhile Text.isDigit).filterMap Text.digit?, cs.dropWhile Text.isDigit)

/-- The exponent that ends a numeral; zero, if nothing is left. -/
def exponent? : List Char → Option Int
  | [] => some 0
  | c :: cs =>
    if c = 'e' ∨ c = 'E' then
      let (negative, cs) := splitSign cs
      match splitDigits cs with
      | ([], _) => none
      | (_, _ :: _) => none
      | (digits, []) =>
        let n : Int := Text.ofDigits digits
        some (if negative then -n else n)
    else none

/-- Reads digits, a point, digits and an exponent; one of the digit runs may be empty. -/
def read? (negative : Bool) (cs : List Char) : Option Numeral :=
  let (whole, rest) := splitDigits cs
  let (fraction, rest) := match rest with
    | '.' :: rest => splitDigits rest
    | rest => ([], rest)
  if whole = [] ∧ fraction = [] then none
  else (exponent? rest).map fun exponent => ⟨negative, whole, fraction, exponent⟩

/-- The double nearest to what the numeral writes.  A numeral of `d` significant digits and scale
`k` lies below `10 ^ (k + d)`, so far out of range on either side no power is computed. -/
def value (n : Numeral) : Binary64 :=
  let digits := (n.whole ++ n.fraction).dropWhile (· == 0)
  let k := n.exponent - n.fraction.length
  let size := k + digits.length
  if digits = [] ∨ size < -400 then .finite n.negative 0 Format.double.lowest
  else if 400 < size then .infinite n.negative
  else
    let m := Text.ofDigits digits
    Format.double.round n.negative (m * power 10 k) (power 10 (-k))

/-- The integer that digits of ASCII behind a sign write. -/
def integer? (cs : List Char) : Option Int :=
  let (negative, digits) := splitSign cs
  if !digits.isEmpty && digits.all Char.isDigit then
    let n : Int := Text.ofDigits (digits.filterMap Text.digit?)
    some (if negative then -n else n)
  else none

end Numeral

namespace Binary64

/-- The value of a word for a double that no digits write. -/
def ofWord? (negative : Bool) (cs : List Char) : Option Binary64 :=
  let word := String.ofList (cs.map Char.toLower)
  if word = "inf" ∨ word = "infinity" then some (.infinite negative)
  else if word = "nan" then some .nan
  else none

/-- The double that a text writes. -/
def ofText? (s : String) : Option Binary64 := do
  let cs ← Numeral.dropUnderscores false (Text.stripWith Text.isWhiteSpace s.toList)
  let (negative, cs) := Numeral.splitSign cs
  match ofWord? negative cs with
  | some x => some x
  | none => (Numeral.read? negative cs).map Numeral.value

/-- The double that visible characters of ASCII write without an underscore. -/
def ofPlain? (cs : List Char) : Option Binary64 :=
  if cs.all fun c => 0x20 < c.toNat && c.toNat < 0x7f && c ≠ '_' then ofText? (String.ofList cs)
  else none

end Binary64

end Rulebook
