import Rulebook.Text.Blank
import Rulebook.Text.Digit
import Rulebook.Text.Word

/-!
# Text — what a backslash writes in a pattern

Behind a backslash a sign stands for itself, a letter for a set of characters, for one that cannot
be seen, for a place, or for the beginning of a character's number.

* `Escape.read?`: what is written behind a backslash.
* `ignoringCase`: a set with the other case of its letters.
-/

namespace Rulebook.Text.Pattern

/-- What is written with a backslash. -/
inductive Escape
  | char (c : Char)
  | oneOf (admits : Char → Bool)
  | between (admits : Option Char → Option Char → Bool)

/-- The other spellings of a letter of ASCII: its two cases, the sign of the kelvin and the long
letter s. -/
def spellings (c : Char) : List Char :=
  let small := if c = '\u212a' then 'k' else if c = '\u017f' then 's' else c.toLower
  if small.isAlpha then
    small :: small.toUpper :: (if small = 'k' then ['\u212a'] else
      if small = 's' then ['\u017f'] else [])
  else [c]

/-- The characters of which some spelling is in the set. -/
def ignoringCase (admits : Char → Bool) (c : Char) : Bool := (spellings c).any admits

/-- A set with the other case of its letters, if case is to be ignored. -/
def inCase (anyCase : Bool) (admits : Char → Bool) : Char → Bool :=
  if anyCase then ignoringCase admits else admits

namespace Escape

/-- The character with the number that the hexadecimal digits write. -/
def ofHex? (digits : List Char) : Option Char :=
  let value? := fun (c : Char) =>
    if c.isDigit then some (c.toNat - '0'.toNat)
    else if 'a' ≤ c.toLower ∧ c.toLower ≤ 'f' then some (c.toLower.toNat - 'a'.toNat + 10)
    else none
  match digits, digits.mapM value? with
  | _ :: _, some values =>
    let n := values.foldl (fun n value => 16 * n + value) 0
    if n.isValidChar then some (Char.ofNat n) else none
  | _, _ => none

/-- A character by its number: so many digits, or any digits in braces. -/
def numbered? (width : Nat) (cs : List Char) : Option (Escape × List Char) :=
  match cs with
  | '\x7b' :: cs =>
    match cs.dropWhile (· ≠ '\x7d') with
    | _ :: rest => (ofHex? (cs.takeWhile (· ≠ '\x7d'))).map fun c => (.char c, rest)
    | [] => none
  | cs =>
    if width ≤ cs.length then (ofHex? (cs.take width)).map fun c => (.char c, cs.drop width)
    else none

/-- Whether a character that may be missing belongs to a word. -/
def inWord (c : Option Char) : Bool := c.any isWord

def edge (before after : Option Char) : Bool := inWord before != inWord after

def wordStart (before after : Option Char) : Bool := !inWord before && inWord after

def wordEnd (before after : Option Char) : Bool := inWord before && !inWord after

/-- The kinds of edges of words that have a name. -/
def edges : List (String × (Option Char → Option Char → Bool)) := [
  ("start", wordStart), ("end", wordEnd),
  ("start-half", fun before _ => !inWord before), ("end-half", fun _ after => !inWord after)]

/-- An edge of a word, perhaps with the name of its kind in braces; braces without a name belong to
what follows. -/
def edge? (cs : List Char) : Option (Escape × List Char) :=
  let isName := fun (c : Char) => c.isAlpha || c = '-'
  match cs with
  | '\x7b' :: cs' =>
    match cs'.takeWhile isName, cs'.dropWhile isName with
    | [], _ => some (.between edge, cs)
    | name, '\x7d' :: rest =>
      (edges.lookup (String.ofList name)).map fun kind => (.between kind, rest)
    | _, _ => none
  | _ => some (.between edge, cs)

/-- What is written behind a backslash, and the rest. -/
def read? : List Char → Option (Escape × List Char)
  | [] => none
  | c :: cs =>
    match c with
    | 'x' => numbered? 2 cs
    | 'u' => numbered? 4 cs
    | 'U' => numbered? 8 cs
    | 'd' => some (.oneOf isDigit, cs)
    | 'D' => some (.oneOf (!isDigit ·), cs)
    | 's' => some (.oneOf isWhiteSpace, cs)
    | 'S' => some (.oneOf (!isWhiteSpace ·), cs)
    | 'w' => some (.oneOf isWord, cs)
    | 'W' => some (.oneOf (!isWord ·), cs)
    | 'a' => some (.char '\x07', cs)
    | 'f' => some (.char '\x0c', cs)
    | 't' => some (.char '\t', cs)
    | 'n' => some (.char '\n', cs)
    | 'r' => some (.char '\r', cs)
    | 'v' => some (.char '\x0b', cs)
    | 'A' => some (.between fun before _ => before.isNone, cs)
    | 'z' => some (.between fun _ after => after.isNone, cs)
    | 'b' => edge? cs
    | 'B' => some (.between fun before after => !edge before after, cs)
    | '<' => some (.between wordStart, cs)
    | '>' => some (.between wordEnd, cs)
    | c => if c.toNat < 0x80 && !c.isAlphanum then some (.char c, cs) else none

end Escape

end Rulebook.Text.Pattern
