import Rulebook.Settings.Basic
import Rulebook.Text.Blank

/-!
# Settings — files of bindings

A file of settings has one binding on a line, `NAME=value`, perhaps behind the word `export`; a
name alone takes its value away.  A value may stand between quotes, where a backslash escapes a
quote and, in double quotes, also writes a character that cannot be seen; a value without quotes
ends before a comment.  Comments, empty lines and lines that are no binding are passed over, and
so is a mark of the byte order at the start of the file.

A value may refer to other names.  A reference is a dollar sign and, in braces, a name and perhaps
`:-` and a text for when the name has no value.

* `Settings.bindings`: the bindings of a text, in the order in which their names first occur.
-/

namespace Rulebook.Settings

/-! ### Lines -/

/-- A blank that does not end a line. -/
def isGap (c : Char) : Bool := Text.isBlank c && c ≠ '\n'

def skipGap (cs : List Char) : List Char := cs.dropWhile isGap

/-- The rest of a text after its first line. -/
def skipLine (cs : List Char) : List Char := (cs.dropWhile (· ≠ '\n')).drop 1

/-- Whether nothing but a comment follows on the line. -/
def lineEnds (cs : List Char) : Bool :=
  match skipGap cs with
  | [] => true
  | c :: _ => c = '\n' || c = '#'

/-! ### Values -/

/-- The text up to the closing quote, as it is written, and the rest.  The character behind a
backslash closes nothing. -/
def quoted? (mark : Char) : List Char → Option (List Char × List Char)
  | [] => none
  | '\\' :: c :: cs => (quoted? mark cs).map fun (text, rest) => ('\\' :: c :: text, rest)
  | c :: cs =>
    if c = mark then some ([], cs)
    else (quoted? mark cs).map fun (text, rest) => (c :: text, rest)

/-- The character that a letter behind a backslash writes in double quotes. -/
def control? : Char → Option Char
  | '"' => some '"'
  | 'a' => some '\x07'
  | 'b' => some '\x08'
  | 'f' => some '\x0c'
  | 'n' => some '\n'
  | 'r' => some '\r'
  | 't' => some '\t'
  | 'v' => some '\x0b'
  | _ => none

/-- What the text between two quotes writes. -/
def unescape (mark : Char) : List Char → List Char
  | [] => []
  | '\\' :: c :: cs =>
    if c = '\\' || c = '\'' then c :: unescape mark cs
    else match if mark = '"' then control? c else none with
    | some d => d :: unescape mark cs
    | none => '\\' :: unescape mark (c :: cs)
  | c :: cs => c :: unescape mark cs

/-- The part of a line before a comment, which begins behind a blank. -/
def upToComment (afterGap : Bool) : List Char → List Char
  | [] => []
  | c :: cs => if c = '#' && afterGap then [] else c :: upToComment (isGap c) cs

/-- A value without quotes: what comes before a comment, without the blanks at its end. -/
def unquoted (afterGap : Bool) (line : List Char) : List Char :=
  ((upToComment afterGap line).reverse.dropWhile Text.isBlank).reverse

/-- The value at the start of a text, which may stand behind blanks, and the rest. -/
def value? (cs : List Char) : Option (List Char × List Char) :=
  match skipGap cs with
  | '\'' :: rest => (quoted? '\'' rest).map fun (text, rest) => (unescape '\'' text, rest)
  | '"' :: rest => (quoted? '"' rest).map fun (text, rest) => (unescape '"' text, rest)
  | rest =>
    some (unquoted (cs.head?.any isGap) (rest.takeWhile (· ≠ '\n')), rest.dropWhile (· ≠ '\n'))

/-! ### Bindings -/

/-- The name at the start of a text, and the rest. -/
def name? (cs : List Char) : Option (List Char × List Char) :=
  match cs with
  | '\'' :: rest =>
    let name := rest.takeWhile (· ≠ '\'')
    match rest.dropWhile (· ≠ '\'') with
    | _ :: rest => if name = [] then none else some (name, rest)
    | [] => none
  | _ =>
    let isName := fun c => !(Text.isBlank c || c = '=' || c = '#')
    let name := cs.takeWhile isName
    if name = [] then none else some (name, cs.dropWhile isName)

/-- The text without the word `export` at its start. -/
def skipExport (cs : List Char) : List Char :=
  match cs with
  | 'e' :: 'x' :: 'p' :: 'o' :: 'r' :: 't' :: c :: rest => if isGap c then skipGap rest else cs
  | _ => cs

/-- The binding at the start of a text, if there is nothing else on its line, and a text that
begins on the same line. -/
def binding (cs : List Char) : Option (String × Option (List Char)) × List Char :=
  match name? (skipExport cs) with
  | none => (none, cs)
  | some (name, rest) =>
    match skipGap rest with
    | '=' :: rest =>
      match value? rest with
      | none => (none, rest)
      | some (value, rest) =>
        (if lineEnds rest then some (String.ofList name, some value) else none, rest)
    | rest => (if lineEnds rest then some (String.ofList name, none) else none, rest)

/-- The bindings of a text of at most `size` characters, as they are written. -/
def bindingsWithin : (size : Nat) → List Char → List (String × Option (List Char))
  | 0, _ => []
  | size + 1, cs =>
    match cs.dropWhile Text.isBlank with
    | [] => []
    | c :: cs =>
      let (found, rest) := binding (c :: cs)
      found.toList ++ bindingsWithin size (skipLine rest)

/-! ### References -/

/-- The name and the other text of a reference, and the number of its characters, from what
follows a dollar sign. -/
def reference? (cs : List Char) : Option (String × List Char × Nat) :=
  match cs with
  | '\x7b' :: cs =>
    let name := cs.takeWhile fun c => c ≠ '\x7d' && c ≠ ':'
    match cs.drop name.length with
    | '\x7d' :: _ => some (String.ofList name, [], name.length + 2)
    | ':' :: '-' :: cs =>
      let other := cs.takeWhile (· ≠ '\x7d')
      if other.length < cs.length then
        some (String.ofList name, other, name.length + other.length + 4)
      else none
    | _ => none
  | _ => none

/-- A text with values in place of its references; the first `skip` characters belong to the
reference before them. -/
def expand (lookup : String → Option (List Char)) : (skip : Nat) → List Char → List Char
  | _, [] => []
  | skip + 1, _ :: cs => expand lookup skip cs
  | 0, c :: cs =>
    match if c = '$' then reference? cs else none with
    | some (name, other, length) => (lookup name).getD other ++ expand lookup length cs
    | none => c :: expand lookup 0 cs

/-- The value of a name: the one bound to it before, which may have been taken away, or the one
that it has in the environment. -/
def valueOf (environment bound : Sources) (name : String) : Option (List Char) :=
  match bound.lookup name with
  | some value => some (value.getD "").toList
  | none => (environment.lookup name).join.map String.toList

/-- Binds a name; a name that was bound before keeps its place. -/
def bind (name : String) (value : Option String) (bound : Sources) : Sources :=
  if bound.any (·.1 == name) then
    bound.map fun (key, old) => if key == name then (key, value) else (key, old)
  else bound ++ [(name, value)]

/-- The text without a mark of its byte order at its start. -/
def skipMark : List Char → List Char
  | '\ufeff' :: cs => cs
  | cs => cs

/-- The bindings of a text, in the order in which their names first occur. -/
def bindings (environment : Sources) (text : String) : Sources :=
  let cs := Text.unifyBreaks (skipMark text.toList)
  (bindingsWithin cs.length cs).foldl (fun bound (name, value) =>
    bind name
      (value.map fun cs => String.ofList (expand (valueOf environment bound) 0 cs)) bound) []

end Rulebook.Settings
