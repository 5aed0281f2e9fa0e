import Rulebook.Text.Pattern
import Rulebook.Text.Pattern.Brackets

/-!
# Text — reading a pattern

A pattern is written as characters that stand for themselves, sets in brackets, groups in
parentheses, a bar between alternatives, and behind a part a sign for its repetition: `*`, `+`, `?`
or counts in braces.  A point stands for any character, a circumflex and a dollar sign for the ends
of the text.  Letters behind `(?` change how the rest of their group is read.

* `Pattern.read?`: the pattern that a text writes.
-/

namespace Rulebook.Text.Pattern

/-- How a part of a pattern is read: without regard to case, with the ends of lines as ends of the
text, with a point for line feeds also, with white space and comments that count for nothing. -/
structure Modes where
  anyCase : Bool
  byLine : Bool
  pointForAll : Bool
  spaced : Bool

namespace Modes

/-- The modes with the one that has the letter switched on or off; some letters make no difference
to what is found. -/
def set? (modes : Modes) (letter : Char) (on : Bool) : Option Modes :=
  match letter with
  | 'i' => some { modes with anyCase := on }
  | 'm' => some { modes with byLine := on }
  | 's' => some { modes with pointForAll := on }
  | 'x' => some { modes with spaced := on }
  | 'U' | 'u' | 'R' => some modes
  | _ => none

/-- The modes that different letters set, those behind a hyphen being switched off, whether a group
follows, and the rest.  `seen` are the letters so far. -/
def read? (modes : Modes) (seen : List Char) : List Char → Option (Modes × Bool × List Char)
  | [] => none
  | c :: cs =>
    if c = ':' ∨ c = ')' then
      if seen.head? = some '-' ∨ (c = ')' ∧ seen = []) then none else some (modes, c = ':', cs)
    else if seen.contains c then none
    else if c = '-' then read? modes (c :: seen) cs
    else match modes.set? c (!seen.contains '-') with
      | some modes => read? modes (c :: seen) cs
      | none => none

end Modes

/-- A group whose end has not been read: the modes outside of it, its alternatives that are
complete, the parts of the last one, the latest first, and whether that can be repeated. -/
structure Group where
  outside : Modes
  alternatives : List Pattern
  parts : List Pattern
  repeatable : Bool

namespace Group

/-- The pattern of the parts, one after another. -/
def sequence (g : Group) : Pattern := g.parts.foldl (fun rest part => .both part rest) .empty

/-- The pattern, if the end of the group follows. -/
def pattern (g : Group) : Pattern := g.alternatives.foldl (fun last p => .either p last) g.sequence

def push (g : Group) (p : Pattern) : Group :=
  { g with parts := p :: g.parts, repeatable := true }

/-- Goes on behind a bar. -/
def bar (g : Group) : Group :=
  { g with alternatives := g.sequence :: g.alternatives, parts := [], repeatable := false }

/-- Repeats the latest part. -/
def again? (g : Group) (least : Nat) (most : Option Nat) : Option Group :=
  match g.parts with
  | p :: parts =>
    if g.repeatable then some { g with parts := .several least most p :: parts } else none
  | [] => none

end Group

/-- A pattern that has been read in part: the modes that hold, the names of groups so far, the
innermost group and those around it. -/
structure Reading where
  modes : Modes
  names : List (List Char)
  group : Group
  outer : List Group

namespace Reading

/-- The beginning of a pattern. -/
def start : Reading :=
  let modes := ⟨false, false, false, false⟩
  ⟨modes, [], ⟨modes, [], [], false⟩, []⟩

def push (r : Reading) (p : Pattern) : Reading := { r with group := r.group.push p }

/-- Adds a character out of a set. -/
def pushOne (r : Reading) (admits : Char → Bool) : Reading := r.push (.one admits)

/-- Adds a character. -/
def pushChar (r : Reading) (c : Char) : Reading :=
  r.pushOne (inCase r.modes.anyCase (· = c))

/-- Adds what is written with a backslash. -/
def pushEscape (r : Reading) : Escape → Reading
  | .char c => r.pushChar c
  | .oneOf admits => r.pushOne admits
  | .between admits => r.push (.between admits)

/-- Adds the end of the text, or of a line, that lies where the given neighbour is missing. -/
def pushEnd (r : Reading) (neighbour : Option Char → Option Char → Option Char) : Reading :=
  r.push (.between fun before after =>
    (neighbour before after).all fun c => r.modes.byLine && c = '\n')

/-- Opens a group. -/
def openGroup (r : Reading) (modes : Modes) : Reading :=
  ⟨modes, r.names, ⟨r.modes, [], [], false⟩, r.group :: r.outer⟩

/-- Opens a group with a name, which no other group may have. -/
def openNamed? (r : Reading) (cs : List Char) : Option (Reading × List Char) :=
  let name := cs.takeWhile (· ≠ '>')
  let fits := fun (c : Char) => isWord c || c = '.' || c = '[' || c = ']'
  match name, cs.dropWhile (· ≠ '>') with
  | c :: _, _ :: rest =>
    if isWord c && !isDigit c && name.all fits && !r.names.contains name then
      some (openGroup { r with names := name :: r.names } r.modes, rest)
    else none
  | _, _ => none

/-- Goes on behind an opening parenthesis. -/
def open? (r : Reading) : List Char → Option (Reading × List Char)
  | '?' :: 'P' :: '<' :: cs | '?' :: '<' :: cs => r.openNamed? cs
  | '?' :: cs =>
    (r.modes.read? [] cs).map fun (modes, isGroup, rest) =>
      if isGroup then (r.openGroup modes, rest)
      else ({ r with modes, group := { r.group with repeatable := false } }, rest)
  | cs => some (r.openGroup r.modes, cs)

/-- Goes on behind a closing parenthesis. -/
def close? (r : Reading) : Option Reading :=
  match r.outer with
  | [] => none
  | g :: outer => some ⟨r.group.outside, r.names, g.push r.group.pattern, outer⟩

end Reading

/-- How large a count may be. -/
def largestCount : Nat := 4294967295

/-- A count at the start of a text, and the rest. -/
def count? (cs : List Char) : Option (Nat × List Char) :=
  let digits := cs.takeWhile Char.isDigit
  let n := ofDigits (digits.filterMap digit?)
  if digits ≠ [] ∧ n ≤ largestCount then some (n, cs.drop digits.length) else none

/-- How often a part is repeated, from what follows an opening brace. -/
def counts? (cs : List Char) : Option (Nat × Option Nat × List Char) := do
  let (least, rest) ← count? cs
  match rest with
  | '\x7d' :: rest => some (least, some least, rest)
  | ',' :: '\x7d' :: rest => some (least, none, rest)
  | ',' :: rest =>
    match ← count? rest with
    | (most, '\x7d' :: rest) => if least ≤ most then some (least, some most, rest) else none
    | _ => none
  | _ => none

/-- A sign for a repetition at the start of a text, and the rest. -/
def repetition? : List Char → Option (Nat × Option Nat × List Char)
  | '*' :: cs => some (0, none, cs)
  | '+' :: cs => some (1, none, cs)
  | '?' :: cs => some (0, some 1, cs)
  | '\x7b' :: cs => counts? cs
  | _ => none

/-- The pattern whose beginning is read, from the rest of it, of fewer than `size` characters.  A
question mark behind a repetition makes no difference to what is found. -/
def finish? : (size : Nat) → Reading → List Char → Option Pattern
  | 0, _, _ => none
  | size + 1, r, cs =>
    match if r.modes.spaced then skipSpace false cs else cs with
    | [] => if r.outer.isEmpty then some r.group.pattern else none
    | c :: cs => do
      if c = '*' ∨ c = '+' ∨ c = '?' ∨ c = '\x7b' then
        let (least, most, rest) ← repetition? (c :: cs)
        let group ← r.group.again? least most
        finish? size { r with group } (if rest.head? = some '?' then rest.drop 1 else rest)
      else match c with
        | '\\' =>
          let (escape, rest) ← Escape.read? cs
          finish? size (r.pushEscape escape) rest
        | '[' =>
          let (admits, rest) ← Brackets.read? r.modes.anyCase r.modes.spaced cs
          finish? size (r.pushOne admits) rest
        | '(' =>
          let (r, rest) ← r.open? cs
          finish? size r rest
        | ')' => finish? size (← r.close?) cs
        | '|' => finish? size { r with group := r.group.bar } cs
        | '.' => finish? size (r.pushOne fun c => r.modes.pointForAll || c ≠ '\n') cs
        | '^' => finish? size (r.pushEnd fun before _ => before) cs
        | '$' => finish? size (r.pushEnd fun _ after => after) cs
        | c => finish? size (r.pushChar c) cs

/-- How large a pattern may be with its repetitions written out. -/
def largest : Nat := 327680

/-- The pattern that a text writes. -/
def read? (s : String) : Option Pattern :=
  (finish? (s.length + 1) .start s.toList).filter (·.size ≤ largest)

end Rulebook.Text.Pattern
