import Rulebook.Text.Pattern.Escape

/-!
# Text — sets of characters in brackets

A set stands in brackets: characters, ranges of characters, named sets and sets in brackets again.
A circumflex at the start takes the complement, and two signs of a kind join what stands on their
sides: `&&` what both have, `--` what only the left one has, `~~` what one of them has.

* `Brackets.read?`: the set behind an opening bracket.
-/

namespace Rulebook.Text.Pattern

/-- The named sets, all within ASCII. -/
def namedSets : List (String × (Char → Bool)) :=
  let isAscii := fun (c : Char) => c.toNat < 0x80
  let isGraph := fun (c : Char) => 0x20 < c.toNat && c.toNat < 0x7f
  [("alnum", Char.isAlphanum), ("alpha", Char.isAlpha), ("ascii", isAscii),
    ("blank", fun c => c = ' ' || c = '\t'),
    ("cntrl", fun c => c.toNat < 0x20 || c.toNat = 0x7f), ("digit", Char.isDigit),
    ("graph", isGraph), ("lower", Char.isLower), ("print", fun c => c = ' ' || isGraph c),
    ("punct", fun c => isGraph c && !c.isAlphanum),
    ("space", fun c => c = ' ' || (0x09 ≤ c.toNat && c.toNat ≤ 0x0d)),
    ("upper", Char.isUpper), ("word", fun c => c.isAlphanum || c = '_'),
    ("xdigit", fun c => c.isDigit || ('a' ≤ c.toLower && c.toLower ≤ 'f'))]

/-- A named set between colons, from what follows an opening bracket. -/
def namedSet? : List Char → Option ((Char → Bool) × List Char)
  | ':' :: cs =>
    let (negated, cs) := match cs with
      | '^' :: cs => (true, cs)
      | cs => (false, cs)
    match cs.dropWhile (· ≠ ':') with
    | ':' :: ']' :: rest =>
      (namedSets.lookup (String.ofList (cs.takeWhile (· ≠ ':')))).map fun admits =>
        (fun c => admits c != negated, rest)
    | _ => none
  | _ => none

/-- The text behind white space and comments, each of which ends with its line. -/
def skipSpace (inComment : Bool) : List Char → List Char
  | [] => []
  | c :: cs =>
    if inComment then skipSpace (c ≠ '\n') cs
    else if isWhiteSpace c then skipSpace false cs
    else if c = '#' then skipSpace true cs
    else c :: cs

/-- A set whose closing bracket has not been read: whether the complement is taken, how what stands
before the last double sign is joined to the rest, and the members since then. -/
structure Brackets where
  negated : Bool
  join : (Char → Bool) → Char → Bool
  members : Char → Bool

namespace Brackets

/-- The set, if the closing bracket follows. -/
def admits (b : Brackets) (c : Char) : Bool := b.join b.members c != b.negated

def add (b : Brackets) (set : Char → Bool) : Brackets :=
  { b with members := fun c => b.members c || set c }

/-- Goes on behind a double sign. -/
def operator (b : Brackets) (op : Bool → Bool → Bool) : Brackets :=
  { b with join := fun right c => op (b.join b.members c) (right c), members := fun _ => false }

/-- The beginning of a set, where hyphens stand for themselves, and without them a closing bracket
does. -/
def start (cs : List Char) : Brackets × List Char :=
  let (negated, cs) := match cs with
    | '^' :: cs => (true, cs)
    | cs => (false, cs)
  match cs with
  | ']' :: cs => (⟨negated, id, (· = ']')⟩, cs)
  | '-' :: cs => (⟨negated, id, (· = '-')⟩, cs.dropWhile (· = '-'))
  | cs => (⟨negated, id, fun _ => false⟩, cs)

/-- A character or what a backslash writes, and the rest. -/
def item? : List Char → Option (Escape × List Char)
  | [] => none
  | '\\' :: cs => Escape.read? cs
  | c :: cs => some (.char c, cs)

/-- A member of a set or a range, and the rest. -/
def member? (anyCase : Bool) (cs : List Char) : Option ((Char → Bool) × List Char) := do
  let (first, rest) ← item? cs
  let isRange := match rest with
    | '-' :: c :: _ => c ≠ ']' && c ≠ '-'
    | _ => false
  if isRange then
    match first, ← item? (rest.drop 1) with
    | .char low, (.char high, rest) =>
      if low ≤ high then some (inCase anyCase fun c => low ≤ c && c ≤ high, rest) else none
    | _, _ => none
  else match first with
    | .char c => some (inCase anyCase (· = c), rest)
    | .oneOf admits => some (admits, rest)
    | .between _ => none

/-- The set whose beginning is read, from the rest of it, of at most `size` characters; `outer` are
the sets around it. -/
def finish? (anyCase spaced : Bool) :
    (size : Nat) → Brackets → (outer : List Brackets) → List Char →
      Option ((Char → Bool) × List Char)
  | 0, _, _, _ => none
  | size + 1, b, outer, cs =>
    match if spaced then skipSpace false cs else cs with
    | [] => none
    | ']' :: cs =>
      match outer with
      | [] => some (b.admits, cs)
      | b' :: outer => finish? anyCase spaced size (b'.add b.admits) outer cs
    | '[' :: cs =>
      match namedSet? cs with
      | some (set, cs) => finish? anyCase spaced size (b.add (inCase anyCase set)) outer cs
      | none =>
        let (inner, cs) := start cs
        finish? anyCase spaced size inner (b :: outer) cs
    | '&' :: '&' :: cs => finish? anyCase spaced size (b.operator and) outer cs
    | '-' :: '-' :: cs =>
      finish? anyCase spaced size (b.operator fun left right => left && !right) outer cs
    | '~' :: '~' :: cs => finish? anyCase spaced size (b.operator xor) outer cs
    | cs =>
      match member? anyCase cs with
      | some (set, cs) => finish? anyCase spaced size (b.add set) outer cs
      | none => none

/-- The set behind an opening bracket, and what follows its closing one. -/
def read? (anyCase spaced : Bool) (cs : List Char) : Option ((Char → Bool) × List Char) :=
  let (b, rest) := start cs
  finish? anyCase spaced (cs.length + 1) b [] rest

end Brackets

end Rulebook.Text.Pattern
