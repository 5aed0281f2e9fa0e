/-!
# Text — patterns

A pattern describes parts of a text: single characters, one part after another, alternatives,
repetitions, and empty parts that depend on the characters beside them.

* `Pattern.ends`: where the parts end that fit a pattern and begin at one of the given places.
* `Pattern.isIn`: whether some part of a text, perhaps an empty one, fits a pattern.
* `Pattern.size`: the length of a pattern with its repetitions written out.
-/

namespace Rulebook.Text

/-- A pattern. -/
inductive Pattern
  /-- The empty part. -/
  | empty
  /-- One character. -/
  | one (admits : Char → Bool)
  /-- The empty part between two characters, of which one is missing at an end of the text. -/
  | between (admits : Option Char → Option Char → Bool)
  | both (first second : Pattern)
  | either (first second : Pattern)
  /-- Several parts one after another, at least `least` of them and at most `most`. -/
  | several (least : Nat) (most : Option Nat) (part : Pattern)

namespace Pattern

/-- The character before a place. -/
def before? (text : Array Char) (place : Nat) : Option Char :=
  if place = 0 then none else text[place - 1]?

/-- The places that some of `places` lead to in exactly so many steps. -/
def walk (step : List Nat → List Nat) : (steps : Nat) → List Nat → List Nat
  | 0, places => places
  | steps + 1, places => walk step steps (step places)

/-- The places that some of `places` lead to in at most so many steps. -/
def spread (step : List Nat → List Nat) : (steps : Nat) → List Nat → List Nat
  | 0, places => places
  | steps + 1, places =>
    match (step places).filter (!places.contains ·) with
    | [] => places
    | new => spread step steps (places ++ new)

/-- Where the parts end that fit the pattern and begin at one of the given places.  No step leads
back, so of a repetition more steps than there are places lead nowhere else. -/
def ends (text : Array Char) : Pattern → List Nat → List Nat
  | .empty, places => places
  | .one admits, places => (places.filter fun i => text[i]?.any admits).map (· + 1)
  | .between admits, places => places.filter fun i => admits (before? text i) text[i]?
  | .both p q, places => ends text q (ends text p places)
  | .either p q, places => (ends text p places ++ ends text q places).eraseDups
  | .several least most p, places =>
    let steps := text.size + 1
    let further := most.elim steps fun most => min (most - least) steps
    spread (ends text p) further (walk (ends text p) (min least steps) places)

/-- Whether some part of a text fits the pattern. -/
def isIn (p : Pattern) (s : String) : Bool :=
  let text := s.toList.toArray
  !(p.ends text (List.range (text.size + 1))).isEmpty

/-- The number of the characters and other smallest parts that the pattern writes out. -/
def size : Pattern → Nat
  | .empty => 0
  | .one _ | .between _ => 1
  | .both p q | .either p q => size p + size q
  | .several least most p => (most.getD least).max 1 * size p

end Pattern

end Rulebook.Text
