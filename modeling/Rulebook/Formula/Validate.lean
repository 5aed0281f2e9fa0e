import Rulebook.Formula
import Rulebook.Json
import Rulebook.Value.Lenient

/-!
# Formulas — from JSON values

A formula stands in JSON as an object with a member `kind`, and so does a threshold.  Everything
that is wrong with a JSON value is reported, each complaint with the way to it.

* `Formula.validate`: the formula of a JSON value, or the complaints in the order of the members.
* `Formula.image`: the JSON value of a formula.
-/

namespace Rulebook

/-- One step of the way into a JSON value. -/
inductive Step
  | member (name : String)
  | item (index : Nat)
  deriving DecidableEq, Repr

/-- What is wrong at some place. -/
inductive Complaint
  | missing
  | notAnObject
  | notAModel
  | noTag
  | unknownTag
  | wrongTag
  | unknownWord
  | notText
  | emptyText
  | tooShort
  | notANumeral
  | notANumber
  | notAList
  deriving DecidableEq, Repr

/-- The name of a complaint. -/
def Complaint.name : Complaint → String
  | .missing => "missing"
  | .notAnObject => "model_attributes_type"
  | .notAModel => "model_type"
  | .noTag => "union_tag_not_found"
  | .unknownTag => "union_tag_invalid"
  | .wrongTag => "literal_error"
  | .unknownWord => "literal_error"
  | .notText => "string_type"
  | .emptyText => "string_too_short"
  | .tooShort => "too_short"
  | .notANumeral => "float_parsing"
  | .notANumber => "float_type"
  | .notAList => "tuple_type"

/-- A complaint and the way to it. -/
structure Located where
  path : List Step
  complaint : Complaint
  deriving DecidableEq, Repr

/-- A value, or everything that is wrong with what it was to be read from. -/
abbrev Validated (α : Type) := Except (List Located) α

namespace Validated

variable {α β γ : Type}

def complain (c : Complaint) : Validated α := .error [⟨[], c⟩]

/-- The same, one step deeper. -/
def under (step : Step) : Validated α → Validated α
  | .ok a => .ok a
  | .error complaints => .error (complaints.map fun l => { l with path := step :: l.path })

/-- Both values, or the complaints of both. -/
def both (f : α → β → γ) : Validated α → Validated β → Validated γ
  | .ok a, .ok b => .ok (f a b)
  | .ok _, .error es => .error es
  | .error es, .ok _ => .error es
  | .error es, .error es' => .error (es ++ es')

/-- A member that has to be there. -/
def required (members : List (String × Json)) (name : String) (read : Json → Validated α) :
    Validated α :=
  under (.member name) (match Json.find? members name with
    | none => complain .missing
    | some json => read json)

end Validated

open Validated

/-- A double, from a number, a truth value or a numeral. -/
def validateReal (json : Json) : Validated Binary64 :=
  match json.scalar? with
  | none => complain .notANumber
  | some v =>
    match v.asReal? with
    | some x => .ok x
    | none => complain (match v with
      | .text _ => .notANumeral
      | _ => .notANumber)

def validateText : Json → Validated String
  | .text s => .ok s
  | _ => complain .notText

/-- Reads an object by the reader that belongs to its tag. -/
def byTag {α : Type} (readers : List (String × (List (String × Json) → Validated α))) :
    Json → Validated α
  | .object members =>
    match Json.find? members "kind" with
    | none => complain .noTag
    | some (.text tag) =>
      match readers.lookup tag with
      | some read => under (.member tag) (read members)
      | none => complain .unknownTag
    | some _ => complain .unknownTag
  | _ => complain .notAnObject

namespace Threshold

def validate : Json → Validated Threshold :=
  byTag [
    ("numeric", fun members => (required members "value" validateReal).map .numeric),
    ("symbolic", fun members => (required members "token" validateText).map .symbolic)]

end Threshold

namespace Condition

/-- The name of a variable, which may not be empty. -/
def validateName : Json → Validated String
  | .text s => if s = "" then complain .emptyText else .ok s
  | _ => complain .notText

def validateVariable : Json → Validated String
  | .object members => required members "name" validateName
  | _ => complain .notAModel

def validateComparison : Json → Validated Comparison
  | .text s =>
    match Comparison.ofSymbol? s with
    | some op => .ok op
    | none => complain .unknownWord
  | _ => complain .unknownWord

def validate : Json → Validated Condition
  | .object members =>
    both (fun (name, op) threshold => ⟨name, op, threshold⟩)
      (both Prod.mk (required members "feature" validateVariable)
        (required members "operator" validateComparison))
      (required members "threshold" Threshold.validate)
  | _ => complain .notAModel

end Condition

namespace Formula

/-- The condition of an atom, from its members. -/
def validateAtom (members : List (String × Json)) : Validated Condition :=
  required members "condition" Condition.validate

/-- The tag of a member of a conjunction, which may be missing. -/
def validateTag (members : List (String × Json)) : Validated Unit :=
  match Json.find? members "kind" with
  | none => .ok ()
  | some (.text "atom") => .ok ()
  | some _ => under (.member "kind") (complain .wrongTag)

/-- A member of a conjunction. -/
def validateConjunct : Json → Validated Condition
  | .object members => both (fun _ c => c) (validateTag members) (validateAtom members)
  | _ => complain .notAModel

/-- The members of a conjunction from `index` on: those that are valid, and all complaints. -/
def validateConjuncts (index : Nat) : List Json → List Condition × List Located
  | [] => ([], [])
  | json :: items =>
    let (conditions, complaints) := validateConjuncts (index + 1) items
    match under (.item index) (validateConjunct json) with
    | .ok c => (c :: conditions, complaints)
    | .error es => (conditions, es ++ complaints)

/-- The members of a conjunction, of which one has to be valid. -/
def validateConditions : Json → Validated (List Condition)
  | .array items =>
    let (conditions, complaints) := validateConjuncts 0 items
    let short := if conditions = [] then [⟨[], .tooShort⟩] else []
    if complaints ++ short = [] then .ok conditions else .error (complaints ++ short)
  | _ => complain .notAList

/-- The formula of a JSON value. -/
def validate : Json → Validated Formula :=
  byTag [
    ("atom", fun members => (validateAtom members).map .atom),
    ("conjunction", fun members =>
      (required members "atoms" validateConditions).map .conjunction),
    ("top", fun _ => .ok .top)]

end Formula

/-! ### Images -/

/-- The JSON value of a threshold. -/
def Threshold.image : Threshold → Json
  | .numeric x => .object [("kind", .text "numeric"), ("value", .real x)]
  | .symbolic token => .object [("kind", .text "symbolic"), ("token", .text token)]

/-- The JSON value of a condition. -/
def Condition.image (c : Condition) : Json :=
  .object [
    ("feature", .object [("name", .text c.name)]),
    ("operator", .text c.op.symbol),
    ("threshold", c.threshold.image)]

/-- The JSON value of a condition as an atom. -/
def Condition.atomImage (c : Condition) : Json :=
  .object [("kind", .text "atom"), ("condition", c.image)]

/-- The JSON value of a formula. -/
def Formula.image : Formula → Json
  | .atom c => c.atomImage
  | .conjunction cs =>
    .object [("kind", .text "conjunction"), ("atoms", .array (cs.map Condition.atomImage))]
  | .top => .object [("kind", .text "top")]

end Rulebook
