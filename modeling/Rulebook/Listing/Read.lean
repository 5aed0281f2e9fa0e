import Rulebook.Listing.Error
import Rulebook.Listing.Line
import Rulebook.Model.Build
import Rulebook.Model.Text

/-!
# Listings — from text to a decision list

The lines of a listing, blank ones apart, are rules up to the first default line, which ends the
list.  The counts of the last line say how many examples there are of each class; each rule takes
away those that it covers, and notes how many were left before it.

* `Listing.readRules`: the rules and the default, line by line.
* `Listing.read`: the decision list of a text.  Every rule, every overdraft and the finished list
  are recorded.
* `Listing.Request.read`: the same as it is asked for, where the settings may have a say.
* `Listing.textOfBytes?`: the text of the bytes of a file.
-/

namespace Rulebook.Listing

/-- How a listing is to be read. -/
structure Options where
  /-- The consequent of the last rule takes the place of the default. -/
  ignoreDefault : Bool
  /-- A rule that covers more examples than are left is an error. -/
  strict : Bool
  /-- The variable that stands for a name. -/
  rename : String → String

/-- How a listing is asked to be read; where `strict` is left open, the settings decide. -/
structure Request where
  ignoreDefault : Bool
  strict : Option Bool
  rename : String → String

/-- The options of a request. -/
def Request.options (r : Request) (defaults : Except (List Settings.Fault) Settings) :
    Except (List Settings.Fault) Options :=
  match r.strict with
  | some strict => .ok ⟨r.ignoreDefault, strict, r.rename⟩
  | none => defaults.map fun settings => ⟨r.ignoreDefault, settings.strictCoverage, r.rename⟩

/-- The lines of a text that are not blank, with their numbers. -/
def numberedLines (text : List Char) : List NumberedLine :=
  (((Text.splitLines text).zipIdx 1).map fun (line, number) => ⟨number, line⟩).filter
    fun line => line.text.any fun c => !Text.isBlank c

/-- The condition that a clause writes. -/
def condition (o : Options) (c : Clause) : Condition :=
  ⟨o.rename c.name, c.op, .ofText c.threshold⟩

/-- The constant of a line, with its score and the counts it is supported by. -/
def constant (line : Line) (support : Option (List Int)) : Model :=
  .constant ⟨support, none, some line.score, none, []⟩ (.text line.value)

/-- The rule of a line, before which `uncovered` examples were left. -/
def rule (o : Options) (uncovered : List Int) (line : Line) (clauses : List Clause) : Rule where
  info := ⟨none, some uncovered, none, none, []⟩
  antecedent := .conjunction (clauses.map (condition o))
  consequent := constant line (some (line.distribution.map Int.ofNat))

/-- What is left of each class. -/
def remaining (uncovered : List Int) (covered : List Nat) : List Int :=
  List.zipWith (fun (left : Int) (taken : Nat) => left - taken) uncovered covered

/-- The column of the opening bracket of a line. -/
def bracketColumn (line : List Char) : Nat := (line.takeWhile (· ≠ '[')).length + 1

/-- The rules from here on and the default.  `uncovered` examples are left, and `preceded` says
whether a rule came before. -/
def readRules (o : Options) (uncovered : List Int) (preceded : Bool) :
    List NumberedLine → Traced ListingError (List Rule × Model)
  | [] => .fail .noDefault
  | line :: lines => do
    let parsed ← Traced.ofExcept ((Line.read line.text).mapError (.ofLine line))
    match parsed.antecedent with
    | .always =>
      if o.ignoreDefault && !preceded then .fail (.defaultAlone line)
      else pure ([], constant parsed none)
    | .clauses clauses =>
      if parsed.distribution.length ≠ uncovered.length then
        .fail (.malformed line (.classCount uncovered.length parsed.distribution.length)
          (bracketColumn line.text))
      else
        Traced.record (.ruleRead line.number parsed.value parsed.distribution)
        let left := remaining uncovered parsed.distribution
        if left.any (· < 0) then
          if o.strict then .fail (.overdrawn line uncovered parsed.distribution)
          else
            Traced.record (.overdrawn line.number uncovered parsed.distribution)
        let (rules, default) ← readRules o left true lines
        pure (rule o uncovered parsed clauses :: rules, default)

/-- The list of some rules and a default.  If the default is ignored, the last rule gives its
consequent for it. -/
def assemble (o : Options) (rules : List Rule) (default : Model) : List Rule × Model :=
  match o.ignoreDefault, rules.getLast? with
  | true, some last => (rules.dropLast, last.consequent)
  | _, _ => (rules, default)

/-- The decision list of a text. -/
def read (o : Options) (text : List Char) : Traced ListingError Model := do
  let lines := numberedLines text
  match lines.getLast? with
  | none => .fail .noDefault
  | some last =>
    let totals ← Traced.ofExcept ((Line.readTotals last.text).mapError (.ofLine last))
    let (rules, default) ← readRules o (totals.map Int.ofNat) false lines
    let (rules, default) := assemble o rules default
    Traced.record (.listRead rules.length default.toText o.ignoreDefault)
    pure (.decisionList .empty rules default)

/-- Why a text that is asked for is not read. -/
inductive Refusal
  /-- How to read is left to settings that cannot be read. -/
  | unsettled (faults : List Settings.Fault)
  /-- The text is at fault. -/
  | refused (e : ListingError)
  deriving DecidableEq, Repr

/-- The decision list of a text that is asked for. -/
def Request.read (r : Request) (defaults : Except (List Settings.Fault) Settings)
    (text : List Char) : Traced Refusal Model := do
  let o ← Traced.ofExcept ((r.options defaults).mapError .unsettled)
  (Listing.read o text).mapError .refused

/-- The text of some bytes: they are decoded, and every line break of two characters or of a
carriage return alone becomes a line feed. -/
def textOfBytes? (bytes : ByteArray) : Option (List Char) :=
  (String.fromUTF8? bytes).map fun s => Text.unifyBreaks s.toList

end Rulebook.Listing
