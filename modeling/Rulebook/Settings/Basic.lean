import Rulebook.Log.Level

/-!
# Settings

Four defaults, read from named texts.  Names are compared without regard to case, and of several
texts under one name the last one counts.

* `Settings.read`: the settings, or a fault for each text that is no value of its setting.
-/

namespace Rulebook

structure Settings where
  logLevel : Log.Level
  logFormat : Log.Format
  strictCoverage : Bool
  suppressParityWarning : Bool
  deriving DecidableEq, Repr

namespace Settings

/-- The settings where nothing is given. -/
def default : Settings := ⟨.info, .short, false, false⟩

/-- The names of the settings. -/
inductive Name
  | logLevel | logFormat | strictCoverage | suppressParityWarning
  deriving DecidableEq, Repr

/-- The name of a setting, in lower case. -/
def Name.text : Name → String
  | .logLevel => "log_level"
  | .logFormat => "log_format"
  | .strictCoverage => "strict_coverage"
  | .suppressParityWarning => "suppress_parity_warning"

/-- What is wrong with the text of a setting: it is none of the words that the setting takes, or
no truth value. -/
inductive Cause
  | unknownWord | noTruthValue
  deriving DecidableEq, Repr

structure Fault where
  name : Name
  cause : Cause
  deriving DecidableEq, Repr

/-- The truth value that a word stands for, in any case. -/
def truth? (s : String) : Option Bool :=
  let word := s.toLower
  if word ∈ ["1", "true", "t", "yes", "y", "on"] then some true
  else if word ∈ ["0", "false", "f", "no", "n", "off"] then some false
  else none

/-- The levels that can be a default. -/
def level? (s : String) : Option Log.Level :=
  (Log.Level.ofName? s).filter (· ≠ .success)

/-- The texts given to the settings, by name; a later one replaces an earlier one, and a name
without a text takes it away. -/
abbrev Sources := List (String × Option String)

/-- What stands before the name of a setting. -/
def namespaceText : String := "symkit_"

/-- The small letter for a large one whose small letter is in ASCII: the sign of the kelvin is a
large letter K. -/
def lowerLetter (c : Char) : Char := if c = '\u212a' then 'k' else c.toLower

/-- The text given to a setting. -/
def Sources.find? (sources : Sources) (name : Name) : Option String :=
  (sources.findRev? fun (key, _) => key.map lowerLetter == namespaceText ++ name.text).bind (·.2)

/-- A setting from its text, or its default if it has none. -/
def field {α : Type} (sources : Sources) (name : Name) (cause : Cause) (default : α)
    (read : String → Option α) : Except Fault α :=
  match sources.find? name with
  | none => .ok default
  | some s =>
    match read s with
    | some a => .ok a
    | none => .error ⟨name, cause⟩

/-- The fault of a setting, if it has one. -/
def faultOf {α : Type} : Except Fault α → List Fault
  | .ok _ => []
  | .error fault => [fault]

/-- The settings that the texts give, or every fault in the order of the settings. -/
def read (sources : Sources) : Except (List Fault) Settings :=
  let level := field sources .logLevel .unknownWord default.logLevel level?
  let format := field sources .logFormat .unknownWord default.logFormat Log.Format.ofName?
  let strict := field sources .strictCoverage .noTruthValue default.strictCoverage truth?
  let quiet := field sources .suppressParityWarning .noTruthValue
    default.suppressParityWarning truth?
  match level, format, strict, quiet with
  | .ok level, .ok format, .ok strict, .ok quiet => .ok ⟨level, format, strict, quiet⟩
  | _, _, _, _ => .error (faultOf level ++ faultOf format ++ faultOf strict ++ faultOf quiet)

end Settings

end Rulebook
