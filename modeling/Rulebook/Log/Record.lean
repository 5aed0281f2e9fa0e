import Rulebook.Log.Level
import Rulebook.Model.Kind
import Rulebook.Value

/-!
# Log — records

What the library reports while it works, as data.

* `Record` says what happened; its level, its words and its fields follow from that.
* `Warning` tells that a vote was tied.
* `Event`: one of the two, in the order in which they arise.
-/

namespace Rulebook.Log

/-- Something worth a line in the log. -/
inductive Record
  /-- A line of a listing became a rule. -/
  | ruleRead (line : Nat) (outcome : String) (distribution : List Nat)
  /-- A rule covers more examples than were left. -/
  | overdrawn (line : Nat) (uncovered : List Int) (covered : List Nat)
  /-- A listing became a decision list. -/
  | listRead (rules : Nat) (default : String) (defaultIgnored : Bool)
  /-- Several labels have the most votes. -/
  | tied (labels : List Value) (winner : Value)
  /-- A mixed model was checked. -/
  | mixed (models : Nat) (feasible : List KindPattern)
  /-- An array tree was converted. -/
  | treeConverted (nodes height : Nat)
  /-- An array forest was converted. -/
  | forestConverted (trees nodes : Nat)
  deriving Repr

/-- The value of a field of a record. -/
inductive Field
  | value (v : Value)
  | counts (ns : List Int)
  deriving Repr

/-- A field inside a line: counts stand in parentheses. -/
def Field.literal : Field → String
  | .value v => v.literal
  | .counts ns => Text.parenthesized (ns.map toString)

/-- Whether a field can be written: no integer in it has too many digits. -/
def Field.isWritable : Field → Bool
  | .value v => v.isWritable
  | .counts ns => ns.all Text.isWritable

namespace Record

def level : Record → Level
  | .overdrawn .. => .warning
  | .listRead .. => .info
  | _ => .debug

def message : Record → String
  | .ruleRead .. => "Parsed rule"
  | .overdrawn .. => "Rule covers more examples than remain uncovered; keeping negative counts"
  | .listRead .. => "Parsed Orange decision list"
  | .tied .. => "Tied vote"
  | .mixed .. => "MixedModel constructed"
  | .treeConverted .. => "Converted sklearn tree"
  | .forestConverted .. => "Converted sklearn forest"

/-- The fields of a record, in order. -/
def fields : Record → List (String × Field)
  | .ruleRead line outcome distribution =>
    [("line_number", .value (.int line)), ("outcome", .value (.text outcome)),
      ("distribution", .counts (distribution.map Int.ofNat))]
  | .overdrawn line uncovered covered =>
    [("line_number", .value (.int line)), ("uncovered", .counts uncovered),
      ("covered", .counts (covered.map Int.ofNat))]
  | .listRead rules default defaultIgnored =>
    [("n_rules", .value (.int rules)), ("default", .value (.text default)),
      ("ignore_default_rule", .value (.bool defaultIgnored))]
  | .tied labels winner => [("tied", .value (.list labels)), ("winner", .value winner)]
  | .mixed models feasible =>
    [("n_submodels", .value (.int models)),
      ("feasible_models", .value (.list (feasible.map (.text ·.name))))]
  | .treeConverted nodes height =>
    [("nnodes", .value (.int nodes)), ("height", .value (.int height))]
  | .forestConverted trees nodes =>
    [("ntrees", .value (.int trees)), ("nnodes", .value (.int nodes))]

/-- The module and the function that a record names as its origin. -/
def origin : Record → String × String
  | .ruleRead .. | .listRead .. => ("symkit.orange", "parse_orange_decision_list")
  | .overdrawn .. => ("symkit.orange", "_subtract_distribution")
  | .tied .. => ("symkit.models", "best_guess")
  | .mixed .. => ("symkit.models", "_validate_feasible_models")
  | .treeConverted .. => ("symkit.from_sklearn", "tree_from_sklearn")
  | .forestConverted .. => ("symkit.from_sklearn", "forest_from_sklearn")

end Record

/-- A tie between `labels` labels of `votes` votes each. -/
structure Warning where
  labels : Nat
  votes : Nat
  winner : Value
  deriving Repr

def Warning.message (w : Warning) : String :=
  "Parity encountered in best_guess: " ++ toString w.labels ++ " labels tied with "
    ++ toString w.votes ++ " votes each; choosing " ++ w.winner.literal

/-- A record or a warning. -/
inductive Event
  | record (r : Record)
  | warning (w : Warning)
  deriving Repr

/-- The records among the events, in order. -/
def records (events : List Event) : List Record :=
  events.filterMap fun | .record r => some r | .warning _ => none

/-- The warnings among the events, in order. -/
def warnings (events : List Event) : List Warning :=
  events.filterMap fun | .warning w => some w | .record _ => none

end Rulebook.Log
