import Rulebook.Model.Basic
import Rulebook.Value.Lenient
import Rulebook.Traced

/-!
# Models — from their parts

Each kind of model is built from parts that may be models or bare outcomes; a bare outcome
becomes a constant.  A tree has a constant or a branch at its root, a forest is made of trees and
has one, the members of a decision list are rules.

A mixed model is checked when it is built: every reachable model has to be of a feasible kind.
Where no feasible kinds are given they are inferred.  The check is recorded, and recorded again
whenever the mixed model becomes a direct part of another model.

* `Bare`: a model of none of the kinds, which does nothing.
* `Model.mixedOf`: the check and the inference.
* `Model.foldLastRule`: a decision list without its last rule, whose consequent is the default.
-/

namespace Rulebook

/-- What is built: a model of a kind, or the notes about one. -/
inductive BuildTarget
  | model (kind : Kind)
  | info
  deriving DecidableEq, Repr

def BuildTarget.name : BuildTarget → String
  | .model kind => kind.name
  | .info => "ModelInfo"

/-- A constraint that a mixed model breaks. -/
structure Violation where
  feasible : List KindPattern
  /-- The kinds of the models that are not feasible, one for each of them. -/
  violating : List Kind
  /-- The number of models checked. -/
  models : Nat
  deriving Repr

namespace Violation

/-- Names in ascending order. -/
def sortNames (names : List String) : List String := names.mergeSort fun s t => !(t < s)

/-- The names of the violating kinds, each once. -/
def violatingNames (v : Violation) : List String := sortNames (v.violating.map (·.name)).eraseDups

def feasibleNames (v : Violation) : List String := sortNames (v.feasible.map (·.name))

def message (v : Violation) : String :=
  toString v.violating.length ++ "/" ++ toString v.models
    ++ " submodels break the type constraint on the model sub-tree! All models should be of types "
    ++ Text.bracketed (v.feasibleNames.map Text.quote)
    ++ ", but models were found of types: "
    ++ Text.bracketed (v.violatingNames.map Text.quote) ++ "."

end Violation

/-- Why a model cannot be built. -/
inductive BuildFault
  /-- A part is missing or of the wrong kind. -/
  | misfit (target : BuildTarget)
  | emptyForest
  | infeasible (violation : Violation)
  /-- A decision list without rules has no last rule. -/
  | noRuleToFold
  /-- Only a decision list has rules to fold. -/
  | noRulebase (kind : Kind)
  deriving Repr

/-- The wording of a fault. -/
def BuildFault.message : BuildFault → String
  | .misfit _ => ""
  | .emptyForest => "Cannot instantiate forest with no trees!"
  | .infeasible violation => violation.message
  | .noRuleToFold =>
    "Cannot fold the last rule of an empty rulebase into the default consequent"
  | .noRulebase kind => Text.quote kind.name ++ " object has no attribute 'fold_last_rule'"

/-! ### Notes -/

/-- What is given as a postprocess: a change of answers, or something that is none. -/
inductive PostprocessPart
  | change (f : Value → Except Fault Value)
  | other

/-- A note that may be missing. -/
def Info.optional {α : Type} (read : Value → Option α) : Value → Except BuildFault (Option α)
  | .missing => .ok none
  | v =>
    match read v with
    | some a => .ok (some a)
    | none => .error (.misfit .info)

/-- Notes from values. -/
def Info.build (supportingLabels uncoveredDistribution evaluation : Value)
    (postprocess : Option PostprocessPart) (auxiliary : List (String × Value)) :
    Except BuildFault Info := do
  let supportingLabels ← Info.optional Value.asIntegers? supportingLabels
  let uncoveredDistribution ← Info.optional Value.asIntegers? uncoveredDistribution
  let evaluation ← Info.optional Value.asReal? evaluation
  match postprocess with
  | some .other => .error (.misfit .info)
  | some (.change f) =>
    return ⟨supportingLabels, uncoveredDistribution, evaluation, some f, auxiliary⟩
  | none =>
    return ⟨supportingLabels, uncoveredDistribution, evaluation, none, auxiliary⟩

/-! ### Models without a kind -/

/-- A model without a kind.  It has notes, but no parts and no rule of evaluation. -/
structure Bare where
  info : Info

namespace Bare

def name : String := KindPattern.any.name

/-- It has no answers, so it is not said to leave any out. -/
def isOpen (_ : Bare) : Bool := false

def children (_ : Bare) : List Model := []

def submodels (m : Bare) : List Model := m.children.flatMap Model.reachable

def leaves (m : Bare) : List Model := m.submodels.filter (·.kind = .constant)

def height (m : Bare) : Nat := (m.children.map (·.height + 1)).foldr max 0

/-- The answer to a row, or the answers to a data set. -/
def apply {α : Type} (_ : Bare) : Except Fault α := .error .unspecified

/-- The same, where ties are to pass without a warning. -/
def applyQuiet {α : Type} (_ : Bare) : Except Fault α := .error .noVoteToQuiet

/-- The answer to the antecedent on a row, or the answers on a data set. -/
def checkAntecedent {α : Type} (_ : Bare) : Except Fault α := .error (.noAntecedent name)

end Bare

/-! ### Parts -/

/-- A part of a model to be built: a bare outcome, a model, or a model without a kind. -/
inductive Part
  | bare (outcome : Value)
  | model (m : Model)
  | unspecified (m : Bare)

namespace Model

/-- Records the check of a mixed model. -/
def announce : Model → Traced BuildFault Unit
  | .mixed _ root feasible => Traced.record (.mixed root.reachable.length feasible)
  | _ => pure ()

end Model

namespace Part

/-- A part as a model of any kind. -/
def adopt : Part → Traced BuildFault (Option Model)
  | .bare v => pure (some (.constant .empty v))
  | .model m => do
    m.announce
    pure (some m)
  | .unspecified _ => pure none

/-- A part as a rule. -/
def rule? : Part → Option Rule
  | .model (.rule r) => some r
  | _ => none

/-- A part as a tree. -/
def tree? : Part → Option Tree
  | .model (.tree t) => some t
  | _ => none

/-- A part as the root of a tree. -/
def root? : Part → Option Model
  | .bare v => some (.constant .empty v)
  | .model (.constant info v) => some (.constant info v)
  | .model (.branch info antecedent positive negative) =>
    some (.branch info antecedent positive negative)
  | _ => none

/-- A part with the root of a tree in place of the tree. -/
def withoutTree : Part → Part
  | .model (.tree t) => .model t.root
  | part => part

end Part

namespace Model

/-- Ends with a misfit for the kind. -/
def misfit {α : Type} (kind : Kind) : Traced BuildFault α := .fail (.misfit (.model kind))

def ruleOf (info : Info) (antecedent : Formula) (consequent : Part) :
    Traced BuildFault Model := do
  match ← consequent.adopt with
  | some m => pure (.rule ⟨info, antecedent, m⟩)
  | none => misfit .rule

def branchOf (info : Info) (antecedent : Formula) (positive negative : Part) :
    Traced BuildFault Model := do
  match ← positive.adopt, ← negative.adopt with
  | some yes, some no => pure (.branch info antecedent yes no)
  | _, _ => misfit .branch

/-- A decision list; the default may not be left out. -/
def decisionListOf (info : Info) (rules : List Part) (default : Option Part) :
    Traced BuildFault Model := do
  let last ← match default with
    | some part => part.adopt
    | none => pure none
  match rules.mapM Part.rule?, last with
  | some rules, some m => pure (.decisionList info rules m)
  | _, _ => misfit .decisionList

def treeOf (info : Info) (root : Part) : Traced BuildFault Model :=
  match root.root? with
  | some m => pure (.tree ⟨info, m⟩)
  | none => misfit .tree

/-- A tree whose root branches; of a part that is a tree the root is taken. -/
def treeOfBranch (info : Info) (antecedent : Formula) (positive negative : Part) :
    Traced BuildFault Model := do
  let root ← branchOf .empty antecedent positive.withoutTree negative.withoutTree
  treeOf info (.model root)

def forestOf (info : Info) (trees : List Part) : Traced BuildFault Model :=
  match trees.mapM Part.tree? with
  | some [] => .fail .emptyForest
  | some trees => pure (.forest info trees)
  | none => misfit .forest

/-- The kinds of some models, each once, in the order of their first occurrence. -/
def kindsOf (models : List Model) : List KindPattern :=
  (models.map fun m => KindPattern.only m.kind).eraseDups

/-- A mixed model around a root.  It is refused if a reachable model is of no feasible kind. -/
def mixedOf (info : Info) (root : Part) (feasible : Option (List KindPattern)) :
    Traced BuildFault Model := do
  match ← root.adopt with
  | none => misfit .mixed
  | some root =>
    let models := root.reachable
    let feasible := feasible.getD (kindsOf models)
    let violating := models.filter fun m => !feasible.any (·.admits m.kind)
    if violating.isEmpty then
      let m := Model.mixed info root feasible
      m.announce
      pure m
    else .fail (.infeasible ⟨feasible, violating.map (·.kind), models.length⟩)

/-- The decision list whose default is the consequent of the last rule, without that rule. -/
def foldLastRule : Model → Traced BuildFault Model
  | .decisionList info rules _ =>
    match rules.getLast? with
    | none => .fail .noRuleToFold
    | some last => do
      last.consequent.announce
      pure (.decisionList info rules.dropLast last.consequent)
  | m => .fail (.noRulebase m.kind)

end Model

/-! ### Parts as models -/

namespace Part

/-- The model that a part stands for on its own; a bare outcome is a constant. -/
def model? : Part → Option Model
  | .bare v => some (.constant .empty v)
  | .model m => some m
  | .unspecified _ => none

end Part

end Rulebook
