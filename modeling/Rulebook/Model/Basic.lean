import Rulebook.Model.Kind
import Rulebook.Fault

/-!
# Models

A model answers a row with a value.  A constant always gives the same one; a rule answers only
where its antecedent holds; a branch chooses between two models; a decision list follows its
first rule that holds, or else its default; a tree passes the answers of its root on, changed if
it carries a postprocess; a forest lets its trees vote; a mixed model stands for its root and
records which kinds may occur below it.

* `Model.children`, `Model.submodels`: what is nested in a model, the second in pre-order.
* `Model.leaves`: the constants among a model and its submodels.
* `Model.height`: the longest way from a model down to one without children.
* `Model.isOpen`: whether the model admits to leaving rows without an answer.
-/

namespace Rulebook

/-- What is noted down about a model.  The postprocess is applied by a tree to its answers. -/
structure Info where
  supportingLabels : Option (List Int)
  uncoveredDistribution : Option (List Int)
  evaluation : Option Binary64
  postprocess : Option (Value → Except Fault Value)
  auxiliary : List (String × Value)

namespace Info

/-- Nothing noted. -/
def empty : Info := ⟨none, none, none, none, []⟩

end Info

/-- Changes an answer by putting a text before it, if the answer can be written. -/
def Postprocess.prepend (text : String) (v : Value) : Except Fault Value :=
  if v.isWritable then .ok (.text (text ++ v.toText)) else .error .oversized

/-- Changes an answer to its negative; a truth value counts as zero or one. -/
def Postprocess.negate : Value → Except Fault Value
  | .bool b => .ok (.int (if b then -1 else 0))
  | .int n => .ok (.int (-n))
  | .real x => .ok (.real x.neg)
  | v => .error (.noNegative v.kindName)

/-- An antecedent and what follows from it. -/
structure RuleOf (α : Type) where
  info : Info
  antecedent : Formula
  consequent : α

/-- A tree by its root. -/
structure TreeOf (α : Type) where
  info : Info
  root : α

inductive Model
  | constant (info : Info) (outcome : Value)
  | rule (r : RuleOf Model)
  | branch (info : Info) (antecedent : Formula) (positive negative : Model)
  | decisionList (info : Info) (rules : List (RuleOf Model)) (default : Model)
  | tree (t : TreeOf Model)
  | forest (info : Info) (trees : List (TreeOf Model))
  | mixed (info : Info) (root : Model) (feasible : List KindPattern)

abbrev Rule := RuleOf Model
abbrev Tree := TreeOf Model

namespace Model

instance : Inhabited Model := ⟨.constant .empty .missing⟩

def kind : Model → Kind
  | .constant .. => .constant
  | .rule .. => .rule
  | .branch .. => .branch
  | .decisionList .. => .decisionList
  | .tree .. => .tree
  | .forest .. => .forest
  | .mixed .. => .mixed

def info : Model → Info
  | .constant info _ => info
  | .rule r => r.info
  | .branch info .. => info
  | .decisionList info .. => info
  | .tree t => t.info
  | .forest info _ => info
  | .mixed info .. => info

/-- The models directly nested in a model, in the order of evaluation. -/
def children : Model → List Model
  | .constant .. => []
  | .rule r => [r.consequent]
  | .branch _ _ positive negative => [positive, negative]
  | .decisionList _ rules default => rules.map .rule ++ [default]
  | .tree t => [t.root]
  | .forest _ trees => trees.map .tree
  | .mixed _ root _ => [root]

mutual

/-- Every model nested in a model, in pre-order. -/
def submodels : Model → List Model
  | .constant .. => []
  | .rule ⟨_, _, consequent⟩ => consequent :: consequent.submodels
  | .branch _ _ positive negative =>
    positive :: positive.submodels ++ negative :: negative.submodels
  | .decisionList _ rules default => ruleSubmodels rules ++ default :: default.submodels
  | .tree ⟨_, root⟩ => root :: root.submodels
  | .forest _ trees => treeSubmodels trees
  | .mixed _ root _ => root :: root.submodels

/-- Rules and every model nested in them, in pre-order. -/
def ruleSubmodels : List Rule → List Model
  | [] => []
  | ⟨info, antecedent, consequent⟩ :: rules =>
    .rule ⟨info, antecedent, consequent⟩ :: consequent :: consequent.submodels
      ++ ruleSubmodels rules

/-- Trees and every model nested in them, in pre-order. -/
def treeSubmodels : List Tree → List Model
  | [] => []
  | ⟨info, root⟩ :: trees =>
    .tree ⟨info, root⟩ :: root :: root.submodels ++ treeSubmodels trees

end

/-- A model and everything nested in it, in pre-order. -/
def reachable (m : Model) : List Model := m :: m.submodels

theorem ruleSubmodels_eq_flatMap (rules : List Rule) :
    ruleSubmodels rules = rules.flatMap fun r => reachable (.rule r) := by
  induction rules with
  | nil => simp [ruleSubmodels]
  | cons r rules ih =>
    obtain ⟨info, antecedent, consequent⟩ := r
    simp [ruleSubmodels, reachable, submodels, ih]

theorem treeSubmodels_eq_flatMap (trees : List Tree) :
    treeSubmodels trees = trees.flatMap fun t => reachable (.tree t) := by
  induction trees with
  | nil => simp [treeSubmodels]
  | cons t trees ih =>
    obtain ⟨info, root⟩ := t
    simp [treeSubmodels, reachable, submodels, ih]

/-- The submodels are the children, each followed by its own submodels. -/
theorem submodels_eq_flatMap (m : Model) : m.submodels = m.children.flatMap reachable := by
  cases m with
  | decisionList info rules default =>
    simp [submodels, children, ruleSubmodels_eq_flatMap, List.flatMap_map, reachable]
  | forest info trees =>
    simp [submodels, children, treeSubmodels_eq_flatMap, List.flatMap_map]
  | _ => simp [submodels, children, reachable]

/-- The outcome of a constant. -/
def outcome? : Model → Option Value
  | .constant _ v => some v
  | _ => none

/-- The constants among a model and its submodels, in pre-order. -/
def leaves (m : Model) : List Model := m.reachable.filter (·.kind = .constant)

mutual

/-- The length of the longest way down. -/
def height : Model → Nat
  | .constant .. => 0
  | .rule ⟨_, _, consequent⟩ => consequent.height + 1
  | .branch _ _ positive negative => max positive.height negative.height + 1
  | .decisionList _ rules default => max (ruleHeight rules) default.height + 1
  | .tree ⟨_, root⟩ => root.height + 1
  | .forest _ [] => 0
  | .forest _ (⟨_, root⟩ :: trees) => max (root.height + 1) (treeHeight trees) + 1
  | .mixed _ root _ => root.height + 1

/-- The height of the highest of some rules. -/
def ruleHeight : List Rule → Nat
  | [] => 0
  | ⟨_, _, consequent⟩ :: rules => max (consequent.height + 1) (ruleHeight rules)

/-- The height of the highest of some trees. -/
def treeHeight : List Tree → Nat
  | [] => 0
  | ⟨_, root⟩ :: trees => max (root.height + 1) (treeHeight trees)

end

/-- Whether the model admits to leaving rows without an answer: a rule does, and what passes the
answers of an open model on does. -/
def isOpen : Model → Bool
  | .rule _ => true
  | .branch _ _ positive negative => positive.isOpen || negative.isOpen
  | .decisionList _ _ default => default.isOpen
  | .mixed _ root _ => root.isOpen
  | _ => false

/-- Every antecedent in a model and its submodels, in pre-order. -/
def antecedents (m : Model) : List Formula :=
  m.reachable.filterMap fun
    | .rule r => some r.antecedent
    | .branch _ f _ _ => some f
    | _ => none

end Model

/-! ### Measures of trees -/

namespace TreeOf

/-- The number of nodes of a tree. -/
def size (t : Tree) : Nat := 1 + t.root.submodels.length

/-- The number of leaves of a tree. -/
def leafCount (t : Tree) : Nat := t.root.leaves.length

/-- The height of a tree. -/
def height (t : Tree) : Nat := t.root.height

end TreeOf

namespace Forest

/-- The number of nodes of all trees. -/
def size (trees : List Tree) : Nat := trees.foldr (fun t n => t.size + n) 0

/-- The number of leaves of all trees. -/
def leafCount (trees : List Tree) : Nat := trees.foldr (fun t n => t.leafCount + n) 0

/-- The height of the highest tree. -/
def height (trees : List Tree) : Nat := trees.foldr (fun t n => max t.height n) 0

end Forest

end Rulebook
