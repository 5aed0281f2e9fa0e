/-!
# Models — kinds

The seven kinds of model, and the name that stands for all of them.
-/

namespace Rulebook

inductive Kind
  | constant | rule | branch | decisionList | tree | forest | mixed
  deriving DecidableEq, Repr

namespace Kind

/-- The kinds, in the order in which they are introduced. -/
def all : List Kind := [.constant, .rule, .branch, .decisionList, .tree, .forest, .mixed]

def name : Kind → String
  | .constant => "ConstantModel"
  | .rule => "Rule"
  | .branch => "Branch"
  | .decisionList => "DecisionList"
  | .tree => "DecisionTree"
  | .forest => "DecisionForest"
  | .mixed => "MixedModel"

end Kind

/-- What a constraint may admit: the models of one kind, or every model. -/
inductive KindPattern
  | any
  | only (kind : Kind)
  deriving DecidableEq, Repr

namespace KindPattern

def name : KindPattern → String
  | .any => "SymbolicModel"
  | .only kind => kind.name

def ofName? (s : String) : Option KindPattern :=
  (.any :: Kind.all.map .only).find? (·.name == s)

/-- Whether a model of the given kind is admitted. -/
def admits : KindPattern → Kind → Bool
  | .any, _ => true
  | .only k, kind => k == kind

end KindPattern

end Rulebook
