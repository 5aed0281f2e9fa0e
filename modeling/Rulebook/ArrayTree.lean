import Rulebook.Model.Build

/-!
# Array trees

A fitted tree given by arrays: for each node its two children, the feature and the threshold it
splits at, the values of the classes, and how many samples reached it.  A node whose children are
equal is a leaf.  An index below zero counts from the end of its array.

* `ArrayTree.toModel`: the branches and constants of a node and those below it.
* `Estimator.tree`, `Estimator.forest`: the converted tree or forest, recorded.
-/

namespace Rulebook

/-- The member at an index; a negative index counts from the end. -/
def memberAt? {α : Type} (xs : List α) (index : Int) : Option α :=
  let position := if index < 0 then index + xs.length else index
  if position < 0 then none else xs[position.toNat]?

structure ArrayTree where
  left : List Int
  right : List Int
  feature : List Int
  threshold : List Binary64
  value : List (List Binary64)
  samples : List Int
  deriving Repr

/-- Why arrays cannot be converted. -/
inductive ConversionFault
  | severalOutputs
  | featureCount (expected found : Nat)
  /-- An index is outside of its array. -/
  | outside
  | unnamedFeature
  /-- A leaf has no values to choose from. -/
  | noValue
  /-- A node is below itself. -/
  | cyclic
  | emptyForest
  deriving DecidableEq, Repr

/-- The wording of a fault, for those that have one. -/
def ConversionFault.message : ConversionFault → String
  | .severalOutputs => "Only single-output estimators can be converted"
  | .featureCount expected found =>
    "Expected " ++ toString expected ++ " feature names, got " ++ toString found
  | .noValue => "attempt to get argmax of an empty sequence"
  | .cyclic => "maximum recursion depth exceeded"
  | .emptyForest => BuildFault.emptyForest.message
  | .outside | .unnamedFeature => ""

namespace ArrayTree

/-- A member that has to be there. -/
def fetch {α : Type} (xs : List α) (index : Int) : Except ConversionFault α :=
  match memberAt? xs index with
  | some a => .ok a
  | none => .error .outside

/-- The position of the first maximum after `best` at `position`; what is not a number counts as
the maximum. -/
def argmaxFrom (best : Binary64) (position next : Nat) : List Binary64 → Nat
  | [] => position
  | x :: xs =>
    if !best.isNaN && (x.isNaN || best.compare? x == some .lt) then
      argmaxFrom x next (next + 1) xs
    else argmaxFrom best position (next + 1) xs

/-- The position of the first maximum. -/
def argmax? : List Binary64 → Option Nat
  | [] => none
  | x :: xs => some (argmaxFrom x 0 1 xs)

/-- What a leaf answers: its first value, or the label at its greatest one. -/
def leafOutcome (labels : Option (List Value)) (values : List Binary64) :
    Except ConversionFault Value :=
  match labels with
  | none => (fetch values 0).map .real
  | some labels =>
    match argmax? values with
    | none => .error .noValue
    | some position => fetch labels position

/-- A leaf as a constant that notes how many samples reached it. -/
def leaf (t : ArrayTree) (labels : Option (List Value)) (node : Int) :
    Except ConversionFault Model := do
  let values ← fetch t.value node
  let samples ← fetch t.samples node
  let outcome ← leafOutcome labels values
  return .constant ⟨none, none, none, none, [("n_samples", .int samples)]⟩ outcome

/-- The condition that a node splits at. -/
def condition (t : ArrayTree) (names : List String) (node : Int) :
    Except ConversionFault Condition := do
  let feature ← fetch t.feature node
  let name ← fetch names feature
  if name = "" then throw .unnamedFeature
  let threshold ← fetch t.threshold node
  return ⟨name, .le, .numeric threshold⟩

/-- A node and those below it, down to `depth` levels. -/
def build (t : ArrayTree) (names : List String) (labels : Option (List Value)) :
    (depth : Nat) → (node : Int) → Except ConversionFault Model
  | 0, _ => .error .cyclic
  | depth + 1, node => do
    let left ← fetch t.left node
    let right ← fetch t.right node
    if left = right then t.leaf labels node
    else
      let c ← t.condition names node
      let positive ← build t names labels depth left
      let negative ← build t names labels depth right
      return .branch .empty (.atom c) positive negative

/-- The model of a tree from its first node on.  A way down that is longer than there are nodes
has met one of them twice. -/
def toModel (t : ArrayTree) (names : List String) (labels : Option (List Value)) :
    Except ConversionFault Model :=
  t.build names labels (t.left.length + 1) 0

end ArrayTree

/-- What is known of a fitted estimator beside its trees. -/
structure Estimator where
  features : Nat
  outputs : Nat
  fittedNames : Option (List Value)
  labels : Option (List Value)
  deriving Repr

namespace Estimator

/-- The names of the features: those given, those fitted, or numbered ones. -/
def names (e : Estimator) (given : Option (List String)) :
    Except ConversionFault (List String) :=
  if e.outputs ≠ 1 then .error .severalOutputs
  else match given, e.fittedNames with
  | some names, _ =>
    if names.length = e.features then .ok names
    else .error (.featureCount e.features names.length)
  | none, some fitted => .ok (fitted.map (·.toText))
  | none, none => .ok ((List.range e.features).map fun i => "feature_" ++ toString i)

/-- The model of a tree. -/
def tree (e : Estimator) (given : Option (List String)) (info : Info) (t : ArrayTree) :
    Traced ConversionFault Model := do
  let names ← Traced.ofExcept (e.names given)
  let root ← Traced.ofExcept (t.toModel names e.labels)
  let tree : Tree := ⟨info, root⟩
  Traced.record (.treeConverted tree.size tree.height)
  pure (.tree tree)

/-- The model of a forest. -/
def forest (e : Estimator) (given : Option (List String)) (info : Info)
    (trees : List ArrayTree) : Traced ConversionFault Model := do
  let names ← Traced.ofExcept (e.names given)
  let roots ← Traced.ofExcept (trees.mapM (·.toModel names e.labels))
  let trees : List Tree := roots.map (⟨.empty, ·⟩)
  if trees.isEmpty then .fail .emptyForest
  else
    Traced.record (.forestConverted trees.length (Forest.size trees))
    pure (.forest info trees)

end Estimator

end Rulebook
