import Rulebook.Model.Basic

/-!
# Models — equality

Two models are equal when they are of one kind and their parts are: outcomes and notes as labels,
thresholds as numbers, and the order of rules, trees and conditions counts.  A postprocess is
equal to none.
-/

namespace Rulebook

/-- Whether two thresholds are equal: numbers by their places, tokens by their characters. -/
def Threshold.same : Threshold → Threshold → Bool
  | .numeric x, .numeric y => (Value.real x).samePlace (.real y)
  | .symbolic s, .symbolic t => s == t
  | _, _ => false

def Condition.same (c d : Condition) : Bool :=
  c.name == d.name && c.op == d.op && c.threshold.same d.threshold

/-- Whether two lists have members that are related one by one. -/
def pairwise {α : Type} (same : α → α → Bool) : List α → List α → Bool
  | [], [] => true
  | a :: as, b :: bs => same a b && pairwise same as bs
  | _, _ => false

def Formula.same : Formula → Formula → Bool
  | .atom c, .atom d => c.same d
  | .conjunction cs, .conjunction ds => pairwise Condition.same cs ds
  | .top, .top => true
  | _, _ => false

/-- Whether two optional notes are equal. -/
def Info.sameNote {α : Type} (same : α → α → Bool) : Option α → Option α → Bool
  | none, none => true
  | some a, some b => same a b
  | _, _ => false

/-- Whether two infos note the same; the order of the auxiliary notes does not count. -/
def Info.same (i j : Info) : Bool :=
  sameNote (· == ·) i.supportingLabels j.supportingLabels
    && sameNote (· == ·) i.uncoveredDistribution j.uncoveredDistribution
    && sameNote (fun x y => (Value.real x).samePlace (.real y)) i.evaluation j.evaluation
    && i.postprocess.isNone && j.postprocess.isNone
    && i.auxiliary.length == j.auxiliary.length
    && i.auxiliary.all fun (key, v) => (j.auxiliary.lookup key).any v.same

namespace Model

mutual

/-- Whether two models are equal. -/
def same : Model → Model → Bool
  | .constant i v, .constant j w => i.same j && v.same w
  | .rule ⟨i, f, m⟩, .rule ⟨j, g, n⟩ => i.same j && f.same g && m.same n
  | .branch i f m m', .branch j g n n' => i.same j && f.same g && m.same n && m'.same n'
  | .decisionList i rs m, .decisionList j ss n => i.same j && sameRules rs ss && m.same n
  | .tree ⟨i, m⟩, .tree ⟨j, n⟩ => i.same j && m.same n
  | .forest i ts, .forest j us => i.same j && sameTrees ts us
  | .mixed i m ks, .mixed j n ls => i.same j && m.same n && ks == ls
  | _, _ => false

/-- Whether two lists of rules are equal. -/
def sameRules : List Rule → List Rule → Bool
  | [], [] => true
  | ⟨i, f, m⟩ :: rs, ⟨j, g, n⟩ :: ss =>
    i.same j && f.same g && m.same n && sameRules rs ss
  | _, _ => false

/-- Whether two lists of trees are equal. -/
def sameTrees : List Tree → List Tree → Bool
  | [], [] => true
  | ⟨i, m⟩ :: ts, ⟨j, n⟩ :: us => i.same j && m.same n && sameTrees ts us
  | _, _ => false

end

end Model

end Rulebook
