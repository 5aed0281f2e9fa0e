import Rulebook.Model.Apply
import Rulebook.Dataset.Check

/-!
# Models — applied to a data set

`Model.applyAll` gives one answer for each row of a data set.  Every formula is checked on many
rows at once: a rule and a branch on all of them, the rules of a decision list each on the rows
that no earlier rule holds of.  The rows of each outcome are answered together and the answers
put back into the order of the rows.

* `Dataset.checkAt`, `Dataset.answer`: the check of a formula, and the answers of a model, on the
  rows at some positions.
* `Dataset.merge`: the answers where a formula holds and where it does not, in one list.
* `Model.prune`: the loop over the rules of a decision list.  It keeps a record of what it checks
  and answers, and where; the answers of the list are what is written by this record
  (`Pruning.answers`).
-/

namespace Rulebook

namespace Dataset

/-- The members of `as` beside a flag equal to `flag`. -/
def flagged {α : Type} (flag : Bool) : List α → List Bool → List α
  | a :: as, b :: bs => if b = flag then a :: flagged flag as bs else flagged flag as bs
  | _, _ => []

/-- The answers `positive` in the places of the true flags and `negative` in those of the false
ones; a place without an answer is missing. -/
def merge : List Bool → List Value → List Value → List Value
  | [], _, _ => []
  | true :: held, [], negative => .missing :: merge held [] negative
  | true :: held, v :: positive, negative => v :: merge held positive negative
  | false :: held, positive, [] => .missing :: merge held positive []
  | false :: held, positive, v :: negative => v :: merge held positive negative

@[simp]
theorem length_merge (held : List Bool) (positive negative : List Value) :
    (merge held positive negative).length = held.length := by
  fun_induction merge held positive negative <;> simp_all

/-- A check of the rows at some positions: the positions, and whether the formula holds at each. -/
structure Checked where
  positions : List Nat
  held : List Bool

/-- The positions at which the formula holds. -/
def Checked.matched (c : Checked) : List Nat := flagged true c.positions c.held

/-- The positions at which it does not hold. -/
def Checked.passed (c : Checked) : List Nat := flagged false c.positions c.held

/-- Checks a formula on the rows at some positions. -/
def checkAt (d : Dataset) (f : Formula) (positions : List Nat) : Except Fault Checked := do
  let held ← (d.slice positions).check f
  if held.length = positions.length then .ok ⟨positions, held⟩ else .error .lostRows

/-- The answers on the rows at some positions, of a model that is a constant or that is applied
to their slice. -/
def answer (d : Dataset) (constant : Option Value) (run : Dataset → Traced Fault (List Value))
    (positions : List Nat) : Traced Fault (List Value) :=
  if positions.isEmpty then pure []
  else match constant with
  | some v => pure (positions.map fun _ => v)
  | none => do
    let answers ← run (d.slice positions)
    if answers.length = positions.length then pure answers else .fail .lostRows

end Dataset

/-- The rows of a matrix of `count` rows that is given by its columns. -/
def transpose {α : Type} (count : Nat) : List (List α) → List (List α)
  | [] => List.replicate count []
  | column :: columns => List.zipWith List.cons column (transpose count columns)

/-- The turn of a rule: the check of its antecedent, and the answers of its consequent where the
antecedent holds. -/
structure Turn extends Dataset.Checked where
  values : List Value

/-- What a decision list does with a data set: the turns of its first rules, the positions that are
left to the default, and its answers there. -/
structure Pruning where
  turns : List Turn
  rest : List Nat
  values : List Value

namespace Pruning

/-- The answers written, in order, each with its position. -/
def writes (log : Pruning) : List (Nat × Value) :=
  log.turns.flatMap (fun t => t.matched.zip t.values) ++ log.rest.zip log.values

/-- As many places as there are rows, after the writes. -/
def answers (log : Pruning) (size : Nat) : List Value :=
  log.writes.foldl (fun vs w => vs.set w.1 w.2) (List.replicate size .missing)

/-- A record with one more turn before its own. -/
def after (log : Pruning) (t : Turn) : Pruning := { log with turns := t :: log.turns }

end Pruning

namespace Model

mutual

/-- The answers of a model to the rows of a data set; a forest votes as the settings say. -/
def applyAll (defaults : Defaults) : Model → Dataset → Traced Fault (List Value)
  | .constant _ v, d => pure (List.replicate d.size v)
  | .rule ⟨_, antecedent, consequent⟩, d => do
    let held ← Traced.ofExcept (d.check antecedent)
    let positive ← d.answer consequent.outcome? (fun s => consequent.applyAll defaults s)
      (Dataset.flagged true (List.range d.size) held)
    pure (Dataset.merge held positive [])
  | .branch _ antecedent positive negative, d => do
    let held ← Traced.ofExcept (d.check antecedent)
    let yes ← d.answer positive.outcome? (fun s => positive.applyAll defaults s)
      (Dataset.flagged true (List.range d.size) held)
    let no ← d.answer negative.outcome? (fun s => negative.applyAll defaults s)
      (Dataset.flagged false (List.range d.size) held)
    pure (Dataset.merge held yes no)
  | .decisionList _ rules default, d => do
    let log ← prune defaults d
      (fun rest => d.answer default.outcome? (fun s => default.applyAll defaults s) rest)
      rules (List.range d.size)
    pure (log.answers d.size)
  | .tree ⟨info, root⟩, d => do
    let answers ← root.applyAll defaults d
    Traced.ofExcept (answers.mapM info.finish)
  | .forest _ trees, d => do
    let quiet ← Traced.ofExcept (defaults.quiet none)
    let votes ← applyTreesAll defaults trees d
    (transpose d.size votes).mapM (bestGuess quiet)
  | .mixed _ root _, d => root.applyAll defaults d

/-- The loop over the rules of a decision list, at the positions that no earlier rule has covered.
Each rule in turn is checked there, its consequent answers where the antecedent holds, and the rest
is left to the rules after it and then to what comes last. -/
def prune (defaults : Defaults) (d : Dataset) (last : List Nat → Traced Fault (List Value)) :
    List Rule → List Nat → Traced Fault Pruning
  | [], uncovered => do
    let values ← last uncovered
    pure ⟨[], uncovered, values⟩
  | ⟨_, antecedent, consequent⟩ :: rules, uncovered =>
    if uncovered.isEmpty then pure ⟨[], [], []⟩
    else do
      let checked ← Traced.ofExcept (d.checkAt antecedent uncovered)
      let values ← d.answer consequent.outcome? (fun s => consequent.applyAll defaults s)
        checked.matched
      let log ← prune defaults d last rules checked.passed
      pure (log.after ⟨checked, values⟩)

/-- The answers of each tree to the rows of a data set. -/
def applyTreesAll (defaults : Defaults) :
    List Tree → Dataset → Traced Fault (List (List Value))
  | [], _ => pure []
  | ⟨info, root⟩ :: trees, d => do
    let answers ← root.applyAll defaults d
    let answers ← Traced.ofExcept (answers.mapM info.finish)
    let others ← applyTreesAll defaults trees d
    pure (answers :: others)

end

/-- The answers to the antecedent of a rule on each row of a data set. -/
def checkAntecedentAll (d : Dataset) : Model → Except Fault (List Value)
  | .rule r => d.answers r.antecedent
  | m => .error (.noAntecedent m.kind.name)

/-- The answers of a forest that may be asked to be quiet about ties. -/
def applyAllQuiet (defaults : Defaults) (asked : Option Bool) (d : Dataset) :
    Model → Traced Fault (List Value)
  | .forest _ trees => do
    let quiet ← Traced.ofExcept (defaults.quiet asked)
    let votes ← applyTreesAll defaults trees d
    (transpose d.size votes).mapM (bestGuess quiet)
  | _ => .fail .noVoteToQuiet

end Model

end Rulebook
