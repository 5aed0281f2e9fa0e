import Rulebook.Formula.Row
import Rulebook.Model.Basic
import Rulebook.Vote

/-!
# Models — applied to one row

`Model.apply` gives the answer of a model to a row.  The antecedents are checked one after the
other, and no more of them than the answer needs; the trees of a forest all vote, in order.
-/

namespace Rulebook

/-- The settings that stand in for what a caller leaves open, or why they cannot be read. -/
abbrev Defaults := Except (List Settings.Fault) Settings

/-- Whether ties pass without a warning: as the caller asks, or else as the settings say. -/
def Defaults.quiet (defaults : Defaults) (asked : Option Bool) : Except Fault Bool :=
  match asked, defaults with
  | some quiet, _ => .ok quiet
  | none, .ok settings => .ok settings.suppressParityWarning
  | none, .error faults => .error (.settings faults)

/-- An answer, changed by the postprocess of a tree. -/
def Info.finish (info : Info) (v : Value) : Except Fault Value :=
  match info.postprocess with
  | none => .ok v
  | some change => change v

namespace Model

mutual

/-- The answer of a model to a row; a forest votes as the settings say. -/
def apply (defaults : Defaults) (row : Row) : Model → Traced Fault Value
  | .constant _ v => pure v
  | .rule ⟨_, antecedent, consequent⟩ => do
    if ← Traced.ofExcept (antecedent.check row) then consequent.apply defaults row
    else pure .missing
  | .branch _ antecedent positive negative => do
    if ← Traced.ofExcept (antecedent.check row) then positive.apply defaults row
    else negative.apply defaults row
  | .decisionList _ rules default => do
    match ← applyRules defaults row rules with
    | some v => pure v
    | none => default.apply defaults row
  | .tree ⟨info, root⟩ => do
    let v ← root.apply defaults row
    Traced.ofExcept (info.finish v)
  | .forest _ trees => do
    let quiet ← Traced.ofExcept (defaults.quiet none)
    let votes ← applyTrees defaults row trees
    bestGuess quiet votes
  | .mixed _ root _ => root.apply defaults row

/-- The answer of the first rule that holds of a row, if there is one. -/
def applyRules (defaults : Defaults) (row : Row) : List Rule → Traced Fault (Option Value)
  | [] => pure none
  | ⟨_, antecedent, consequent⟩ :: rules => do
    if ← Traced.ofExcept (antecedent.check row) then
      let v ← consequent.apply defaults row
      pure (some v)
    else applyRules defaults row rules

/-- The answer of each tree. -/
def applyTrees (defaults : Defaults) (row : Row) : List Tree → Traced Fault (List Value)
  | [] => pure []
  | ⟨info, root⟩ :: trees => do
    let v ← root.apply defaults row
    let v ← Traced.ofExcept (info.finish v)
    let vs ← applyTrees defaults row trees
    pure (v :: vs)

end

/-- Whether the antecedent of a rule holds of a row. -/
def checkAntecedent (row : Row) : Model → Except Fault Bool
  | .rule r => r.antecedent.check row
  | m => .error (.noAntecedent m.kind.name)

/-- The answer of a forest that may be asked to be quiet about a tie. -/
def applyQuiet (defaults : Defaults) (asked : Option Bool) (row : Row) :
    Model → Traced Fault Value
  | .forest _ trees => do
    let quiet ← Traced.ofExcept (defaults.quiet asked)
    let votes ← applyTrees defaults row trees
    bestGuess quiet votes
  | _ => .fail .noVoteToQuiet

end Model

end Rulebook
