import Rulebook.Formula

/-!
# Formulas — from their parts

A condition needs a variable with a name and one of the six comparisons, a conjunction at least
one condition; the first part that is wrong is reported.
-/

namespace Rulebook

/-- What is wrong with the parts of a formula. -/
inductive FormulaFault
  | unnamedVariable
  | unknownComparison
  | emptyConjunction
  deriving DecidableEq, Repr

/-- A condition from a name, the symbol of a comparison and a threshold. -/
def Condition.build (name symbol : String) (threshold : Threshold) :
    Except FormulaFault Condition :=
  if name = "" then .error .unnamedVariable
  else match Comparison.ofSymbol? symbol with
  | none => .error .unknownComparison
  | some op => .ok ⟨name, op, threshold⟩

/-- The conjunction of conditions. -/
def Formula.conjoin : List Condition → Except FormulaFault Formula
  | [] => .error .emptyConjunction
  | conditions => .ok (.conjunction conditions)

end Rulebook
