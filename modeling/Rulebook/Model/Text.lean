import Rulebook.Model.Basic
import Rulebook.Text.Blank

/-!
# Models — drawn as text

A constant is its outcome; a rule stands on one line with its consequent; a branch, a decision
list and a forest draw their parts below their first line, each indented behind its own mark.
-/

namespace Rulebook.Model

/-- The lines of a text behind a mark: `head` before the first of them, `tail` before the
others.  An empty text has one line. -/
def indent (head tail : String) (text : String) : List String :=
  match Text.lines text with
  | [] => [head]
  | line :: lines => (head ++ line) :: lines.map (tail ++ ·)

mutual

/-- A model, drawn. -/
protected def toText : Model → String
  | .constant _ v => v.toText
  | .rule ⟨_, antecedent, consequent⟩ => antecedent.toText ++ " ⟶ " ++ consequent.toText
  | .branch _ antecedent positive negative =>
    String.intercalate "\n" (("┐" ++ antecedent.toText) ::
      indent "├✔ " "│  " positive.toText ++ indent "└✘ " "   " negative.toText)
  | .decisionList _ rules default =>
    String.intercalate "\n" ("▣" :: ruleLines 1 rules.length rules
      ++ indent "└✘ " "   " default.toText)
  | .tree ⟨_, root⟩ => root.toText
  | .forest _ trees => String.intercalate "\n" (treeLines 1 trees.length trees)
  | .mixed _ root _ => root.toText

/-- The rules of a decision list of `count` rules, from the one at `position` on. -/
def ruleLines (position count : Nat) : List Rule → List String
  | [] => []
  | ⟨_, antecedent, consequent⟩ :: rules =>
    ("├[" ++ toString position ++ "/" ++ toString count ++ "]┐" ++ antecedent.toText) ::
      indent "│└ " "│  " consequent.toText ++ ruleLines (position + 1) count rules

/-- The trees of a forest of `count` trees, from the one at `position` on. -/
def treeLines (position count : Nat) : List Tree → List String
  | [] => []
  | ⟨_, root⟩ :: trees =>
    ("Tree " ++ toString position ++ "/" ++ toString count) ::
      indent "  " "  " root.toText ++ treeLines (position + 1) count trees

end

end Rulebook.Model
