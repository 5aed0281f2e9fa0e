import Rulebook.Proofs.Stepwise
import Rulebook.Proofs.Trailing

/-!
# Listings — the default line ignored

A listing that is read without its default has the consequent of the last rule in place of the
default.  So it is the list that is read with the default, with the last rule folded
(`Request.read_ignoring`): what goes wrong in one reading goes wrong in the other, and only a
default line without a rule before it can be read but not ignored.

Folding changes what a list answers where no rule holds, and nowhere else (`Model.Folds`).
-/

namespace Rulebook

/-! ### Lists with the last rule folded -/

namespace Model

variable {defaults : Defaults} {info : Info} {default : Model} {rules kept : List Rule}
  {last : Rule} {row : Row}

/-- The antecedents of some rules are checked without a fault. -/
def Checked (row : Row) (rules : List Rule) : Prop :=
  ∀ r ∈ rules, ∃ b, r.antecedent.check row = .ok b

/-- One of some rules holds. -/
def Fires (row : Row) (rules : List Rule) : Prop := ∃ r ∈ rules, r.antecedent.check row = .ok true

/-- A list and the same list with its last rule folded: the other rules are kept, and so are the
answers where a rule holds; where none does, the last rule answers. -/
inductive Folds : Model → Model → Prop
  | intro {info note : Info} {kept : List Rule} {last : Rule} {default : Model} {v : Value}
      (hlast : last.consequent = .constant note v)
      (hfolded : (foldLastRule (.decisionList info (kept ++ [last]) default)).outcome =
        .ok (.decisionList info kept last.consequent))
      (hfires : ∀ defaults row, Checked row (kept ++ [last]) → Fires row (kept ++ [last]) →
        (apply defaults row (.decisionList info kept last.consequent)).outcome =
          (apply defaults row (.decisionList info (kept ++ [last]) default)).outcome)
      (hfalls : ∀ defaults row, Checked row (kept ++ [last]) → ¬ Fires row (kept ++ [last]) →
        (apply defaults row (.decisionList info kept last.consequent)).outcome = .ok v) :
      Folds (.decisionList info (kept ++ [last]) default) (.decisionList info kept last.consequent)

/-- Where a rule holds, it does not matter whether the last rule is a rule or the default. -/
theorem apply_folded_of_fires (hchecked : Checked row (kept ++ [last]))
    (hfires : Fires row (kept ++ [last])) :
    (apply defaults row (.decisionList info kept last.consequent)).outcome =
      (apply defaults row (.decisionList info (kept ++ [last]) default)).outcome := by
  induction kept with
  | nil =>
      obtain ⟨r, hr, hholds⟩ := hfires
      cases List.mem_singleton.mp hr
      rw [List.nil_append, apply_decisionList_nil, apply_decisionList_cons hholds, cond_true]
  | cons r kept ih =>
      obtain ⟨⟨b, hb⟩, hchecked⟩ := List.forall_mem_cons.mp hchecked
      rw [List.cons_append, apply_decisionList_cons hb, apply_decisionList_cons hb]
      cases b with
      | true => rfl
      | false =>
          -- the rule that holds is another one
          obtain ⟨s, hs, hholds⟩ := hfires
          rcases List.mem_cons.mp hs with rfl | hs
          · cases hb.symm.trans hholds
          · exact ih hchecked ⟨s, hs, hholds⟩

/-- Where no rule holds, the default answers. -/
theorem apply_decisionList_of_not_fires (hchecked : Checked row rules)
    (hfires : ¬ Fires row rules) :
    (apply defaults row (.decisionList info rules default)).outcome =
      (default.apply defaults row).outcome := by
  induction rules with
  | nil => exact apply_decisionList_nil
  | cons r rules ih =>
      obtain ⟨⟨b, hb⟩, hchecked⟩ := List.forall_mem_cons.mp hchecked
      cases b with
      | true => exact absurd ⟨r, List.mem_cons_self, hb⟩ hfires
      | false =>
          rw [apply_decisionList_cons hb, cond_false]
          exact ih hchecked fun ⟨s, hs, hholds⟩ => hfires ⟨s, List.mem_cons_of_mem r hs, hholds⟩

/-- **Folding keeps the answers of the rules.** -/
theorem folds_concat {note : Info} {v : Value} (hlast : last.consequent = .constant note v) :
    Folds (.decisionList info (kept ++ [last]) default)
      (.decisionList info kept last.consequent) := by
  refine .intro hlast ?_ (fun _ _ => apply_folded_of_fires) fun defaults row hchecked hfires => ?_
  · simp only [foldLastRule, List.getLast?_concat, List.dropLast_concat, hlast]
    rfl
  · have hkept : ¬ Fires row kept := by
      rintro ⟨r, hr, hholds⟩
      exact hfires ⟨r, List.mem_append_left _ hr, hholds⟩
    rw [apply_decisionList_of_not_fires (fun r hr => hchecked r (List.mem_append_left _ hr)) hkept,
      hlast]
    rfl

end Model

namespace Listing

variable {o : Options} {totals : List Int} {text : List Char}

/-! ### Lines -/

/-- The same options for a reading with the default. -/
def Options.keeping (o : Options) : Options := { o with ignoreDefault := false }

/-- The same options for a reading without the default. -/
def Options.ignoring (o : Options) : Options := { o with ignoreDefault := true }

/-- Behind a rule the default line is read alike. -/
theorem readRules_ignoring_of_preceded (lines : List NumberedLine) :
    (readRules o.ignoring totals true lines).outcome =
      (readRules o.keeping totals true lines).outcome := by
  fun_induction ruleLines lines generalizing totals with
  | case1 => rfl
  | case2 line lines e hread => rw [readRules_of_error hread, readRules_of_error hread]
  | case3 line lines content hread halways =>
      rw [readRules_of_always hread halways, readRules_of_always hread halways]
      rfl
  | case4 line lines content hread clauses hclauses ih =>
      by_cases hwidth : content.distribution.length = totals.length
      · rw [readRules_of_clauses hread hclauses hwidth, readRules_of_clauses hread hclauses hwidth,
          ih]
        rfl
      · rw [readRules_of_width hread hclauses hwidth, readRules_of_width hread hclauses hwidth]

/-- A line that is the default line of a listing without rules. -/
structure DefaultAlone (lines : List NumberedLine) (line : NumberedLine) : Prop where
  first : lines.head? = some line
  always : ∃ content, Line.Written line.text content ∧ content.antecedent = .always

/-- The two readings of some lines differ where the first of them is the default line, and nowhere
else. -/
theorem readRules_ignoring (lines : List NumberedLine) :
    (∃ line default, DefaultAlone lines line ∧
      (readRules o.keeping totals false lines).outcome = .ok ([], default) ∧
      (readRules o.ignoring totals false lines).outcome = .error (.defaultAlone line)) ∨
    (readRules o.ignoring totals false lines).outcome =
        (readRules o.keeping totals false lines).outcome ∧
      ∀ x, (readRules o.keeping totals false lines).outcome = .ok x → x.1 ≠ [] := by
  fun_cases ruleLines lines with
  | case1 => exact .inr ⟨rfl, fun _ h => nomatch h⟩
  | case2 line lines e hread =>
      rw [readRules_of_error hread, readRules_of_error hread]
      exact .inr ⟨rfl, fun _ h => nomatch h⟩
  | case3 line lines content hread halways =>
      rw [readRules_of_always hread halways, readRules_of_always hread halways]
      exact .inl ⟨line, _, ⟨rfl, content, Line.written_of_read hread, halways⟩, rfl, rfl⟩
  | case4 line lines content hread clauses hclauses =>
      by_cases hwidth : content.distribution.length = totals.length
      · rw [readRules_of_clauses hread hclauses hwidth, readRules_of_clauses hread hclauses hwidth,
          readRules_ignoring_of_preceded]
        refine .inr ⟨rfl, fun x hx => ?_⟩
        split at hx
        · cases hx
        · obtain ⟨y, -, rfl⟩ := Except.map_eq_ok_iff.mp hx
          exact List.cons_ne_nil _ _
      · rw [readRules_of_width hread hclauses hwidth, readRules_of_width hread hclauses hwidth]
        exact .inr ⟨rfl, fun _ h => nomatch h⟩

/-! ### A text -/

/-- A list of rules is read without its default as it is read with it, but for the last rule. -/
theorem folds_listOf {rules : List Rule} {default : Model} (hsome : rules ≠ [])
    (hconstants : ∀ r ∈ rules, ∃ note v, r.consequent = .constant note v) :
    Model.Folds (listOf o.keeping (rules, default)) (listOf o.ignoring (rules, default)) := by
  obtain ⟨kept, last, rfl⟩ : ∃ kept last, rules = kept ++ [last] :=
    ⟨_, _, (List.dropLast_append_getLast hsome).symm⟩
  obtain ⟨note, v, hlast⟩ := hconstants last (by simp)
  have hassemble : assemble o.ignoring (kept ++ [last]) default = (kept, last.consequent) := by
    simp [assemble, Options.ignoring]
  rw [listOf, listOf, hassemble]
  exact Model.folds_concat hlast

/-- The two readings of a text end with the same error, or there is no rule to fold, or the last one
is folded. -/
theorem read_keeping_ignoring (o : Options) (text : List Char) :
    (∃ e, (read o.keeping text).outcome = .error e ∧ (read o.ignoring text).outcome = .error e) ∨
    (∃ line default, DefaultAlone (numberedLines text) line ∧
      (read o.keeping text).outcome = .ok (.decisionList .empty [] default) ∧
      (read o.ignoring text).outcome = .error (.defaultAlone line)) ∨
    ∃ rules default folded, rules ≠ [] ∧
      (read o.keeping text).outcome = .ok (.decisionList .empty rules default) ∧
      (read o.ignoring text).outcome = .ok folded ∧
      Model.Folds (.decisionList .empty rules default) folded := by
  cases htotals : totals? text with
  | none =>
      obtain ⟨e, he, -⟩ := read_of_totals?_eq_none htotals
      exact .inl ⟨e, he _, he _⟩
  | some totals =>
      rw [read_of_totals?_eq_some htotals, read_of_totals?_eq_some htotals]
      rcases @readRules_ignoring o totals (numberedLines text) with
        ⟨line, default, halone, hkeeping, hignoring⟩ | ⟨hsame, hsome⟩
      · rw [hkeeping, hignoring]
        exact .inr (.inl ⟨line, default, halone, rfl, rfl⟩)
      · rw [hsame]
        cases hread : (readRules o.keeping totals false (numberedLines text)).outcome with
        | error e => exact .inl ⟨e, rfl, rfl⟩
        | ok x =>
            obtain ⟨rules, default⟩ := x
            obtain ⟨-, hconstants⟩ := Stepwise.fit_of_readRules hread
            have hrules := hsome _ hread
            exact .inr (.inr ⟨rules, default, _, hrules, rfl, rfl, folds_listOf hrules hconstants⟩)

/-- The same request for a list with its default. -/
def Request.keeping (r : Request) : Request := { r with ignoreDefault := false }

/-- The same request for a list without its default. -/
def Request.ignoring (r : Request) : Request := { r with ignoreDefault := true }

theorem Request.options_keeping (r : Request) (defaults : Except (List Settings.Fault) Settings) :
    r.keeping.options defaults = (r.options defaults).map Options.keeping := by
  unfold options keeping
  cases r.strict with
  | some strict => rfl
  | none => cases defaults <;> rfl

theorem Request.options_ignoring (r : Request) (defaults : Except (List Settings.Fault) Settings) :
    r.ignoring.options defaults = (r.options defaults).map Options.ignoring := by
  unfold options ignoring
  cases r.strict with
  | some strict => rfl
  | none => cases defaults <;> rfl

/-- **To ignore the default line is to fold the last rule.**  A request for a list without its
default is refused where the request for the list with it is, and with the same error.  Where that
gives a list without rules, the default line is refused; and where it gives a list with rules, the
last of them is folded. -/
theorem Request.read_ignoring (r : Request) (defaults : Except (List Settings.Fault) Settings)
    (text : List Char) :
    (∀ e, (r.keeping.read defaults text).outcome = .error e →
      (r.ignoring.read defaults text).outcome = .error e) ∧
    ∀ m, (r.keeping.read defaults text).outcome = .ok m →
      ∃ rules default, m = .decisionList .empty rules default ∧
        (rules = [] → ∃ line, DefaultAlone (numberedLines text) line ∧
          (r.ignoring.read defaults text).outcome = .error (.refused (.defaultAlone line))) ∧
        (rules ≠ [] → ∃ folded, Model.Folds m folded ∧
          (r.ignoring.read defaults text).outcome = .ok folded) := by
  have hkeeping := r.options_keeping defaults
  have hignoring := r.options_ignoring defaults
  cases ho : r.options defaults with
  | error faults =>
      -- without options no text is read, whatever the request is for
      rw [ho] at hkeeping hignoring
      rw [read, read, hkeeping, hignoring]
      exact ⟨fun _ => id, by rintro _ ⟨⟩⟩
  | ok o =>
      rw [ho] at hkeeping hignoring
      rw [outcome_read hkeeping, outcome_read hignoring]
      rcases read_keeping_ignoring o text with ⟨e, hkept, hignored⟩ |
        ⟨line, default, halone, hkept, hignored⟩ |
        ⟨rules, default, folded, hsome, hkept, hignored, hfolds⟩
      · rw [hkept, hignored]
        exact ⟨fun _ => id, by rintro _ ⟨⟩⟩
      · rw [hkept, hignored]
        refine ⟨by rintro _ ⟨⟩, ?_⟩
        rintro _ ⟨⟩
        exact ⟨[], default, rfl, fun _ => ⟨line, halone, rfl⟩, fun hsome => absurd rfl hsome⟩
      · rw [hkept, hignored]
        refine ⟨by rintro _ ⟨⟩, ?_⟩
        rintro _ ⟨⟩
        exact ⟨rules, default, rfl, fun hnone => absurd hnone hsome, fun _ => ⟨folded, hfolds, rfl⟩⟩

/-- A rule and a default line. -/
def ruleAndDefaultText : List Char :=
  "[2,0] IF x>=1.0 THEN y=A -0.0\n[2,3] IF TRUE THEN y=B -1.0".toList

/-- The answers of a model where `x` is one and where it is zero. -/
def answerTexts (m : Model) : List (Option String) :=
  [1, 0].map fun x =>
    ((m.apply (.ok .default) [("x", .int x)]).outcome.map (·.toText)).toOption

/-- With its last rule folded, a list of one rule answers alike where the rule holds, and as the
rule where the default answered. -/
theorem Request.read_ignoring_ruleAndDefaultText :
    (∃ m folded,
      (Request.read ⟨false, some true, id⟩ (.ok .default) ruleAndDefaultText).outcome = .ok m ∧
      (Request.read ⟨true, some true, id⟩ (.ok .default) ruleAndDefaultText).outcome = .ok folded ∧
      Model.Folds m folded ∧ answerTexts m = [some "A", some "B"] ∧
      answerTexts folded = [some "A", some "A"]) ∧
    (Request.read ⟨true, some true, id⟩ (.ok .default) defaultText).outcome =
      .error (.refused (.defaultAlone ⟨1, defaultText⟩)) ∧
    (Request.read ⟨true, some true, id⟩ (.ok .default) openText).outcome =
      .error (.refused .noDefault) := by
  refine ⟨?_, ?_, ?_⟩
  · obtain ⟨m, hm, hanswers⟩ := Except.map_eq_ok_iff.mp
      (show (Request.read ⟨false, some true, id⟩ (.ok .default) ruleAndDefaultText).outcome.map
        answerTexts = .ok [some "A", some "B"] by decide +kernel)
    obtain ⟨folded, hfolded, hignoring⟩ := Except.map_eq_ok_iff.mp
      (show (Request.read ⟨true, some true, id⟩ (.ok .default) ruleAndDefaultText).outcome.map
        answerTexts = .ok [some "A", some "A"] by decide +kernel)
    obtain ⟨-, hread⟩ := read_ignoring ⟨false, some true, id⟩ (.ok .default) ruleAndDefaultText
    obtain ⟨rules, default, rfl, hnone, hsome⟩ := hread m hm
    by_cases hrules : rules = []
    · obtain ⟨line, -, hrefused⟩ := hnone hrules
      cases hfolded.symm.trans hrefused
    · obtain ⟨folded', hfolds, hfolded'⟩ := hsome hrules
      cases hfolded.symm.trans hfolded'
      exact ⟨_, folded, hm, hfolded, hfolds, hanswers, hignoring⟩
  · exact Except.map_eq_error_iff.mp (show (Request.read ⟨true, some true, id⟩ (.ok .default)
      defaultText).outcome.map (fun _ => ()) = _ by decide +kernel)
  · obtain ⟨herror, -⟩ := read_ignoring ⟨false, some true, id⟩ (.ok .default) openText
    exact herror _ (Except.map_eq_error_iff.mp (show (Request.read ⟨false, some true, id⟩
      (.ok .default) openText).outcome.map (fun _ => ()) = _ by decide +kernel))

end Listing

end Rulebook
