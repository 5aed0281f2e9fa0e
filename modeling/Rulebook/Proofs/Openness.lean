import Rulebook.Proofs.IfElseChain
import Rulebook.Proofs.Votes

/-!
# Models — which rows are left without an answer

`MayAnswer m v` says that `m` can answer `v` as far as its constants, its postprocesses and the way
its parts are put together go, with nothing known of the antecedents: a rule may pass a row by or
pass it on, and a list may come to any of its rules.  This is exact.  What a model answers it may
answer (`mayAnswer_of_apply`), and what it may answer is answered to some row by a model that
differs from it in the antecedents alone (`exists_apply_of_mayAnswer`).

`Model.isOpen` looks at less.  A list admits to no more than its default does, though a rule of it
can have an open consequent, and a tree or a forest admits to nothing, though a branch can have a
rule on a side.  In models without such lists and trees (`Sealed`), and without constants or
postprocesses that give no answer themselves (`Plain`), it is exact (`never_missing_iff`).
-/

namespace Rulebook

namespace Model

variable {defaults : Defaults} {row : Row} {m c default : Model} {info : Info} {f : Formula}

/-! ### Answers, whatever the antecedents -/

mutual

/-- The answers of a model when nothing is known of its antecedents. -/
def MayAnswer : Model → Value → Prop
  | .constant _ outcome, v => v = outcome
  | .rule ⟨_, _, consequent⟩, v => v = .missing ∨ consequent.MayAnswer v
  | .branch _ _ positive negative, v => positive.MayAnswer v ∨ negative.MayAnswer v
  | .decisionList _ rules default, v => RulesMayAnswer rules v ∨ default.MayAnswer v
  | .tree ⟨info, root⟩, v => ∃ w, root.MayAnswer w ∧ info.finish w = .ok v
  | .forest _ trees, v =>
    ∃ votes, TreesMayAnswer trees votes ∧ (bestGuess true votes).outcome = .ok v
  | .mixed _ root _, v => root.MayAnswer v

/-- The answers of the consequents of some rules. -/
def RulesMayAnswer : List Rule → Value → Prop
  | [], _ => False
  | ⟨_, _, consequent⟩ :: rules, v => consequent.MayAnswer v ∨ RulesMayAnswer rules v

/-- The votes of some trees, one of each. -/
def TreesMayAnswer : List Tree → List Value → Prop
  | [], votes => votes = []
  | ⟨info, root⟩ :: trees, votes => ∃ v others, (∃ w, root.MayAnswer w ∧ info.finish w = .ok v) ∧
    TreesMayAnswer trees others ∧ votes = v :: others

end

theorem rulesMayAnswer_iff {rules : List Rule} {v : Value} :
    RulesMayAnswer rules v ↔ ∃ r ∈ rules, r.consequent.MayAnswer v := by
  induction rules with
  | nil => exact ⟨False.elim, fun ⟨_, hr, _⟩ => nomatch hr⟩
  | cons r rules ih =>
      simp only [List.mem_cons, exists_eq_or_imp, ← ih]
      exact Iff.rfl

theorem treesMayAnswer_iff {trees : List Tree} {votes : List Value} :
    TreesMayAnswer trees votes ↔ List.Forall₂ (fun t v => MayAnswer (.tree t) v) trees votes := by
  induction trees generalizing votes with
  | nil => exact List.forall₂_nil_left_iff.symm
  | cons t trees ih =>
      rw [List.forall₂_cons_left_iff]
      simp only [← ih]
      exact Iff.rfl

/-! ### What is answered may be answered -/

theorem apply_rule (r : Rule) (row : Row) :
    apply defaults row (.rule r) =
      Traced.ofExcept (r.antecedent.check row) >>= fun held =>
        if held then r.consequent.apply defaults row else pure .missing :=
  rfl

/-- A list answers as the consequent of one of its rules or as its default. -/
theorem apply_decisionList_eq_ok {rules : List Rule} {v : Value}
    (h : (apply defaults row (.decisionList info rules default)).outcome = .ok v) :
    (∃ r ∈ rules, (r.consequent.apply defaults row).outcome = .ok v) ∨
      (default.apply defaults row).outcome = .ok v := by
  rw [← apply_chain] at h
  induction rules with
  | nil => exact .inr h
  | cons r rules ih =>
      rw [chain, apply_branch, Traced.outcome_bind] at h
      obtain ⟨held, -, h⟩ := Except.bind_eq_ok_iff.mp h
      cases held with
      | true => exact .inl ⟨r, List.mem_cons_self, h⟩
      | false =>
          rcases ih h with ⟨r', hr', hv⟩ | hv
          · exact .inl ⟨r', List.mem_cons_of_mem _ hr', hv⟩
          · exact .inr hv

theorem applyTrees_eq_ok_iff {trees : List Tree} {votes : List Value} :
    (applyTrees defaults row trees).outcome = .ok votes ↔
      List.Forall₂ (fun t v => (apply defaults row (.tree t)).outcome = .ok v) trees votes := by
  induction trees generalizing votes with
  | nil =>
      rw [List.forall₂_nil_left_iff]
      exact ⟨fun h => (Except.ok.inj h).symm, fun h => congrArg _ h.symm⟩
  | cons t trees ih =>
      simp only [applyTrees_cons, Except.bind_eq_ok_iff, ih, List.forall₂_cons_left_iff,
        Except.ok.injEq, ← exists_and_left, eq_comm (b := votes)]

/-- **A model answers nothing but what it may answer.** -/
theorem mayAnswer_of_apply {v : Value} (h : (m.apply defaults row).outcome = .ok v) :
    m.MayAnswer v := by
  induction m generalizing v with
  | constant info outcome => exact (Except.ok.inj h).symm
  | rule r ih =>
      rw [apply_rule, Traced.outcome_bind] at h
      obtain ⟨held, -, h⟩ := Except.bind_eq_ok_iff.mp h
      cases held with
      | true => exact .inr (ih h)
      | false => exact .inl (Except.ok.inj h).symm
  | branch info f positive negative ihp ihn =>
      rw [apply_branch, Traced.outcome_bind] at h
      obtain ⟨held, -, h⟩ := Except.bind_eq_ok_iff.mp h
      cases held with
      | true => exact .inl (ihp h)
      | false => exact .inr (ihn h)
  | decisionList info rules default ihr ihd =>
      rcases apply_decisionList_eq_ok h with ⟨r, hr, hv⟩ | hv
      · exact .inl (rulesMayAnswer_iff.mpr ⟨r, hr, ihr r hr hv⟩)
      · exact .inr (ihd hv)
  | tree t ih =>
      rw [apply_tree] at h
      obtain ⟨w, hw, hv⟩ := Except.bind_eq_ok_iff.mp h
      exact ⟨w, ih hw, hv⟩
  | forest info trees ih =>
      rw [apply_forest] at h
      obtain ⟨quiet, -, h⟩ := Except.bind_eq_ok_iff.mp h
      obtain ⟨votes, hvotes, h⟩ := Except.bind_eq_ok_iff.mp h
      refine ⟨votes, treesMayAnswer_iff.mpr ?_, outcome_bestGuess_true_of_ok h⟩
      have hmem := (List.forall₂_and_left trees votes).mpr
        ⟨fun _ ht => ht, applyTrees_eq_ok_iff.mp hvotes⟩
      refine hmem.imp fun t v ⟨ht, hv⟩ => ?_
      rw [apply_tree] at hv
      obtain ⟨w, hw, hv⟩ := Except.bind_eq_ok_iff.mp hv
      exact ⟨w, ih t ht hw, hv⟩
  | mixed info root feasible ih => exact ih h

/-! ### Models with other antecedents -/

mutual

/-- A model with nothing left of its antecedents. -/
def blank : Model → Model
  | .constant info outcome => .constant info outcome
  | .rule ⟨info, _, consequent⟩ => .rule ⟨info, .top, consequent.blank⟩
  | .branch info _ positive negative => .branch info .top positive.blank negative.blank
  | .decisionList info rules default => .decisionList info (blankRules rules) default.blank
  | .tree ⟨info, root⟩ => .tree ⟨info, root.blank⟩
  | .forest info trees => .forest info (blankTrees trees)
  | .mixed info root feasible => .mixed info root.blank feasible

def blankRules : List Rule → List Rule
  | [] => []
  | ⟨info, _, consequent⟩ :: rules => ⟨info, .top, consequent.blank⟩ :: blankRules rules

def blankTrees : List Tree → List Tree
  | [] => []
  | ⟨info, root⟩ :: trees => ⟨info, root.blank⟩ :: blankTrees trees

end

theorem blankRules_eq_map (rules : List Rule) :
    blankRules rules = rules.map fun r => ⟨r.info, .top, r.consequent.blank⟩ := by
  induction rules with
  | nil => rfl
  | cons r rules ih => exact congrArg _ ih

mutual

/-- What a model may answer does not depend on its antecedents. -/
theorem mayAnswer_blank : ∀ (m : Model) (v : Value), m.blank.MayAnswer v ↔ m.MayAnswer v
  | .constant .., _ => Iff.rfl
  | .rule ⟨_, _, consequent⟩, v => or_congr_right (mayAnswer_blank consequent v)
  | .branch _ _ positive negative, v =>
    or_congr (mayAnswer_blank positive v) (mayAnswer_blank negative v)
  | .decisionList _ rules default, v =>
    or_congr (rulesMayAnswer_blank rules v) (mayAnswer_blank default v)
  | .tree ⟨_, root⟩, _ => exists_congr fun w => and_congr_left' (mayAnswer_blank root w)
  | .forest _ trees, _ =>
    exists_congr fun votes => and_congr_left' (treesMayAnswer_blank trees votes)
  | .mixed _ root _, v => mayAnswer_blank root v

theorem rulesMayAnswer_blank : ∀ (rules : List Rule) (v : Value),
    RulesMayAnswer (blankRules rules) v ↔ RulesMayAnswer rules v
  | [], _ => Iff.rfl
  | ⟨_, _, consequent⟩ :: rules, v =>
    or_congr (mayAnswer_blank consequent v) (rulesMayAnswer_blank rules v)

theorem treesMayAnswer_blank : ∀ (trees : List Tree) (votes : List Value),
    TreesMayAnswer (blankTrees trees) votes ↔ TreesMayAnswer trees votes
  | [], _ => Iff.rfl
  | ⟨_, root⟩ :: trees, _ =>
    exists_congr fun _ => exists_congr fun others => and_congr
      (exists_congr fun w => and_congr_left' (mayAnswer_blank root w))
      (and_congr_left' (treesMayAnswer_blank trees others))

end

/-- Settings under which no forest warns. -/
def quietly : Settings := { Settings.default with suppressParityWarning := true }

/-- A row on which `x` is missing. -/
def missingRow : Row := [("x", .missing)]

/-- A condition that does not hold where `x` is missing. -/
def never : Formula := .atom ⟨"x", .eq, .numeric Binary64.zero⟩

theorem check_never : never.check missingRow = .ok false := rfl

theorem check_top : Formula.top.check row = .ok true := rfl

/-- A rule under an antecedent of one's own. -/
def under (f : Formula) (r : Rule) : Rule := ⟨r.info, f, r.consequent⟩

theorem blankRules_map_under (f : Formula) (rules : List Rule) :
    blankRules (rules.map (under f)) = blankRules rules := by
  rw [blankRules_eq_map, blankRules_eq_map, List.map_map]
  rfl

/-- Rules that do not hold are passed by. -/
theorem apply_decisionList_skip (skipped rules : List Rule) :
    (apply defaults missingRow
      (.decisionList info (skipped.map (under never) ++ rules) default)).outcome =
      (apply defaults missingRow (.decisionList info rules default)).outcome := by
  induction skipped with
  | nil => rfl
  | cons r skipped ih => exact (apply_decisionList_cons (r := under never r) check_never).trans ih

/-- The consequent of a rule answers for the list, once the rules in front never hold and that rule
always does. -/
theorem exists_rules_of_consequent {rules : List Rule} {r : Rule} {v : Value} (hr : r ∈ rules)
    (hblank : c.blank = r.consequent.blank)
    (hc : (c.apply defaults missingRow).outcome = .ok v) :
    ∃ rules' : List Rule, blankRules rules' = blankRules rules ∧ ∀ default,
      (apply defaults missingRow (.decisionList info rules' default)).outcome = .ok v := by
  obtain ⟨before, after, rfl⟩ := List.append_of_mem hr
  refine ⟨before.map (under never) ++ ⟨r.info, .top, c⟩ :: after, ?_, fun default => ?_⟩
  · have hbefore := blankRules_map_under never before
    simp only [blankRules_eq_map] at hbefore
    simp only [blankRules_eq_map, List.map_append, List.map_cons, hbefore, hblank]
  · refine (apply_decisionList_skip before _).trans ?_
    exact (apply_decisionList_cons (r := ⟨r.info, .top, c⟩) check_top).trans hc

theorem exists_applyTrees_of_mayAnswer {trees : List Tree} {votes : List Value}
    (htrees : ∀ t ∈ trees, ∀ {v}, t.root.MayAnswer v → ∃ root : Model, root.blank = t.root.blank ∧
      (root.apply defaults row).outcome = .ok v)
    (h : List.Forall₂ (fun t v => MayAnswer (.tree t) v) trees votes) :
    ∃ trees' : List Tree, blankTrees trees' = blankTrees trees ∧
      (applyTrees defaults row trees').outcome = .ok votes := by
  induction h with
  | nil => exact ⟨[], rfl, rfl⟩
  | @cons t v trees votes hv _ ih =>
      rw [List.forall_mem_cons] at htrees
      obtain ⟨w, hw, hfinish⟩ := hv
      obtain ⟨root, hblank, hroot⟩ := htrees.1 hw
      obtain ⟨trees', hblanks, htrees'⟩ := ih htrees.2
      refine ⟨⟨t.info, root⟩ :: trees', ?_, ?_⟩
      · exact congrArg₂ (fun root trees => ⟨t.info, root⟩ :: trees) hblank hblanks
      · rw [applyTrees_cons, apply_tree, hroot, Except.ok_bind, hfinish, Except.ok_bind, htrees']
        rfl

/-- **What a model may answer is answered** to a row, once its antecedents are others and its
forests are quiet. -/
theorem exists_apply_of_mayAnswer {v : Value} (h : m.MayAnswer v) :
    ∃ m' : Model, m'.blank = m.blank ∧ (m'.apply (.ok quietly) missingRow).outcome = .ok v := by
  induction m generalizing v with
  | constant info outcome => exact ⟨_, rfl, congrArg _ (Eq.symm h)⟩
  | rule r ih =>
      rcases h with rfl | h
      · exact ⟨.rule (under never r), rfl, apply_rule_of_false check_never⟩
      · obtain ⟨c, hblank, hc⟩ := ih h
        refine ⟨.rule ⟨r.info, .top, c⟩, ?_, (apply_rule_of_true check_top).trans hc⟩
        exact congrArg (fun c => Model.rule ⟨r.info, .top, c⟩) hblank
  | branch info f positive negative ihp ihn =>
      rcases h with h | h
      · obtain ⟨c, hblank, hc⟩ := ihp h
        refine ⟨.branch info .top c negative, ?_, (apply_branch_of_check check_top).trans hc⟩
        exact congrArg (Model.branch info .top · negative.blank) hblank
      · obtain ⟨c, hblank, hc⟩ := ihn h
        refine ⟨.branch info never positive c, ?_, (apply_branch_of_check check_never).trans hc⟩
        exact congrArg (Model.branch info .top positive.blank ·) hblank
  | decisionList info rules default ihr ihd =>
      rcases h with h | h
      · obtain ⟨r, hr, h⟩ := rulesMayAnswer_iff.mp h
        obtain ⟨c, hblank, hc⟩ := ihr r hr h
        obtain ⟨rules', hblanks, hrules'⟩ := exists_rules_of_consequent hr hblank hc
        exact ⟨.decisionList info rules' default,
          congrArg (Model.decisionList info · default.blank) hblanks, hrules' default⟩
      · obtain ⟨c, hblank, hc⟩ := ihd h
        refine ⟨.decisionList info (rules.map (under never)) c, ?_, ?_⟩
        · rw [blank, blank, blankRules_map_under, hblank]
        · rw [← List.append_nil (rules.map (under never))]
          exact (apply_decisionList_skip rules []).trans (apply_decisionList_nil.trans hc)
  | tree t ih =>
      obtain ⟨w, hw, hv⟩ := h
      obtain ⟨c, hblank, hc⟩ := ih hw
      refine ⟨.tree ⟨t.info, c⟩, congrArg (fun c => Model.tree ⟨t.info, c⟩) hblank, ?_⟩
      rw [apply_tree, hc]
      exact hv
  | forest info trees ih =>
      obtain ⟨votes, hvotes, hv⟩ := h
      obtain ⟨trees', hblank, htrees'⟩ :=
        exists_applyTrees_of_mayAnswer ih (treesMayAnswer_iff.mp hvotes)
      refine ⟨.forest info trees', congrArg (Model.forest info ·) hblank, ?_⟩
      rw [apply_forest, htrees', ← hv]
      rfl
  | mixed info root feasible ih =>
      obtain ⟨c, hblank, hc⟩ := ih h
      exact ⟨.mixed info c feasible, congrArg (Model.mixed info · feasible) hblank, hc⟩

/-! ### What a model admits to -/

/-- The models nested in a part are nested in the whole. -/
theorem reachable_subset {m c : Model} (h : c ∈ m.children) : c.reachable ⊆ m.reachable := by
  intro x hx
  refine List.mem_cons_of_mem _ ?_
  rw [submodels_eq_flatMap]
  exact List.mem_flatMap.mpr ⟨c, h, hx⟩

/-- No constant stands for no answer, and no tree changes its answers. -/
def Plain (m : Model) : Prop :=
  ∀ c ∈ m.reachable, match c with
    | .constant _ outcome => outcome ≠ .missing
    | .tree t => t.info.postprocess = none
    | _ => True

/-- No rule of a list has an open consequent, and no tree an open root. -/
def Sealed (m : Model) : Prop :=
  ∀ c ∈ m.reachable, match c with
    | .decisionList _ rules _ => ∀ r ∈ rules, r.consequent.isOpen = false
    | .tree t => t.root.isOpen = false
    | _ => True

theorem Plain.of_mem_children (h : m.Plain) (hc : c ∈ m.children) : c.Plain :=
  fun x hx => h x (reachable_subset hc hx)

theorem Sealed.of_mem_children (h : m.Sealed) (hc : c ∈ m.children) : c.Sealed :=
  fun x hx => h x (reachable_subset hc hx)

theorem not_mayAnswer_tree {t : Tree} (hplain : Plain (.tree t)) (hsealed : Sealed (.tree t))
    (hroot : t.root.MayAnswer .missing ↔ t.root.isOpen = true) :
    ¬ MayAnswer (.tree t) .missing := by
  rintro ⟨w, hw, hfinish⟩
  have hnone : t.info.postprocess = none := hplain _ List.mem_cons_self
  have hclosed : t.root.isOpen = false := hsealed _ List.mem_cons_self
  simp only [Info.finish, hnone, Except.ok.injEq] at hfinish
  subst hfinish
  rw [hroot, hclosed] at hw
  cases hw

/-- A forest of trees that always answer answers: the winner of a vote is one of the votes. -/
theorem not_mayAnswer_forest {trees : List Tree}
    (htrees : ∀ t ∈ trees, ¬ MayAnswer (.tree t) .missing) :
    ¬ MayAnswer (.forest info trees) .missing := by
  rintro ⟨votes, hvotes, hwinner⟩
  rcases mem_of_bestGuess hwinner with hmem | ⟨-, xs, -, hx⟩
  · obtain ⟨i, hi, hvote⟩ := List.getElem_of_mem hmem
    obtain ⟨hlength, hget⟩ := List.forall₂_iff_get.mp (treesMayAnswer_iff.mp hvotes)
    refine htrees _ (List.getElem_mem (hlength ▸ hi)) ?_
    exact hvote ▸ hget i (hlength ▸ hi) hi
  · cases hx

/-- **In sealed models openness is exact**: whether a row may be left without an answer is what the
model admits to. -/
theorem mayAnswer_missing_iff (hplain : m.Plain) (hsealed : m.Sealed) :
    m.MayAnswer .missing ↔ m.isOpen = true := by
  induction m with
  | constant info outcome =>
      have hne : outcome ≠ .missing := hplain _ List.mem_cons_self
      exact ⟨fun h => absurd h.symm hne, fun h => nomatch h⟩
  | rule r _ => exact ⟨fun _ => rfl, fun _ => .inl rfl⟩
  | branch info f positive negative ihp ihn =>
      have hp : positive ∈ children (.branch info f positive negative) := List.mem_cons_self
      have hn : negative ∈ children (.branch info f positive negative) :=
        List.mem_cons_of_mem _ List.mem_cons_self
      rw [isOpen, Bool.or_eq_true, ← ihp (hplain.of_mem_children hp) (hsealed.of_mem_children hp),
        ← ihn (hplain.of_mem_children hn) (hsealed.of_mem_children hn)]
      exact Iff.rfl
  | decisionList info rules default ihr ihd =>
      have hd : default ∈ children (.decisionList info rules default) :=
        List.mem_append_right _ List.mem_cons_self
      rw [isOpen, ← ihd (hplain.of_mem_children hd) (hsealed.of_mem_children hd)]
      -- the rules add nothing, since by induction a consequent that is not open always answers
      refine or_iff_right fun h => ?_
      obtain ⟨r, hr, h⟩ := rulesMayAnswer_iff.mp h
      have hrule : .rule r ∈ children (.decisionList info rules default) :=
        List.mem_append_left _ (List.mem_map_of_mem hr)
      have hc : r.consequent ∈ children (.rule r) := List.mem_cons_self
      have hclosed : r.consequent.isOpen = false :=
        hsealed (.decisionList info rules default) List.mem_cons_self r hr
      rw [ihr r hr ((hplain.of_mem_children hrule).of_mem_children hc)
        ((hsealed.of_mem_children hrule).of_mem_children hc), hclosed] at h
      cases h
  | tree t ih =>
      have ht : t.root ∈ children (.tree t) := List.mem_cons_self
      have hroot := ih (hplain.of_mem_children ht) (hsealed.of_mem_children ht)
      exact ⟨fun h => absurd h (not_mayAnswer_tree hplain hsealed hroot), fun h => nomatch h⟩
  | forest info trees ih =>
      refine ⟨fun h => absurd h (not_mayAnswer_forest fun t ht => ?_), fun h => nomatch h⟩
      have htree : .tree t ∈ children (.forest info trees) := List.mem_map_of_mem ht
      have hplain' := hplain.of_mem_children htree
      have hsealed' := hsealed.of_mem_children htree
      have hroot : t.root ∈ children (.tree t) := List.mem_cons_self
      exact not_mayAnswer_tree hplain' hsealed'
        (ih t ht (hplain'.of_mem_children hroot) (hsealed'.of_mem_children hroot))
  | mixed info root feasible ih =>
      have hr : root ∈ children (.mixed info root feasible) := List.mem_cons_self
      exact ih (hplain.of_mem_children hr) (hsealed.of_mem_children hr)

/-- **Which models leave no row without an answer.**  Whatever its antecedents are changed to, a
model has an answer for every row on which it does not fail exactly if the missing value is not
among the answers that it may give.  For a plain model that is sealed, this is that the model is not
open. -/
theorem never_missing_iff (m : Model) :
    ((∀ m' : Model, m'.blank = m.blank → ∀ defaults row,
        (m'.apply defaults row).outcome ≠ .ok .missing) ↔ ¬ m.MayAnswer .missing) ∧
      (m.Plain → m.Sealed → (m.MayAnswer .missing ↔ m.isOpen = true)) := by
  refine ⟨⟨fun h hmay => ?_, fun h m' hblank defaults row hm' => h ?_⟩, mayAnswer_missing_iff⟩
  · obtain ⟨m', hblank, hm'⟩ := exists_apply_of_mayAnswer hmay
    exact h m' hblank _ _ hm'
  · rw [← mayAnswer_blank m, ← hblank, mayAnswer_blank m']
    exact mayAnswer_of_apply hm'

theorem never_missing_iff_listOfBranch :
    listOfBranch.Plain ∧ listOfBranch.Sealed ∧ ¬ listOfBranch.MayAnswer .missing := by
  have hplain : listOfBranch.Plain := by
    simp [Plain, listOfBranch, reachable, submodels, ruleSubmodels, treeSubmodels, Info.empty]
  have hsealed : listOfBranch.Sealed := by
    simp [Sealed, listOfBranch, reachable, submodels, ruleSubmodels, treeSubmodels, isOpen]
  refine ⟨hplain, hsealed, fun h => ?_⟩
  have hopen : listOfBranch.isOpen = true :=
    ((never_missing_iff listOfBranch).2 hplain hsealed).mp h
  cases hopen

/-- A list with a default for all rows, and a rule for the consequent of its rule. -/
def ruleUnderRule : Model :=
  .decisionList .empty
    [⟨.empty, atLeast 1, .rule ⟨.empty, atLeast 2, .constant .empty (.text "A")⟩⟩]
    (.constant .empty (.text "B"))

/-- A list that is not open leaves a row without an answer, where the outer rule holds and the inner
one does not. -/
theorem not_never_missing_of_closed :
    ¬ ∀ (defaults : Defaults) (m : Model) (row : Row) (v : Value), m.Plain → m.isOpen = false →
      (m.apply defaults row).outcome = .ok v → v ≠ .missing := by
  intro h
  refine h (.ok .default) ruleUnderRule [("x", .int 1)] .missing ?_ rfl rfl rfl
  simp [Plain, ruleUnderRule, reachable, submodels, ruleSubmodels]

end Model

end Rulebook
