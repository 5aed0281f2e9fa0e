import Rulebook.Proofs.Nesting
import Rulebook.Proofs.Writes

/-!
# Models — a batch is answered row by row

Where the checks of a model's antecedents agree row by row (`CheckedByRow`) and the model answers
every row, the model applied to the data set gives the answers of its rows, in order
(`applyAll_eq_apply`).

The proof is an induction over the model, in which the data set is any (`Lifts`): what a model holds
is applied to slices, and a slice inherits the agreement of the checks.  The one fact about rows is
`answer_flagged`: where a check tells the model to answer as one of its parts, the part's answers on
the flagged rows are the model's.

A forest settles how to vote before it looks at a row, so on no rows at all it still needs its
settings (`votesFirst`).
-/

namespace Rulebook.Model

variable {defaults : Defaults} {d : Dataset} {m c : Model} {f : Formula} {info : Info}

/-! ### Single rows -/

theorem apply_rule_of_true {r : Rule} {row : Row} (h : r.antecedent.check row = .ok true) :
    (apply defaults row (.rule r)).outcome = (r.consequent.apply defaults row).outcome := by
  obtain ⟨info, f, c⟩ := r
  change f.check row = _ at h
  refine (Traced.outcome_bind (Traced.ofExcept (f.check row)) _).trans ?_
  rw [Traced.outcome_ofExcept, h]
  rfl

theorem apply_rule_of_false {r : Rule} {row : Row} (h : r.antecedent.check row = .ok false) :
    (apply defaults row (.rule r)).outcome = .ok .missing := by
  obtain ⟨info, f, c⟩ := r
  change f.check row = _ at h
  refine (Traced.outcome_bind (Traced.ofExcept (f.check row)) _).trans ?_
  rw [Traced.outcome_ofExcept, h]
  rfl

theorem apply_branch_of_check {positive negative : Model} {row : Row} {b : Bool}
    (h : f.check row = .ok b) :
    (apply defaults row (.branch info f positive negative)).outcome =
      ((bif b then positive else negative).apply defaults row).outcome := by
  refine (Traced.outcome_bind (Traced.ofExcept (f.check row)) _).trans ?_
  rw [Traced.outcome_ofExcept, h]
  cases b <;> rfl

theorem apply_decisionList_nil {default : Model} {row : Row} :
    (apply defaults row (.decisionList info [] default)).outcome =
      (default.apply defaults row).outcome :=
  Traced.outcome_bind (pure none) _

theorem apply_decisionList_cons {r : Rule} {rules : List Rule} {default : Model} {row : Row}
    {b : Bool} (h : r.antecedent.check row = .ok b) :
    (apply defaults row (.decisionList info (r :: rules) default)).outcome =
      ((bif b then r.consequent else .decisionList info rules default).apply defaults
        row).outcome := by
  obtain ⟨i, f, c⟩ := r
  change f.check row = _ at h
  have hrules : (applyRules defaults row (⟨i, f, c⟩ :: rules)).outcome = _ :=
    Traced.outcome_bind (Traced.ofExcept (f.check row)) _
  refine (Traced.outcome_bind (applyRules defaults row (⟨i, f, c⟩ :: rules)) _).trans ?_
  rw [hrules, Traced.outcome_ofExcept, h, Except.ok_bind]
  cases b with
  | true =>
      rw [if_pos rfl, Traced.outcome_bind]
      change _ = (c.apply defaults row).outcome
      cases (c.apply defaults row).outcome <;> rfl
  | false => exact (Traced.outcome_bind (applyRules defaults row rules) _).symm

theorem apply_tree (t : Tree) (row : Row) :
    (apply defaults row (.tree t)).outcome =
      (t.root.apply defaults row).outcome >>= t.info.finish := by
  obtain ⟨info, root⟩ := t
  exact Traced.outcome_bind (root.apply defaults row) _

theorem applyTrees_cons (t : Tree) (trees : List Tree) (row : Row) :
    (applyTrees defaults row (t :: trees)).outcome =
      (apply defaults row (.tree t)).outcome >>= fun v =>
        (applyTrees defaults row trees).outcome >>= fun vs => .ok (v :: vs) := by
  obtain ⟨info, root⟩ := t
  refine (Traced.outcome_bind (root.apply defaults row) _).trans ?_
  simp only [apply_tree, Traced.outcome_bind, Traced.outcome_ofExcept, Traced.outcome_pure,
    bind_assoc]

/-! ### Agreement -/

/-- The check of a formula on a data set answers, as the checks of the single rows do. -/
def CheckedByRow (d : Dataset) (f : Formula) : Prop :=
  ∃ held, d.check f = .ok held ∧ List.Forall₂ (fun row b => f.check row = .ok b) d.rows held

/-- The answers of a model to some rows, one by one. -/
def Answers (defaults : Defaults) (m : Model) : List Row → List Value → Prop :=
  List.Forall₂ fun row v => (m.apply defaults row).outcome = .ok v

/-- Whether a model settles how to vote before it looks at a row: a forest, on its own or below
trees and mixed models alone. -/
def votesFirst : Model → Bool
  | .forest .. => true
  | .tree ⟨_, root⟩ => root.votesFirst
  | .mixed _ root _ => root.votesFirst
  | _ => false

/-- On every data set with a column, a model that answers every row answers the set likewise. -/
def Lifts (defaults : Defaults) (m : Model) : Prop :=
  ∀ d : Dataset, d.schema ≠ [] → (∀ f ∈ m.antecedents, CheckedByRow d f) →
    (∀ row ∈ d.rows, ∃ v, (m.apply defaults row).outcome = .ok v) →
    (d.size = 0 → m.votesFirst → ∃ settings, defaults = .ok settings) →
    ∃ vs, (m.applyAll defaults d).outcome = .ok vs ∧ Answers defaults m d.rows vs

theorem CheckedByRow.slice (hd : d.schema ≠ []) (h : CheckedByRow d f) (positions : List Nat) :
    CheckedByRow (d.slice positions) f := by
  obtain ⟨held, hcheck, hrows⟩ := h
  refine ⟨_, Dataset.check_slice hd hcheck positions, ?_⟩
  rw [Dataset.rows_slice hd]
  exact Dataset.forall₂_filterMap_getElem? hrows positions

theorem Answers.of_apply_eq {rows : List Row} {vs : List Value} (h : Answers defaults c rows vs)
    (heq : ∀ row ∈ rows, (m.apply defaults row).outcome = (c.apply defaults row).outcome) :
    Answers defaults m rows vs := by
  induction h with
  | nil => exact .nil
  | cons hv _ ih =>
      rw [List.forall_mem_cons] at heq
      exact .cons (heq.1.trans hv) (ih heq.2)

theorem answers_constant (v : Value) (rows : List Row) :
    Answers defaults (.constant info v) rows (List.replicate rows.length v) := by
  induction rows with
  | nil => exact .nil
  | cons row rows ih =>
      exact .cons rfl ih

/-! ### Slices -/

/-- A part of a model answers the rows at some positions. -/
theorem answer_of_lifts (hc : Lifts defaults c) (hd : d.schema ≠ []) {positions : List Nat}
    (hp : ∀ p ∈ positions, p < d.size) (hchecks : ∀ f ∈ c.antecedents, CheckedByRow d f)
    (hrows : ∀ row ∈ (d.slice positions).rows, ∃ v, (c.apply defaults row).outcome = .ok v) :
    ∃ vs, (c.applyAt defaults d positions).outcome = .ok vs ∧
      Answers defaults c (d.slice positions).rows vs := by
  have hsize := Dataset.size_slice hd hp
  have hlength := (Dataset.length_rows _).trans hsize
  by_cases hnone : positions = []
  · subst hnone
    refine ⟨[], rfl, ?_⟩
    rw [Dataset.rows_slice hd]
    exact .nil
  unfold applyAt Dataset.answer
  rw [if_neg (by simpa using hnone)]
  cases hv : c.outcome? with
  | some v =>
      cases c with
      | constant info w =>
          obtain rfl : w = v := Option.some.inj hv
          refine ⟨_, rfl, ?_⟩
          rw [List.map_const', ← hlength]
          exact answers_constant w _
      | _ => exact absurd hv (by simp [outcome?])
  | none =>
      have hslice : (d.slice positions).schema ≠ [] := by rwa [Dataset.schema_slice]
      obtain ⟨vs, hvs, hans⟩ := hc _ hslice (fun f hf => (hchecks f hf).slice hd positions) hrows
        fun h _ => absurd (hsize.symm.trans h) (by simpa using hnone)
      refine ⟨vs, ?_, hans⟩
      rw [Traced.outcome_bind, hvs, Except.ok_bind, if_pos (hans.length_eq.symm.trans hlength)]
      rfl

/-- **A part answers for the model on the flagged rows.**  The check of `f` on the rows at
`uncovered` gives the flags `held`, and on a row with the flag `b` the model answers as its part
`c` does. -/
theorem answer_flagged (hc : Lifts defaults c) (hd : d.schema ≠ []) {uncovered : List Nat}
    (hu : ∀ p ∈ uncovered, p < d.size) (hchecks : ∀ f ∈ c.antecedents, CheckedByRow d f)
    {held : List Bool}
    (hheld : List.Forall₂ (fun row b => f.check row = .ok b) (d.slice uncovered).rows held)
    (b : Bool)
    (hpart : ∀ row, f.check row = .ok b →
      (m.apply defaults row).outcome = (c.apply defaults row).outcome)
    (hrows : ∀ row ∈ (d.slice uncovered).rows, ∃ v, (m.apply defaults row).outcome = .ok v) :
    ∃ vs, (c.applyAt defaults d (Dataset.flagged b uncovered held)).outcome = .ok vs ∧
      Answers defaults m (Dataset.flagged b (d.slice uncovered).rows held) vs := by
  have heq : ∀ row ∈ Dataset.flagged b (d.slice uncovered).rows held,
      (m.apply defaults row).outcome = (c.apply defaults row).outcome :=
    fun row hrow => hpart row (Dataset.rel_of_mem_flagged hheld hrow)
  rw [← Dataset.rows_slice_flagged hd hu] at heq ⊢
  obtain ⟨vs, hvs, hans⟩ := answer_of_lifts hc hd
    (fun p hp => hu p (Dataset.flagged_subset b _ _ hp)) hchecks fun row hrow => by
      rw [← heq row hrow]
      rw [Dataset.rows_slice_flagged hd hu] at hrow
      exact hrows row (Dataset.flagged_subset b _ _ hrow)
  exact ⟨vs, hvs, hans.of_apply_eq heq⟩

/-! ### One kind after the other -/

theorem lifts_constant (v : Value) : Lifts defaults (.constant info v) := by
  intro d _ _ _ _
  refine ⟨List.replicate d.size v, rfl, ?_⟩
  rw [← Dataset.length_rows]
  exact answers_constant v d.rows

theorem lifts_rule {r : Rule} (hc : Lifts defaults r.consequent) : Lifts defaults (.rule r) := by
  intro d hd hchecks hrows _
  rw [antecedents_rule, List.forall_mem_cons] at hchecks
  obtain ⟨held, hcheck, hheld⟩ := hchecks.1
  have hrange : ∀ p ∈ List.range d.size, p < d.size := fun p hp => List.mem_range.mp hp
  rw [← Dataset.rows_slice_range hd] at hheld hrows ⊢
  obtain ⟨positive, hpos, hans⟩ := answer_flagged hc hd hrange hchecks.2 hheld true
    (fun _ h => apply_rule_of_true h) hrows
  refine ⟨Dataset.merge held positive [], ?_, Dataset.forall₂_merge_nil hheld hans fun row hrow =>
    apply_rule_of_false (Dataset.rel_of_mem_flagged hheld hrow)⟩
  rw [applyAll_rule, Traced.outcome_bind, Traced.outcome_ofExcept, hcheck, Except.ok_bind,
    Traced.outcome_bind, hpos]
  rfl

theorem lifts_branch {positive negative : Model} (hp : Lifts defaults positive)
    (hn : Lifts defaults negative) : Lifts defaults (.branch info f positive negative) := by
  intro d hd hchecks hrows _
  rw [antecedents_branch, List.cons_append, List.forall_mem_cons, List.forall_mem_append] at hchecks
  obtain ⟨⟨held, hcheck, hheld⟩, hcp, hcn⟩ := hchecks
  have hrange : ∀ p ∈ List.range d.size, p < d.size := fun p hp => List.mem_range.mp hp
  rw [← Dataset.rows_slice_range hd] at hheld hrows ⊢
  obtain ⟨yes, hyes, hansY⟩ := answer_flagged hp hd hrange hcp hheld true
    (fun _ h => apply_branch_of_check h) hrows
  obtain ⟨no, hno, hansN⟩ := answer_flagged hn hd hrange hcn hheld false
    (fun _ h => apply_branch_of_check h) hrows
  refine ⟨Dataset.merge held yes no, ?_, Dataset.forall₂_merge hheld hansY hansN⟩
  rw [applyAll_branch, Traced.outcome_bind, Traced.outcome_ofExcept, hcheck, Except.ok_bind,
    Traced.outcome_bind, hyes, Except.ok_bind, Traced.outcome_bind, hno]
  rfl

/-- A rule answers the rows that its antecedent flags, and the rules after it the others. -/
theorem applyRulesAll_cons {r : Rule} {rules : List Rule} {uncovered : List Nat} {held : List Bool}
    {last : List Nat → Traced Fault (List Value)} {positive negative : List Value}
    (hsome : uncovered ≠ []) (hcheck : (d.slice uncovered).check r.antecedent = .ok held)
    (hlength : held.length = uncovered.length)
    (hpos : (r.consequent.applyAt defaults d (Dataset.flagged true uncovered held)).outcome =
      .ok positive)
    (hneg : (applyRulesAll defaults d last rules (Dataset.flagged false uncovered held)).outcome =
      .ok negative) :
    (applyRulesAll defaults d last (r :: rules) uncovered).outcome =
      .ok (Dataset.merge held positive negative) := by
  rw [applyRulesAll_cons_eq, if_neg (by simpa using hsome), Traced.outcome_bind,
    Traced.outcome_ofExcept, hcheck, Except.ok_bind, if_pos hlength, Traced.outcome_bind, hpos,
    Except.ok_bind, Traced.outcome_bind, hneg]
  rfl

/-- The rules of a decision list and what follows them, on the rows that are left.  The induction
is on the rules; what earlier rules have answered is no longer among the rows. -/
theorem applyRulesAll_of_lifts {rules : List Rule} {default : Model} (hd : d.schema ≠ [])
    (hrules : ∀ r ∈ rules, Lifts defaults r.consequent) (hdefault : Lifts defaults default)
    (hchecks : ∀ f ∈ antecedents (.decisionList info rules default), CheckedByRow d f) :
    ∀ {uncovered : List Nat}, (∀ p ∈ uncovered, p < d.size) →
      (∀ row ∈ (d.slice uncovered).rows,
        ∃ v, (apply defaults row (.decisionList info rules default)).outcome = .ok v) →
      ∃ vs, (applyRulesAll defaults d (default.applyAt defaults d) rules uncovered).outcome =
          .ok vs ∧
        Answers defaults (.decisionList info rules default) (d.slice uncovered).rows vs := by
  induction rules with
  | nil =>
      intro uncovered hu hrows
      simp only [apply_decisionList_nil] at hrows
      obtain ⟨vs, hvs, hans⟩ := answer_of_lifts hdefault hd hu
        (by simpa using hchecks) hrows
      rw [← applyRulesAll_nil (default.applyAt defaults d)] at hvs
      exact ⟨vs, hvs, hans.of_apply_eq fun _ _ => apply_decisionList_nil⟩
  | cons r rules ih =>
      intro uncovered hu hrows
      by_cases hsome : uncovered = []
      · subst hsome
        refine ⟨[], rfl, ?_⟩
        rw [Dataset.rows_slice hd]
        exact .nil
      rw [List.forall_mem_cons] at hrules
      rw [antecedents_decisionList, List.flatMap_cons, antecedents_rule, List.append_assoc,
        List.cons_append, List.forall_mem_cons, List.forall_mem_append] at hchecks
      obtain ⟨hcheck, hcc, hcr⟩ := hchecks
      rw [← antecedents_decisionList info] at hcr
      obtain ⟨held, hcheck, hheld⟩ := hcheck.slice hd uncovered
      have hlength : held.length = uncovered.length := by
        rw [← hheld.length_eq, Dataset.length_rows, Dataset.size_slice hd hu]
      obtain ⟨positive, hpos, hansP⟩ := answer_flagged hrules.1 hd hu hcc hheld true
        (fun _ h => apply_decisionList_cons h) hrows
      -- on the rows that are not flagged, the list is the list of the other rules
      have hrest : ∀ row ∈ (d.slice (Dataset.flagged false uncovered held)).rows,
          (apply defaults row (.decisionList info (r :: rules) default)).outcome =
            (apply defaults row (.decisionList info rules default)).outcome ∧
          row ∈ (d.slice uncovered).rows := by
        intro row hrow
        rw [Dataset.rows_slice_flagged hd hu] at hrow
        exact ⟨apply_decisionList_cons (Dataset.rel_of_mem_flagged hheld hrow),
          Dataset.flagged_subset _ _ _ hrow⟩
      obtain ⟨negative, hneg, hansN⟩ := ih hrules.2 hcr
        (fun p hp => hu p (Dataset.flagged_subset _ _ _ hp))
        fun row hrow => (hrest row hrow).1 ▸ hrows row (hrest row hrow).2
      have hansN' := hansN.of_apply_eq fun row hrow => (hrest row hrow).1
      rw [Dataset.rows_slice_flagged hd hu] at hansN'
      exact ⟨Dataset.merge held positive negative,
        applyRulesAll_cons hsome hcheck hlength hpos hneg,
        Dataset.forall₂_merge hheld hansP hansN'⟩

theorem lifts_decisionList {rules : List Rule} {default : Model}
    (hrules : ∀ r ∈ rules, Lifts defaults r.consequent) (hdefault : Lifts defaults default) :
    Lifts defaults (.decisionList info rules default) := by
  intro d hd hchecks hrows _
  have hrange : ∀ p ∈ List.range d.size, p < d.size := fun p hp => List.mem_range.mp hp
  rw [← Dataset.rows_slice_range hd] at hrows ⊢
  obtain ⟨vs, hvs, hans⟩ := applyRulesAll_of_lifts hd hrules hdefault hchecks hrange hrows
  rw [← applyAll_decisionList] at hvs
  exact ⟨vs, hvs, hans⟩

theorem lifts_tree {t : Tree} (hroot : Lifts defaults t.root) : Lifts defaults (.tree t) := by
  intro d hd hchecks hrows hsettings
  simp only [apply_tree, Except.bind_eq_ok_iff] at hrows
  obtain ⟨vs, hvs, hans⟩ := hroot d hd hchecks
    (fun row hrow => (hrows row hrow).elim fun _ ⟨v, hv, _⟩ => ⟨v, hv⟩) hsettings
  obtain ⟨ws, hws, hfinish⟩ := Except.mapM_of_forall₂
    (T := fun row w => (apply defaults row (.tree t)).outcome = .ok w) (f := t.info.finish) hans
    fun row hrow v hv => by
      obtain ⟨w, v', hv', hw⟩ := hrows row hrow
      obtain rfl := Except.ok.inj (hv.symm.trans hv')
      exact ⟨w, hw, by rw [apply_tree, hv, Except.ok_bind, hw]⟩
  refine ⟨ws, ?_, hfinish⟩
  refine (Traced.outcome_bind (t.root.applyAll defaults d) _).trans ?_
  rw [hvs]
  exact hws

/-- A column of votes beside a matrix of votes. -/
theorem forall₂_zipWith_cons {α β : Type} {R : α → β → Prop} {S T : α → List β → Prop}
    (hT : ∀ a b bs, R a b → S a bs → T a (b :: bs)) {as : List α} {column : List β}
    (hR : List.Forall₂ R as column) :
    ∀ {matrix : List (List β)}, List.Forall₂ S as matrix →
      List.Forall₂ T as (List.zipWith List.cons column matrix) := by
  induction hR with
  | nil => intro _ _; exact .nil
  | cons hb _ ih =>
      intro matrix hS
      obtain ⟨bs, rest, hbs, hrest, rfl⟩ := List.forall₂_cons_left_iff.mp hS
      exact .cons (hT _ _ _ hb hbs) (ih hrest)

theorem applyTreesAll_cons (t : Tree) (trees : List Tree) (d : Dataset) :
    (applyTreesAll defaults (t :: trees) d).outcome =
      (applyAll defaults (.tree t) d).outcome >>= fun vs =>
        (applyTreesAll defaults trees d).outcome >>= fun columns => .ok (vs :: columns) := by
  have htree : (applyAll defaults (.tree t) d).outcome = _ :=
    Traced.outcome_bind (t.root.applyAll defaults d) _
  refine (Traced.outcome_bind (t.root.applyAll defaults d) _).trans ?_
  simp only [htree, Traced.outcome_bind, Traced.outcome_ofExcept, Traced.outcome_pure, bind_assoc]

/-- The votes of some trees on the rows are the columns of a matrix, whose rows are the votes on
each row. -/
theorem applyTreesAll_of_lifts {trees : List Tree} (hd : d.schema ≠ [])
    (htrees : ∀ t ∈ trees, Lifts defaults t.root)
    (hchecks : ∀ f ∈ antecedents (.forest info trees), CheckedByRow d f)
    (hrows : ∀ row ∈ d.rows, ∃ vs, (applyTrees defaults row trees).outcome = .ok vs)
    (hsettings : ∃ settings, defaults = .ok settings) :
    ∃ columns, (applyTreesAll defaults trees d).outcome = .ok columns ∧
      List.Forall₂ (fun row votes => (applyTrees defaults row trees).outcome = .ok votes) d.rows
        (transpose d.size columns) := by
  induction trees with
  | nil =>
      refine ⟨[], rfl, ?_⟩
      rw [transpose, ← Dataset.length_rows]
      induction d.rows with
      | nil => exact .nil
      | cons row rows ih => exact .cons rfl ih
  | cons t trees ih =>
      rw [List.forall_mem_cons] at htrees
      rw [antecedents_forest, List.flatMap_cons, List.forall_mem_append] at hchecks
      rw [← antecedents_forest info] at hchecks
      simp only [applyTrees_cons, Except.bind_eq_ok_iff] at hrows
      obtain ⟨column, hcolumn, hans⟩ := lifts_tree htrees.1 d hd hchecks.1
        (fun row hrow => (hrows row hrow).elim fun _ ⟨v, hv, _⟩ => ⟨v, hv⟩) fun _ _ => hsettings
      obtain ⟨columns, hcolumns, hvotes⟩ := ih htrees.2 hchecks.2
        fun row hrow => (hrows row hrow).elim fun _ ⟨_, _, vs, hvs, _⟩ => ⟨vs, hvs⟩
      refine ⟨column :: columns, ?_, forall₂_zipWith_cons (fun row v vs hv hvs => ?_) hans hvotes⟩
      · rw [applyTreesAll_cons, hcolumn, Except.ok_bind, hcolumns, Except.ok_bind]
      · rw [applyTrees_cons, hv, Except.ok_bind, hvs, Except.ok_bind]

/-- A vote that nobody asked to be quiet is as quiet as the settings say. -/
theorem quiet_none_eq_ok_iff {quiet : Bool} :
    defaults.quiet none = .ok quiet ↔
      ∃ settings, defaults = .ok settings ∧ settings.suppressParityWarning = quiet := by
  cases defaults <;> simp [Defaults.quiet]

theorem apply_forest (trees : List Tree) (row : Row) :
    (apply defaults row (.forest info trees)).outcome =
      defaults.quiet none >>= fun quiet =>
        (applyTrees defaults row trees).outcome >>= fun votes =>
          (bestGuess quiet votes).outcome := by
  refine (Traced.outcome_bind (Traced.ofExcept (defaults.quiet none)) _).trans ?_
  simp only [Traced.outcome_bind, Traced.outcome_ofExcept]

theorem lifts_forest {trees : List Tree} (htrees : ∀ t ∈ trees, Lifts defaults t.root) :
    Lifts defaults (.forest info trees) := by
  intro d hd hchecks hrows hsettings
  simp only [apply_forest, Except.bind_eq_ok_iff, quiet_none_eq_ok_iff] at hrows
  -- a row shows that the settings can be read; without rows it is assumed
  have hreadable : ∃ settings, defaults = .ok settings := by
    by_cases hs : d.size = 0
    · exact hsettings hs rfl
    · obtain ⟨row, hrow⟩ := List.exists_mem_of_length_pos
        (Nat.pos_of_ne_zero (Dataset.length_rows d ▸ hs))
      obtain ⟨_, _, ⟨settings, hsettings, _⟩, _⟩ := hrows row hrow
      exact ⟨settings, hsettings⟩
  obtain ⟨columns, hcolumns, hvotes⟩ := applyTreesAll_of_lifts hd htrees hchecks
    (fun row hrow => (hrows row hrow).elim fun _ ⟨_, _, vs, hvs, _⟩ => ⟨vs, hvs⟩) hreadable
  obtain ⟨settings, rfl⟩ := hreadable
  obtain ⟨winners, hwinners, hans⟩ := Except.mapM_of_forall₂
    (T := fun row v => (apply (.ok settings) row (.forest info trees)).outcome = .ok v)
    (f := fun votes => (bestGuess settings.suppressParityWarning votes).outcome) hvotes
    fun row hrow votes hv => by
      obtain ⟨v, _, ⟨_, hs, rfl⟩, votes', hv', hw⟩ := hrows row hrow
      obtain rfl := Except.ok.inj hs
      obtain rfl := Except.ok.inj (hv.symm.trans hv')
      refine ⟨v, hw, ?_⟩
      rw [apply_forest, hv]
      exact hw
  refine ⟨winners, ?_, hans⟩
  refine (Traced.outcome_bind (Traced.ofExcept (Defaults.quiet (.ok settings) none)) _).trans ?_
  simp only [Traced.outcome_bind, Traced.outcome_ofExcept, Traced.outcome_mapM, hcolumns]
  exact hwinners

theorem lifts_mixed {root : Model} {feasible : List KindPattern} (hroot : Lifts defaults root) :
    Lifts defaults (.mixed info root feasible) := by
  intro d hd hchecks hrows hsettings
  obtain ⟨vs, hvs, hans⟩ := hroot d hd hchecks hrows hsettings
  exact ⟨vs, hvs, hans.of_apply_eq fun row _ => rfl⟩

theorem lifts (m : Model) : Lifts defaults m := by
  induction m with
  | constant info v => exact lifts_constant v
  | rule r ih => exact lifts_rule ih
  | branch info f positive negative ihp ihn => exact lifts_branch ihp ihn
  | decisionList info rules default ihr ihd => exact lifts_decisionList ihr ihd
  | tree t ih => exact lifts_tree ih
  | forest info trees ih => exact lifts_forest ih
  | mixed info root feasible ih => exact lifts_mixed ih

/-! ### The batch -/

/-- **A batch is answered row by row.**  Let every antecedent of a model be checked on a data set
with a column as on its single rows, and let the model answer every row.  Then the model answers
the data set, with one answer for each row, the answer of the row.  Without rows, a model that
settles first how to vote has to be able to read its settings. -/
theorem applyAll_eq_apply (defaults : Defaults) (m : Model) (d : Dataset) (hd : d.schema ≠ [])
    (hchecks : ∀ f ∈ m.antecedents, CheckedByRow d f)
    (hrows : ∀ row ∈ d.rows, ∃ v, (m.apply defaults row).outcome = .ok v)
    (hsettings : d.size = 0 → m.votesFirst → ∃ settings, defaults = .ok settings) :
    ∃ vs, (m.applyAll defaults d).outcome = .ok vs ∧ vs.length = d.size ∧
      ∀ (i : Nat) row v, d.rows[i]? = some row → vs[i]? = some v →
        (m.apply defaults row).outcome = .ok v := by
  obtain ⟨vs, hvs, hans⟩ := lifts m d hd hchecks hrows hsettings
  refine ⟨vs, hvs, ?_, fun i row v hrow hv => ?_⟩
  · rw [← hans.length_eq, Dataset.length_rows]
  · obtain ⟨hi, rfl⟩ := List.getElem?_eq_some_iff.mp hrow
    obtain ⟨hi', rfl⟩ := List.getElem?_eq_some_iff.mp hv
    exact (List.forall₂_iff_get.mp hans).2 i hi hi'

/-- A column of three doubles. -/
def threeRows : Dataset :=
  ⟨[⟨"x", .double⟩],
    [(some (.finite false 1 0), ()), (some (.finite false 2 0), ()),
      (some (.finite false 3 0), ())]⟩

/-- The variable `x` is at least `n`. -/
def atLeast (n : Nat) : Formula := .atom ⟨"x", .ge, .numeric (.finite false n 0)⟩

/-- A list of one rule with a branch for its consequent and a forest for its default. -/
def listOfBranch : Model :=
  .decisionList .empty
    [⟨.empty, atLeast 2, .branch .empty (atLeast 3) (.constant .empty (.text "A"))
      (.constant .empty (.text "B"))⟩]
    (.forest .empty [⟨.empty, .constant .empty (.text "C")⟩])

theorem applyAll_eq_apply_listOfBranch :
    ∃ vs, (listOfBranch.applyAll (.ok .default) threeRows).outcome = .ok vs ∧
      vs.length = threeRows.size ∧
      ∀ (i : Nat) row v, threeRows.rows[i]? = some row → vs[i]? = some v →
        (listOfBranch.apply (.ok .default) row).outcome = .ok v := by
  have hchecks : ∀ f ∈ [atLeast 2, atLeast 3], CheckedByRow threeRows f := by
    rw [List.forall_mem_cons, List.forall_mem_singleton]
    exact ⟨⟨[false, true, true], rfl, .cons rfl (.cons rfl (.cons rfl .nil))⟩,
      ⟨[false, false, true], rfl, .cons rfl (.cons rfl (.cons rfl .nil))⟩⟩
  have hrows : ∀ row ∈ threeRows.rows,
      ∃ v, (listOfBranch.apply (.ok .default) row).outcome = .ok v := by
    have heach : List.Forall₂ (fun row v => (listOfBranch.apply (.ok .default) row).outcome = .ok v)
        threeRows.rows [.text "C", .text "B", .text "A"] :=
      .cons rfl (.cons rfl (.cons rfl .nil))
    intro row hrow
    obtain ⟨i, hi, rfl⟩ := List.getElem_of_mem hrow
    exact ⟨_, (List.forall₂_iff_get.mp heach).2 i hi (heach.length_eq ▸ hi)⟩
  exact applyAll_eq_apply (.ok .default) listOfBranch threeRows (List.cons_ne_nil _ _) hchecks hrows
    fun _ _ => ⟨.default, rfl⟩

/-- Settings that cannot be read. -/
def unreadable : Defaults := .error [⟨.suppressParityWarning, .noTruthValue⟩]

/-- A forest of one leaf. -/
def loneVoter : Model :=
  .forest .empty [⟨.empty, .constant .empty (.text "A")⟩]

/-- A column and no rows. -/
def rowless : Dataset := ⟨[⟨"x", .integer .int64⟩], []⟩

/-- Where the settings cannot be read, a forest fails on no rows at all, none of which it fails
on. -/
theorem not_applyAll_eq_apply_of_unreadable :
    ¬ ∀ (defaults : Defaults) (m : Model) (d : Dataset), d.schema ≠ [] →
      (∀ f ∈ m.antecedents, CheckedByRow d f) →
      (∀ row ∈ d.rows, ∃ v, (m.apply defaults row).outcome = .ok v) →
      ∃ vs, (m.applyAll defaults d).outcome = .ok vs ∧ vs.length = d.size ∧
        ∀ (i : Nat) row v, d.rows[i]? = some row → vs[i]? = some v →
          (m.apply defaults row).outcome = .ok v := by
  intro h
  obtain ⟨vs, hvs, -⟩ := h unreadable loneVoter rowless (by simp [rowless])
    (fun _ hf => nomatch (show _ ∈ ([] : List Formula) from hf)) (by simp [Dataset.rows, rowless])
  have herror : (loneVoter.applyAll unreadable rowless).outcome =
      .error (.settings [⟨.suppressParityWarning, .noTruthValue⟩]) := rfl
  cases herror.symm.trans hvs

end Rulebook.Model
