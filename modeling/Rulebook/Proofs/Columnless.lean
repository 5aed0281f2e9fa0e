import Rulebook.Dataset.Build
import Rulebook.Proofs.IfElseChain

/-!
# Models — rows without variables

A data set without columns counts its rows, but its slices have none.  What asks a part of a model
for the rows at some positions gets fewer answers than there are positions, and fails, unless the
part is a constant, which is not asked.

Where all antecedents hold, this decides the outcome (`applyAll_columnless`): a model answers the
rows, each as it answers one row without variables, if no slice is asked on the way (`keepsCount`),
and fails otherwise.  A decision list slices the set for each of its rules, so that a list with a
rule fails whatever its consequents are.
-/

namespace Rulebook

/-! ### The data set -/

namespace Dataset

/-- Rows without variables. -/
def columnless (n : Nat) : Dataset := ⟨[], List.replicate n ()⟩

@[simp]
theorem size_columnless (n : Nat) : (columnless n).size = n := List.length_replicate

theorem rows_columnless (n : Nat) : (columnless n).rows = List.replicate n [] :=
  List.map_replicate

theorem slice_columnless (n : Nat) (positions : List Nat) :
    (columnless n).slice positions = columnless 0 :=
  rfl

theorem ofRecords?_replicate_nil (n : Nat) :
    ofRecords? (List.replicate n []) = some (columnless n) := by
  have hschema : Schema.infer (List.replicate n []) = [] := by
    simp [Schema.infer, List.flatMap_replicate]
  have hrecords : ∀ n, (List.replicate n ([] : Row)).mapM (Schema.coerceRow? · []) =
      some (List.replicate n ()) := fun n => by
    induction n with
    | zero => rfl
    | succ n ih => rw [List.replicate_succ, List.mapM_cons, ih]; rfl
  unfold ofRecords?
  rw [hschema]
  dsimp only
  rw [hrecords]
  rfl

theorem check_top (d : Dataset) : d.check .top = .ok (List.replicate d.size true) := by
  by_cases hd : d.size = 0
  · rw [check_of_size_eq_zero hd, hd]
    rfl
  · exact (check_eq_ok_iff hd rfl).mpr ⟨List.forall_mem_nil _, [], rfl, List.forall_mem_nil _,
      List.forall_mem_nil _, List.map_const'.symm⟩

theorem flagged_replicate {α : Type} (b c : Bool) (as : List α) :
    flagged b as (List.replicate as.length c) = if c = b then as else [] := by
  induction as with
  | nil => split <;> rfl
  | cons a as ih =>
      rw [List.length_cons, List.replicate_succ, flagged, ih]
      split <;> rfl

theorem merge_replicate_true (n : Nat) (v : Value) (negative : List Value) :
    merge (List.replicate n true) (List.replicate n v) negative = List.replicate n v := by
  induction n with
  | zero => rfl
  | succ n ih => rw [List.replicate_succ, List.replicate_succ, merge, ih]

end Dataset

theorem transpose_replicate {α : Type} (n : Nat) (row : List α) :
    transpose n (row.map (List.replicate n)) = List.replicate n row := by
  induction row with
  | nil => rfl
  | cons a row ih => rw [List.map_cons, transpose, ih, List.zipWith_replicate']

namespace Model

open Dataset (columnless)

variable {defaults : Defaults} {m : Model} {info : Info} {o : Value} {n : Nat}

/-! ### What asks for slices -/

mutual

/-- Whether a model whose antecedents all hold asks none of its parts for the rows at some
positions: the part that answers is a constant, or is given the whole set. -/
def keepsCount : Model → Bool
  | .constant .. => true
  | .rule ⟨_, _, consequent⟩ => consequent.outcome?.isSome
  | .branch _ _ positive _ => positive.outcome?.isSome
  | .decisionList _ rules default => rules.isEmpty && default.outcome?.isSome
  | .tree ⟨_, root⟩ => root.keepsCount
  | .forest _ trees => treesKeepCount trees
  | .mixed _ root _ => root.keepsCount

/-- Whether the roots of some trees all do. -/
def treesKeepCount : List Tree → Bool
  | [] => true
  | ⟨_, root⟩ :: trees => root.keepsCount && treesKeepCount trees

end

/-- The outcome on some rows of what answers `a` to each of them, where it keeps their count. -/
def repeated {α : Type} (kept : Bool) (n : Nat) (a : α) : Except Fault (List α) :=
  if kept then .ok (List.replicate n a) else .error .lostRows

theorem repeated_bind {α β : Type} {kept : Bool} {a : α} {f : List α → Except Fault β} :
    (repeated kept n a >>= f) = if kept then f (List.replicate n a) else .error .lostRows := by
  cases kept <;> rfl

/-- Whoever votes first has read the settings once it answers. -/
theorem exists_settings_of_apply (hvotes : m.votesFirst) {row : Row}
    (ho : (m.apply defaults row).outcome = .ok o) : ∃ settings, defaults = .ok settings := by
  induction m generalizing o with
  | forest info trees _ =>
      rw [apply_forest] at ho
      obtain ⟨quiet, hquiet, -⟩ := Except.bind_eq_ok_iff.mp ho
      obtain ⟨settings, hsettings, -⟩ := quiet_none_eq_ok_iff.mp hquiet
      exact ⟨settings, hsettings⟩
  | tree t ih =>
      rw [apply_tree] at ho
      obtain ⟨w, hw, -⟩ := Except.bind_eq_ok_iff.mp ho
      exact ih hvotes hw
  | mixed info root feasible ih => exact ih hvotes ho
  | constant | rule | branch | decisionList => cases hvotes

/-- **A part keeps the count of a slice only if it is a constant.** -/
theorem applyAt_columnless {positions : List Nat} (hp : positions ≠ [])
    (ho : (m.apply defaults []).outcome = .ok o) :
    (m.applyAt defaults (columnless n) positions).outcome =
      repeated m.outcome?.isSome positions.length o := by
  unfold applyAt Dataset.answer
  rw [if_neg (by rwa [List.isEmpty_iff])]
  cases hv : m.outcome? with
  | some v =>
      cases m with
      | constant info w =>
          obtain rfl : w = v := Option.some.inj hv
          obtain rfl : w = o := Except.ok.inj ho
          exact congrArg _ List.map_const'
      | _ => exact absurd hv (by simp [outcome?])
  | none =>
      dsimp only
      rw [Dataset.slice_columnless, applyAll_of_size_eq_zero rfl fun hvotes =>
        exists_settings_of_apply hvotes ho, pure_bind,
        if_neg fun h => hp (List.length_eq_zero_iff.mp h.symm)]
      rfl

/-! ### One kind after the other -/

/-- A model that answers a row without variables answers several of them alike or loses them. -/
def Repeats (defaults : Defaults) (n : Nat) (m : Model) : Prop :=
  ∀ {o : Value}, (m.apply defaults []).outcome = .ok o →
    (m.applyAll defaults (columnless n)).outcome = repeated m.keepsCount n o

/-- Where an antecedent holds of all rows, the part below it is asked for all. -/
theorem applyAt_flagged_columnless (hn : n ≠ 0) (ho : (m.apply defaults []).outcome = .ok o) :
    (m.applyAt defaults (columnless n) (Dataset.flagged true (List.range n)
      (List.replicate n true))).outcome = repeated m.outcome?.isSome n o := by
  have hall := Dataset.flagged_replicate true true (List.range n)
  rw [List.length_range, if_pos rfl] at hall
  rw [hall, applyAt_columnless (by rwa [ne_eq, List.range_eq_nil]) ho, List.length_range]

theorem repeats_rule (hn : n ≠ 0) {r : Rule} (hr : r.antecedent = .top) :
    Repeats defaults n (.rule r) := by
  intro o ho
  rw [apply_rule_of_true (by rw [hr]; rfl)] at ho
  rw [applyAll_rule, hr, Dataset.check_top, Dataset.size_columnless, Traced.outcome_bind,
    Traced.outcome_ofExcept, Except.ok_bind, Traced.outcome_bind,
    applyAt_flagged_columnless hn ho, repeated_bind, Traced.outcome_pure,
    Dataset.merge_replicate_true]
  rfl

theorem repeats_branch (hn : n ≠ 0) {f : Formula} (hf : f = .top) (positive negative : Model) :
    Repeats defaults n (.branch info f positive negative) := by
  intro o ho
  subst hf
  rw [apply_branch_of_check (b := true) rfl, cond_true] at ho
  have hnone := Dataset.flagged_replicate false true (List.range n)
  rw [List.length_range, if_neg (by decide)] at hnone
  rw [applyAll_branch, Dataset.check_top, Dataset.size_columnless, Traced.outcome_bind,
    Traced.outcome_ofExcept, Except.ok_bind, Traced.outcome_bind,
    applyAt_flagged_columnless hn ho, repeated_bind, hnone]
  -- the negative side is asked for no rows
  have hnegative : negative.applyAt defaults (columnless n) [] = pure [] := rfl
  rw [hnegative, pure_bind, Traced.outcome_pure, Dataset.merge_replicate_true]
  rfl

/-- A list looks at its rules through slices, and at its default alone through none. -/
theorem repeats_decisionList (hn : n ≠ 0) (rules : List Rule) (default : Model) :
    Repeats defaults n (.decisionList info rules default) := by
  intro o ho
  have hrange : List.range n ≠ [] := by rwa [ne_eq, List.range_eq_nil]
  rw [applyAll_decisionList, Dataset.size_columnless]
  cases rules with
  | nil =>
      rw [apply_decisionList_nil] at ho
      have hdefault := applyAt_columnless (n := n) hrange ho
      rw [List.length_range] at hdefault
      rw [applyRulesAll_nil]
      exact hdefault
  | cons r rules =>
      rw [applyRulesAll_cons_eq, if_neg (by rwa [List.isEmpty_iff]), Dataset.slice_columnless,
        Dataset.check_of_size_eq_zero rfl, Traced.outcome_bind, Traced.outcome_ofExcept,
        Except.ok_bind, List.length_nil, List.length_range, if_neg (Ne.symm hn)]
      rfl

theorem repeats_tree {t : Tree} (hroot : Repeats defaults n t.root) :
    Repeats defaults n (.tree t) := by
  intro o ho
  rw [apply_tree] at ho
  obtain ⟨w, hw, hfinish⟩ := Except.bind_eq_ok_iff.mp ho
  rw [applyAll_tree, Traced.outcome_bind, hroot hw, repeated_bind, Traced.outcome_ofExcept,
    Except.mapM_replicate hfinish]
  rfl

/-- The votes of some trees on many rows, tree by tree. -/
theorem applyTreesAll_columnless {trees : List Tree}
    (htrees : ∀ t ∈ trees, Repeats defaults n t.root) {votes : List Value}
    (hvotes : (applyTrees defaults [] trees).outcome = .ok votes) :
    (applyTreesAll defaults trees (columnless n)).outcome =
      if treesKeepCount trees then .ok (votes.map (List.replicate n)) else .error .lostRows := by
  induction trees generalizing votes with
  | nil =>
      cases hvotes
      rfl
  | cons t trees ih =>
      rw [List.forall_mem_cons] at htrees
      rw [applyTrees_cons] at hvotes
      obtain ⟨v, hv, hvotes⟩ := Except.bind_eq_ok_iff.mp hvotes
      obtain ⟨vs, hvs, hvotes⟩ := Except.bind_eq_ok_iff.mp hvotes
      cases hvotes
      have htree : keepsCount (.tree t) = t.root.keepsCount := rfl
      have hcons : treesKeepCount (t :: trees) = (t.root.keepsCount && treesKeepCount trees) := rfl
      rw [applyTreesAll_cons, repeats_tree htrees.1 hv, repeated_bind, ih htrees.2 hvs, htree,
        hcons]
      cases t.root.keepsCount <;> cases treesKeepCount trees <;> rfl

theorem repeats_forest {trees : List Tree} (htrees : ∀ t ∈ trees, Repeats defaults n t.root) :
    Repeats defaults n (.forest info trees) := by
  intro o ho
  rw [apply_forest] at ho
  obtain ⟨quiet, hquiet, ho⟩ := Except.bind_eq_ok_iff.mp ho
  obtain ⟨votes, hvotes, ho⟩ := Except.bind_eq_ok_iff.mp ho
  rw [applyAll_forest, Traced.outcome_bind, Traced.outcome_ofExcept, hquiet, Except.ok_bind,
    Traced.outcome_bind, applyTreesAll_columnless htrees hvotes]
  change _ = repeated (treesKeepCount trees) n o
  cases treesKeepCount trees with
  | true =>
      rw [if_pos rfl, Except.ok_bind, Dataset.size_columnless, transpose_replicate,
        Traced.outcome_mapM]
      exact Except.mapM_replicate (f := fun votes => (bestGuess quiet votes).outcome) ho n
  | false => rfl

/-- **What a model of any nesting answers to rows without variables.** -/
theorem repeats (hn : n ≠ 0) (htop : ∀ f ∈ m.antecedents, f = .top) :
    Repeats defaults n m := by
  induction m with
  | constant info v =>
      intro o ho
      cases ho
      exact congrArg (fun k => Except.ok (List.replicate k v)) (Dataset.size_columnless n)
  | rule r _ => exact repeats_rule hn (htop _ List.mem_cons_self)
  | branch info f positive negative _ _ =>
      rw [antecedents_branch] at htop
      exact repeats_branch hn (htop _ List.mem_cons_self) positive negative
  | decisionList info rules default _ _ => exact repeats_decisionList hn rules default
  | tree t ih => exact repeats_tree (ih htop)
  | forest info trees ih =>
      rw [antecedents_forest] at htop
      exact repeats_forest fun t ht => ih t ht fun f hf => htop f (List.mem_flatMap_of_mem ht hf)
  | mixed info root feasible ih =>
      intro o ho
      exact ih htop ho

/-! ### The batch -/

/-- **Rows without variables are answered, each as one of them is, or all are lost.**  From `n`
records without members comes a data set of `n` rows without columns.  Let all antecedents of a
model be the one that always holds, and let the model answer `o` to the row without variables.  It
answers `n` times `o` to the data set exactly when there are no rows or it asks none of its parts
for a slice.  Otherwise it fails, for the slice has fewer rows than it was asked for. -/
theorem applyAll_columnless (defaults : Defaults) (m : Model) (o : Value) (n : Nat)
    (htop : ∀ f ∈ m.antecedents, f = .top) (ho : (m.apply defaults []).outcome = .ok o) :
    ∃ d, Dataset.ofRecords? (List.replicate n []) = some d ∧ d.rows = List.replicate n [] ∧
      (m.applyAll defaults d).outcome =
        if n = 0 ∨ m.keepsCount then .ok (List.replicate n o) else .error .lostRows := by
  refine ⟨columnless n, Dataset.ofRecords?_replicate_nil n, Dataset.rows_columnless n, ?_⟩
  by_cases hn : n = 0
  · subst hn
    rw [applyAll_of_size_eq_zero rfl fun hvotes => exists_settings_of_apply hvotes ho,
      if_pos (.inl rfl)]
    rfl
  · rw [repeats hn htop ho]
    simp only [hn, false_or]
    rfl

/-- A branch with a constant, and a list with a rule, which answer alike. -/
def constantBranch : Model :=
  .branch .empty .top (.constant .empty (.text "A")) (.constant .empty (.text "B"))

def listOfOneRule : Model :=
  .decisionList .empty [⟨.empty, .top, .constant .empty (.text "A")⟩]
    (.constant .empty (.text "B"))

theorem applyAll_columnless_twoRows :
    (constantBranch.applyAll (.ok .default) (columnless 2)).outcome =
        .ok [.text "A", .text "A"] ∧
      (listOfOneRule.applyAll (.ok .default) (columnless 2)).outcome = .error .lostRows := by
  have htop : ∀ f ∈ constantBranch.antecedents ++ listOfOneRule.antecedents, f = .top := by
    simp [constantBranch, listOfOneRule, antecedents, reachable, submodels, ruleSubmodels]
  obtain ⟨htopB, htopL⟩ := List.forall_mem_append.mp htop
  obtain ⟨d, hd, -, hbranch⟩ :=
    applyAll_columnless (.ok .default) constantBranch (.text "A") 2 htopB rfl
  obtain ⟨d', hd', -, hlist⟩ :=
    applyAll_columnless (.ok .default) listOfOneRule (.text "A") 2 htopL rfl
  obtain rfl := Option.some.inj (hd.symm.trans (Dataset.ofRecords?_replicate_nil 2))
  obtain rfl := Option.some.inj (hd'.symm.trans (Dataset.ofRecords?_replicate_nil 2))
  exact ⟨hbranch, hlist⟩

/-- A list with a rule that always holds answers one row without variables and not two. -/
theorem not_applyAll_columnless_of_list :
    ¬ ∀ (m : Model) (o : Value) (n : Nat), (∀ f ∈ m.antecedents, f = .top) →
      (m.apply (.ok .default) []).outcome = .ok o →
      ∀ d, Dataset.ofRecords? (List.replicate n []) = some d →
        (m.applyAll (.ok .default) d).outcome = .ok (List.replicate n o) := by
  intro h
  have htop : ∀ f ∈ listOfOneRule.antecedents, f = .top := by
    simp [listOfOneRule, antecedents, reachable, submodels, ruleSubmodels]
  have hlost : (listOfOneRule.applyAll (.ok .default) (columnless 2)).outcome =
      .error .lostRows := rfl
  have heq := h listOfOneRule (.text "A") 2 htop rfl _ (Dataset.ofRecords?_replicate_nil 2)
  cases hlost.symm.trans heq

end Model

end Rulebook
