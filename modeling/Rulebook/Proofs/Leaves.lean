import Rulebook.Proofs.Openness

/-!
# Models — answers are outcomes of constants

What a model answers, to a single row or to the rows of a data set, is the outcome of one of its
constants, or it is the missing value.  This takes models without postprocesses and without
constants that are doubles (`Labelled`): a postprocess makes new values, and so does the average of
doubles.

* `Model.mayAnswer_of_applyAll`: a data set gets no answers but those that the model may give
  (`Model.MayAnswer`), since each of its rows is answered by a part that was asked for it.
* `Model.answers_from_leaves`: what a labelled model may answer comes from its leaves, since a vote
  that averages nothing is won by one of the votes.
-/

namespace Rulebook

/-! ### Merged answers -/

namespace Dataset

variable {α : Type} {held : List Bool} {positive negative : List Value} {v : Value}

theorem mem_merge (h : v ∈ merge held positive negative) :
    v = .missing ∨ v ∈ positive ∨ v ∈ negative := by
  fun_induction merge held positive negative with
  | case1 => cases h
  | case2 held negative ih => exact (List.mem_cons.mp h).elim .inl ih
  | case3 held w positive negative ih =>
      rcases List.mem_cons.mp h with rfl | h
      · exact .inr (.inl List.mem_cons_self)
      · exact (ih h).imp_right (.imp_left (List.mem_cons_of_mem _))
  | case4 held positive ih => exact (List.mem_cons.mp h).elim .inl ih
  | case5 held positive w negative ih =>
      rcases List.mem_cons.mp h with rfl | h
      · exact .inr (.inr List.mem_cons_self)
      · exact (ih h).imp_right (.imp_right (List.mem_cons_of_mem _))

theorem forall₂_const_iff {P : Value → Prop} {as : List α} {vs : List Value} :
    List.Forall₂ (fun _ v => P v) as vs ↔ as.length = vs.length ∧ ∀ v ∈ vs, P v := by
  induction vs generalizing as with
  | nil => simp [List.forall₂_nil_right_iff]
  | cons v vs ih =>
      cases as with
      | nil => simp
      | cons a as => simp [ih, and_left_comm]

/-- If there is an answer for each flagged position, what is merged is one of them. -/
theorem forall_mem_merge {P : Value → Prop} {as : List α} (hlength : as.length = held.length)
    (hpositive : (flagged true as held).length = positive.length ∧ ∀ v ∈ positive, P v)
    (hnegative : (flagged false as held).length = negative.length ∧ ∀ v ∈ negative, P v) :
    ∀ v ∈ merge held positive negative, P v := by
  have hflags : List.Forall₂ (fun _ _ => True) as held :=
    List.forall₂_iff_get.mpr ⟨hlength, fun _ _ _ => trivial⟩
  exact (forall₂_const_iff.mp (forall₂_merge hflags (forall₂_const_iff.mpr hpositive)
    (forall₂_const_iff.mpr hnegative))).2

end Dataset

/-- What is behind a member of the second of two related lists. -/
theorem exists_of_mem_right {α β : Type} {R : α → β → Prop} {as : List α} {bs : List β} {b : β}
    (h : List.Forall₂ R as bs) (hb : b ∈ bs) : ∃ a ∈ as, R a b := by
  induction h with
  | nil => cases hb
  | cons hR _ ih =>
      rcases List.mem_cons.mp hb with rfl | hb
      · exact ⟨_, List.mem_cons_self, hR⟩
      · obtain ⟨a, ha, hR⟩ := ih hb
        exact ⟨a, List.mem_cons_of_mem _ ha, hR⟩

/-- A row of a matrix takes one member of each column. -/
theorem forall₂_mem_of_mem_transpose {α : Type} {n : Nat} {columns : List (List α)}
    {members : List α} (h : members ∈ transpose n columns) :
    List.Forall₂ (fun column a => a ∈ column) columns members := by
  induction columns generalizing members with
  | nil =>
      obtain rfl := List.eq_of_mem_replicate h
      exact .nil
  | cons column columns ih =>
      obtain ⟨i, hi, rfl⟩ := List.getElem_of_mem h
      rw [transpose, List.length_zipWith] at hi
      simp only [transpose, List.getElem_zipWith]
      exact .cons (List.getElem_mem _) (ih (List.getElem_mem _))

namespace Model

variable {defaults : Defaults} {d : Dataset} {m c default : Model} {info : Info} {v : Value}

/-! ### Data sets -/

theorem applyTreesAll_eq_ok_iff {trees : List Tree} {columns : List (List Value)} :
    (applyTreesAll defaults trees d).outcome = .ok columns ↔
      List.Forall₂ (fun t column => (applyAll defaults (.tree t) d).outcome = .ok column) trees
        columns := by
  induction trees generalizing columns with
  | nil =>
      rw [List.forall₂_nil_left_iff]
      exact ⟨fun h => (Except.ok.inj h).symm, fun h => congrArg _ h.symm⟩
  | cons t trees ih =>
      simp only [applyTreesAll_cons, Except.bind_eq_ok_iff, ih, List.forall₂_cons_left_iff,
        Except.ok.injEq, ← exists_and_left, eq_comm (b := columns)]

/-- The data sets that a model answers get no answers but those that it may give. -/
def Confined (defaults : Defaults) (m : Model) : Prop :=
  ∀ d vs, (m.applyAll defaults d).outcome = .ok vs → ∀ v ∈ vs, m.MayAnswer v

theorem Confined.applyAt (hm : Confined defaults m) {positions : List Nat} {vs : List Value}
    (h : (m.applyAt defaults d positions).outcome = .ok vs) :
    positions.length = vs.length ∧ ∀ v ∈ vs, m.MayAnswer v := by
  refine ⟨(length_of_applyAt h).symm, ?_⟩
  rcases cases_of_applyAt h with ⟨-, rfl⟩ | ⟨w, hw, rfl⟩ | ⟨hanswers, -⟩
  · exact List.forall_mem_nil _
  · intro v hmem
    obtain ⟨-, -, rfl⟩ := List.mem_map.mp hmem
    cases m with
    | constant info outcome => exact (Option.some.inj hw).symm
    | _ => cases hw
  · exact hm _ _ hanswers

/-- The rules of a list give no answers but those of their consequents and of what comes last. -/
theorem forall_of_applyRulesAll {P : Value → Prop} {last : List Nat → Traced Fault (List Value)}
    (hlast : ∀ {positions vs}, (last positions).outcome = .ok vs →
      positions.length = vs.length ∧ ∀ v ∈ vs, P v)
    {rules : List Rule} (hrules : ∀ r ∈ rules, Confined defaults r.consequent)
    (hP : ∀ r ∈ rules, ∀ v, r.consequent.MayAnswer v → P v) {uncovered : List Nat}
    {vs : List Value} (h : (applyRulesAll defaults d last rules uncovered).outcome = .ok vs) :
    uncovered.length = vs.length ∧ ∀ v ∈ vs, P v := by
  refine ⟨(length_of_applyRulesAll (fun h => (hlast h).1.symm) h).symm, ?_⟩
  induction rules generalizing uncovered vs with
  | nil =>
      rw [applyRulesAll_nil] at h
      exact (hlast h).2
  | cons r rules ih =>
      rw [List.forall_mem_cons] at hrules hP
      rcases cases_of_applyRulesAll_cons h with
        ⟨-, rfl⟩ | ⟨held, positive, negative, hlength, hpositive, hnegative, rfl⟩
      · exact List.forall_mem_nil _
      · have hyes := hrules.1.applyAt hpositive
        have hno := length_of_applyRulesAll (fun h => (hlast h).1.symm) hnegative
        exact Dataset.forall_mem_merge hlength.symm
          ⟨hyes.1, fun v hv => hP.1 v (hyes.2 v hv)⟩ ⟨hno.symm, ih hrules.2 hP.2 hnegative⟩

theorem confined_rule {r : Rule} (hc : Confined defaults r.consequent) :
    Confined defaults (.rule r) := by
  intro d vs h v hv
  simp only [applyAll_rule, Traced.outcome_bind, Except.bind_eq_ok_iff, Traced.outcome_pure] at h
  obtain ⟨held, -, positive, hpositive, h⟩ := h
  cases h
  rcases Dataset.mem_merge hv with rfl | hmem | hmem
  · exact .inl rfl
  · exact .inr ((hc.applyAt hpositive).2 v hmem)
  · cases hmem

theorem confined_branch {f : Formula} {positive negative : Model} (hp : Confined defaults positive)
    (hn : Confined defaults negative) : Confined defaults (.branch info f positive negative) := by
  intro d vs h
  simp only [applyAll_branch, Traced.outcome_bind, Except.bind_eq_ok_iff, Traced.outcome_pure,
    Traced.outcome_ofExcept] at h
  obtain ⟨held, hcheck, yes, hyes, no, hno, h⟩ := h
  cases h
  have hyes := hp.applyAt hyes
  have hno := hn.applyAt hno
  refine Dataset.forall_mem_merge (List.length_range.trans (Dataset.length_of_check hcheck).symm)
    ⟨hyes.1, fun v hv => .inl (hyes.2 v hv)⟩ ⟨hno.1, fun v hv => .inr (hno.2 v hv)⟩

theorem confined_decisionList {rules : List Rule}
    (hrules : ∀ r ∈ rules, Confined defaults r.consequent) (hdefault : Confined defaults default) :
    Confined defaults (.decisionList info rules default) := by
  intro d vs h
  rw [applyAll_decisionList] at h
  refine (forall_of_applyRulesAll (fun h => ?_) hrules (fun r hr v hv => ?_) h).2
  · exact (hdefault.applyAt h).imp_right fun hvs v hv => .inr (hvs v hv)
  · exact .inl (rulesMayAnswer_iff.mpr ⟨r, hr, hv⟩)

theorem confined_tree {t : Tree} (hroot : Confined defaults t.root) :
    Confined defaults (.tree t) := by
  intro d vs h v hv
  rw [applyAll_tree, Traced.outcome_bind] at h
  obtain ⟨answers, hanswers, h⟩ := Except.bind_eq_ok_iff.mp h
  obtain ⟨w, hw, hfinish⟩ := exists_of_mem_right (Except.mapM_eq_ok_iff.mp h) hv
  exact ⟨w, hroot d answers hanswers w hw, hfinish⟩

/-- The votes on a row are votes that the trees may give. -/
theorem treesMayAnswer_of_columns {trees : List Tree} {columns : List (List Value)}
    {votes : List Value} (htrees : ∀ t ∈ trees, Confined defaults t.root)
    (hcolumns : (applyTreesAll defaults trees d).outcome = .ok columns)
    (hvotes : List.Forall₂ (fun column v => v ∈ column) columns votes) :
    TreesMayAnswer trees votes := by
  rw [treesMayAnswer_iff]
  rw [applyTreesAll_eq_ok_iff] at hcolumns
  induction hcolumns generalizing votes with
  | nil =>
      cases hvotes
      exact .nil
  | cons hcolumn _ ih =>
      rw [List.forall_mem_cons] at htrees
      cases hvotes with
      | cons hv hvotes => exact .cons (confined_tree htrees.1 d _ hcolumn _ hv) (ih htrees.2 hvotes)

theorem confined_forest {trees : List Tree} (htrees : ∀ t ∈ trees, Confined defaults t.root) :
    Confined defaults (.forest info trees) := by
  intro d vs h v hv
  simp only [applyAll_forest, Traced.outcome_bind, Except.bind_eq_ok_iff, Traced.outcome_mapM,
    Except.mapM_eq_ok_iff] at h
  obtain ⟨quiet, -, columns, hcolumns, hwinners⟩ := h
  obtain ⟨votes, hvotes, hwinner⟩ := exists_of_mem_right hwinners hv
  refine ⟨votes, treesMayAnswer_of_columns htrees hcolumns
    (forall₂_mem_of_mem_transpose hvotes), outcome_bestGuess_true_of_ok hwinner⟩

theorem confined (m : Model) : Confined defaults m := by
  induction m with
  | constant info outcome =>
      intro d vs h v hv
      cases h
      exact List.eq_of_mem_replicate hv
  | rule r ih => exact confined_rule ih
  | branch info f positive negative ihp ihn => exact confined_branch ihp ihn
  | decisionList info rules default ihr ihd => exact confined_decisionList ihr ihd
  | tree t ih => exact confined_tree ih
  | forest info trees ih => exact confined_forest ih
  | mixed info root feasible ih => exact fun d vs h => ih d vs h

/-- **A model answers the rows of a data set with nothing but what it may answer.** -/
theorem mayAnswer_of_applyAll {vs : List Value} (h : (m.applyAll defaults d).outcome = .ok vs)
    (hv : v ∈ vs) : m.MayAnswer v :=
  confined m d vs h v hv

/-! ### Leaves -/

/-- No constant is a double, and no tree changes its answers. -/
def Labelled (m : Model) : Prop :=
  ∀ c ∈ m.reachable, match c with
    | .constant _ outcome => ∀ x, outcome ≠ .real x
    | .tree t => t.info.postprocess = none
    | _ => True

/-- A value that is missing or the outcome of a leaf. -/
def FromLeaf (m : Model) (v : Value) : Prop :=
  v = .missing ∨ ∃ leaf ∈ m.leaves, leaf.outcome? = some v

theorem Labelled.of_mem_children (h : m.Labelled) (hc : c ∈ m.children) : c.Labelled :=
  fun x hx => h x (reachable_subset hc hx)

theorem FromLeaf.of_mem_children (h : c.FromLeaf v) (hc : c ∈ m.children) : m.FromLeaf v :=
  h.imp_right fun ⟨leaf, hleaf, hv⟩ =>
    ⟨leaf, List.filter_subset _ (reachable_subset hc) hleaf, hv⟩

/-- What comes from the leaves of a labelled model is no double. -/
theorem FromLeaf.ne_real (h : m.FromLeaf v) (hm : m.Labelled) (x : Binary64) : v ≠ .real x := by
  rcases h with rfl | ⟨leaf, hleaf, hv⟩
  · exact Value.noConfusion
  · have hlabel := hm leaf (List.mem_of_mem_filter hleaf)
    cases leaf with
    | constant info outcome => exact Option.some.inj hv ▸ hlabel x
    | _ => cases hv

theorem fromLeaf_tree {t : Tree} (hm : Labelled (.tree t))
    (hroot : ∀ v, t.root.MayAnswer v → t.root.FromLeaf v) (h : MayAnswer (.tree t) v) :
    FromLeaf (.tree t) v := by
  obtain ⟨w, hw, hfinish⟩ := h
  have hnone : t.info.postprocess = none := hm _ List.mem_cons_self
  simp only [Info.finish, hnone, Except.ok.injEq] at hfinish
  subst hfinish
  exact (hroot w hw).of_mem_children (root_mem_children t)

/-- **What a labelled model may answer comes from its leaves.** -/
theorem fromLeaf_of_mayAnswer (hm : m.Labelled) (h : m.MayAnswer v) : m.FromLeaf v := by
  induction m generalizing v with
  | constant info outcome =>
      exact .inr ⟨.constant info outcome, List.mem_singleton_self _, congrArg some (Eq.symm h)⟩
  | rule r ih =>
      have hc := consequent_mem_children r
      rcases h with rfl | h
      · exact .inl rfl
      · exact (ih (hm.of_mem_children hc) h).of_mem_children hc
  | branch info f positive negative ihp ihn =>
      have hp := positive_mem_children info f positive negative
      have hn := negative_mem_children info f positive negative
      rcases h with h | h
      · exact (ihp (hm.of_mem_children hp) h).of_mem_children hp
      · exact (ihn (hm.of_mem_children hn) h).of_mem_children hn
  | decisionList info rules default ihr ihd =>
      rcases h with h | h
      · obtain ⟨r, hr, h⟩ := rulesMayAnswer_iff.mp h
        have hrule := rule_mem_children info hr default
        have hc := consequent_mem_children r
        exact ((ihr r hr ((hm.of_mem_children hrule).of_mem_children hc) h).of_mem_children
          hc).of_mem_children hrule
      · have hd := default_mem_children info rules default
        exact (ihd (hm.of_mem_children hd) h).of_mem_children hd
  | tree t ih =>
      have hroot := root_mem_children t
      exact fromLeaf_tree hm (fun w hw => ih (hm.of_mem_children hroot) hw) h
  | forest info trees ih =>
      obtain ⟨votes, hvotes, hwinner⟩ := h
      -- every vote comes from a leaf, so there is no double to average
      have hleaf : ∀ w ∈ votes, FromLeaf (.forest info trees) w := by
        intro w hw
        obtain ⟨t, ht, hmay⟩ := exists_of_mem_right (treesMayAnswer_iff.mp hvotes) hw
        have htree := tree_mem_children info ht
        have hroot := root_mem_children t
        have hlabelled := hm.of_mem_children htree
        exact (fromLeaf_tree hlabelled
          (fun w hw => ih t ht (hlabelled.of_mem_children hroot) hw) hmay).of_mem_children htree
      exact hleaf v (mem_of_bestGuess_of_ne_real hwinner fun w hw => (hleaf w hw).ne_real hm)
  | mixed info root feasible ih =>
      have hroot := inner_mem_children info root feasible
      exact (ih (hm.of_mem_children hroot) h).of_mem_children hroot

/-- **No answer is invented.**  A model without postprocesses and without constants that are doubles
answers every row, on its own or in a data set, with the outcome of one of its leaves or not at
all. -/
theorem answers_from_leaves (m : Model) (hm : m.Labelled) :
    (∀ defaults row v, (m.apply defaults row).outcome = .ok v → m.FromLeaf v) ∧
      ∀ defaults d vs, (m.applyAll defaults d).outcome = .ok vs → ∀ v ∈ vs, m.FromLeaf v :=
  ⟨fun _ _ _ h => fromLeaf_of_mayAnswer hm (mayAnswer_of_apply h),
    fun _ _ _ h _ hv => fromLeaf_of_mayAnswer hm (mayAnswer_of_applyAll h hv)⟩

/-- A rule with a forest for which `1` and `True` are one label, and another for what is left. -/
def oneLabel : Model :=
  .decisionList .empty
    [⟨.empty, atLeast 2, .forest .empty
      [⟨.empty, .constant .empty (.text "A")⟩, ⟨.empty, .constant .empty (.bool true)⟩,
        ⟨.empty, .constant .empty (.int 1)⟩]⟩]
    (.rule ⟨.empty, atLeast 9, .constant .empty (.text "B")⟩)

theorem answers_from_leaves_oneLabel :
    oneLabel.Labelled ∧
      (oneLabel.applyAll (.ok .default) threeRows).outcome =
        .ok [.missing, .bool true, .bool true] ∧
      ∀ v ∈ [.missing, .bool true, .bool true], oneLabel.FromLeaf v := by
  have hlabelled : oneLabel.Labelled := by
    simp [Labelled, oneLabel, reachable, submodels, ruleSubmodels, treeSubmodels, Info.empty]
  have hanswers : (oneLabel.applyAll (.ok .default) threeRows).outcome =
      .ok [.missing, .bool true, .bool true] := rfl
  exact ⟨hlabelled, hanswers, (answers_from_leaves oneLabel hlabelled).2 _ _ _ hanswers⟩

end Model

end Rulebook
