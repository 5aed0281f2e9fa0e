import Rulebook.Proofs.Slices

/-!
# Models — what a decision list writes

On a data set a decision list goes through its rules in a loop that keeps a record (`Model.prune`),
and what is written by the record are its answers.  The record can be read in a second way: the
answers of a turn are merged with those of the turns after it (`Pruning.merged`).  At all positions
the two are one list, since every position is written to once.

* `Dataset.checkAt_eq_ok_iff`: the check of the rows at some positions.
* `Model.Pruned`: a run of the loop, by its cases; `pruned_of_prune` says that there are no others.
* `Pruned.map_writes_perm`: each position is written to once.
* `Model.applyRulesAll`: the merged answers, rule after rule; `applyAll_decisionList` says that they
  are the answers of the list.
-/

namespace Rulebook

namespace Dataset

variable {d : Dataset} {f : Formula} {positions : List Nat} {held : List Bool}

theorem checkAt_eq_ok_iff {c : Checked} :
    d.checkAt f positions = .ok c ↔
      c.positions = positions ∧ (d.slice positions).check f = .ok c.held ∧
        c.held.length = positions.length := by
  unfold checkAt
  rw [Except.bind_eq_ok_iff]
  constructor
  · rintro ⟨held, hcheck, h⟩
    split at h
    next hlength =>
      cases h
      exact ⟨rfl, hcheck, hlength⟩
    next => cases h
  · rintro ⟨rfl, hcheck, hlength⟩
    exact ⟨c.held, hcheck, if_pos hlength⟩

/-- What follows a check at some positions follows the check of their slice. -/
theorem ofExcept_checkAt_bind {α : Type} (k : Checked → Traced Fault α) :
    Traced.ofExcept (d.checkAt f positions) >>= k =
      Traced.ofExcept ((d.slice positions).check f) >>= fun held =>
        if held.length = positions.length then k ⟨positions, held⟩ else .fail .lostRows := by
  unfold checkAt
  cases (d.slice positions).check f with
  | error e => rfl
  | ok held =>
      change Traced.ofExcept (if _ then _ else _) >>= k = pure held >>= _
      rw [pure_bind]
      by_cases hlength : held.length = positions.length
      · rw [if_pos hlength, if_pos hlength]
        exact pure_bind _ k
      · rw [if_neg hlength, if_neg hlength]
        rfl

/-- Merged answers beside their members are the answers beside the members of either flag. -/
theorem zip_merge_perm {α : Type} {as : List α} (hlength : held.length = as.length)
    {positive negative : List Value} (hpos : positive.length = (flagged true as held).length)
    (hneg : negative.length = (flagged false as held).length) :
    (as.zip (merge held positive negative)).Perm
      ((flagged true as held).zip positive ++ (flagged false as held).zip negative) := by
  induction as generalizing held positive negative with
  | nil =>
      obtain rfl := List.length_eq_zero_iff.mp hlength
      exact .nil
  | cons a as ih =>
      obtain ⟨b, held, rfl⟩ := List.exists_cons_of_length_eq_add_one hlength
      rw [List.length_cons, List.length_cons, Nat.add_right_cancel_iff] at hlength
      cases b with
      | true =>
          obtain ⟨v, positive, rfl⟩ := List.exists_cons_of_length_eq_add_one hpos
          exact (ih hlength (Nat.succ.inj hpos) hneg).cons (a, v)
      | false =>
          obtain ⟨v, negative, rfl⟩ := List.exists_cons_of_length_eq_add_one hneg
          have hrest := (ih hlength hpos (Nat.succ.inj hneg)).cons (a, v)
          have hmerge : merge (false :: held) positive (v :: negative) =
              v :: merge held positive negative := by
            cases positive <;> rfl
          rw [hmerge]
          exact hrest.trans List.perm_middle.symm

end Dataset

namespace Pruning

/-- The answers of each turn merged into those of the turns after it. -/
def merged (log : Pruning) : List Value :=
  log.turns.foldr (fun t vs => Dataset.merge t.held t.values vs) log.values

theorem writes_after (log : Pruning) (t : Turn) :
    (log.after t).writes = t.matched.zip t.values ++ log.writes :=
  (List.append_assoc _ _ _).trans rfl

end Pruning

namespace Model

/-- The answers of a model to the rows at some positions. -/
def applyAt (defaults : Defaults) (m : Model) (d : Dataset) (positions : List Nat) :
    Traced Fault (List Value) :=
  d.answer m.outcome? (fun s => m.applyAll defaults s) positions

variable {defaults : Defaults} {d : Dataset} {m default : Model} {info : Info} {f : Formula}
  {r : Rule} {rules : List Rule} {uncovered : List Nat} {log : Pruning}
  {last : List Nat → Traced Fault (List Value)}

theorem applyAll_branch (positive negative : Model) (d : Dataset) :
    applyAll defaults (.branch info f positive negative) d =
      Traced.ofExcept (d.check f) >>= fun held =>
        positive.applyAt defaults d (Dataset.flagged true (List.range d.size) held) >>= fun yes =>
        negative.applyAt defaults d (Dataset.flagged false (List.range d.size) held) >>= fun no =>
          pure (Dataset.merge held yes no) :=
  rfl

theorem applyAll_rule (r : Rule) (d : Dataset) :
    applyAll defaults (.rule r) d =
      Traced.ofExcept (d.check r.antecedent) >>= fun held =>
        r.consequent.applyAt defaults d (Dataset.flagged true (List.range d.size) held) >>=
          fun positive => pure (Dataset.merge held positive []) :=
  rfl

theorem applyAll_decisionList_eq_prune (rules : List Rule) (d : Dataset) :
    applyAll defaults (.decisionList info rules default) d =
      prune defaults d (default.applyAt defaults d) rules (List.range d.size) >>= fun log =>
        pure (log.answers d.size) :=
  rfl

theorem applyAll_tree (t : Tree) (d : Dataset) :
    applyAll defaults (.tree t) d =
      t.root.applyAll defaults d >>= fun answers =>
        Traced.ofExcept (answers.mapM t.info.finish) :=
  rfl

theorem applyAll_forest (trees : List Tree) (d : Dataset) :
    applyAll defaults (.forest info trees) d =
      Traced.ofExcept (defaults.quiet none) >>= fun quiet =>
        applyTreesAll defaults trees d >>= fun votes =>
          (transpose d.size votes).mapM (bestGuess quiet) :=
  rfl

/-- The answers at some positions: none, those of a constant, or those to the slice. -/
theorem cases_of_applyAt {positions : List Nat} {vs : List Value}
    (h : (m.applyAt defaults d positions).outcome = .ok vs) :
    (positions = [] ∧ vs = []) ∨
      (∃ v, m.outcome? = some v ∧ vs = positions.map fun _ => v) ∨
      ((m.applyAll defaults (d.slice positions)).outcome = .ok vs ∧
        vs.length = positions.length) := by
  unfold applyAt Dataset.answer at h
  split at h
  next hnone =>
    cases h
    exact .inl ⟨List.isEmpty_iff.mp hnone, rfl⟩
  next =>
    cases hv : m.outcome? with
    | some v =>
        rw [hv] at h
        cases h
        exact .inr (.inl ⟨v, rfl, rfl⟩)
    | none =>
        rw [hv, Traced.outcome_bind] at h
        obtain ⟨answers, hanswers, h⟩ := Except.bind_eq_ok_iff.mp h
        split at h
        next hlength =>
          cases h
          exact .inr (.inr ⟨hanswers, hlength⟩)
        next => cases h

theorem length_of_applyAt {positions : List Nat} {vs : List Value}
    (h : (m.applyAt defaults d positions).outcome = .ok vs) : vs.length = positions.length := by
  rcases cases_of_applyAt h with ⟨rfl, rfl⟩ | ⟨v, -, rfl⟩ | ⟨-, hlength⟩
  · rfl
  · exact List.length_map _
  · exact hlength

/-! ### Runs of the loop -/

theorem prune_cons (r : Rule) (rules : List Rule) (uncovered : List Nat) :
    prune defaults d last (r :: rules) uncovered =
      if uncovered.isEmpty then pure ⟨[], [], []⟩
      else Traced.ofExcept (d.checkAt r.antecedent uncovered) >>= fun checked =>
        r.consequent.applyAt defaults d checked.matched >>= fun values =>
          prune defaults d last rules checked.passed >>= fun log =>
            pure (log.after ⟨checked, values⟩) :=
  rfl

/-- A run of the loop: over no rules the default answers; no position is left; or the next rule has
its turn, and the loop goes on with the positions at which its antecedent is false. -/
inductive Pruned (defaults : Defaults) (d : Dataset) (default : Model) :
    List Rule → List Nat → Pruning → Prop
  | last {uncovered : List Nat} {values : List Value}
      (hvalues : (default.applyAt defaults d uncovered).outcome = .ok values) :
      Pruned defaults d default [] uncovered ⟨[], uncovered, values⟩
  | covered {r : Rule} {rules : List Rule} : Pruned defaults d default (r :: rules) [] ⟨[], [], []⟩
  | turn {r : Rule} {rules : List Rule} {uncovered : List Nat} {checked : Dataset.Checked}
      {values : List Value} {log : Pruning} (hsome : uncovered ≠ [])
      (hchecked : d.checkAt r.antecedent uncovered = .ok checked)
      (hvalues : (r.consequent.applyAt defaults d checked.matched).outcome = .ok values)
      (hrest : Pruned defaults d default rules checked.passed log) :
      Pruned defaults d default (r :: rules) uncovered (log.after ⟨checked, values⟩)

theorem pruned_of_prune
    (h : (prune defaults d (default.applyAt defaults d) rules uncovered).outcome = .ok log) :
    Pruned defaults d default rules uncovered log := by
  induction rules generalizing uncovered log with
  | nil =>
      rw [prune, Traced.outcome_bind] at h
      obtain ⟨values, hvalues, h⟩ := Except.bind_eq_ok_iff.mp h
      cases h
      exact .last hvalues
  | cons r rules ih =>
      rw [prune_cons] at h
      by_cases hnone : uncovered.isEmpty
      · obtain rfl := List.isEmpty_iff.mp hnone
        cases h
        exact .covered
      · rw [if_neg hnone] at h
        simp only [Traced.outcome_bind, Except.bind_eq_ok_iff, Traced.outcome_ofExcept,
          Traced.outcome_pure] at h
        obtain ⟨checked, hchecked, values, hvalues, log', hlog, h⟩ := h
        cases h
        exact .turn (mt List.isEmpty_iff.mpr hnone) hchecked hvalues (ih hlog)

/-! ### What is written -/

section Writes

variable {ws : List (Nat × Value)} {p : Nat} {v : Value}

theorem length_foldl_set (ws : List (Nat × Value)) (vs : List Value) :
    (ws.foldl (fun vs w => vs.set w.1 w.2) vs).length = vs.length := by
  induction ws generalizing vs with
  | nil => rfl
  | cons w ws ih => rw [List.foldl_cons, ih, List.length_set]

/-- A place that nothing is written to is left as it is. -/
theorem getElem?_foldl_set_of_notMem (hp : p ∉ ws.map Prod.fst) (vs : List Value) :
    (ws.foldl (fun vs w => vs.set w.1 w.2) vs)[p]? = vs[p]? := by
  induction ws generalizing vs with
  | nil => rfl
  | cons w ws ih =>
      rw [List.map_cons, List.mem_cons, not_or] at hp
      rw [List.foldl_cons, ih hp.2, List.getElem?_set_ne (Ne.symm hp.1)]

/-- A place that is written to once has what is written there. -/
theorem getElem?_foldl_set (hnodup : (ws.map Prod.fst).Nodup) (hmem : (p, v) ∈ ws)
    {vs : List Value} (hp : p < vs.length) :
    (ws.foldl (fun vs w => vs.set w.1 w.2) vs)[p]? = some v := by
  induction ws generalizing vs with
  | nil => exact absurd hmem List.not_mem_nil
  | cons w ws ih =>
      obtain ⟨hnot, hnodup⟩ := List.nodup_cons.mp hnodup
      rw [List.foldl_cons]
      rcases List.mem_cons.mp hmem with rfl | hmem
      · rw [getElem?_foldl_set_of_notMem hnot, List.getElem?_set_self hp]
      · exact ih hnodup hmem (by rwa [List.length_set])

end Writes

namespace Pruned

theorem length_merged (h : Pruned defaults d default rules uncovered log) :
    log.merged.length = uncovered.length := by
  cases h with
  | last hvalues => exact length_of_applyAt hvalues
  | covered => rfl
  | turn _ hchecked =>
      exact (Dataset.length_merge _ _ _).trans (Dataset.checkAt_eq_ok_iff.mp hchecked).2.2

/-- The writes are the merged answers, each beside its position. -/
theorem zip_merged_perm (h : Pruned defaults d default rules uncovered log) :
    (uncovered.zip log.merged).Perm log.writes := by
  induction h with
  | last => exact .refl _
  | covered => exact .refl _
  | @turn r rules uncovered checked values log hsome hchecked hvalues hrest ih =>
      obtain ⟨positions, held⟩ := checked
      obtain ⟨rfl, -, hlength⟩ := Dataset.checkAt_eq_ok_iff.mp hchecked
      rw [Pruning.writes_after]
      exact (Dataset.zip_merge_perm hlength (length_of_applyAt hvalues) hrest.length_merged).trans
        (ih.append_left _)

/-- **Each position is written to once.** -/
theorem map_writes_perm (h : Pruned defaults d default rules uncovered log) :
    (log.writes.map Prod.fst).Perm uncovered := by
  have hzip := h.zip_merged_perm.map Prod.fst
  rw [List.map_fst_zip (Nat.le_of_eq h.length_merged.symm)] at hzip
  exact hzip.symm

/-- Over all positions what is written is what is merged. -/
theorem answers_eq_merged {size : Nat}
    (h : Pruned defaults d default rules (List.range size) log) :
    log.answers size = log.merged := by
  have hlength : log.merged.length = size := h.length_merged.trans List.length_range
  refine List.ext_getElem? fun p => ?_
  by_cases hp : p < size
  · obtain ⟨v, hv⟩ : ∃ v, log.merged[p]? = some v :=
      ⟨_, List.getElem?_eq_getElem (hlength.symm ▸ hp)⟩
    have hzip : (p, v) ∈ (List.range size).zip log.merged :=
      List.mem_of_getElem? (List.getElem?_zip_eq_some.mpr ⟨List.getElem?_range hp, hv⟩)
    have hnodup : (log.writes.map Prod.fst).Nodup :=
      h.map_writes_perm.nodup_iff.mpr List.nodup_range
    rw [hv]
    refine getElem?_foldl_set hnodup (h.zip_merged_perm.mem_iff.mp hzip) ?_
    rwa [List.length_replicate]
  · rw [List.getElem?_eq_none, List.getElem?_eq_none]
    · rw [hlength]
      exact Nat.not_lt.mp hp
    · rw [Pruning.answers, length_foldl_set, List.length_replicate]
      exact Nat.not_lt.mp hp

end Pruned

/-! ### Rule after rule -/

/-- The answers to the rows at the positions `uncovered`: of the first rule that holds of a row, or
of what comes last. -/
def applyRulesAll (defaults : Defaults) (d : Dataset)
    (last : List Nat → Traced Fault (List Value)) (rules : List Rule) (uncovered : List Nat) :
    Traced Fault (List Value) :=
  prune defaults d last rules uncovered >>= fun log => pure log.merged

theorem applyRulesAll_nil (last : List Nat → Traced Fault (List Value)) (uncovered : List Nat) :
    applyRulesAll defaults d last [] uncovered = last uncovered := by
  rw [applyRulesAll, prune]
  simp only [bind_assoc, pure_bind]
  exact bind_pure _

/-- The rules of a list and what comes last, on the rows at `uncovered`. -/
theorem applyRulesAll_cons_eq (last : List Nat → Traced Fault (List Value)) (r : Rule)
    (rules : List Rule) (uncovered : List Nat) :
    applyRulesAll defaults d last (r :: rules) uncovered =
      if uncovered.isEmpty then pure []
      else Traced.ofExcept ((d.slice uncovered).check r.antecedent) >>= fun held =>
        if held.length = uncovered.length then
          r.consequent.applyAt defaults d (Dataset.flagged true uncovered held) >>=
          fun positive =>
            applyRulesAll defaults d last rules (Dataset.flagged false uncovered held) >>=
            fun negative => pure (Dataset.merge held positive negative)
        else .fail .lostRows := by
  unfold applyRulesAll
  rw [prune_cons]
  by_cases hnone : uncovered.isEmpty
  · rw [if_pos hnone, if_pos hnone]
    rfl
  · rw [if_neg hnone, if_neg hnone, bind_assoc, Dataset.ofExcept_checkAt_bind]
    refine congrArg _ (funext fun held => ?_)
    simp only [bind_assoc, pure_bind]
    rfl

/-- **A decision list answers as its rules do, one after the other.** -/
theorem applyAll_decisionList (rules : List Rule) (d : Dataset) :
    applyAll defaults (.decisionList info rules default) d =
      applyRulesAll defaults d (default.applyAt defaults d) rules (List.range d.size) := by
  rw [applyAll_decisionList_eq_prune]
  refine Traced.bind_congr_of_outcome fun log hlog => ?_
  rw [(pruned_of_prune hlog).answers_eq_merged]

end Model

end Rulebook
