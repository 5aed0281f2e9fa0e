import Rulebook.Proofs.BatchApply

/-!
# Models — a decision list is a chain of branches

A rule of a decision list, with what follows it, is a branch: its consequent where the antecedent
holds, the rest of the list where it does not.  `chain` makes such branches of all rules, and
`decisionList_eq_chain` says that the list and the chain answer alike, on single rows and on data
sets, with the same faults and the same events.

On a data set the two go different ways.  The list keeps the positions that no rule has covered yet
and slices the whole set at them; the chain slices the slices that it is given (`applyAt_slice`).
Where no position is left the list stops, and so does the chain, because a branch asks no side for
no rows (`applyRulesAll_eq_chain`).

A list without rules does not ask its default for no rows either, while a default on its own may
have to settle how to vote first (`votesFirst`); `applyAt_range` is the comparison of the two.
-/

namespace Rulebook

namespace Model

/-- The rules of a list and its default as branches, each on the negative side of the one before. -/
def chain : List Rule → Model → Model
  | [], default => default
  | r :: rules, default => .branch .empty r.antecedent r.consequent (chain rules default)

variable {defaults : Defaults} {d : Dataset} {m default : Model} {info : Info} {f : Formula}

/-! ### Single rows -/

theorem apply_branch (positive negative : Model) (row : Row) :
    apply defaults row (.branch info f positive negative) =
      Traced.ofExcept (f.check row) >>= fun held =>
        if held then positive.apply defaults row else negative.apply defaults row :=
  rfl

theorem applyRules_cons (r : Rule) (rules : List Rule) (row : Row) :
    applyRules defaults row (r :: rules) =
      Traced.ofExcept (r.antecedent.check row) >>= fun held =>
        if held then r.consequent.apply defaults row >>= fun v => pure (some v)
        else applyRules defaults row rules :=
  rfl

theorem apply_decisionList (rules : List Rule) (row : Row) :
    apply defaults row (.decisionList info rules default) =
      applyRules defaults row rules >>= fun
        | some v => pure v
        | none => default.apply defaults row :=
  rfl

/-- On a single row the list and its chain check the same antecedents, one after the other. -/
theorem apply_chain (rules : List Rule) (row : Row) :
    apply defaults row (chain rules default) =
      apply defaults row (.decisionList info rules default) := by
  induction rules with
  | nil =>
      change _ = (pure none : Traced Fault (Option Value)) >>= _
      rw [pure_bind, chain]
  | cons r rules ih =>
      rw [chain, apply_branch, ih, apply_decisionList (r :: rules), applyRules_cons, bind_assoc]
      refine congrArg _ (funext fun held => ?_)
      cases held with
      | true => simp only [if_true, bind_assoc, pure_bind, bind_pure]
      | false => rfl

/-! ### One answer for each row -/

/-- The answers of the rules that are left: none, or what the first rule answers merged with what
the others answer. -/
theorem cases_of_applyRulesAll_cons {last : List Nat → Traced Fault (List Value)} {r : Rule}
    {rules : List Rule} {uncovered : List Nat} {vs : List Value}
    (h : (applyRulesAll defaults d last (r :: rules) uncovered).outcome = .ok vs) :
    (uncovered = [] ∧ vs = []) ∨
      ∃ held positive negative, held.length = uncovered.length ∧
        (r.consequent.applyAt defaults d (Dataset.flagged true uncovered held)).outcome =
          .ok positive ∧
        (applyRulesAll defaults d last rules (Dataset.flagged false uncovered held)).outcome =
          .ok negative ∧
        vs = Dataset.merge held positive negative := by
  rw [applyRulesAll_cons_eq] at h
  split at h
  next hnone =>
    cases h
    exact .inl ⟨List.isEmpty_iff.mp hnone, rfl⟩
  next =>
    rw [Traced.outcome_bind] at h
    obtain ⟨held, -, h⟩ := Except.bind_eq_ok_iff.mp h
    split at h
    next hlength =>
      simp only [Traced.outcome_bind, Except.bind_eq_ok_iff, Traced.outcome_pure] at h
      obtain ⟨positive, hpositive, negative, hnegative, h⟩ := h
      cases h
      exact .inr ⟨held, positive, negative, hlength, hpositive, hnegative, rfl⟩
    next => cases h

/-- The rules leave no position out and answer none twice, if what comes last does not. -/
theorem length_of_applyRulesAll {last : List Nat → Traced Fault (List Value)}
    (hlast : ∀ {positions vs}, (last positions).outcome = .ok vs → vs.length = positions.length)
    {rules : List Rule} {uncovered : List Nat} {vs : List Value}
    (h : (applyRulesAll defaults d last rules uncovered).outcome = .ok vs) :
    vs.length = uncovered.length := by
  cases rules with
  | nil =>
      rw [applyRulesAll_nil] at h
      exact hlast h
  | cons r rules =>
      rcases cases_of_applyRulesAll_cons h with
        ⟨rfl, rfl⟩ | ⟨held, positive, negative, hlength, -, -, rfl⟩
      · rfl
      · rw [Dataset.length_merge, hlength]

theorem length_of_applyAll_tree {t : Tree}
    (hroot : ∀ {vs}, (t.root.applyAll defaults d).outcome = .ok vs → vs.length = d.size)
    {vs : List Value} (h : (applyAll defaults (.tree t) d).outcome = .ok vs) :
    vs.length = d.size := by
  rw [applyAll_tree, Traced.outcome_bind] at h
  obtain ⟨answers, hanswers, h⟩ := Except.bind_eq_ok_iff.mp h
  rw [← (Except.mapM_eq_ok_iff.mp h).length_eq, hroot hanswers]

theorem length_of_applyTreesAll {trees : List Tree}
    (htrees : ∀ t ∈ trees, ∀ {vs}, (t.root.applyAll defaults d).outcome = .ok vs →
      vs.length = d.size)
    {columns : List (List Value)} (h : (applyTreesAll defaults trees d).outcome = .ok columns) :
    ∀ column ∈ columns, column.length = d.size := by
  induction trees generalizing columns with
  | nil =>
      cases h
      exact List.forall_mem_nil _
  | cons t trees ih =>
      rw [List.forall_mem_cons] at htrees
      rw [applyTreesAll_cons] at h
      obtain ⟨column, hcolumn, h⟩ := Except.bind_eq_ok_iff.mp h
      obtain ⟨rest, hrest, h⟩ := Except.bind_eq_ok_iff.mp h
      cases h
      exact List.forall_mem_cons.mpr
        ⟨length_of_applyAll_tree htrees.1 hcolumn, ih htrees.2 hrest⟩

theorem length_transpose {columns : List (List Value)} {n : Nat}
    (h : ∀ column ∈ columns, column.length = n) : (transpose n columns).length = n := by
  induction columns with
  | nil => exact List.length_replicate
  | cons column columns ih =>
      rw [List.forall_mem_cons] at h
      rw [transpose, List.length_zipWith, h.1, ih h.2, Nat.min_self]

/-- **A model that answers a data set gives one answer for each row.** -/
theorem length_of_applyAll {vs : List Value} (h : (m.applyAll defaults d).outcome = .ok vs) :
    vs.length = d.size := by
  induction m generalizing vs with
  | constant info v =>
      cases h
      exact List.length_replicate
  | rule r _ =>
      simp only [applyAll_rule, Traced.outcome_bind, Except.bind_eq_ok_iff, Traced.outcome_pure,
        Traced.outcome_ofExcept] at h
      obtain ⟨held, hcheck, positive, -, h⟩ := h
      cases h
      rw [Dataset.length_merge, Dataset.length_of_check hcheck]
  | branch info f positive negative _ _ =>
      simp only [applyAll_branch, Traced.outcome_bind, Except.bind_eq_ok_iff, Traced.outcome_pure,
        Traced.outcome_ofExcept] at h
      obtain ⟨held, hcheck, yes, -, no, -, h⟩ := h
      cases h
      rw [Dataset.length_merge, Dataset.length_of_check hcheck]
  | decisionList info rules default _ _ =>
      rw [applyAll_decisionList] at h
      rw [length_of_applyRulesAll length_of_applyAt h, List.length_range]
  | tree t ih => exact length_of_applyAll_tree ih h
  | forest info trees ih =>
      rw [applyAll_forest] at h
      simp only [Traced.outcome_bind, Except.bind_eq_ok_iff, Traced.outcome_mapM,
        Except.mapM_eq_ok_iff] at h
      obtain ⟨quiet, -, columns, hcolumns, hwinners⟩ := h
      rw [← hwinners.length_eq, length_transpose (length_of_applyTreesAll ih hcolumns)]
  | mixed info root feasible ih => exact ih h

/-! ### No rows -/

theorem applyTreesAll_cons_eq (t : Tree) (trees : List Tree) (d : Dataset) :
    applyTreesAll defaults (t :: trees) d =
      applyAll defaults (.tree t) d >>= fun answers =>
        applyTreesAll defaults trees d >>= fun others => pure (answers :: others) := by
  rw [applyAll_tree, bind_assoc]
  rfl

theorem applyTreesAll_of_size_eq_zero {trees : List Tree}
    (htrees : ∀ t ∈ trees, t.root.applyAll defaults d = pure []) :
    applyTreesAll defaults trees d = pure (trees.map fun _ => []) := by
  induction trees with
  | nil => rfl
  | cons t trees ih =>
      rw [List.forall_mem_cons] at htrees
      rw [applyTreesAll_cons_eq, applyAll_tree, htrees.1, ih htrees.2]
      rfl

/-- **On no rows a model gives no answers.**  A model that settles first how to vote has to be able
to read its settings even so. -/
theorem applyAll_of_size_eq_zero (hd : d.size = 0)
    (hsettings : m.votesFirst → ∃ settings, defaults = .ok settings) :
    m.applyAll defaults d = pure [] := by
  have hnone : ∀ f, Traced.ofExcept (d.check f) = (pure [] : Traced Fault (List Bool)) := fun f =>
    congrArg Traced.ofExcept (Dataset.check_of_size_eq_zero hd f)
  induction m with
  | constant info v =>
      change pure (List.replicate d.size v) = _
      rw [hd, List.replicate_zero]
  | rule r _ =>
      rw [applyAll_rule, hnone, pure_bind, hd]
      rfl
  | branch info f positive negative _ _ =>
      rw [applyAll_branch, hnone, pure_bind, hd]
      rfl
  | decisionList info rules default _ _ =>
      rw [applyAll_decisionList, hd]
      cases rules <;> rfl
  | tree t ih =>
      rw [applyAll_tree, ih hsettings, pure_bind]
      rfl
  | forest info trees ih =>
      obtain ⟨settings, rfl⟩ := hsettings rfl
      have hvotes := applyTreesAll_of_size_eq_zero fun t ht => ih t ht fun _ => hsettings rfl
      have hrows : transpose d.size (trees.map fun _ => ([] : List Value)) = [] := by
        refine List.length_eq_zero_iff.mp ((length_transpose fun column hcolumn => ?_).trans hd)
        obtain ⟨t, -, rfl⟩ := List.mem_map.mp hcolumn
        exact hd.symm
      rw [applyAll_forest, hvotes]
      change (Traced.ofExcept (.ok _) >>= fun quiet => pure _ >>= _) = _
      simp only [pure_bind, hrows]
      rfl
  | mixed info root feasible ih => exact ih hsettings

/-- The answers at all positions are the answers. -/
theorem applyAt_range (hd : d.schema ≠ [])
    (hsettings : d.size = 0 → m.votesFirst → ∃ settings, defaults = .ok settings) :
    m.applyAt defaults d (List.range d.size) = m.applyAll defaults d := by
  by_cases hs : d.size = 0
  · rw [applyAll_of_size_eq_zero hs (hsettings hs), hs]
    rfl
  have hsome : ¬ (List.range d.size).isEmpty := by
    rw [List.isEmpty_iff, List.range_eq_nil]
    exact hs
  unfold applyAt Dataset.answer
  rw [if_neg hsome]
  cases hv : m.outcome? with
  | some v =>
      cases m with
      | constant info w =>
          obtain rfl : w = v := Option.some.inj hv
          dsimp only
          rw [List.map_const', List.length_range]
          rfl
      | _ => exact absurd hv (by simp [outcome?])
  | none =>
      dsimp only
      rw [Dataset.slice_range hd]
      refine (Traced.bind_congr_of_outcome fun answers hanswers => ?_).trans (bind_pure _)
      rw [if_pos ((length_of_applyAll hanswers).trans List.length_range.symm)]

/-! ### Slices of slices -/

/-- A model answers alike at two lists of positions if it answers their slices alike. -/
theorem applyAt_congr {e : Dataset} {ps qs : List Nat} (hlength : ps.length = qs.length)
    (hslice : m.applyAll defaults (d.slice ps) = m.applyAll defaults (e.slice qs)) :
    m.applyAt defaults d ps = m.applyAt defaults e qs := by
  have hempty : ps.isEmpty = qs.isEmpty := by
    rw [Bool.eq_iff_iff, List.isEmpty_iff_length_eq_zero, List.isEmpty_iff_length_eq_zero, hlength]
  unfold applyAt Dataset.answer
  simp only [hempty, hlength, hslice, List.map_const']

theorem applyAt_slice_flagged (hd : d.schema ≠ []) {positions : List Nat}
    (h : ∀ p ∈ positions, p < d.size) (b : Bool) (held : List Bool) :
    m.applyAt defaults (d.slice positions)
        (Dataset.flagged b (List.range (d.slice positions).size) held) =
      m.applyAt defaults d (Dataset.flagged b positions held) := by
  have hthere : ∀ p ∈ List.range positions.length, (positions[p]?).isSome := fun p hp => by
    rw [List.getElem?_eq_getElem (List.mem_range.mp hp)]
    rfl
  have hflagged : (Dataset.flagged b (List.range positions.length) held).filterMap (positions[·]?) =
      Dataset.flagged b positions held := by
    rw [← Dataset.flagged_filterMap hthere, Dataset.filterMap_getElem?_range]
  rw [Dataset.size_slice hd h]
  refine applyAt_congr ?_ ?_
  · rw [← hflagged]
    exact (List.filterMap_length_eq_length.mpr fun p hp =>
      hthere p (Dataset.flagged_subset b _ _ hp)).symm
  · rw [Dataset.slice_slice hd h, hflagged]

/-! ### The chain -/

/-- **The pruned rules answer as the nested branches.**  The induction is on the rules; the rows
that a rule leaves are a slice of the set for the list, and a slice of a slice for the chain. -/
theorem applyRulesAll_eq_chain (hd : d.schema ≠ []) (rules : List Rule) :
    ∀ {uncovered : List Nat}, (∀ p ∈ uncovered, p < d.size) →
      applyRulesAll defaults d (default.applyAt defaults d) rules uncovered =
        (chain rules default).applyAt defaults d uncovered := by
  induction rules with
  | nil => exact fun _ => applyRulesAll_nil _ _
  | cons r rules ih =>
      intro uncovered hu
      rw [applyRulesAll_cons_eq]
      split
      next hnone =>
        rw [List.isEmpty_iff.mp hnone]
        rfl
      next hsome =>
        have hbranch : (chain (r :: rules) default).applyAt defaults d uncovered = _ := if_neg hsome
        rw [hbranch]
        dsimp only [chain, outcome?]
        rw [applyAll_branch, bind_assoc]
        refine Traced.bind_congr_of_outcome fun held hheld => ?_
        have hlength : held.length = uncovered.length :=
          (Dataset.length_of_check hheld).trans (Dataset.size_slice hd hu)
        rw [if_pos hlength, applyAt_slice_flagged hd hu, applyAt_slice_flagged hd hu,
          ← ih fun p hp => hu p (Dataset.flagged_subset _ _ _ hp)]
        -- the branch is counted once more, and its merged answers are as many as the positions
        simp only [bind_assoc, pure_bind, Dataset.length_merge, hlength, if_true]

theorem votesFirst_chain {rules : List Rule} (h : (chain rules default).votesFirst) :
    rules = [] ∧ default.votesFirst := by
  cases rules with
  | nil => exact ⟨rfl, h⟩
  | cons r rules => cases h

/-- **A decision list is its chain of branches.**  They answer every row and every data set with a
column alike: with the same answers or the same fault, and with the same events on the way.  A list
without rules on a set without rows is the one case in which the list looks at nothing and the
chain, which is then the default, may have to settle how to vote. -/
theorem decisionList_eq_chain (defaults : Defaults) (info : Info) (rules : List Rule)
    (default : Model) :
    (∀ row, apply defaults row (.decisionList info rules default) =
      apply defaults row (chain rules default)) ∧
    ∀ d : Dataset, d.schema ≠ [] →
      (rules = [] → d.size = 0 → default.votesFirst → ∃ settings, defaults = .ok settings) →
      applyAll defaults (.decisionList info rules default) d =
        applyAll defaults (chain rules default) d := by
  refine ⟨fun row => (apply_chain rules row).symm, fun d hd hsettings => ?_⟩
  have hrange : ∀ p ∈ List.range d.size, p < d.size := fun p hp => List.mem_range.mp hp
  rw [applyAll_decisionList, applyRulesAll_eq_chain hd rules hrange]
  exact applyAt_range hd fun hs hvotes =>
    hsettings (votesFirst_chain hvotes).1 hs (votesFirst_chain hvotes).2

/-- Two rules, the second of which holds wherever the first does and has a rule for its
consequent. -/
def steps : List Rule :=
  [⟨.empty, atLeast 3, .constant .empty (.text "A")⟩,
    ⟨.empty, atLeast 2, .rule ⟨.empty, atLeast 2, .constant .empty (.text "B")⟩⟩]

theorem decisionList_eq_chain_steps :
    threeRows.schema ≠ [] ∧
      ((chain steps loneVoter).applyAll (.ok .default) threeRows).outcome =
        .ok [.text "A", .text "B", .text "A"] := by
  refine ⟨List.cons_ne_nil _ _, ?_⟩
  rw [← (decisionList_eq_chain (.ok .default) .empty steps loneVoter).2 threeRows
    (List.cons_ne_nil _ _) fun h => nomatch h]
  rfl

/-- Where the settings cannot be read, a list without rules still answers no rows, and its default
does not. -/
theorem not_decisionList_eq_chain_of_unreadable :
    ¬ ∀ (defaults : Defaults) (info : Info) (rules : List Rule) (default : Model),
      (∀ row, (apply defaults row (.decisionList info rules default)).outcome =
        (apply defaults row (chain rules default)).outcome) ∧
      ∀ d : Dataset, d.schema ≠ [] →
        (applyAll defaults (.decisionList info rules default) d).outcome =
          (applyAll defaults (chain rules default) d).outcome := by
  intro h
  have heq := (h unreadable .empty [] loneVoter).2 rowless (List.cons_ne_nil _ _)
  have hlist : (applyAll unreadable (.decisionList .empty [] loneVoter) rowless).outcome =
      .ok [] := rfl
  have hchain : (applyAll unreadable (chain [] loneVoter) rowless).outcome =
      .error (.settings [⟨.suppressParityWarning, .noTruthValue⟩]) := rfl
  rw [hlist, hchain] at heq
  cases heq

end Model

end Rulebook
