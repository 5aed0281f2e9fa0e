import Rulebook.Proofs.IfElseChain

/-!
# Models — a decision list checks what no rule has covered

On a data set a decision list keeps the positions that no rule has covered yet.  A rule is checked
on the slice at these, its consequent answers where the antecedent holds, and the rest is left to
the next rule and at last to the default.  This loop keeps a record of its turns (`Model.prune`),
and the list answers with what the record writes.

The record follows the cases of a run (`Model.Pruned`), with any positions to begin with.

* `Dataset.firstMatch?`: the first rule whose antecedent holds at a position.
* `Pruned.lt_turns_iff`, `Pruned.of_turn`, `Pruned.of_rest`: the turns of the rules, where they end,
  and what is left to the default.
* `Pruned.prune_take`, `Pruned.prune_modify`: what is not on record has no influence.  Neither rules
  without a turn are asked, nor an antecedent anywhere else than at the positions of its turn.
* `decisionList_prunes`: all of this of a decision list.
-/

namespace Rulebook

/-! ### Answers at positions -/

namespace Dataset

variable {α : Type} {d : Dataset} {f : Formula} {r : Rule} {rules : List Rule}
  {positions : List Nat} {held : List Bool}

/-- What the check of the row at a position answers. -/
def answerAt? (d : Dataset) (f : Formula) (p : Nat) : Option Bool :=
  match (d.slice [p]).check f with
  | .ok held => held.head?
  | .error _ => none

/-- The first of some rules whose antecedent holds at a position. -/
def firstMatch? (d : Dataset) (rules : List Rule) (p : Nat) : Option Nat :=
  rules.findIdx? fun r => d.answerAt? r.antecedent p = some true

/-- The positions at which the antecedents of all rules are false. -/
def passedOver (d : Dataset) (rules : List Rule) (positions : List Nat) : List Nat :=
  positions.filter fun p => rules.all fun r => d.answerAt? r.antecedent p = some false

/-- The check of a slice answers as the checks of its rows do. -/
theorem forall₂_answerAt? (hd : d.schema ≠ []) (h : ∀ p ∈ positions, p < d.size)
    (hcheck : (d.slice positions).check f = .ok held) :
    List.Forall₂ (fun p b => d.answerAt? f p = some b) positions held := by
  have hlength : positions.length = held.length := by
    rw [length_of_check hcheck, size_slice hd h]
  refine List.forall₂_iff_get.mpr ⟨hlength, fun i hi hi' => ?_⟩
  have hone : (d.slice [positions[i]]).check f = .ok [held[i]] := by
    have hslice := check_slice (by rwa [schema_slice]) hcheck [i]
    rw [slice_slice hd h] at hslice
    simpa [hi, hi'] using hslice
  unfold answerAt?
  rw [List.get_eq_getElem, hone]
  rfl

section Flagged

variable {g : α → Option Bool} {as : List α}

theorem flagged_eq_filter (h : List.Forall₂ (fun a b => g a = some b) as held) (b : Bool) :
    flagged b as held = as.filter (g · = some b) := by
  induction h with
  | nil => rfl
  | @cons a b' as held hab _ ih =>
      by_cases hb : b' = b
      · rw [flagged, if_pos hb, ih, List.filter_cons_of_pos (by simp [hab, hb])]
      · rw [flagged, if_neg hb, ih, List.filter_cons_of_neg (by simp [hab, hb])]

/-- A test that fails beside true flags is made beside the false ones only. -/
theorem filter_eq_filter_flagged (h : List.Forall₂ (fun a b => g a = some b) as held)
    {test test' : α → Bool} (htrue : ∀ a, g a = some true → test a = false)
    (hfalse : ∀ a, g a = some false → test a = test' a) :
    as.filter test = (flagged false as held).filter test' := by
  induction h with
  | nil => rfl
  | @cons a b as held hab _ ih =>
      cases b with
      | true =>
          rw [flagged, if_neg Bool.noConfusion, ← ih,
            List.filter_cons_of_neg (by simp [htrue a hab])]
      | false =>
          rw [flagged, if_pos rfl, List.filter_cons, List.filter_cons, ih, hfalse a hab]

end Flagged

/-! ### The rules before -/

theorem firstMatch?_cons (p : Nat) :
    d.firstMatch? (r :: rules) p =
      if d.answerAt? r.antecedent p = some true then some 0
      else (d.firstMatch? rules p).map (· + 1) := by
  simp [firstMatch?, List.findIdx?_cons]

theorem passedOver_nil (d : Dataset) (positions : List Nat) :
    d.passedOver [] positions = positions :=
  List.filter_eq_self.mpr fun _ _ => rfl

variable (h : List.Forall₂ (fun p b => d.answerAt? r.antecedent p = some b) positions held)
include h

theorem passedOver_cons :
    d.passedOver (r :: rules) positions = d.passedOver rules (flagged false positions held) :=
  filter_eq_filter_flagged h (fun p hp => by simp [hp]) fun p hp => by simp [hp]

theorem filter_firstMatch?_zero :
    positions.filter (d.firstMatch? (r :: rules) · = some 0) = flagged true positions held := by
  rw [flagged_eq_filter h]
  refine List.filter_congr fun p _ => ?_
  by_cases hp : d.answerAt? r.antecedent p = some true <;> simp [firstMatch?_cons, hp]

theorem filter_firstMatch?_succ (k : Nat) :
    positions.filter (d.firstMatch? (r :: rules) · = some (k + 1)) =
      (flagged false positions held).filter (d.firstMatch? rules · = some k) :=
  filter_eq_filter_flagged h (fun p hp => by simp [firstMatch?_cons, hp])
    fun p hp => by simp [firstMatch?_cons, hp]

theorem filter_firstMatch?_none :
    positions.filter (d.firstMatch? (r :: rules) · = none) =
      (flagged false positions held).filter (d.firstMatch? rules · = none) :=
  filter_eq_filter_flagged h (fun p hp => by simp [firstMatch?_cons, hp])
    fun p hp => by simp [firstMatch?_cons, hp]

end Dataset

namespace Model

variable {defaults : Defaults} {d : Dataset} {default : Model} {info : Info} {r : Rule}
  {rules : List Rule} {uncovered : List Nat} {log : Pruning} {vs : List Value}

/-! ### Turns -/

namespace Pruned

variable (hd : d.schema ≠ [])
include hd

/-- **A rule has its turn exactly when the rules before it leave it a position.** -/
theorem lt_turns_iff (h : Pruned defaults d default rules uncovered log)
    (hu : ∀ p ∈ uncovered, p < d.size) (k : Nat) :
    k < log.turns.length ↔ k < rules.length ∧ d.passedOver (rules.take k) uncovered ≠ [] := by
  induction h generalizing k with
  | last => simp
  | covered => simp [Dataset.passedOver]
  | @turn r rules uncovered checked values log hsome hchecked hvalues hrest ih =>
      obtain ⟨positions, held⟩ := checked
      obtain ⟨rfl, hcheck, -⟩ := Dataset.checkAt_eq_ok_iff.mp hchecked
      cases k with
      | zero => simp [Pruning.after, Dataset.passedOver_nil, hsome]
      | succ k =>
          have hleft : ∀ p ∈ Dataset.flagged false positions held, p < d.size := fun p hp =>
            hu p (Dataset.flagged_subset _ _ _ hp)
          rw [List.take_succ_cons, Dataset.passedOver_cons (Dataset.forall₂_answerAt? hd hu hcheck)]
          simpa [Pruning.after, Dataset.Checked.passed] using ih hleft k

/-- **The turn of a rule.**  Its antecedent is checked at the positions that all rules before it
pass over, and its consequent answers at those where it is the first to match. -/
theorem of_turn (h : Pruned defaults d default rules uncovered log)
    (hu : ∀ p ∈ uncovered, p < d.size) {k : Nat} {t : Turn} (ht : log.turns[k]? = some t) :
    ∃ r, rules[k]? = some r ∧ t.positions = d.passedOver (rules.take k) uncovered ∧
      d.checkAt r.antecedent t.positions = .ok t.toChecked ∧
      t.matched = uncovered.filter (d.firstMatch? rules · = some k) ∧
      (r.consequent.applyAt defaults d t.matched).outcome = .ok t.values := by
  induction h generalizing k with
  | last => cases ht
  | covered => cases ht
  | @turn r rules uncovered checked values log hsome hchecked hvalues hrest ih =>
      obtain ⟨positions, held⟩ := checked
      obtain ⟨rfl, hcheck, -⟩ := Dataset.checkAt_eq_ok_iff.mp hchecked
      have hanswers := Dataset.forall₂_answerAt? hd hu hcheck
      have hleft : ∀ p ∈ Dataset.flagged false positions held, p < d.size := fun p hp =>
        hu p (Dataset.flagged_subset _ _ _ hp)
      cases k with
      | zero =>
          obtain rfl : _ = t := Option.some.inj ht
          exact ⟨r, rfl, (Dataset.passedOver_nil d positions).symm, hchecked,
            (Dataset.filter_firstMatch?_zero hanswers).symm, hvalues⟩
      | succ k =>
          obtain ⟨r', hr', hpositions, hchecked', hmatched, hvalues'⟩ := ih hleft ht
          refine ⟨r', hr', ?_, hchecked', ?_, hvalues'⟩
          · rw [List.take_succ_cons, Dataset.passedOver_cons hanswers]
            exact hpositions
          · rw [Dataset.filter_firstMatch?_succ hanswers]
            exact hmatched

/-- **The default answers where no rule matches.** -/
theorem of_rest (h : Pruned defaults d default rules uncovered log)
    (hu : ∀ p ∈ uncovered, p < d.size) :
    log.rest = uncovered.filter (d.firstMatch? rules · = none) ∧
      (default.applyAt defaults d log.rest).outcome = .ok log.values := by
  induction h with
  | last hvalues => exact ⟨(List.filter_eq_self.mpr fun _ _ => rfl).symm, hvalues⟩
  | covered => exact ⟨rfl, rfl⟩
  | @turn r rules uncovered checked values log hsome hchecked hvalues hrest ih =>
      obtain ⟨positions, held⟩ := checked
      obtain ⟨rfl, hcheck, -⟩ := Dataset.checkAt_eq_ok_iff.mp hchecked
      rw [Dataset.filter_firstMatch?_none (Dataset.forall₂_answerAt? hd hu hcheck)]
      exact ih fun p hp => hu p (Dataset.flagged_subset _ _ _ hp)

end Pruned

/-! ### What is not on record -/

section Unrecorded

variable {last : List Nat → Traced Fault (List Value)}

/-- Over no positions nothing is asked. -/
theorem prune_nil (hlast : last [] = pure []) (rules : List Rule) :
    prune defaults d last rules [] = pure ⟨[], [], []⟩ := by
  cases rules with
  | nil => rw [prune, hlast, pure_bind]
  | cons r rules => rfl

theorem prune_turn {checked : Dataset.Checked} (hsome : uncovered ≠ [])
    (hchecked : d.checkAt r.antecedent uncovered = .ok checked) :
    prune defaults d last (r :: rules) uncovered =
      r.consequent.applyAt defaults d checked.matched >>= fun values =>
        prune defaults d last rules checked.passed >>= fun log =>
          pure (log.after ⟨checked, values⟩) := by
  rw [prune_cons, if_neg (mt List.isEmpty_iff.mp hsome), hchecked]
  exact pure_bind _ _

end Unrecorded

/-- What comes after the last turn, when every position is covered, does not matter. -/
theorem Pruned.prune_take (h : Pruned defaults d default rules uncovered log)
    (hturns : log.turns.length < rules.length) (more : List Rule) (last : Model) :
    prune defaults d (last.applyAt defaults d) (rules.take log.turns.length ++ more) uncovered =
      prune defaults d (default.applyAt defaults d) rules uncovered := by
  induction h with
  | last => exact absurd hturns (Nat.lt_irrefl 0)
  | covered => exact (prune_nil rfl more).trans (prune_nil rfl _).symm
  | @turn r rules uncovered checked values log hsome hchecked hvalues hrest ih =>
      change prune _ _ _ (r :: (rules.take log.turns.length ++ more)) _ = _
      rw [prune_turn hsome hchecked, prune_turn hsome hchecked,
        ih (Nat.lt_of_succ_lt_succ hturns)]

/-- An antecedent matters through its check at the positions of its turn alone. -/
theorem Pruned.prune_modify (h : Pruned defaults d default rules uncovered log) {k : Nat} {t : Turn}
    (ht : log.turns[k]? = some t) {f : Formula} (hf : d.checkAt f t.positions = .ok t.toChecked) :
    prune defaults d (default.applyAt defaults d)
        (rules.modify k fun r => { r with antecedent := f }) uncovered =
      prune defaults d (default.applyAt defaults d) rules uncovered := by
  induction h generalizing k with
  | last => cases ht
  | covered => cases ht
  | @turn r rules uncovered checked values log hsome hchecked hvalues hrest ih =>
      cases k with
      | zero =>
          obtain rfl : _ = t := Option.some.inj ht
          obtain ⟨rfl, -, -⟩ := Dataset.checkAt_eq_ok_iff.mp hchecked
          rw [List.modify_zero_cons, prune_turn hsome hf, prune_turn hsome hchecked]
      | succ k =>
          rw [List.modify_succ_cons, prune_turn hsome hchecked, prune_turn hsome hchecked, ih ht]

end Model

/-! ### The list -/

/-- What is on record of the run of a decision list over a data set. -/
structure Pruning.Accounts (log : Pruning) (defaults : Defaults) (d : Dataset) (rules : List Rule)
    (default : Model) : Prop where
  run : (Model.prune defaults d (default.applyAt defaults d) rules (List.range d.size)).outcome =
    .ok log
  /-- A rule has its turn exactly when the rules before it pass over some row. -/
  turns : ∀ k, k < log.turns.length ↔
    k < rules.length ∧ d.passedOver (rules.take k) (List.range d.size) ≠ []
  /-- Its antecedent is checked on the rows that they pass over, in ascending order, and its
  consequent answers those rows that it is the first to match. -/
  turn : ∀ k t, log.turns[k]? = some t →
    ∃ r, rules[k]? = some r ∧ t.positions = d.passedOver (rules.take k) (List.range d.size) ∧
      d.checkAt r.antecedent t.positions = .ok t.toChecked ∧
      t.matched = (List.range d.size).filter (d.firstMatch? rules · = some k) ∧
      (r.consequent.applyAt defaults d t.matched).outcome = .ok t.values
  /-- The default answers the rows that no rule matches. -/
  rest : log.rest = (List.range d.size).filter (d.firstMatch? rules · = none)
  values : (default.applyAt defaults d log.rest).outcome = .ok log.values
  /-- Every row is written to, once. -/
  once : (log.writes.map Prod.fst).Perm (List.range d.size)

namespace Model

variable {defaults : Defaults} {d : Dataset} {default : Model} {info : Info} {rules : List Rule}

/-- **Pruned evaluation.**  A decision list does what its loop does, and answers with what the loop
writes.  Where it answers, each rule is checked on the rows that no rule before it covers, no rule
is checked once all are covered, and every answer is written once, by the first rule that matches
the row or by the default.  What the record does not have is not asked: neither do other rules
matter in the place of those without a turn, nor another antecedent that is answered alike at the
positions of its turn. -/
theorem decisionList_prunes (hd : d.schema ≠ []) :
    applyAll defaults (.decisionList info rules default) d =
        (prune defaults d (default.applyAt defaults d) rules (List.range d.size) >>= fun log =>
          pure (log.answers d.size)) ∧
      ∀ vs, (applyAll defaults (.decisionList info rules default) d).outcome = .ok vs →
        ∃ log : Pruning, log.Accounts defaults d rules default ∧ vs = log.answers d.size ∧
          (log.turns.length < rules.length → ∀ more last,
            applyAll defaults (.decisionList info (rules.take log.turns.length ++ more) last) d =
              applyAll defaults (.decisionList info rules default) d) ∧
          ∀ k t f, log.turns[k]? = some t → d.checkAt f t.positions = .ok t.toChecked →
            applyAll defaults (.decisionList info
                (rules.modify k fun r => { r with antecedent := f }) default) d =
              applyAll defaults (.decisionList info rules default) d := by
  have hrange : ∀ p ∈ List.range d.size, p < d.size := fun p hp => List.mem_range.mp hp
  refine ⟨applyAll_decisionList_eq_prune rules d, fun vs h => ?_⟩
  rw [applyAll_decisionList_eq_prune, Traced.outcome_bind] at h
  obtain ⟨log, hrun, hanswers⟩ := Except.bind_eq_ok_iff.mp h
  have hpruned := pruned_of_prune hrun
  refine ⟨log, ?_, (Except.ok.inj hanswers).symm, fun hturns more last => ?_,
    fun k t f ht hf => ?_⟩
  · exact {
      run := hrun
      turns := hpruned.lt_turns_iff hd hrange
      turn := fun _ _ => hpruned.of_turn hd hrange
      rest := (hpruned.of_rest hd hrange).1
      values := (hpruned.of_rest hd hrange).2
      once := hpruned.map_writes_perm }
  · rw [applyAll_decisionList_eq_prune, applyAll_decisionList_eq_prune,
      hpruned.prune_take hturns more last]
  · rw [applyAll_decisionList_eq_prune, applyAll_decisionList_eq_prune, hpruned.prune_modify ht hf]

/-- Three rows, the first of which is left to the default. -/
theorem decisionList_prunes_steps :
    threeRows.schema ≠ [] ∧
      ∃ log : Pruning, log.Accounts (.ok .default) threeRows steps loneVoter ∧
        log.answers 3 = [.text "A", .text "B", .text "A"] ∧
        log.turns.map (·.positions) = [[0, 1, 2], [0, 1]] ∧ log.rest = [0] := by
  have hlist : (applyAll (.ok .default) (.decisionList .empty steps loneVoter) threeRows).outcome =
      .ok [.text "A", .text "B", .text "A"] := rfl
  have hschema : threeRows.schema ≠ [] := List.cons_ne_nil _ _
  obtain ⟨-, hlog⟩ := decisionList_prunes hschema
  obtain ⟨log, haccounts, hanswers, -⟩ := hlog _ hlist
  have hrun : (prune (.ok .default) threeRows (loneVoter.applyAt (.ok .default) threeRows) steps
      (List.range 3)).outcome =
      .ok ⟨[⟨⟨[0, 1, 2], [false, false, true]⟩, [.text "A"]⟩,
        ⟨⟨[0, 1], [false, true]⟩, [.text "B"]⟩], [0], [.text "A"]⟩ := rfl
  obtain rfl := Except.ok.inj (hrun.symm.trans haccounts.run)
  exact ⟨hschema, _, haccounts, hanswers.symm, rfl, rfl⟩

end Model

end Rulebook
