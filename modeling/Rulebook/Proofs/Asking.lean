import Mathlib.Logic.Relation
import Rulebook.Proofs.Leaves

/-!
# Models — who warns of a tie

A model applies some of its parts for its answers to a row or to a data set, and these apply parts
of theirs.  The only warnings told on the way are those of forests with a tie, so a model is silent
exactly if none of the models that it comes to in this way is one.

* `Reached`: a member of a list that is walked over until something stops the walk.
* `Model.Asks`, `Model.AsksAll`: which parts a model applies for a row and for a data set.
* `Model.silent_apply_iff`, `Model.silent_applyAll_iff`: one step down.
* `Model.silent_apply_iff_forall`, `Model.silent_applyAll_iff_forall`: all the way down.
-/

namespace Rulebook

/-! ### Silent computations -/

namespace Traced

variable {ε α β : Type} {x : Traced ε α} {f : α → Traced ε β}

/-- No warning is told. -/
def Silent (x : Traced ε α) : Prop := Log.warnings x.events = []

theorem silent_pure (a : α) : Silent (pure a : Traced ε α) := rfl

theorem silent_fail (e : ε) : Silent (.fail e : Traced ε α) := rfl

theorem silent_ofExcept (x : Except ε α) : Silent (ofExcept x) := rfl

theorem silent_bind_iff : Silent (x >>= f) ↔ Silent x ∧ ∀ a, x.outcome = .ok a → Silent (f a) := by
  obtain ⟨events, outcome⟩ := x
  change Silent (Traced.bind _ f) ↔ _
  cases outcome with
  | error e => simp [Silent, Traced.bind]
  | ok a => simp [Silent, Traced.bind, Log.warnings]

/-- What comes last and tells nothing does not matter. -/
theorem silent_bind_pure_iff {f : α → β} : Silent (x >>= fun a => pure (f a)) ↔ Silent x := by
  simp only [silent_bind_iff, silent_pure, implies_true, and_true]

end Traced

/-- A member of a list whose earlier members all pass. -/
inductive Reached {α : Type} (passes : α → Prop) : α → List α → Prop
  | head {a : α} {as : List α} : Reached passes a (a :: as)
  | tail {a b : α} {as : List α} (hb : passes b) (h : Reached passes a as) :
      Reached passes a (b :: as)

section Reached

variable {α : Type} {passes P : α → Prop} {a b : α} {as : List α}

theorem Reached.mem (h : Reached passes a as) : a ∈ as := by
  induction h with
  | head => exact List.mem_cons_self
  | tail _ _ ih => exact List.mem_cons_of_mem _ ih

theorem forall_reached_nil : ∀ a, Reached passes a [] → P a := fun _ h => nomatch h

theorem forall_reached_cons :
    (∀ a, Reached passes a (b :: as) → P a) ↔
      P b ∧ (passes b → ∀ a, Reached passes a as → P a) := by
  constructor
  · exact fun h => ⟨h b .head, fun hb a ha => h a (.tail hb ha)⟩
  · rintro ⟨hhead, htail⟩ a ha
    cases ha with
    | head => exact hhead
    | tail hb ha => exact htail hb a ha

end Reached

/-- A walk over a list is silent if each step that it comes to is. -/
theorem Traced.silent_mapM_iff {ε α β : Type} {f : α → Traced ε β} {as : List α} :
    Silent (as.mapM f) ↔
      ∀ a, Reached (fun a => ∃ b, (f a).outcome = .ok b) a as → Silent (f a) := by
  induction as with
  | nil => exact iff_of_true rfl forall_reached_nil
  | cons a as ih =>
      rw [List.mapM_cons, silent_bind_iff, forall_reached_cons, ← ih]
      simp only [silent_bind_pure_iff, forall_exists_index]

/-! ### Ties -/

theorem silent_tellTie_iff {quiet : Bool} {tied : List Value} {count : Nat} {winner : Value} :
    (Vote.tellTie quiet tied count winner).Silent ↔
      quiet = true ∨ ¬(1 < tied.length ∧ winner.isWritable = true) := by
  unfold Traced.Silent
  rw [Vote.events_tellTie]
  by_cases htied : 1 < tied.length
  · cases quiet <;> cases winner.isWritable <;> simp [htied, Log.warnings]
  · simp [htied, Log.warnings]

/-- A vote warns of a tie if it is not to be quiet and the winner can be written. -/
theorem silent_bestGuess_iff {quiet : Bool} {votes : List Value} :
    (bestGuess quiet votes).Silent ↔
      quiet = true ∨ ¬∃ winner, Tied votes winner ∧ winner.isWritable = true := by
  unfold bestGuess
  split
  next hempty =>
    rw [List.isEmpty_iff.mp hempty]
    exact iff_of_true rfl (.inr fun ⟨_, h, _⟩ => nomatch h.doubles)
  next =>
    cases hdoubles : Vote.doubles? votes with
    | some xs =>
        exact iff_of_true rfl (.inr fun ⟨_, h, _⟩ => nomatch hdoubles.symm.trans h.doubles)
    | none =>
        simp only [Traced.silent_bind_iff, Traced.silent_ofExcept, Traced.outcome_ofExcept,
          true_and]
        cases hcountable : Vote.checkCountable votes with
        | error e =>
            refine iff_of_true (fun _ h => nomatch h) (.inr fun ⟨_, h, _⟩ => ?_)
            exact nomatch hcountable.symm.trans h.countable
        | ok u =>
            cases hwinner : Vote.winner? votes with
            | none =>
                refine iff_of_true (fun _ _ => rfl) (.inr fun ⟨_, h, _⟩ => ?_)
                obtain ⟨tied, count, hsome, -⟩ := h.chosen
                exact nomatch hwinner.symm.trans hsome
            | some result =>
                obtain ⟨winner, tied, count⟩ := result
                simp only [forall_const, Traced.silent_bind_pure_iff, silent_tellTie_iff]
                rw [exists_tied_iff hdoubles hcountable hwinner]

namespace Model

/-! ### Single rows -/

/-- Which parts are applied for the answer of a model to a row. -/
inductive Asks (defaults : Defaults) (row : Row) : Model → Model → Prop
  | consequent {r : Rule} (h : r.antecedent.check row = .ok true) :
      Asks defaults row (.rule r) r.consequent
  | positive {info : Info} {f : Formula} {positive negative : Model}
      (h : f.check row = .ok true) :
      Asks defaults row (.branch info f positive negative) positive
  | negative {info : Info} {f : Formula} {positive negative : Model}
      (h : f.check row = .ok false) :
      Asks defaults row (.branch info f positive negative) negative
  | listed {info : Info} {rules : List Rule} {default : Model} {r : Rule}
      (hr : Reached (fun r => r.antecedent.check row = .ok false) r rules)
      (h : r.antecedent.check row = .ok true) :
      Asks defaults row (.decisionList info rules default) r.consequent
  | default {info : Info} {rules : List Rule} {default : Model}
      (h : ∀ r ∈ rules, r.antecedent.check row = .ok false) :
      Asks defaults row (.decisionList info rules default) default
  | root {t : Tree} : Asks defaults row (.tree t) t.root
  | voter {info : Info} {trees : List Tree} {t : Tree}
      (ht : Reached (fun t => ∃ v, (apply defaults row (.tree t)).outcome = .ok v) t trees) :
      Asks defaults row (.forest info trees) (.tree t)
  | inner {info : Info} {root : Model} {feasible : List KindPattern} :
      Asks defaults row (.mixed info root feasible) root

/-- A forest whose trees all answer, with a tie; the winner can be written or, if `writable` is
false, cannot. -/
def TiedOn (defaults : Defaults) (row : Row) (writable : Bool) : Model → Prop
  | .forest _ trees => ∃ votes, (applyTrees defaults row trees).outcome = .ok votes ∧
      ∃ winner, Tied votes winner ∧ winner.isWritable = writable
  | _ => False

variable {defaults : Defaults} {row : Row} {m c default : Model} {info : Info} {d e : Dataset}
  {trees : List Tree} {rules : List Rule}

theorem applyTrees_cons_eq (t : Tree) (trees : List Tree) :
    applyTrees defaults row (t :: trees) =
      apply defaults row (.tree t) >>= fun v =>
        applyTrees defaults row trees >>= fun vs => pure (v :: vs) := by
  change _ = (t.root.apply defaults row >>= fun v => Traced.ofExcept (t.info.finish v)) >>= _
  rw [bind_assoc]
  rfl

theorem applyTrees_eq_mapM (trees : List Tree) :
    applyTrees defaults row trees = trees.mapM fun t => apply defaults row (.tree t) := by
  induction trees with
  | nil => rfl
  | cons t trees ih => rw [List.mapM_cons, ← ih, applyTrees_cons_eq]

/-- The rules up to the first that holds, and the default if there is none. -/
theorem silent_applyList_iff :
    (apply defaults row (.decisionList info rules default)).Silent ↔
      (∀ r, Reached (fun r => r.antecedent.check row = .ok false) r rules →
        r.antecedent.check row = .ok true → (r.consequent.apply defaults row).Silent) ∧
      ((∀ r ∈ rules, r.antecedent.check row = .ok false) →
        (default.apply defaults row).Silent) := by
  rw [← apply_chain]
  induction rules with
  | nil =>
      rw [chain, and_iff_right forall_reached_nil]
      exact ⟨fun h _ => h, fun h => h (List.forall_mem_nil _)⟩
  | cons r rules ih =>
      rw [chain, apply_branch, Traced.silent_bind_iff, forall_reached_cons, List.forall_mem_cons]
      cases hheld : r.antecedent.check row with
      | error e => simp [Traced.silent_ofExcept]
      | ok held => cases held <;> simp [Traced.silent_ofExcept, ih]

theorem silent_apply_forest_iff (hloud : defaults.quiet none = .ok false) :
    (apply defaults row (.forest info trees)).Silent ↔
      ¬TiedOn defaults row true (.forest info trees) ∧
        ∀ t, Reached (fun t => ∃ v, (apply defaults row (.tree t)).outcome = .ok v) t trees →
          (apply defaults row (.tree t)).Silent := by
  have happly : apply defaults row (.forest info trees) =
      Traced.ofExcept (defaults.quiet none) >>= fun quiet =>
        applyTrees defaults row trees >>= fun votes => bestGuess quiet votes := rfl
  rw [happly, hloud, Traced.silent_bind_iff, and_iff_right (Traced.silent_ofExcept _)]
  simp only [Traced.outcome_ofExcept, Except.ok.injEq, forall_eq', Traced.silent_bind_iff,
    applyTrees_eq_mapM, Traced.silent_mapM_iff, silent_bestGuess_iff, TiedOn, not_exists, not_and,
    Bool.false_eq_true, false_or]
  exact and_comm

/-- **One step down.**  A model is silent about a row if it has no tie of its own and every part
that it asks is silent. -/
theorem silent_apply_iff (hloud : defaults.quiet none = .ok false) :
    (m.apply defaults row).Silent ↔
      ¬m.TiedOn defaults row true ∧ ∀ c, Asks defaults row m c → (c.apply defaults row).Silent := by
  cases m with
  | constant info outcome =>
      exact iff_of_true (Traced.silent_pure _) ⟨id, fun _ h => nomatch h⟩
  | rule r =>
      rw [apply_rule, Traced.silent_bind_iff, and_iff_right (Traced.silent_ofExcept _)]
      constructor
      · refine fun h => ⟨id, fun c hc => ?_⟩
        cases hc with
        | consequent hheld => exact h true hheld
      · rintro ⟨-, h⟩ held hheld
        cases held with
        | true => exact h _ (.consequent hheld)
        | false => exact Traced.silent_pure _
  | branch info f positive negative =>
      rw [apply_branch, Traced.silent_bind_iff, and_iff_right (Traced.silent_ofExcept _)]
      constructor
      · refine fun h => ⟨id, fun c hc => ?_⟩
        cases hc with
        | positive hheld => exact h true hheld
        | negative hheld => exact h false hheld
      · rintro ⟨-, h⟩ held hheld
        cases held with
        | true => exact h _ (.positive hheld)
        | false => exact h _ (.negative hheld)
  | decisionList info rules default =>
      rw [silent_applyList_iff]
      constructor
      · rintro ⟨hrules, hdefault⟩
        refine ⟨id, fun c hc => ?_⟩
        cases hc with
        | listed hr hheld => exact hrules _ hr hheld
        | default hnone => exact hdefault hnone
      · rintro ⟨-, h⟩
        exact ⟨fun r hr hheld => h _ (.listed hr hheld), fun hnone => h _ (.default hnone)⟩
  | tree t =>
      have htree : apply defaults row (.tree t) =
          t.root.apply defaults row >>= fun v => Traced.ofExcept (t.info.finish v) := rfl
      rw [htree, Traced.silent_bind_iff, and_iff_left fun _ _ => Traced.silent_ofExcept _]
      refine ⟨fun h => ⟨id, fun c hc => ?_⟩, fun h => h.2 _ .root⟩
      cases hc with
      | root => exact h
  | forest info trees =>
      rw [silent_apply_forest_iff hloud]
      refine and_congr_right fun _ => ⟨fun h c hc => ?_, fun h t ht => h _ (.voter ht)⟩
      cases hc with
      | voter ht => exact h _ ht
  | mixed info root feasible =>
      refine ⟨fun h => ⟨id, fun c hc => ?_⟩, fun h => h.2 root .inner⟩
      cases hc with
      | inner => exact h

/-! ### Data sets -/

/-- Which parts of a decision list are applied for the answers to the rows at `uncovered`: each
consequent to the rows that its rule is the first to hold of, and the default to those left over.
What comes after a consequent is asked only if that has answered. -/
inductive ListAsks (defaults : Defaults) (d : Dataset) (default : Model) :
    List Rule → List Nat → Model → Dataset → Prop
  | default {uncovered : List Nat} (hsome : uncovered ≠ []) :
      ListAsks defaults d default [] uncovered default (d.slice uncovered)
  | consequent {r : Rule} {rules : List Rule} {uncovered : List Nat} {held : List Bool}
      (hheld : (d.slice uncovered).check r.antecedent = .ok held)
      (hlength : held.length = uncovered.length)
      (hsome : Dataset.flagged true uncovered held ≠ []) :
      ListAsks defaults d default (r :: rules) uncovered r.consequent
        (d.slice (Dataset.flagged true uncovered held))
  | later {r : Rule} {rules : List Rule} {uncovered : List Nat} {held : List Bool}
      {positive : List Value} {c : Model} {e : Dataset} (hsome : uncovered ≠ [])
      (hheld : (d.slice uncovered).check r.antecedent = .ok held)
      (hlength : held.length = uncovered.length)
      (hpositive : (r.consequent.applyAt defaults d
        (Dataset.flagged true uncovered held)).outcome = .ok positive)
      (h : ListAsks defaults d default rules (Dataset.flagged false uncovered held) c e) :
      ListAsks defaults d default (r :: rules) uncovered c e

/-- Which parts are applied, and to which data sets, for the answers of a model to a data set. -/
inductive AsksAll (defaults : Defaults) : Model × Dataset → Model × Dataset → Prop
  | consequent {r : Rule} {d : Dataset} {held : List Bool} (hheld : d.check r.antecedent = .ok held)
      (hsome : Dataset.flagged true (List.range d.size) held ≠ []) :
      AsksAll defaults (.rule r, d)
        (r.consequent, d.slice (Dataset.flagged true (List.range d.size) held))
  | positive {info : Info} {f : Formula} {positive negative : Model} {d : Dataset}
      {held : List Bool} (hheld : d.check f = .ok held)
      (hsome : Dataset.flagged true (List.range d.size) held ≠ []) :
      AsksAll defaults (.branch info f positive negative, d)
        (positive, d.slice (Dataset.flagged true (List.range d.size) held))
  | negative {info : Info} {f : Formula} {positive negative : Model} {d : Dataset}
      {held : List Bool} {yes : List Value} (hheld : d.check f = .ok held)
      (hyes : (positive.applyAt defaults d
        (Dataset.flagged true (List.range d.size) held)).outcome = .ok yes)
      (hsome : Dataset.flagged false (List.range d.size) held ≠ []) :
      AsksAll defaults (.branch info f positive negative, d)
        (negative, d.slice (Dataset.flagged false (List.range d.size) held))
  | listed {info : Info} {rules : List Rule} {default c : Model} {d e : Dataset}
      (h : ListAsks defaults d default rules (List.range d.size) c e) :
      AsksAll defaults (.decisionList info rules default, d) (c, e)
  | root {t : Tree} {d : Dataset} : AsksAll defaults (.tree t, d) (t.root, d)
  | voter {info : Info} {trees : List Tree} {t : Tree} {d : Dataset}
      (ht : Reached (fun t => ∃ vs, (applyAll defaults (.tree t) d).outcome = .ok vs) t trees) :
      AsksAll defaults (.forest info trees, d) (.tree t, d)
  | inner {info : Info} {root : Model} {feasible : List KindPattern} {d : Dataset} :
      AsksAll defaults (.mixed info root feasible, d) (root, d)

/-- A forest whose trees all answer, with a tie on a row before which every vote is decided; the
winner can be written or, if `writable` is false, cannot. -/
def TiedOnAll (defaults : Defaults) (writable : Bool) : Model × Dataset → Prop
  | (.forest _ trees, d) => ∃ columns, (applyTreesAll defaults trees d).outcome = .ok columns ∧
      ∃ votes, Reached (fun votes => ∃ v, (bestGuess false votes).outcome = .ok v) votes
        (transpose d.size columns) ∧ ∃ winner, Tied votes winner ∧ winner.isWritable = writable
  | _ => False

theorem silent_applyAt_iff {positions : List Nat} :
    (m.applyAt defaults d positions).Silent ↔
      (positions ≠ [] → (m.applyAll defaults (d.slice positions)).Silent) := by
  unfold applyAt Dataset.answer
  cases positions with
  | nil => exact iff_of_true rfl fun h => absurd rfl h
  | cons i positions =>
      rw [if_neg (by simp)]
      simp only [ne_eq, reduceCtorEq, not_false_eq_true, forall_const]
      cases hm : m.outcome? with
      | some v =>
          cases m with
          | constant info outcome => exact iff_of_true rfl rfl
          | _ => cases hm
      | none =>
          dsimp only
          rw [Traced.silent_bind_iff, and_iff_left]
          intro answers _
          split
          next => rfl
          next => rfl

theorem silent_applyRulesAll_iff {uncovered : List Nat} :
    (applyRulesAll defaults d (default.applyAt defaults d) rules uncovered).Silent ↔
      ∀ c e, ListAsks defaults d default rules uncovered c e → (c.applyAll defaults e).Silent := by
  -- a round leaves other positions to the rules that follow
  induction rules generalizing uncovered with
  | nil =>
      rw [applyRulesAll_nil, silent_applyAt_iff]
      refine ⟨fun h c e hc => ?_, fun h hsome => h _ _ (.default hsome)⟩
      cases hc with
      | default hsome => exact h hsome
  | cons r rules ih =>
      rw [applyRulesAll_cons_eq]
      split
      next hnone =>
        obtain rfl := List.isEmpty_iff.mp hnone
        refine iff_of_true (Traced.silent_pure _) fun c e hc => ?_
        cases hc with
        | consequent _ _ hsome => exact absurd rfl hsome
        | later hsome => exact absurd rfl hsome
      next hsome =>
        have hsome : uncovered ≠ [] := fun h => hsome (List.isEmpty_iff.mpr h)
        rw [Traced.silent_bind_iff, and_iff_right (Traced.silent_ofExcept _)]
        constructor
        · intro h c e hc
          cases hc with
          | consequent hheld hlength hpositive =>
              have hround := h _ hheld
              rw [if_pos hlength, Traced.silent_bind_iff, silent_applyAt_iff] at hround
              exact hround.1 hpositive
          | later _ hheld hlength hpositive hc =>
              have hround := h _ hheld
              rw [if_pos hlength, Traced.silent_bind_iff] at hround
              exact ih.mp (Traced.silent_bind_pure_iff.mp (hround.2 _ hpositive)) c e hc
        · intro h held hheld
          split
          next hlength =>
            rw [Traced.silent_bind_iff, silent_applyAt_iff]
            refine ⟨fun hpositive => h _ _ (.consequent hheld hlength hpositive),
              fun positive hpositive => Traced.silent_bind_pure_iff.mpr (ih.mpr ?_)⟩
            exact fun c e hc => h c e (.later hsome hheld hlength hpositive hc)
          next => exact Traced.silent_fail _

theorem applyTreesAll_eq_mapM (trees : List Tree) :
    applyTreesAll defaults trees d = trees.mapM fun t => applyAll defaults (.tree t) d := by
  induction trees with
  | nil => rfl
  | cons t trees ih => rw [List.mapM_cons, ← ih, applyTreesAll_cons_eq]

theorem silent_applyAll_forest_iff (hloud : defaults.quiet none = .ok false) :
    (applyAll defaults (.forest info trees) d).Silent ↔
      ¬TiedOnAll defaults true (.forest info trees, d) ∧
        ∀ t, Reached (fun t => ∃ vs, (applyAll defaults (.tree t) d).outcome = .ok vs) t trees →
          (applyAll defaults (.tree t) d).Silent := by
  rw [applyAll_forest, hloud, Traced.silent_bind_iff, and_iff_right (Traced.silent_ofExcept _)]
  simp only [Traced.outcome_ofExcept, Except.ok.injEq, forall_eq', Traced.silent_bind_iff,
    applyTreesAll_eq_mapM, Traced.silent_mapM_iff, silent_bestGuess_iff, TiedOnAll, not_exists,
    not_and, Bool.false_eq_true, false_or]
  exact and_comm

/-- **One step down.**  A model is silent about a data set if it has no tie of its own and every
part that it asks is silent. -/
theorem silent_applyAll_iff (hloud : defaults.quiet none = .ok false) (p : Model × Dataset) :
    (p.1.applyAll defaults p.2).Silent ↔
      ¬TiedOnAll defaults true p ∧
        ∀ q, AsksAll defaults p q → (q.1.applyAll defaults q.2).Silent := by
  obtain ⟨m, d⟩ := p
  cases m with
  | constant info outcome =>
      exact iff_of_true (Traced.silent_pure _) ⟨id, fun _ h => nomatch h⟩
  | rule r =>
      rw [applyAll_rule, Traced.silent_bind_iff, and_iff_right (Traced.silent_ofExcept _)]
      simp only [Traced.outcome_ofExcept, Traced.silent_bind_pure_iff, silent_applyAt_iff]
      constructor
      · refine fun h => ⟨id, fun q hq => ?_⟩
        cases hq with
        | consequent hheld hsome => exact h _ hheld hsome
      · exact fun h held hheld hsome => h.2 _ (.consequent hheld hsome)
  | branch info f positive negative =>
      rw [applyAll_branch, Traced.silent_bind_iff, and_iff_right (Traced.silent_ofExcept _)]
      simp only [Traced.outcome_ofExcept, Traced.silent_bind_iff, silent_applyAt_iff,
        Traced.silent_pure, implies_true, and_true]
      constructor
      · refine fun h => ⟨id, fun q hq => ?_⟩
        cases hq with
        | positive hheld hsome => exact (h _ hheld).1 hsome
        | negative hheld hyes hsome => exact (h _ hheld).2 _ hyes hsome
      · rintro ⟨-, h⟩ held hheld
        exact ⟨fun hsome => h _ (.positive hheld hsome),
          fun yes hyes hsome => h _ (.negative hheld hyes hsome)⟩
  | decisionList info rules default =>
      rw [applyAll_decisionList, silent_applyRulesAll_iff]
      refine ⟨fun h => ⟨id, fun q hq => ?_⟩, fun h c e hc => h.2 _ (.listed hc)⟩
      cases hq with
      | listed hc => exact h _ _ hc
  | tree t =>
      rw [applyAll_tree, Traced.silent_bind_iff, and_iff_left fun _ _ => Traced.silent_ofExcept _]
      refine ⟨fun h => ⟨id, fun q hq => ?_⟩, fun h => h.2 _ .root⟩
      cases hq with
      | root => exact h
  | forest info trees =>
      rw [silent_applyAll_forest_iff hloud]
      refine and_congr_right fun _ => ⟨fun h q hq => ?_, fun h t ht => h _ (.voter ht)⟩
      cases hq with
      | voter ht => exact h _ ht
  | mixed info root feasible =>
      refine ⟨fun h => ⟨id, fun q hq => ?_⟩, fun h => h.2 (root, d) .inner⟩
      cases hq with
      | inner => exact h

/-! ### All the way down -/

/-- What is nested in a model, at any depth. -/
def Below (m c : Model) : Prop := Relation.TransGen (fun m c => c ∈ m.children) m c

theorem below_of_mem (h : c ∈ m.children) : Below m c := .single h

theorem below_consequent {r : Rule} (hr : r ∈ rules) :
    Below (.decisionList info rules default) r.consequent :=
  .tail (.single (rule_mem_children info hr default)) (consequent_mem_children r)

theorem length_submodels_lt (h : Below m c) : c.submodels.length < m.submodels.length := by
  have hstep {m c : Model} (hc : c ∈ m.children) :
      c.submodels.length < m.submodels.length := by
    rw [submodels_eq_flatMap m, List.flatMap_def]
    exact (List.sublist_flatten_of_mem (List.mem_map_of_mem (f := reachable) hc)).length_le
  induction h with
  | single hc => exact hstep hc
  | tail _ hc ih => exact Nat.lt_trans (hstep hc) ih

theorem below_of_asks (h : Asks defaults row m c) : Below m c := by
  cases h with
  | consequent _ => exact below_of_mem (consequent_mem_children _)
  | positive _ => exact below_of_mem (positive_mem_children ..)
  | negative _ => exact below_of_mem (negative_mem_children ..)
  | listed hr _ => exact below_consequent hr.mem
  | default _ => exact below_of_mem (default_mem_children ..)
  | root => exact below_of_mem (root_mem_children _)
  | voter ht => exact below_of_mem (tree_mem_children _ ht.mem)
  | inner => exact below_of_mem (inner_mem_children ..)

theorem mem_of_listAsks {uncovered : List Nat}
    (h : ListAsks defaults d default rules uncovered c e) :
    c = default ∨ ∃ r ∈ rules, c = r.consequent := by
  induction h with
  | default _ => exact .inl rfl
  | consequent _ _ _ => exact .inr ⟨_, List.mem_cons_self, rfl⟩
  | later _ _ _ _ _ ih =>
      exact ih.imp_right fun ⟨r, hr, hc⟩ => ⟨r, List.mem_cons_of_mem _ hr, hc⟩

theorem below_of_asksAll {p q : Model × Dataset} (h : AsksAll defaults p q) : Below p.1 q.1 := by
  cases h with
  | consequent _ _ => exact below_of_mem (consequent_mem_children _)
  | positive _ _ => exact below_of_mem (positive_mem_children ..)
  | negative _ _ _ => exact below_of_mem (negative_mem_children ..)
  | listed h =>
      rcases mem_of_listAsks h with rfl | ⟨r, hr, rfl⟩
      · exact below_of_mem (default_mem_children ..)
      · exact below_consequent hr
  | root => exact below_of_mem (root_mem_children _)
  | voter ht => exact below_of_mem (tree_mem_children _ ht.mem)
  | inner => exact below_of_mem (inner_mem_children ..)

/-- What holds of a thing if it is good and the same holds of what it leads to, holds if everything
that it leads to in the end is good.  Things that are led to are smaller. -/
theorem iff_forall_reflTransGen {α : Type} {R : α → α → Prop} {P Good : α → Prop} (size : α → Nat)
    (hsize : ∀ {a b}, R a b → size b < size a) (hstep : ∀ a, P a ↔ Good a ∧ ∀ b, R a b → P b)
    (a : α) : P a ↔ ∀ b, Relation.ReflTransGen R a b → Good b := by
  induction hn : size a using Nat.strongRecOn generalizing a with
  | _ n ih =>
    rw [hstep a]
    constructor
    · rintro ⟨ha, hparts⟩ b hb
      rcases hb.cases_head with rfl | ⟨c, hac, hcb⟩
      · exact ha
      · exact (ih _ (hn ▸ hsize hac) c rfl).mp (hparts c hac) b hcb
    · intro h
      exact ⟨h a .refl, fun b hab =>
        (ih _ (hn ▸ hsize hab) b rfl).mpr fun c hbc => h c (.head hab hbc)⟩

/-- A model is silent about a row if none of the models that it comes to has a tie. -/
theorem silent_apply_iff_forall (hloud : defaults.quiet none = .ok false) (m : Model) :
    (m.apply defaults row).Silent ↔
      ∀ c, Relation.ReflTransGen (Asks defaults row) m c → ¬c.TiedOn defaults row true :=
  iff_forall_reflTransGen (fun m => m.submodels.length)
    (fun h => length_submodels_lt (below_of_asks h))
    (fun _ => silent_apply_iff hloud) m

/-- A model is silent about a data set if none of the models that it comes to has a tie. -/
theorem silent_applyAll_iff_forall (hloud : defaults.quiet none = .ok false)
    (p : Model × Dataset) :
    (p.1.applyAll defaults p.2).Silent ↔
      ∀ q, Relation.ReflTransGen (AsksAll defaults) p q → ¬TiedOnAll defaults true q :=
  iff_forall_reflTransGen (fun p => p.1.submodels.length)
    (fun h => length_submodels_lt (below_of_asksAll h))
    (silent_applyAll_iff hloud) p

end Model

end Rulebook
