import Mathlib.Data.List.Induction
import Rulebook.Proofs.PlaceOrder
import Rulebook.Proofs.Votes

/-!
# Votes — what a tally counts

Votes that can be counted are equal as labels when they have the same key: nothing, a text, or a
place on the line.  So equality of such labels is an equivalence, and a tally is determined by it.

* `Value.key?`, `Value.Countable`: the key of a vote; a list has none, and neither has a double that
  is not a number.
* `Vote.distinct`: of each label its first vote, in order.
* `Tally.of_eq`: the tally lists these, each with the number of votes equal to it.
* `Vote.countP_le_of_winner?`: no label has more votes than the winner.
-/

namespace Rulebook

/-! ### Keys -/

/-- What makes two votes one label. -/
inductive LabelKey
  | missing
  | text (s : String)
  | place (p : WithBot (WithTop ℚ))

namespace Value

variable {u v w : Value}

/-- The key of a vote. -/
def key? : Value → Option LabelKey
  | .missing => some .missing
  | .text s => some (.text s)
  | v => v.place?.map fun p => .place p.position

/-- A vote that can be counted: equal to itself, and no list. -/
def Countable (v : Value) : Prop := ∃ k, v.key? = some k

/-- A vote that can be counted is nothing, a text, or a number at some place. -/
theorem exists_of_key? {k : LabelKey} (h : v.key? = some k) :
    (v = .missing ∧ k = .missing) ∨ (∃ s, v = .text s ∧ k = .text s) ∨
      ∃ p, v.place? = some p ∧ k = .place p.position := by
  cases v with
  | missing => exact .inl ⟨rfl, (Option.some.inj h).symm⟩
  | text s => exact .inr (.inl ⟨s, rfl, (Option.some.inj h).symm⟩)
  | list vs => cases h
  | bool b => exact .inr (.inr ⟨_, rfl, (Option.some.inj h).symm⟩)
  | int n => exact .inr (.inr ⟨_, rfl, (Option.some.inj h).symm⟩)
  | real x =>
    obtain ⟨p, hp, hk⟩ := Option.map_eq_some_iff.mp h
    exact .inr (.inr ⟨p, hp, hk.symm⟩)

theorem same_of_place?_left {p : Extended} (h : v.place? = some p) : v.same w = samePlace v w := by
  cases v <;> cases w <;> first | rfl | cases h

theorem same_of_place?_right {p : Extended} (h : w.place? = some p) :
    v.same w = samePlace v w := by
  cases v <;> cases w <;> first | rfl | cases h

/-- **Votes are one label when their keys are one.** -/
theorem same_iff_key? {k l : LabelKey} (hv : v.key? = some k) (hw : w.key? = some l) :
    v.same w = true ↔ k = l := by
  rcases exists_of_key? hv with ⟨rfl, rfl⟩ | ⟨s, rfl, rfl⟩ | ⟨p, hp, rfl⟩ <;>
    rcases exists_of_key? hw with ⟨rfl, rfl⟩ | ⟨t, rfl, rfl⟩ | ⟨q, hq, rfl⟩
  case inl.inl => exact iff_of_true rfl rfl
  case inr.inl.inr.inl => simp [same]
  case inr.inr.inr.inr =>
    rw [same_of_place?_left hp, samePlace, hp, hq]
    simp [Extended.compare_eq_eq_iff]
  -- A number is never the label of a vote that is none.
  case inr.inr.inl => simp [same_of_place?_left hp, samePlace, place?]
  case inr.inr.inr.inl => simp [same_of_place?_left hp, samePlace, place?]
  case inl.inr.inr => simp [same_of_place?_right hq, samePlace, place?]
  case inr.inl.inr.inr => simp [same_of_place?_right hq, samePlace, place?]
  all_goals simp [same, samePlace, place?]

theorem same_refl (hv : v.Countable) : v.same v = true := by
  obtain ⟨k, hk⟩ := hv
  exact (same_iff_key? hk hk).mpr rfl

theorem same_comm (hv : v.Countable) (hw : w.Countable) : v.same w = w.same v := by
  obtain ⟨k, hk⟩ := hv
  obtain ⟨l, hl⟩ := hw
  rw [Bool.eq_iff_iff, same_iff_key? hk hl, same_iff_key? hl hk, eq_comm]

/-- Votes that are one label are equal to the same votes. -/
theorem same_congr_right (hu : u.Countable) (hv : v.Countable) (hw : w.Countable)
    (h : v.same w = true) : u.same v = u.same w := by
  obtain ⟨j, hj⟩ := hu
  obtain ⟨k, hk⟩ := hv
  obtain ⟨l, hl⟩ := hw
  rw [Bool.eq_iff_iff, same_iff_key? hj hk, same_iff_key? hj hl, (same_iff_key? hk hl).mp h]

end Value

/-! ### Labels and their votes -/

namespace Vote

variable {v w : Value} {votes : List Value}

/-- Of each label its first vote, in order. -/
def distinct : List Value → List Value
  | [] => []
  | v :: votes => v :: (distinct votes).filter fun w => !v.same w

theorem distinct_subset (votes : List Value) : distinct votes ⊆ votes := by
  induction votes with
  | nil => exact List.nil_subset _
  | cons v votes ih =>
    exact List.cons_subset_cons v (List.Subset.trans (List.filter_subset_self _) ih)

/-- The votes that are kept are different labels. -/
theorem pairwise_distinct (votes : List Value) :
    (distinct votes).Pairwise fun v w => v.same w = false := by
  induction votes with
  | nil => exact .nil
  | cons v votes ih =>
    refine .cons (fun w hw => ?_) (ih.filter _)
    simpa using (List.mem_filter.mp hw).2

/-- A further vote is kept if it is a label of its own. -/
theorem distinct_concat (votes : List Value) (v : Value) :
    distinct (votes ++ [v]) =
      if votes.any (·.same v) then distinct votes else distinct votes ++ [v] := by
  induction votes with
  | nil => rfl
  | cons u votes ih =>
    rw [List.cons_append, distinct, ih, distinct, List.any_cons]
    cases votes.any (·.same v) <;> cases hu : u.same v <;> simp [hu]

/-- Every vote is one label with a vote that is kept. -/
theorem exists_distinct_same (hcountable : ∀ v ∈ votes, v.Countable) (hv : v ∈ votes) :
    ∃ w ∈ distinct votes, w.same v = true := by
  induction votes with
  | nil => cases hv
  | cons u votes ih =>
    obtain ⟨hu, hcountable⟩ := List.forall_mem_cons.mp hcountable
    rcases List.mem_cons.mp hv with rfl | hmem
    · exact ⟨v, List.mem_cons_self, Value.same_refl hu⟩
    obtain ⟨w, hw, hsame⟩ := ih hcountable hmem
    by_cases h : u.same w = true
    · have hwc := hcountable w (distinct_subset votes hw)
      refine ⟨u, List.mem_cons_self, ?_⟩
      rw [← Value.same_congr_right hu hwc (hcountable v hmem) hsame, h]
    · exact ⟨w, List.mem_cons_of_mem _ (List.mem_filter.mpr ⟨hw, by simp [h]⟩), hsame⟩

/-- A label that was voted for is one that is kept. -/
theorem any_distinct (hcountable : ∀ v ∈ votes, v.Countable) (hv : v.Countable) :
    (distinct votes).any (·.same v) = votes.any (·.same v) := by
  rw [Bool.eq_iff_iff, List.any_eq_true, List.any_eq_true]
  constructor
  · rintro ⟨w, hw, hsame⟩
    exact ⟨w, distinct_subset votes hw, hsame⟩
  · rintro ⟨u, hu, hsame⟩
    obtain ⟨w, hw, hwu⟩ := exists_distinct_same hcountable hu
    have hwc := hcountable w (distinct_subset votes hw)
    exact ⟨w, hw, by rw [← Value.same_congr_right hwc (hcountable u hu) hv hsame, hwu]⟩

end Vote

namespace Tally

variable {v w : Value} {votes : List Value}

/-- One more vote for one of several different labels. -/
theorem bump_map {labels : List Value} (hlabels : ∀ w ∈ labels, w.Countable) (hv : v.Countable)
    (happart : labels.Pairwise fun w u => w.same u = false) (count : Value → Nat) :
    bump v (labels.map fun w => (w, count w)) =
      if labels.any (·.same v) then
        labels.map fun w => (w, count w + if w.same v then 1 else 0)
      else labels.map (fun w => (w, count w)) ++ [(v, 1)] := by
  induction labels with
  | nil => rfl
  | cons w labels ih =>
    obtain ⟨hw, hlabels⟩ := List.forall_mem_cons.mp hlabels
    obtain ⟨hwapart, happart⟩ := List.pairwise_cons.mp happart
    rw [List.map_cons, bump, List.any_cons]
    cases hsame : w.same v with
    | true =>
      -- The first label takes the vote, so no other is equal to it.
      have hothers : ∀ u ∈ labels, u.same v = false := by
        intro u hu
        rw [← Value.same_congr_right (hlabels u hu) hw hv hsame,
          Value.same_comm (hlabels u hu) hw]
        exact hwapart u hu
      simp only [if_true, Bool.true_or, List.map_cons, hsame]
      congr 1
      exact List.map_congr_left fun u hu => by simp [hothers u hu]
    | false =>
      simp only [Bool.false_eq_true, if_false, ih hlabels happart, Bool.false_or, List.map_cons,
        hsame]
      split <;> rfl

/-- **A tally lists the labels in the order of their first votes, each with its votes.** -/
theorem of_eq (hcountable : ∀ v ∈ votes, v.Countable) :
    Tally.of votes = (Vote.distinct votes).map fun w => (w, votes.countP (·.same w)) := by
  -- The tally counts the last vote last, so the induction takes votes off the end.
  induction votes using List.reverseRecOn with
  | nil => rfl
  | append_singleton votes v ih =>
    obtain ⟨hvotes, hv⟩ := List.forall_mem_append.mp hcountable
    have hv : v.Countable := hv v (List.mem_singleton_self v)
    have hlabels : ∀ w ∈ Vote.distinct votes, w.Countable := fun w hw =>
      hvotes w (Vote.distinct_subset votes hw)
    have hstep : Tally.of (votes ++ [v]) = bump v (Tally.of votes) := List.foldl_concat ..
    have hcount : ∀ w ∈ Vote.distinct votes, (votes ++ [v]).countP (·.same w) =
        votes.countP (·.same w) + if w.same v then 1 else 0 := by
      intro w hw
      rw [List.countP_append, List.countP_singleton, Value.same_comm hv (hlabels w hw)]
    rw [hstep, ih hvotes, bump_map hlabels hv (Vote.pairwise_distinct votes),
      Vote.any_distinct hvotes hv, Vote.distinct_concat]
    cases hany : votes.any (·.same v) with
    | true => exact List.map_congr_left fun w hw => by rw [hcount w hw]
    | false =>
      have hnone : ∀ w ∈ votes, w.same v = false := by simpa using hany
      have hnew : (votes ++ [v]).countP (·.same v) = 1 := by
        rw [List.countP_append, List.countP_eq_zero.mpr (by simpa using hnone),
          List.countP_singleton, Value.same_refl hv]
        rfl
      simp only [Bool.false_eq_true, if_false, List.map_append, List.map_cons, List.map_nil, hnew]
      congr 1
      refine List.map_congr_left fun w hw => ?_
      simp [hcount w hw, hnone w (Vote.distinct_subset votes hw)]

/-! ### The most votes -/

theorem le_foldl_max (tally : Tally) (n : Nat) :
    n ≤ tally.foldl (fun n entry => max n entry.2) n := by
  induction tally generalizing n with
  | nil => exact le_rfl
  | cons entry rest ih => exact (le_max_left n entry.2).trans (ih _)

theorem le_most {tally : Tally} {entry : Value × Nat} (h : entry ∈ tally) :
    entry.2 ≤ tally.most := by
  have hfold (n : Nat) : entry.2 ≤ tally.foldl (fun n entry => max n entry.2) n := by
    induction tally generalizing n with
    | nil => cases h
    | cons other rest ih =>
      rcases List.mem_cons.mp h with rfl | hrest
      · exact (le_max_right n entry.2).trans (le_foldl_max rest _)
      · exact ih hrest _
  exact hfold 0

theorem exists_entry_most {tally : Tally} (h : tally ≠ []) :
    ∃ entry ∈ tally, entry.2 = tally.most := by
  have hfold (n : Nat) : tally.foldl (fun n entry => max n entry.2) n = n ∨
      ∃ entry ∈ tally, entry.2 = tally.foldl (fun n entry => max n entry.2) n := by
    clear h
    induction tally generalizing n with
    | nil => exact .inl rfl
    | cons other rest ih =>
      rcases ih (max n other.2) with heq | ⟨entry, hmem, heq⟩
      · rcases max_choice n other.2 with hmax | hmax
        · exact .inl (heq.trans hmax)
        · exact .inr ⟨other, List.mem_cons_self, (heq.trans hmax).symm⟩
      · exact .inr ⟨entry, List.mem_cons_of_mem _ hmem, heq⟩
  rcases hfold 0 with hzero | hentry
  · -- No label has a vote, so the first one has as many as any.
    obtain ⟨entry, rest, rfl⟩ := List.exists_cons_of_ne_nil h
    refine ⟨entry, List.mem_cons_self, ?_⟩
    have hle : entry.2 ≤ most (entry :: rest) := le_most List.mem_cons_self
    change most (entry :: rest) = 0 at hzero
    omega
  · exact hentry

theorem mem_leaders {tally : Tally} : v ∈ tally.leaders ↔ (v, tally.most) ∈ tally := by
  simp only [leaders, List.mem_map, List.mem_filter, decide_eq_true_eq]
  constructor
  · rintro ⟨⟨w, n⟩, ⟨hmem, rfl⟩, rfl⟩
    exact hmem
  · intro hmem
    exact ⟨(v, tally.most), ⟨hmem, rfl⟩, rfl⟩

/-- The leaders are the first votes for the labels with the most votes. -/
theorem mem_leaders_of_iff (hcountable : ∀ v ∈ votes, v.Countable) :
    v ∈ (Tally.of votes).leaders ↔
      v ∈ Vote.distinct votes ∧ votes.countP (·.same v) = (Tally.of votes).most := by
  rw [mem_leaders]
  generalize (Tally.of votes).most = most
  rw [of_eq hcountable, List.mem_map]
  constructor
  · rintro ⟨w, hw, heq⟩
    obtain ⟨rfl, hcount⟩ := Prod.mk.inj heq
    exact ⟨hw, hcount⟩
  · rintro ⟨hv, hcount⟩
    exact ⟨v, hv, Prod.ext rfl hcount⟩

/-- No label has more votes than the most of a tally. -/
theorem countP_le_most (hcountable : ∀ v ∈ votes, v.Countable) (hv : v.Countable) :
    votes.countP (·.same v) ≤ (Tally.of votes).most := by
  by_cases hany : votes.any (·.same v) = true
  · rw [← Vote.any_distinct hcountable hv, List.any_eq_true] at hany
    obtain ⟨w, hw, hsame⟩ := hany
    have hwc := hcountable w (Vote.distinct_subset votes hw)
    have hcount : votes.countP (·.same w) = votes.countP (·.same v) :=
      List.countP_congr fun u hu => by
        rw [Value.same_congr_right (hcountable u hu) hwc hv hsame]
    have hentry : (w, votes.countP (·.same w)) ∈ Tally.of votes := by
      rw [of_eq hcountable]
      exact List.mem_map_of_mem hw
    exact hcount ▸ le_most hentry
  · rw [List.countP_eq_zero.mpr (by simpa using hany)]
    exact Nat.zero_le _

end Tally

namespace Vote

variable {v w : Value} {votes : List Value}

theorem exists_winner? (hvotes : votes ≠ []) (hcountable : ∀ v ∈ votes, v.Countable) :
    ∃ winner tied count, winner? votes = some (winner, tied, count) := by
  obtain ⟨v, votes, rfl⟩ := List.exists_cons_of_ne_nil hvotes
  have hne : Tally.of (v :: votes) ≠ [] := by
    rw [Tally.of_eq hcountable, distinct]
    exact List.cons_ne_nil _ _
  obtain ⟨⟨w, n⟩, hmem, rfl⟩ := Tally.exists_entry_most hne
  have hleader := Tally.mem_leaders.mpr hmem
  cases hleaders : (Tally.of (v :: votes)).leaders with
  | nil => rw [hleaders] at hleader; cases hleader
  | cons leader others => exact ⟨_, _, _, by simp only [winner?, hleaders]; rfl⟩

/-- **No label has more votes than the winner.** -/
theorem countP_le_of_winner? {winner : Value} {tied : List Value} {count : Nat}
    (hcountable : ∀ v ∈ votes, v.Countable) (h : winner? votes = some (winner, tied, count))
    (hv : v.Countable) : votes.countP (·.same v) ≤ votes.countP (·.same winner) := by
  rw [((Tally.mem_leaders_of_iff hcountable).mp (mem_leaders_of_winner? h)).2]
  exact Tally.countP_le_most hcountable hv

theorem checkCountable_eq_ok (hcountable : ∀ v ∈ votes, v.Countable) :
    checkCountable votes = .ok () := by
  refine Except.forM_eq_ok_iff.mpr fun v hv => ?_
  obtain ⟨k, hk⟩ := hcountable v hv
  cases v <;> first | rfl | cases hk

/-- Labels of which not all are doubles are counted. -/
theorem exists_bestGuess (hvotes : votes ≠ []) (hcountable : ∀ v ∈ votes, v.Countable)
    (hdoubles : doubles? votes = none) :
    ∃ winner tied count, winner? votes = some (winner, tied, count) ∧
      (bestGuess true votes).outcome = .ok winner := by
  obtain ⟨winner, tied, count, hwinner⟩ := exists_winner? hvotes hcountable
  refine ⟨winner, tied, count, hwinner, ?_⟩
  simp only [outcome_bestGuess, List.isEmpty_eq_false_iff.mpr hvotes, hdoubles,
    checkCountable_eq_ok hcountable, Except.ok_bind, hwinner, not_cannotWarn_true]
  rfl

end Vote

end Rulebook
