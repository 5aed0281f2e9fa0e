import Rulebook.Proofs.Outcome
import Rulebook.Vote

/-!
# Votes — where the outcome of a vote comes from

A tally has no labels but the votes, its leaders are labels of it, and the winner is a leader.  So a
vote ends with one of the votes, or with an average, which is a double (`mem_of_bestGuess`).  A vote
that is to be quiet ends as one that is not, unless that one cannot write the winner that it has to
warn of (`Tied`, `outcome_bestGuess_true`).
-/

namespace Rulebook

/-! ### Labels of a tally -/

namespace Tally

/-- The labels that are counted. -/
def labels (tally : Tally) : List Value := tally.map (·.1)

theorem labels_bump_subset (v : Value) (tally : Tally) :
    labels (bump v tally) ⊆ v :: labels tally := by
  induction tally with
  | nil => exact List.Subset.refl _
  | cons entry rest ih =>
      obtain ⟨w, n⟩ := entry
      unfold bump
      split
      next => exact List.subset_cons_self _ _
      next =>
        refine List.cons_subset.mpr ⟨List.mem_cons_of_mem _ List.mem_cons_self, ?_⟩
        exact List.Subset.trans ih (List.cons_subset_cons _ (List.subset_cons_self _ _))

theorem labels_foldl_bump_subset (votes : List Value) (tally : Tally) :
    labels (votes.foldl (fun tally v => bump v tally) tally) ⊆ labels tally ++ votes := by
  induction votes generalizing tally with
  | nil => exact List.subset_append_left _ _
  | cons v votes ih =>
      refine List.Subset.trans (ih (bump v tally)) (List.append_subset.mpr ⟨?_, ?_⟩)
      · refine List.Subset.trans (labels_bump_subset v tally) (List.cons_subset.mpr ⟨?_, ?_⟩)
        · exact List.mem_append_right _ List.mem_cons_self
        · exact List.subset_append_left _ _
      · exact List.Subset.trans (List.subset_cons_self v votes) (List.subset_append_right _ _)

theorem labels_of_subset (votes : List Value) : labels (Tally.of votes) ⊆ votes :=
  labels_foldl_bump_subset votes []

theorem leaders_subset_labels (tally : Tally) : leaders tally ⊆ labels tally :=
  List.map_subset _ (List.filter_subset_self _)

end Tally

/-! ### Winners -/

namespace Vote

theorem first_mem (v : Value) (others : List Value) : first v others ∈ v :: others := by
  induction others generalizing v with
  | nil => exact List.mem_singleton_self v
  | cons w others ih =>
      change first (if w.precedes v then w else v) others ∈ _
      split
      next => exact List.mem_cons_of_mem _ (ih w)
      next =>
        rcases List.mem_cons.mp (ih v) with heq | hrest
        · exact List.mem_cons.mpr (.inl heq)
        · exact List.mem_cons_of_mem _ (List.mem_cons_of_mem _ hrest)

theorem mem_leaders_of_winner? {votes tied : List Value} {winner : Value} {count : Nat}
    (h : winner? votes = some (winner, tied, count)) : winner ∈ (Tally.of votes).leaders := by
  unfold winner? at h
  dsimp only at h
  split at h
  next => cases h
  next v others hleaders =>
    cases h
    rw [hleaders]
    exact first_mem v others

theorem mem_of_winner? {votes tied : List Value} {winner : Value} {count : Nat}
    (h : winner? votes = some (winner, tied, count)) : winner ∈ votes :=
  Tally.labels_of_subset votes (Tally.leaders_subset_labels _ (mem_leaders_of_winner? h))

theorem doubles?_eq_none {votes : List Value} {v : Value} (hv : v ∈ votes)
    (hreal : ∀ x, v ≠ .real x) : doubles? votes = none := by
  induction votes with
  | nil => cases hv
  | cons w votes ih =>
    rcases List.mem_cons.mp hv with rfl | hmem
    · cases v with
      | real x => exact absurd rfl (hreal x)
      | _ => rfl
    · cases w with
      | real x =>
          rw [doubles?, ih hmem]
          rfl
      | _ => rfl

end Vote

/-! ### The outcome -/

namespace Vote

/-- There is a tie to warn of, and its winner cannot be written. -/
def CannotWarn (quiet : Bool) (tied : List Value) (winner : Value) : Prop :=
  1 < tied.length ∧ quiet = false ∧ winner.isWritable = false

instance (quiet : Bool) (tied : List Value) (winner : Value) :
    Decidable (CannotWarn quiet tied winner) :=
  inferInstanceAs (Decidable (_ ∧ _ ∧ _))

theorem not_cannotWarn_true {tied : List Value} {winner : Value} :
    ¬CannotWarn true tied winner := fun h => nomatch h.2.1

theorem outcome_tellTie (quiet : Bool) (tied : List Value) (count : Nat) (winner : Value) :
    (tellTie quiet tied count winner).outcome =
      if CannotWarn quiet tied winner then .error .oversized else .ok () := by
  unfold tellTie CannotWarn
  by_cases htied : 1 < tied.length
  · simp only [htied, if_true, true_and]
    cases quiet <;> cases winner.isWritable <;> rfl
  · simp only [htied, if_false, false_and]
    rfl

theorem events_tellTie (quiet : Bool) (tied : List Value) (count : Nat) (winner : Value) :
    (tellTie quiet tied count winner).events =
      if 1 < tied.length then
        .record (.tied tied winner) ::
          if quiet = false ∧ winner.isWritable = true then [.warning ⟨tied.length, count, winner⟩]
          else []
      else [] := by
  unfold tellTie
  by_cases htied : 1 < tied.length
  · simp only [htied, if_true]
    cases quiet <;> cases winner.isWritable <;> rfl
  · simp only [htied, if_false]
    rfl

end Vote

/-- Without the events: doubles alone are averaged, and otherwise the winner stands if it can be
warned of where it has to be. -/
theorem outcome_bestGuess (quiet : Bool) (votes : List Value) :
    (bestGuess quiet votes).outcome =
      if votes.isEmpty then .error .noVotes
      else match Vote.doubles? votes with
      | some xs => .ok (.real (Vote.mean xs))
      | none => Vote.checkCountable votes >>= fun _ =>
        match Vote.winner? votes with
        | none => .error .noVotes
        | some (winner, tied, _) =>
          if Vote.CannotWarn quiet tied winner then .error .oversized else .ok winner := by
  unfold bestGuess
  split
  next => rfl
  cases Vote.doubles? votes with
  | some xs => rfl
  | none =>
      refine (Traced.outcome_bind _ _).trans (congrArg _ (funext fun _ => ?_))
      cases Vote.winner? votes with
      | none => rfl
      | some result =>
          obtain ⟨winner, tied, count⟩ := result
          dsimp only
          rw [Traced.outcome_bind, Vote.outcome_tellTie]
          by_cases h : Vote.CannotWarn quiet tied winner
          · rw [if_pos h, if_pos h]
            rfl
          · rw [if_neg h, if_neg h]
            rfl

/-! ### Ties -/

/-- Votes that are counted, and of which more than one label has the most.  Of these `winner` is
chosen. -/
structure Tied (votes : List Value) (winner : Value) : Prop where
  doubles : Vote.doubles? votes = none
  countable : Vote.checkCountable votes = .ok ()
  chosen : ∃ tied count, Vote.winner? votes = some (winner, tied, count) ∧ 1 < tied.length

/-- Votes with a winner are tied if there are others beside it. -/
theorem exists_tied_iff {votes tied : List Value} {winner : Value} {count : Nat}
    {P : Value → Prop} (hdoubles : Vote.doubles? votes = none)
    (hcountable : Vote.checkCountable votes = .ok ())
    (hwinner : Vote.winner? votes = some (winner, tied, count)) :
    (∃ v, Tied votes v ∧ P v) ↔ 1 < tied.length ∧ P winner := by
  constructor
  · rintro ⟨v, hv, hP⟩
    obtain ⟨tied', count', hwinner', htied⟩ := hv.chosen
    cases hwinner.symm.trans hwinner'
    exact ⟨htied, hP⟩
  · rintro ⟨htied, hP⟩
    exact ⟨winner, ⟨hdoubles, hcountable, tied, count, hwinner, htied⟩, hP⟩

theorem Tied.outcome_bestGuess {votes : List Value} {winner : Value} (h : Tied votes winner)
    (quiet : Bool) :
    (bestGuess quiet votes).outcome =
      if quiet = false ∧ winner.isWritable = false then .error .oversized else .ok winner := by
  obtain ⟨hdoubles, hcountable, tied, count, hwinner, htied⟩ := h
  have hsome : ¬votes.isEmpty = true := by
    rintro hempty
    rw [List.isEmpty_iff.mp hempty] at hdoubles
    cases hdoubles
  rw [Rulebook.outcome_bestGuess, if_neg hsome, hdoubles, hcountable, Except.ok_bind, hwinner]
  simp only [Vote.CannotWarn, htied, true_and]

/-- A vote that is to be quiet ends as the vote does, unless that has to warn of a winner that
cannot be written. -/
theorem outcome_bestGuess_true (quiet : Bool) (votes : List Value) :
    (bestGuess quiet votes).outcome = (bestGuess true votes).outcome ∨
      quiet = false ∧ ∃ winner, Tied votes winner ∧ winner.isWritable = false := by
  rw [outcome_bestGuess, outcome_bestGuess]
  split
  next => exact .inl rfl
  next =>
    cases hdoubles : Vote.doubles? votes with
    | some xs => exact .inl rfl
    | none =>
      cases hcountable : Vote.checkCountable votes with
      | error e => exact .inl rfl
      | ok u =>
        rw [Except.ok_bind, Except.ok_bind]
        cases hwinner : Vote.winner? votes with
        | none => exact .inl rfl
        | some result =>
          obtain ⟨winner, tied, count⟩ := result
          by_cases h : Vote.CannotWarn quiet tied winner
          · obtain ⟨htied, hloud, hoversized⟩ := h
            exact .inr ⟨hloud, winner, ⟨hdoubles, hcountable, tied, count, hwinner, htied⟩,
              hoversized⟩
          · dsimp only
            rw [if_neg h, if_neg Vote.not_cannotWarn_true]
            exact .inl rfl

theorem outcome_bestGuess_true_of_ok {quiet : Bool} {votes : List Value} {v : Value}
    (h : (bestGuess quiet votes).outcome = .ok v) : (bestGuess true votes).outcome = .ok v := by
  rcases outcome_bestGuess_true quiet votes with heq | ⟨hloud, winner, htied, hoversized⟩
  · rwa [← heq]
  · rw [htied.outcome_bestGuess, if_pos ⟨hloud, hoversized⟩] at h
    cases h

/-- What is won quietly is won, or it cannot be written and there is a tie to warn of. -/
theorem outcome_bestGuess_of_true {votes : List Value} {v : Value}
    (h : (bestGuess true votes).outcome = .ok v) (quiet : Bool) :
    (bestGuess quiet votes).outcome = .ok v ∨
      quiet = false ∧ Tied votes v ∧ v.isWritable = false ∧
        (bestGuess quiet votes).outcome = .error .oversized := by
  rcases outcome_bestGuess_true quiet votes with heq | ⟨hloud, winner, htied, hoversized⟩
  · exact .inl (heq.trans h)
  · rw [htied.outcome_bestGuess, if_neg fun hquiet => nomatch hquiet.1] at h
    cases h
    refine .inr ⟨hloud, htied, hoversized, ?_⟩
    rw [htied.outcome_bestGuess, if_pos ⟨hloud, hoversized⟩]

/-- A vote that is to be quiet has nothing to write. -/
theorem outcome_bestGuess_true_ne_oversized (votes : List Value) :
    (bestGuess true votes).outcome ≠ .error .oversized := by
  intro h
  rw [outcome_bestGuess] at h
  split at h
  next => cases h
  next =>
    split at h
    next => cases h
    next =>
      rcases Except.bind_eq_error_iff.mp h with hcountable | ⟨_, -, h⟩
      · obtain ⟨_, v, _, -, -, hv⟩ := Except.forM_eq_error_iff.mp hcountable
        cases v <;> cases hv
      · split at h
        next => cases h
        next =>
          rw [if_neg Vote.not_cannotWarn_true] at h
          cases h

/-- Another vote fails in writing exactly at a tie whose winner cannot be written. -/
theorem outcome_bestGuess_eq_oversized_iff {votes : List Value} :
    (bestGuess false votes).outcome = .error .oversized ↔
      ∃ winner, Tied votes winner ∧ winner.isWritable = false := by
  constructor
  · intro h
    rcases outcome_bestGuess_true false votes with heq | ⟨-, htied⟩
    · exact absurd (heq.symm.trans h) (outcome_bestGuess_true_ne_oversized votes)
    · exact htied
  · rintro ⟨winner, htied, hoversized⟩
    rw [htied.outcome_bestGuess, if_pos ⟨rfl, hoversized⟩]

/-! ### Where an outcome comes from -/

/-- **A vote invents nothing but averages.** -/
theorem mem_of_bestGuess {quiet : Bool} {votes : List Value} {v : Value}
    (h : (bestGuess quiet votes).outcome = .ok v) :
    v ∈ votes ∨ votes ≠ [] ∧ ∃ xs, Vote.doubles? votes = some xs ∧ v = .real (Vote.mean xs) := by
  rw [outcome_bestGuess] at h
  split at h
  next => cases h
  next hsome =>
    split at h
    next xs hxs =>
      cases h
      exact .inr ⟨fun hnone => hsome (List.isEmpty_iff.mpr hnone), xs, hxs, rfl⟩
    next =>
      obtain ⟨_, -, h⟩ := Except.bind_eq_ok_iff.mp h
      split at h
      next => cases h
      next hwinner =>
        split at h
        next => cases h
        next =>
          cases h
          exact .inl (Vote.mem_of_winner? hwinner)

/-- Where no vote is a double nothing is averaged. -/
theorem mem_of_bestGuess_of_ne_real {quiet : Bool} {votes : List Value} {v : Value}
    (h : (bestGuess quiet votes).outcome = .ok v) (hreal : ∀ w ∈ votes, ∀ x, w ≠ .real x) :
    v ∈ votes := by
  rcases mem_of_bestGuess h with hmem | ⟨hsome, xs, hxs, -⟩
  · exact hmem
  · obtain ⟨w, rest, rfl⟩ := List.exists_cons_of_ne_nil hsome
    rw [Vote.doubles?_eq_none List.mem_cons_self (hreal w List.mem_cons_self)] at hxs
    cases hxs

end Rulebook
