import Rulebook.Proofs.Asking
import Rulebook.Proofs.Winner

/-!
# Votes — in another order

The order of the votes decides which of several equal ones stands for their label, and so, where
they are of different kinds, at which place the label is in the order of labels.  For texts,
integers and truth values nothing else depends on it.

* `Vote.Foremost`: of all votes for the labels with the most votes the first in the order of labels.
* `Vote.Split`: two labels share the most votes.  This never depends on the order.
* `bestGuess_perm`: the vote is the same in every order exactly if all votes for the label of the
  foremost vote are that vote.
-/

namespace Rulebook

/-! ### Labels of classes -/

namespace Value

variable {v w : Value}

/-- A text, an integer or a truth value. -/
def IsLabel (v : Value) : Prop := (∃ s, v = .text s) ∨ (∃ n, v = .int n) ∨ ∃ b, v = .bool b

theorem IsLabel.countable (h : v.IsLabel) : v.Countable := by
  rcases h with ⟨s, rfl⟩ | ⟨n, rfl⟩ | ⟨b, rfl⟩ <;> exact ⟨_, rfl⟩

theorem IsLabel.ne_real (h : v.IsLabel) (x : Binary64) : v ≠ .real x := by
  rcases h with ⟨s, rfl⟩ | ⟨n, rfl⟩ | ⟨b, rfl⟩ <;> nofun

/-- Labels of one kind that are equal as labels are one value. -/
theorem IsLabel.eq_of_same (hv : v.IsLabel) (hw : w.IsLabel) (h : v.same w = true)
    (hkind : v.kindName = w.kindName) : v = w := by
  rcases hv with ⟨s, rfl⟩ | ⟨n, rfl⟩ | ⟨b, rfl⟩ <;>
    rcases hw with ⟨t, rfl⟩ | ⟨m, rfl⟩ | ⟨c, rfl⟩
  case inl.inl => exact congrArg text (by simpa [same] using h)
  case inr.inl.inr.inl =>
    rw [same_iff_key? rfl rfl] at h
    exact congrArg int (position_ofInt_injective (LabelKey.place.inj h))
  case inr.inr.inr.inr => cases b <;> cases c <;> first | rfl | cases h
  all_goals simp [kindName] at hkind

/-- An integer that is equal to something else is zero or one, so it can be written. -/
theorem IsLabel.isWritable_of_same (hv : v.IsLabel) (hw : w.IsLabel) (h : v.same w = true)
    (hne : v ≠ w) : w.isWritable = true := by
  rcases hw with ⟨t, rfl⟩ | ⟨m, rfl⟩ | ⟨c, rfl⟩
  · rfl
  · rcases hv with ⟨s, rfl⟩ | ⟨n, rfl⟩ | ⟨b, rfl⟩
    · simp [same, samePlace, place?] at h
    · exact absurd (eq_of_same (.inr (.inl ⟨n, rfl⟩)) (.inr (.inl ⟨m, rfl⟩)) h rfl) hne
    · rw [same_iff_key? rfl rfl] at h
      obtain rfl := position_ofInt_injective (LabelKey.place.inj h)
      cases b <;> rfl
  · rfl

/-- Different labels have an order, also where they are equal as labels. -/
theorem IsLabel.comparable (hv : v.IsLabel) (hw : w.IsLabel) :
    v = w ∨ v.precedes w = true ∨ w.precedes v = true := by
  cases h : v.same w with
  | false => exact .inr (precedes_or_precedes hv.countable hw.countable h)
  | true =>
    rcases lt_trichotomy v.kindName w.kindName with hlt | hkind | hgt
    · exact .inr (.inl (precedes_iff.mpr (.inl hlt)))
    · exact .inl (hv.eq_of_same hw h hkind)
    · exact .inr (.inr (precedes_iff.mpr (.inl hgt)))

end Value

/-! ### Votes in any order -/

namespace Vote

variable {v w least : Value} {votes others : List Value}

/-- Of the votes for the labels with the most votes the first in the order of labels. -/
structure Foremost (votes : List Value) (v : Value) : Prop where
  plurality : Plurality votes votes v
  least : ∀ w, Plurality votes votes w → w = v ∨ v.precedes w = true

theorem plurality_perm (h : votes.Perm others) (hv : Plurality votes votes v) :
    Plurality others others v := by
  refine ⟨h.mem_iff.mp hv.mem, fun w hw => ?_⟩
  rw [← h.countP_eq, ← h.countP_eq]
  exact hv.most w (h.mem_iff.mpr hw)

theorem Foremost.perm (h : votes.Perm others) (hv : Foremost votes v) : Foremost others v :=
  ⟨plurality_perm h hv.plurality, fun w hw => hv.least w (plurality_perm h.symm hw)⟩

theorem exists_wins (hvotes : votes ≠ []) (hcountable : ∀ v ∈ votes, v.Countable) :
    ∃ winner, Wins votes winner := by
  obtain ⟨winner, tied, count, hwinner⟩ := exists_winner? hvotes hcountable
  exact ⟨winner, (wins_of_winner? hcountable hwinner).1⟩

theorem exists_foremost (hvotes : votes ≠ []) (hlabels : ∀ v ∈ votes, v.IsLabel) :
    ∃ least, Foremost votes least := by
  classical
  obtain ⟨winner, hwins⟩ := exists_wins hvotes fun v hv => (hlabels v hv).countable
  obtain ⟨others, hothers⟩ : ∃ others, others = votes.filter fun v => Plurality votes votes v :=
    ⟨_, rfl⟩
  have hmem (v : Value) : v ∈ others ↔ Plurality votes votes v := by
    rw [hothers, List.mem_filter, decide_eq_true_eq]
    exact and_iff_right_of_imp Plurality.mem
  have hall : ∀ v ∈ winner :: others, Plurality votes votes v :=
    List.forall_mem_cons.mpr ⟨hwins.leads.plurality, fun v => (hmem v).mp⟩
  have hleast : ∀ w ∈ winner :: others,
      w = first winner others ∨ (first winner others).precedes w = true :=
    first_least fun x hx y hy =>
      (hlabels x (hall x hx).mem).comparable (hlabels y (hall y hy).mem)
  refine ⟨first winner others, hall _ (first_mem winner others), fun w hw => ?_⟩
  exact hleast w (List.mem_cons_of_mem _ ((hmem w).mpr hw))

/-- If it stands for its label, the foremost vote wins. -/
theorem Foremost.wins (h : Foremost votes least) (hstands : Stands votes least) :
    Wins votes least :=
  ⟨⟨hstands, h.plurality⟩, fun w hw => h.least w hw.plurality⟩

/-- A vote that is the only value of its label stands for it. -/
theorem stands_of_forall_same (hcountable : ∀ v ∈ votes, v.Countable) (hv : v ∈ votes)
    (honly : ∀ w ∈ votes, w.same v = true → w = v) : Stands votes v := by
  obtain ⟨w, hw, hsame⟩ := exists_distinct_same hcountable hv
  obtain rfl := honly w (distinct_subset votes hw) hsame
  exact mem_distinct_iff.mp hw

/-- Where two values of one label are voted for, either may be the first. -/
theorem exists_perm_stands (hv : v ∈ votes) :
    ∃ others, votes.Perm others ∧ Stands others v ∧
      ∀ w, v.same w = true → w ≠ v → ¬ Stands others w := by
  obtain ⟨before, after, rfl⟩ := List.append_of_mem hv
  refine ⟨v :: (before ++ after), List.perm_middle, ⟨[], _, rfl, List.forall_mem_nil _⟩, ?_⟩
  rintro w hsame hne ⟨_ | ⟨first, before'⟩, after', hvotes, hbefore⟩
  · exact hne (List.head_eq_of_cons_eq hvotes).symm
  · obtain ⟨rfl, -⟩ := List.cons.inj hvotes
    exact absurd (hbefore v List.mem_cons_self) (by simp [hsame])

/-! ### Ties in any order -/

theorem plurality_of_same (hcountable : ∀ v ∈ votes, v.Countable) (hv : Plurality votes votes v)
    (hw : w ∈ votes) (hsame : w.same v = true) : Plurality votes votes w := by
  have hcount : votes.countP (·.same w) = votes.countP (·.same v) :=
    List.countP_congr fun u hu => by
      rw [Value.same_congr_right (hcountable u hu) (hcountable w hw) (hcountable v hv.mem) hsame]
  exact ⟨hw, fun u hu => hcount ▸ hv.most u hu⟩

theorem exists_leads_of_plurality (hcountable : ∀ v ∈ votes, v.Countable)
    (hv : Plurality votes votes v) : ∃ w, Leads votes w ∧ w.same v = true := by
  obtain ⟨w, hw, hsame⟩ := exists_distinct_same hcountable hv.mem
  have hmem := distinct_subset votes hw
  exact ⟨w, ⟨mem_distinct_iff.mp hw, plurality_of_same hcountable hv hmem hsame⟩, hsame⟩

/-- Two labels share the most votes. -/
def Split (votes : List Value) : Prop :=
  ∃ v w, Plurality votes votes v ∧ Plurality votes votes w ∧ v.same w = false

theorem Split.perm (h : votes.Perm others) : Split votes → Split others :=
  fun ⟨v, w, hv, hw, hne⟩ => ⟨v, w, plurality_perm h hv, plurality_perm h hw, hne⟩

theorem split_perm_iff (h : votes.Perm others) : Split others ↔ Split votes :=
  ⟨Split.perm h.symm, Split.perm h⟩

/-- More than one label leads if two labels share the most votes. -/
theorem one_lt_length_leaders_iff (hcountable : ∀ v ∈ votes, v.Countable) :
    1 < (Tally.of votes).leaders.length ↔ Split votes := by
  have hleaders : ∀ v, v ∈ (Tally.of votes).leaders ↔ Leads votes v := fun v =>
    mem_leaders_iff hcountable
  have hpairwise := pairwise_leaders hcountable
  generalize (Tally.of votes).leaders = leaders at hleaders hpairwise
  constructor
  · intro hlength
    match leaders, hlength with
    | v :: w :: leaders, _ =>
      have hv := (hleaders v).mp (by simp)
      have hw := (hleaders w).mp (by simp)
      exact ⟨v, w, hv.plurality, hw.plurality, List.rel_of_pairwise_cons hpairwise (by simp)⟩
  · rintro ⟨v, w, hv, hw, hne⟩
    obtain ⟨v', hv', hvsame⟩ := exists_leads_of_plurality hcountable hv
    obtain ⟨w', hw', hwsame⟩ := exists_leads_of_plurality hcountable hw
    have hvmem := (hleaders v').mpr hv'
    have hwmem := (hleaders w').mpr hw'
    rcases leaders with _ | ⟨first, _ | ⟨second, rest⟩⟩
    · cases hvmem
    · -- The two labels are one, since one vote stands for both.
      obtain rfl := (List.mem_singleton.mp hvmem).trans (List.mem_singleton.mp hwmem).symm
      have hvc := hcountable v hv.mem
      have hvc' := hcountable v' hv'.stands.mem
      rw [← Value.same_congr_right hvc hvc' (hcountable w hw.mem) hwsame,
        Value.same_comm hvc hvc', hvsame] at hne
      cases hne
    · exact Nat.succ_lt_succ (Nat.succ_pos _)

theorem winner?_of_wins {winner : Value} (hcountable : ∀ v ∈ votes, v.Countable)
    (h : Wins votes winner) :
    winner? votes =
      some (winner, (Tally.of votes).leaders, votes.countP (·.same winner)) := by
  obtain ⟨winner', tied, count, hwinner⟩ :=
    exists_winner? (List.ne_nil_of_mem h.leads.stands.mem) hcountable
  obtain ⟨hwins, rfl, rfl⟩ := wins_of_winner? hcountable hwinner
  obtain rfl := h.unique hwins
  exact hwinner

/-- How a vote ends that `winner` wins: it is to warn of the winner and cannot, or it ends with the
winner. -/
structure Ends (quiet : Bool) (votes : List Value) (winner : Value) : Prop where
  wins : Wins votes winner
  fails : quiet = false ∧ Split votes ∧ winner.isWritable = false →
    (bestGuess quiet votes).outcome = .error .oversized ∧ (bestGuess quiet votes).Silent
  succeeds : ¬(quiet = false ∧ Split votes ∧ winner.isWritable = false) →
    (bestGuess quiet votes).outcome = .ok winner ∧
      ((bestGuess quiet votes).Silent ↔ quiet = true ∨ ¬Split votes)

theorem Ends.eq_of_ok {quiet : Bool} {winner : Value} (h : Ends quiet votes winner)
    (hok : (bestGuess quiet votes).outcome = .ok v) : v = winner := by
  by_cases hcannot : quiet = false ∧ Split votes ∧ winner.isWritable = false
  · rw [(h.fails hcannot).1] at hok
    cases hok
  · rw [(h.succeeds hcannot).1] at hok
    exact (Except.ok.inj hok).symm

/-- Votes that are won by one vote, and both split or neither, end alike. -/
theorem Ends.congr {quiet : Bool} {winner : Value} (h : Ends quiet votes winner)
    (h' : Ends quiet others winner) (hsplit : Split votes ↔ Split others) :
    (bestGuess quiet votes).outcome = (bestGuess quiet others).outcome ∧
      ((bestGuess quiet votes).Silent ↔ (bestGuess quiet others).Silent) := by
  have hfails := h'.fails
  have hsucceeds := h'.succeeds
  rw [← hsplit] at hfails hsucceeds
  by_cases hcannot : quiet = false ∧ Split votes ∧ winner.isWritable = false
  · obtain ⟨houtcome, hsilent⟩ := h.fails hcannot
    obtain ⟨houtcome', hsilent'⟩ := hfails hcannot
    exact ⟨houtcome.trans houtcome'.symm, iff_of_true hsilent hsilent'⟩
  · obtain ⟨houtcome, hsilent⟩ := h.succeeds hcannot
    obtain ⟨houtcome', hsilent'⟩ := hsucceeds hcannot
    exact ⟨houtcome.trans houtcome'.symm, hsilent.trans hsilent'.symm⟩

theorem ends_of_wins {winner : Value} (quiet : Bool) (hcountable : ∀ v ∈ votes, v.Countable)
    (hdoubles : doubles? votes = none) (hwins : Wins votes winner) : Ends quiet votes winner := by
  have hwinner := winner?_of_wins hcountable hwins
  have hsilent : (bestGuess quiet votes).Silent ↔
      quiet = true ∨ ¬(Split votes ∧ winner.isWritable = true) := by
    rw [silent_bestGuess_iff,
      exists_tied_iff hdoubles (checkCountable_eq_ok hcountable) hwinner,
      one_lt_length_leaders_iff hcountable]
  have houtcome := outcome_bestGuess_of_winner? quiet hcountable hdoubles hwinner
  have hcannot : CannotWarn quiet (Tally.of votes).leaders winner ↔
      quiet = false ∧ Split votes ∧ winner.isWritable = false := by
    rw [CannotWarn, one_lt_length_leaders_iff hcountable, and_left_comm]
  refine ⟨hwins, fun hfails => ?_, fun hsucceeds => ?_⟩
  · rw [houtcome, if_pos (hcannot.mpr hfails), hsilent, hfails.2.2]
    exact ⟨rfl, .inr fun h => absurd h.2 Bool.false_ne_true⟩
  · rw [houtcome, if_neg (mt hcannot.mp hsucceeds), hsilent]
    refine ⟨rfl, ?_⟩
    cases quiet with
    | true => simp
    | false =>
      have hwritable : Split votes → winner.isWritable = true := by simpa using hsucceeds
      rw [and_iff_left_of_imp hwritable]

end Vote

/-! ### The vote in any order -/

namespace Vote

variable {votes others : List Value} {winner least : Value} (quiet : Bool)
  (hlabels : ∀ v ∈ votes, v.IsLabel)
include hlabels

theorem ends_of_perm (h : votes.Perm others) (hwins : Wins others winner) :
    Ends quiet others winner := by
  have hothers : ∀ v ∈ others, v.IsLabel := fun v hv => hlabels v (h.mem_iff.mpr hv)
  have hmem := hwins.leads.stands.mem
  exact ends_of_wins quiet (fun v hv => (hothers v hv).countable)
    (doubles?_eq_none hmem (hothers winner hmem).ne_real) hwins

/-- In every order one of the votes wins. -/
theorem exists_ends (hvotes : votes ≠ []) (h : votes.Perm others) :
    ∃ winner ∈ votes, Ends quiet others winner := by
  obtain ⟨winner, hwins⟩ := exists_wins (fun hnil => hvotes (hnil ▸ h).eq_nil) fun v hv =>
    (hlabels v (h.mem_iff.mpr hv)).countable
  exact ⟨winner, h.mem_iff.mpr hwins.leads.stands.mem, ends_of_perm quiet hlabels h hwins⟩

/-- The foremost vote, if it is the only value of its label, stands for it in every order, so it
wins. -/
theorem ends_of_forall_same (hleast : Foremost votes least)
    (honly : ∀ v ∈ votes, v.same least = true → v = least) (h : votes.Perm others) :
    Ends quiet others least := by
  have hcountable : ∀ v ∈ others, v.Countable := fun v hv =>
    (hlabels v (h.mem_iff.mpr hv)).countable
  refine ends_of_perm quiet hlabels h
    ((hleast.perm h).wins (stands_of_forall_same hcountable ?_ ?_))
  · exact h.mem_iff.mp hleast.plurality.mem
  · exact fun v hv => honly v (h.mem_iff.mpr hv)

/-- Put first, either of two values of a label is the only one of them that can win. -/
theorem eq_of_forall_perm (hleast : Foremost votes least)
    (hsame : ∀ others, votes.Perm others →
      (bestGuess quiet others).outcome = (bestGuess quiet votes).outcome)
    {v : Value} (hv : v ∈ votes) (hvleast : v.same least = true) : v = least := by
  by_contra hne
  obtain ⟨others, h, hstands, -⟩ := exists_perm_stands hleast.plurality.mem
  obtain ⟨others', h', -, hnot⟩ := exists_perm_stands hv
  obtain ⟨winner, -, hend'⟩ := exists_ends quiet hlabels (List.ne_nil_of_mem hv) h'
  have hend := ends_of_perm quiet hlabels h ((hleast.perm h).wins hstands)
  have hwritable : least.isWritable = true :=
    (hlabels v hv).isWritable_of_same (hlabels least hleast.plurality.mem) hvleast hne
  have hok : (bestGuess quiet others).outcome = .ok least :=
    (hend.succeeds fun h => absurd (h.2.2.symm.trans hwritable) Bool.false_ne_true).1
  rw [hsame others h, ← hsame others' h'] at hok
  obtain rfl := hend'.eq_of_ok hok
  exact hnot least hvleast (Ne.symm hne) hend'.wins.leads.stands

/-- Votes that can be written, or a vote that is to be quiet, always end with one of them. -/
theorem exists_outcome_of_writable (hvotes : votes ≠ [])
    (hwritable : quiet = true ∨ ∀ v ∈ votes, v.isWritable = true) (h : votes.Perm others) :
    ∃ winner ∈ votes, (bestGuess quiet others).outcome = .ok winner ∧
      ((bestGuess quiet others).Silent ↔ quiet = true ∨ ¬Split votes) := by
  obtain ⟨winner, hmem, hend⟩ := exists_ends quiet hlabels hvotes h
  rw [← split_perm_iff h]
  refine ⟨winner, hmem, hend.succeeds ?_⟩
  rintro ⟨hloud, -, hoversized⟩
  rcases hwritable with hquiet | hall
  · exact absurd (hloud.symm.trans hquiet) Bool.false_ne_true
  · exact absurd (hoversized.symm.trans (hall winner hmem)) Bool.false_ne_true

end Vote

/-- **A vote depends on the order of the votes only where the foremost is one of several values of
its label.**  Votes for texts, integers and truth values are won in every order by one of them, and
the vote ends with it, unless it has to warn of a tie and cannot write the winner.  If none of the
votes is too large to be written, or the vote is to be quiet, it always ends with one of them, and
it warns in one order if in any.  The vote is the same in every order exactly if all votes for the
label of the foremost vote are that vote. -/
theorem bestGuess_perm (quiet : Bool) {votes : List Value} (hvotes : votes ≠ [])
    (hlabels : ∀ v ∈ votes, v.IsLabel) :
    (∀ others, votes.Perm others → ∃ winner ∈ votes, Vote.Ends quiet others winner) ∧
      (quiet = true ∨ (∀ v ∈ votes, v.isWritable = true) → ∀ others, votes.Perm others →
        (∃ v ∈ votes, (bestGuess quiet others).outcome = .ok v) ∧
          ((bestGuess quiet others).Silent ↔ (bestGuess quiet votes).Silent)) ∧
      ∃ least, Vote.Foremost votes least ∧
        ((∀ others, votes.Perm others →
            (bestGuess quiet others).outcome = (bestGuess quiet votes).outcome ∧
              ((bestGuess quiet others).Silent ↔ (bestGuess quiet votes).Silent)) ↔
          ∀ v ∈ votes, v.same least = true → v = least) := by
  refine ⟨fun others h => Vote.exists_ends quiet hlabels hvotes h, fun hwritable others h => ?_, ?_⟩
  · obtain ⟨winner, hmem, houtcome, hsilent⟩ :=
      Vote.exists_outcome_of_writable quiet hlabels hvotes hwritable h
    obtain ⟨-, -, -, hsilent'⟩ :=
      Vote.exists_outcome_of_writable quiet hlabels hvotes hwritable (.refl votes)
    exact ⟨⟨winner, hmem, houtcome⟩, hsilent.trans hsilent'.symm⟩
  · obtain ⟨least, hleast⟩ := Vote.exists_foremost hvotes hlabels
    refine ⟨least, hleast, fun hsame v hv => ?_, fun honly others h => ?_⟩
    · exact Vote.eq_of_forall_perm quiet hlabels hleast (fun others h => (hsame others h).1) hv
    · exact (Vote.ends_of_forall_same quiet hlabels hleast honly h).congr
        (Vote.ends_of_forall_same quiet hlabels hleast honly (.refl votes)) (Vote.split_perm_iff h)

/-- A text and an integer are tied, and no label has several values. -/
def plainVotes : List Value := [.text "b", .int 1, .bool false, .int 1, .text "b"]

theorem bestGuess_perm_plainVotes :
    plainVotes ≠ [] ∧ (∀ v ∈ plainVotes, v.IsLabel) ∧
      ∀ others, plainVotes.Perm others → (bestGuess true others).outcome = .ok (.int 1) := by
  have hlabels : ∀ v ∈ plainVotes, v.IsLabel := by simp [plainVotes, Value.IsLabel]
  have hpure : ∀ w ∈ plainVotes, ∀ v ∈ plainVotes, v.same w = true → v = w := by
    intro w hw v hv hsame
    simp only [plainVotes, List.mem_cons, List.not_mem_nil, or_false] at hw hv
    rcases hw with rfl | rfl | rfl | rfl | rfl <;>
      rcases hv with rfl | rfl | rfl | rfl | rfl <;> first | rfl | cases hsame
  refine ⟨List.cons_ne_nil _ _, hlabels, fun others h => ?_⟩
  obtain ⟨-, -, least, hleast, hsame⟩ := bestGuess_perm true (List.cons_ne_nil _ _) hlabels
  exact (hsame.mpr (hpure least hleast.plurality.mem) others h).1

/-- An integer and a truth value that are one label, against another integer twice. -/
def blurredVotes : List Value := [.int 1, .bool true, .int 0, .int 0]

/-- With the truth value first, its label comes before the other; with the integer first, behind
it. -/
theorem not_bestGuess_perm_of_blurred :
    ¬ ∀ (quiet : Bool) (votes others : List Value), votes ≠ [] → (∀ v ∈ votes, v.IsLabel) →
      votes.Perm others → (bestGuess quiet others).outcome = (bestGuess quiet votes).outcome ∧
        ((bestGuess quiet others).Silent ↔ (bestGuess quiet votes).Silent) := by
  intro h
  have hlabels : ∀ v ∈ blurredVotes, v.IsLabel := by simp [blurredVotes, Value.IsLabel]
  obtain ⟨heq, -⟩ := h true blurredVotes [.bool true, .int 1, .int 0, .int 0]
    (List.cons_ne_nil _ _) hlabels (.swap _ _ _)
  have hfirst : (bestGuess true blurredVotes).outcome = .ok (.int 0) := rfl
  have hsecond : (bestGuess true [.bool true, .int 1, .int 0, .int 0]).outcome =
      .ok (.bool true) := rfl
  rw [hfirst, hsecond] at heq
  cases heq

end Rulebook
