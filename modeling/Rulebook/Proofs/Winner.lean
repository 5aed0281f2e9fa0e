import Mathlib.Data.String.Basic
import Rulebook.Proofs.Majority

/-!
# Votes — who wins

The votes that are equal as labels are one group, and the first of them stands for it.  Of the
groups with the most votes wins the one whose first vote comes first in the order of labels.

* `Value.precedes_or_precedes`: labels that are not equal have an order, so a tie can be broken.
* `Vote.Stands`, `Vote.Leads`: the first vote of a group, and of one with the most votes.
* `Vote.Wins`: the least of these.
* `bestGuess_elects`: votes that are not all doubles are won in this way; a tie is recorded, and
  warned of unless the vote is to be quiet.
-/

namespace Rulebook

/-! ### The order of labels -/

namespace Value

variable {u v w : Value}

/-- Texts are ordered as texts, and numbers by their places; nothing else is. -/
theorem less_iff : v.less w = true ↔
    (∃ s t, v = .text s ∧ w = .text t ∧ s < t) ∨
      ∃ p q, v.place? = some p ∧ w.place? = some q ∧ p.position < q.position := by
  unfold less
  split
  next => simp [place?]
  next htext =>
    have hnot : ¬ ∃ s t, v = .text s ∧ w = .text t ∧ s < t := by
      rintro ⟨s, t, hv, hw, -⟩
      exact htext s t hv hw
    rw [or_iff_right hnot]
    split
    next p q hp hq => simp [hp, hq, Extended.compare_eq_lt_iff]
    next hnone =>
      constructor
      · intro h
        cases h
      · rintro ⟨p, q, hp, hq, -⟩
        exact (hnone p q hp hq).elim

theorem less_trans (huv : u.less v = true) (hvw : v.less w = true) : u.less w = true := by
  rw [less_iff] at huv hvw ⊢
  rcases huv with ⟨r, s, rfl, rfl, hrs⟩ | ⟨p, q, hp, hq, hpq⟩ <;>
    rcases hvw with ⟨s', t, hs', rfl, hst⟩ | ⟨q', x, hq', hx, hqx⟩
  · cases hs'
    exact .inl ⟨r, t, rfl, rfl, hrs.trans hst⟩
  · cases hq'
  · rw [hs'] at hq
    cases hq
  · obtain rfl : q = q' := Option.some.inj (hq.symm.trans hq')
    exact .inr ⟨p, x, hp, hx, hpq.trans hqx⟩

theorem not_less_self (v : Value) : ¬ v.less v = true := by
  rw [less_iff]
  rintro (⟨s, t, rfl, ht, hst⟩ | ⟨p, q, hp, hq, hpq⟩)
  · cases ht
    exact hst.false
  · obtain rfl : p = q := Option.some.inj (hp.symm.trans hq)
    exact hpq.false

/-- Labels are ordered by the names of their kinds, and within one kind as its values are. -/
theorem precedes_iff : v.precedes w = true ↔
    v.kindName < w.kindName ∨ v.kindName = w.kindName ∧ v.less w = true := by
  unfold precedes
  by_cases h : v.kindName = w.kindName
  · simp [h]
  · simp [h]

theorem precedes_trans (huv : u.precedes v = true) (hvw : v.precedes w = true) :
    u.precedes w = true := by
  rw [precedes_iff] at huv hvw ⊢
  rcases huv with huv | ⟨huv, hless⟩ <;> rcases hvw with hvw | ⟨hvw, hless'⟩
  · exact .inl (huv.trans hvw)
  · exact .inl (hvw ▸ huv)
  · exact .inl (huv ▸ hvw)
  · exact .inr ⟨huv.trans hvw, less_trans hless hless'⟩

theorem not_precedes_self (v : Value) : ¬ v.precedes v = true := by
  rw [precedes_iff]
  rintro (h | ⟨-, h⟩)
  · exact h.false
  · exact not_less_self v h

/-- Whatever is no list and, if it is a double, a number can be counted. -/
theorem countable_iff : v.Countable ↔ v ≠ .real .nan ∧ ∀ vs, v ≠ .list vs := by
  cases v with
  | missing => exact iff_of_true ⟨_, rfl⟩ (by simp)
  | bool b => exact iff_of_true ⟨_, rfl⟩ (by simp)
  | int n => exact iff_of_true ⟨_, rfl⟩ (by simp)
  | text s => exact iff_of_true ⟨_, rfl⟩ (by simp)
  | list vs => exact iff_of_false (fun ⟨_, hk⟩ => by cases hk) (by simp)
  | real x =>
    by_cases hx : x = .nan
    · subst hx
      exact iff_of_false (fun ⟨_, hk⟩ => by cases hk) (by simp)
    · obtain ⟨p, hp⟩ := Binary64.exists_place? hx
      refine iff_of_true ⟨.place p.position, ?_⟩ (by simp [hx])
      simp [key?, place?, hp]

/-- **The comparison of different labels never fails.** -/
theorem precedes_or_precedes (hv : v.Countable) (hw : w.Countable) (h : v.same w = false) :
    v.precedes w = true ∨ w.precedes v = true := by
  simp only [precedes_iff, less_iff]
  rcases lt_trichotomy v.kindName w.kindName with hlt | hkind | hgt
  · exact .inl (.inl hlt)
  · obtain ⟨k, hk⟩ := hv
    obtain ⟨l, hl⟩ := hw
    have hne : k ≠ l := fun hkl => by
      rw [(same_iff_key? hk hl).mpr hkl] at h
      cases h
    rcases exists_of_key? hk with ⟨rfl, rfl⟩ | ⟨s, rfl, rfl⟩ | ⟨p, hp, rfl⟩ <;>
      rcases exists_of_key? hl with ⟨rfl, rfl⟩ | ⟨t, rfl, rfl⟩ | ⟨q, hq, rfl⟩
    case inl.inl => exact absurd rfl hne
    case inr.inl.inr.inl =>
      rcases lt_or_gt_of_ne (fun hst : s = t => hne (hst ▸ rfl)) with hst | hts
      · exact .inl (.inr ⟨rfl, .inl ⟨s, t, rfl, rfl, hst⟩⟩)
      · exact .inr (.inr ⟨rfl, .inl ⟨t, s, rfl, rfl, hts⟩⟩)
    case inr.inr.inr.inr =>
      rcases lt_or_gt_of_ne (fun hpq : p.position = q.position => hne (hpq ▸ rfl)) with hpq | hqp
      · exact .inl (.inr ⟨hkind, .inr ⟨p, q, hp, hq, hpq⟩⟩)
      · exact .inr (.inr ⟨hkind.symm, .inr ⟨q, p, hq, hp, hqp⟩⟩)
    -- A text, a number and nothing have different names.
    case inl.inr.inl | inr.inl.inl => exact absurd hkind (by simp [kindName])
    case inl.inr.inr => cases w <;> simp [kindName, place?] at hkind hq
    case inr.inl.inr.inr => cases w <;> simp [kindName, place?] at hkind hq
    case inr.inr.inl => cases v <;> simp [kindName, place?] at hkind hp
    case inr.inr.inr.inl => cases v <;> simp [kindName, place?] at hkind hp
  · exact .inr (.inl hgt)

end Value

/-! ### Groups -/

namespace Vote

variable {u v w : Value} {votes : List Value}

/-- A vote that no earlier vote is equal to. -/
def Stands (votes : List Value) (v : Value) : Prop :=
  ∃ before after, votes = before ++ v :: after ∧ ∀ u ∈ before, u.same v = false

/-- The first vote for a label that no label has more votes than. -/
structure Leads (votes : List Value) (v : Value) : Prop where
  stands : Stands votes v
  plurality : Plurality votes votes v

/-- Of the first votes for the labels with the most votes the first in the order of labels. -/
structure Wins (votes : List Value) (v : Value) : Prop where
  leads : Leads votes v
  least : ∀ w, Leads votes w → w = v ∨ v.precedes w = true

theorem Stands.mem (h : Stands votes v) : v ∈ votes := by
  obtain ⟨before, after, rfl, -⟩ := h
  simp

/-- Of two votes that are equal as labels one is not the first. -/
theorem Stands.eq_of_same (hv : Stands votes v) (hw : Stands votes w) (hvw : v.same w = true)
    (hwv : w.same v = true) : v = w := by
  obtain ⟨before, after, rfl, hbefore⟩ := hv
  obtain ⟨before', after', hvotes, hbefore'⟩ := hw
  rcases List.append_eq_append_iff.mp hvotes with ⟨between, rfl, htail⟩ | ⟨between, rfl, htail⟩
  · cases between with
    | nil => exact List.head_eq_of_cons_eq htail
    | cons first between =>
      obtain ⟨rfl, -⟩ := List.cons.inj htail
      exact absurd (hbefore' v (by simp)) (by simp [hvw])
  · cases between with
    | nil => exact (List.head_eq_of_cons_eq htail).symm
    | cons first between =>
      obtain ⟨rfl, -⟩ := List.cons.inj htail
      exact absurd (hbefore w (by simp)) (by simp [hwv])

/-- The votes that are kept are those that stand for their labels. -/
theorem mem_distinct_iff : v ∈ distinct votes ↔ Stands votes v := by
  induction votes with
  | nil => simp [distinct, Stands]
  | cons u votes ih =>
    rw [distinct, List.mem_cons, List.mem_filter, ih]
    constructor
    · rintro (rfl | ⟨⟨before, after, rfl, hbefore⟩, hu⟩)
      · exact ⟨[], votes, rfl, List.forall_mem_nil _⟩
      · exact ⟨u :: before, after, rfl, List.forall_mem_cons.mpr ⟨by simpa using hu, hbefore⟩⟩
    · rintro ⟨_ | ⟨first, before⟩, after, hvotes, hbefore⟩
      · exact .inl (List.head_eq_of_cons_eq hvotes).symm
      · obtain ⟨rfl, rfl⟩ := List.cons.inj hvotes
        obtain ⟨hu, hbefore⟩ := List.forall_mem_cons.mp hbefore
        exact .inr ⟨⟨before, after, rfl, hbefore⟩, by simp [hu]⟩

/-- The leaders of a tally are the first votes of the groups with the most votes. -/
theorem mem_leaders_iff (hcountable : ∀ v ∈ votes, v.Countable) :
    v ∈ (Tally.of votes).leaders ↔ Leads votes v := by
  rw [Tally.mem_leaders_of_iff hcountable, mem_distinct_iff]
  constructor
  · rintro ⟨hstands, hcount⟩
    refine ⟨hstands, hstands.mem, fun w hw => ?_⟩
    exact hcount ▸ Tally.countP_le_most hcountable (hcountable w hw)
  · rintro ⟨hstands, hmem, hmost⟩
    refine ⟨hstands, le_antisymm (Tally.countP_le_most hcountable (hcountable v hmem)) ?_⟩
    -- The most votes are those of some label, and that has no more than this one.
    have hne : Tally.of votes ≠ [] := fun hnil => by
      rw [Tally.of_eq hcountable, List.map_eq_nil_iff] at hnil
      exact List.not_mem_nil (hnil ▸ mem_distinct_iff.mpr hstands)
    obtain ⟨entry, hentry, heq⟩ := Tally.exists_entry_most hne
    rw [Tally.of_eq hcountable, List.mem_map] at hentry
    obtain ⟨w, hw, rfl⟩ := hentry
    exact heq ▸ hmost w (distinct_subset votes hw)

theorem pairwise_leaders (hcountable : ∀ v ∈ votes, v.Countable) :
    (Tally.of votes).leaders.Pairwise fun v w => v.same w = false := by
  have hsub : (Tally.of votes).leaders.Sublist (Tally.labels (Tally.of votes)) :=
    List.filter_sublist.map _
  refine List.Pairwise.sublist hsub ?_
  rw [Tally.labels, Tally.of_eq hcountable, List.map_map]
  exact (List.map_id _).symm ▸ pairwise_distinct votes

/-! ### The least label -/

/-- Of labels that can be compared the first in their order is chosen. -/
theorem first_least {others : List Value} (hcomparable : ∀ x ∈ v :: others, ∀ y ∈ v :: others,
    x = y ∨ x.precedes y = true ∨ y.precedes x = true) :
    ∀ w ∈ v :: others, w = first v others ∨ (first v others).precedes w = true := by
  induction others generalizing v with
  | nil => simp [first]
  | cons u others ih =>
    have hfirst : first v (u :: others) = first (if u.precedes v then u else v) others := rfl
    -- What comes behind the smaller of the two comes behind the least of all.
    have hbehind {m w : Value} (hm : m = first m others ∨ (first m others).precedes m = true)
        (hw : m.precedes w = true) : (first m others).precedes w = true := by
      rcases hm with heq | hless
      · rw [← heq]
        exact hw
      · exact Value.precedes_trans hless hw
    intro w hw
    by_cases huv : u.precedes v = true
    · rw [hfirst, if_pos huv]
      have ih := ih fun x hx y hy =>
        hcomparable x (List.mem_cons_of_mem v hx) y (List.mem_cons_of_mem v hy)
      rcases List.mem_cons.mp hw with rfl | hw
      · exact .inr (hbehind (ih u List.mem_cons_self) huv)
      · exact ih w hw
    · rw [hfirst, if_neg huv]
      have hsub : v :: others ⊆ v :: u :: others :=
        List.cons_subset_cons v (List.subset_cons_self u others)
      have ih := ih fun x hx y hy => hcomparable x (hsub hx) y (hsub hy)
      rcases List.mem_cons.mp hw with rfl | hw
      · exact ih w List.mem_cons_self
      rcases List.mem_cons.mp hw with rfl | hw
      · rcases hcomparable v List.mem_cons_self w (by simp) with rfl | hvw | hwv
        · exact ih v List.mem_cons_self
        · exact .inr (hbehind (ih v List.mem_cons_self) hvw)
        · exact absurd hwv huv
      · exact ih w (List.mem_cons_of_mem v hw)

theorem Wins.unique (hv : Wins votes v) (hw : Wins votes w) : v = w := by
  rcases hv.least w hw.leads with heq | hvw
  · exact heq.symm
  rcases hw.least v hv.leads with heq | hwv
  · exact heq
  · exact absurd (Value.precedes_trans hvw hwv) (Value.not_precedes_self v)

/-- **The winner is the least of the leaders.** -/
theorem wins_of_winner? (hcountable : ∀ v ∈ votes, v.Countable) {winner : Value}
    {tied : List Value} {count : Nat} (h : winner? votes = some (winner, tied, count)) :
    Wins votes winner ∧ tied = (Tally.of votes).leaders ∧
      count = votes.countP (·.same winner) := by
  have hmem := mem_leaders_of_winner? h
  have hleads := (mem_leaders_iff hcountable).mp hmem
  have hcount := ((Tally.mem_leaders_of_iff hcountable).mp hmem).2
  unfold winner? at h
  dsimp only at h
  split at h
  next => cases h
  next v others hleaders =>
    cases h
    have hcomparable : ∀ x ∈ v :: others, ∀ y ∈ v :: others,
        x = y ∨ x.precedes y = true ∨ y.precedes x = true := by
      intro x hx y hy
      rw [← hleaders, mem_leaders_iff hcountable] at hx hy
      have hxc := hcountable x hx.stands.mem
      have hyc := hcountable y hy.stands.mem
      cases hsame : x.same y with
      | true => exact .inl (hx.stands.eq_of_same hy.stands hsame (Value.same_comm hxc hyc ▸ hsame))
      | false => exact .inr (Value.precedes_or_precedes hxc hyc hsame)
    refine ⟨⟨hleads, fun w hw => first_least hcomparable w ?_⟩, hleaders.symm, hcount.symm⟩
    rw [← hleaders]
    exact (mem_leaders_iff hcountable).mpr hw

end Vote

/-! ### The vote -/

/-- A vote that is counted tells of a tie and ends with the winner. -/
theorem bestGuess_eq {quiet : Bool} {votes tied : List Value} {winner : Value} {count : Nat}
    (hcountable : ∀ v ∈ votes, v.Countable) (hdoubles : Vote.doubles? votes = none)
    (hwinner : Vote.winner? votes = some (winner, tied, count)) :
    bestGuess quiet votes = Vote.tellTie quiet tied count winner >>= fun _ => pure winner := by
  have hvotes : ¬votes.isEmpty = true := by
    intro hempty
    rw [List.isEmpty_iff.mp hempty] at hwinner
    cases hwinner
  unfold bestGuess
  rw [if_neg hvotes, hdoubles, Vote.checkCountable_eq_ok hcountable]
  simp only [hwinner]
  rfl

theorem Vote.outcome_bestGuess_of_winner? (quiet : Bool) {votes tied : List Value}
    {winner : Value} {count : Nat} (hcountable : ∀ v ∈ votes, v.Countable)
    (hdoubles : Vote.doubles? votes = none)
    (hwinner : Vote.winner? votes = some (winner, tied, count)) :
    (bestGuess quiet votes).outcome =
      if Vote.CannotWarn quiet tied winner then .error .oversized else .ok winner := by
  rw [bestGuess_eq hcountable hdoubles hwinner, Traced.outcome_bind, Vote.outcome_tellTie]
  by_cases h : Vote.CannotWarn quiet tied winner
  · rw [if_pos h, if_pos h]
    rfl
  · rw [if_neg h, if_neg h]
    rfl

/-- **Votes that are not all doubles are won by plurality.**  The first vote of the group that wins
is the winner.  If the group is the only one with the most votes nothing is told; otherwise the tie
is recorded, and warned of unless the vote is to be quiet.  The vote ends with the winner, unless it
has to warn of one that cannot be written. -/
theorem bestGuess_elects (quiet : Bool) {votes : List Value}
    (hvotes : ∀ v ∈ votes, v ≠ .real .nan ∧ ∀ vs, v ≠ .list vs)
    (hlabel : ∃ v ∈ votes, ∀ x, v ≠ .real x) :
    ∃ winner, Vote.Wins votes winner ∧
      ∃ leaders : List Value, (∀ v, v ∈ leaders ↔ Vote.Leads votes v) ∧
        leaders.Pairwise (fun v w => v.same w = false) ∧
        (bestGuess quiet votes).outcome =
          (if 1 < leaders.length ∧ quiet = false ∧ winner.isWritable = false then
            .error .oversized
          else .ok winner) ∧
        (bestGuess quiet votes).events =
          if 1 < leaders.length then
            .record (.tied leaders winner) ::
              if quiet = false ∧ winner.isWritable = true then
                [.warning ⟨leaders.length, votes.countP (·.same winner), winner⟩]
              else []
          else [] := by
  have hcountable : ∀ v ∈ votes, v.Countable := fun v hv => Value.countable_iff.mpr (hvotes v hv)
  obtain ⟨v, hv, hreal⟩ := hlabel
  have hdoubles := Vote.doubles?_eq_none hv hreal
  obtain ⟨winner, tied, count, hwinner⟩ :=
    Vote.exists_winner? (List.ne_nil_of_mem hv) hcountable
  obtain ⟨hwins, rfl, rfl⟩ := Vote.wins_of_winner? hcountable hwinner
  refine ⟨winner, hwins, (Tally.of votes).leaders, fun v => Vote.mem_leaders_iff hcountable,
    Vote.pairwise_leaders hcountable, ?_, ?_⟩
  · exact Vote.outcome_bestGuess_of_winner? quiet hcountable hdoubles hwinner
  · rw [bestGuess_eq hcountable hdoubles hwinner, Traced.events_bind_pure, Vote.events_tellTie]

/-- Two labels of two votes each, one of them given as an integer and as a truth value. -/
def tiedVotes : List Value := [.text "b", .int 1, .missing, .bool true, .text "b"]

theorem bestGuess_elects_tiedVotes :
    (∀ v ∈ tiedVotes, v ≠ .real .nan ∧ ∀ vs, v ≠ .list vs) ∧
      (∃ v ∈ tiedVotes, ∀ x, v ≠ .real x) ∧ Vote.Wins tiedVotes (.int 1) ∧
      (bestGuess false tiedVotes).events =
        [.record (.tied [.text "b", .int 1] (.int 1)), .warning ⟨2, 2, .int 1⟩] := by
  have hvotes : ∀ v ∈ tiedVotes, v ≠ .real .nan ∧ ∀ vs, v ≠ .list vs := by simp [tiedVotes]
  have hlabel : ∃ v ∈ tiedVotes, ∀ x, v ≠ .real x := ⟨.missing, by simp [tiedVotes], nofun⟩
  have hquiet : (bestGuess true tiedVotes).outcome = .ok (.int 1) := rfl
  obtain ⟨winner, hwins, leaders, -, -, houtcome, -⟩ := bestGuess_elects true hvotes hlabel
  rw [hquiet, if_neg fun h => nomatch h.2.1] at houtcome
  cases houtcome
  exact ⟨hvotes, hlabel, hwins, rfl⟩

/-! ### Winners that cannot be written -/

namespace Value

theorem position_ofInt_injective {n m : Int}
    (h : (Extended.ofInt n).position = (Extended.ofInt m).position) : n = m := by
  simpa [Extended.ofInt, Extended.position] using h

theorem same_int_eq_false {n m : Int} (h : n ≠ m) : (int n).same (int m) = false := by
  rw [Bool.eq_false_iff, ne_eq, same_iff_key? rfl rfl]
  exact fun hkey => h (position_ofInt_injective (LabelKey.place.inj hkey))

theorem isWritable_int_eq_false_iff {n : Int} :
    (int n).isWritable = false ↔ 10 ^ Text.digitLimit ≤ n.natAbs := by
  have hlimit : 0 < Text.digitLimit := by decide
  rw [← Nat.not_lt, ← Nat.length_toDigits_le_iff (by decide) hlimit]
  exact decide_eq_false_iff_not

end Value

/-- Two different integers are tied. -/
theorem exists_tied_pair {n m : Int} (hne : n ≠ m) :
    ∃ winner ∈ [Value.int n, .int m], Tied [.int n, .int m] winner := by
  have htally : Tally.of [.int n, .int m] = [(.int n, 1), (.int m, 1)] := by
    simp [Tally.of, Tally.bump, Value.same_int_eq_false hne]
  refine ⟨Vote.first (.int n) [.int m], Vote.first_mem _ _, rfl, rfl, [.int n, .int m], 1, ?_, ?_⟩
  · rw [Vote.winner?, htally]
    rfl
  · exact Nat.lt_succ_self 1

/-- A vote between two integers of too many digits fails at the warning. -/
theorem not_bestGuess_elects_of_oversized :
    ¬ ∀ (quiet : Bool) (votes : List Value), (∀ v ∈ votes, v ≠ .real .nan ∧ ∀ vs, v ≠ .list vs) →
      (∃ v ∈ votes, ∀ x, v ≠ .real x) →
      ∃ winner, (bestGuess quiet votes).outcome = .ok winner ∧ Vote.Wins votes winner := by
  intro h
  obtain ⟨n, hn⟩ : ∃ n : Nat, n = 10 ^ Text.digitLimit := ⟨_, rfl⟩
  have hpos : 0 < n := hn ▸ Nat.pow_pos (by decide)
  have hne : (n : Int) ≠ 2 * n := by omega
  obtain ⟨winner, hmem, htied⟩ := exists_tied_pair hne
  have hoversized : winner.isWritable = false := by
    rcases List.mem_pair.mp hmem with rfl | rfl <;>
      rw [Value.isWritable_int_eq_false_iff, ← hn] <;> omega
  obtain ⟨w, hw, -⟩ := h false [.int n, .int (2 * n)] (by simp)
    ⟨.int n, List.mem_cons_self, nofun⟩
  rw [htied.outcome_bestGuess, if_pos ⟨rfl, hoversized⟩] at hw
  cases hw

end Rulebook
