import Rulebook.Proofs.ArrayWalk
import Rulebook.Proofs.Tallies

/-!
# Array trees — a classifier's forest votes by majority

What the trees of a classifier say are labels.  A forest answers with one that no other label has
more votes than, as long as the labels are no doubles: doubles are averaged, for a vote does not
know whether they are labels or numbers.

* `Plurality`: a label with the most votes.
* `Estimator.answers_by_majority`: labels of one kind win by their votes, or are doubles and become
  their average.
-/

namespace Rulebook

/-- A label that no label has more votes than. -/
structure Plurality (labels votes : List Value) (v : Value) : Prop where
  mem : v ∈ labels
  most : ∀ w ∈ labels, votes.countP (·.same w) ≤ votes.countP (·.same v)

/-- Labels that are all texts, all integers, all doubles or all truth values. -/
def OneKind (labels : List Value) : Prop :=
  (∀ v ∈ labels, ∃ s, v = .text s) ∨ (∀ v ∈ labels, ∃ n, v = .int n) ∨
    (∀ v ∈ labels, ∃ x, v = .real x) ∨ ∀ v ∈ labels, ∃ b, v = .bool b

/-! ### Votes for labels -/

namespace Vote

variable {labels votes : List Value}

theorem doubles?_map_real (xs : List Binary64) : doubles? (xs.map Value.real) = some xs := by
  induction xs with
  | nil => rfl
  | cons x xs ih => rw [List.map_cons, doubles?, ih]; rfl

theorem exists_doubles (h : ∀ v ∈ votes, ∃ x, v = .real x) :
    ∃ xs : List Binary64, votes = xs.map .real := by
  induction votes with
  | nil => exact ⟨[], rfl⟩
  | cons v votes ih =>
    obtain ⟨⟨x, rfl⟩, hrest⟩ := List.forall_mem_cons.mp h
    obtain ⟨xs, rfl⟩ := ih hrest
    exact ⟨x :: xs, rfl⟩

/-- Votes for labels that are no doubles are won by a plurality. -/
theorem exists_plurality (hvotes : votes ≠ []) (hsub : votes ⊆ labels)
    (hcountable : ∀ v ∈ labels, v.Countable) (hreal : ∀ x, .real x ∉ labels) :
    ∃ v, (bestGuess true votes).outcome = .ok v ∧ Plurality labels votes v := by
  have hvc : ∀ v ∈ votes, v.Countable := fun v hv => hcountable v (hsub hv)
  have hdoubles : doubles? votes = none := by
    obtain ⟨v, votes, rfl⟩ := List.exists_cons_of_ne_nil hvotes
    refine doubles?_eq_none List.mem_cons_self fun x hx => hreal x ?_
    exact hx ▸ hsub List.mem_cons_self
  obtain ⟨winner, tied, count, hwinner, houtcome⟩ := exists_bestGuess hvotes hvc hdoubles
  exact ⟨winner, houtcome, hsub (mem_of_winner? hwinner), fun w hw =>
    countP_le_of_winner? hvc hwinner (hcountable w hw)⟩

/-- Votes for labels that are doubles are averaged. -/
theorem exists_mean (hvotes : votes ≠ []) (hreal : ∀ v ∈ votes, ∃ x, v = .real x) (quiet : Bool) :
    ∃ xs : List Binary64, votes = xs.map .real ∧
      (bestGuess quiet votes).outcome = .ok (.real (mean xs)) := by
  obtain ⟨xs, rfl⟩ := exists_doubles hreal
  refine ⟨xs, rfl, ?_⟩
  simp only [outcome_bestGuess, List.isEmpty_eq_false_iff.mpr hvotes, doubles?_map_real]
  rfl

end Vote

/-! ### Forests of classifiers -/

namespace ArrayTree

variable {t : ArrayTree} {names : List String} {labels : List Value} {row : Row}

/-- What the arrays of a classifier say is a label. -/
theorem Predicts.mem {v : Value} (h : t.Predicts names (some labels) row v) : v ∈ labels := by
  obtain ⟨leaf, values, -, -, k, x, -, hv⟩ := h
  exact List.mem_of_getElem? hv

theorem votes_subset {trees : List ArrayTree} {votes : List Value}
    (h : List.Forall₂ (fun t v => t.Predicts names (some labels) row v) trees votes) :
    votes ⊆ labels := by
  induction h with
  | nil => exact List.nil_subset _
  | cons hv _ ih => exact List.cons_subset.mpr ⟨hv.mem, ih⟩

end ArrayTree

theorem OneKind.countable_or_doubles {labels : List Value} (h : OneKind labels) :
    (∀ v ∈ labels, v.Countable ∧ ∀ x, v ≠ .real x) ∨ ∀ v ∈ labels, ∃ x, v = .real x := by
  rcases h with h | h | h | h
  · refine .inl fun v hv => ?_
    obtain ⟨s, rfl⟩ := h v hv
    exact ⟨⟨_, rfl⟩, nofun⟩
  · refine .inl fun v hv => ?_
    obtain ⟨n, rfl⟩ := h v hv
    exact ⟨⟨_, rfl⟩, nofun⟩
  · exact .inr h
  · refine .inl fun v hv => ?_
    obtain ⟨b, rfl⟩ := h v hv
    exact ⟨⟨_, rfl⟩, nofun⟩

namespace Estimator

open ArrayTree

variable {e : Estimator} {given : Option (List String)} {names : List String} {labels : List Value}

/-- **A classifier's forest answers by majority, unless its labels are doubles**: these it
averages.  It fails where it has to warn of a tie and the label that is chosen cannot be written. -/
theorem answers_by_majority (hnames : e.names given = .ok names) (hlabels : e.labels = some labels)
    (hkind : OneKind labels) (info : Info) {trees : List ArrayTree} (hne : trees ≠ [])
    (hs : ∀ t ∈ trees, t.Sound names (some labels)) :
    ∃ forest, (e.forest given info trees).outcome = .ok forest ∧ forest.mentioned ⊆ names ∧
      ∀ (settings : Settings) row, (∀ name ∈ forest.mentioned, Measures row name) →
        ∃ votes v, List.Forall₂ (fun t v => t.Predicts names (some labels) row v) trees votes ∧
          ((forest.apply (.ok settings) row).outcome = .ok v ∨
            settings.suppressParityWarning = false ∧ Tied votes v ∧ v.isWritable = false ∧
              (forest.apply (.ok settings) row).outcome = .error .oversized) ∧
          ((∀ x, .real x ∉ labels) → Plurality labels votes v) ∧
          ((∃ x, .real x ∈ labels) →
            ∃ xs : List Binary64, votes = xs.map .real ∧ v = .real (Vote.mean xs)) := by
  obtain ⟨forest, hforest, hmentioned, hanswers⟩ :=
    exists_forest_vote hnames info hne (hlabels ▸ hs)
  refine ⟨forest, hforest, hmentioned, fun settings row hrow => ?_⟩
  obtain ⟨votes, hpredicts, happly, -⟩ := hanswers (.ok settings) row hrow
  rw [hlabels] at hpredicts
  have houtcome : (forest.apply (.ok settings) row).outcome =
      (bestGuess settings.suppressParityWarning votes).outcome := by
    rw [happly]
    rfl
  have hvotes : votes ≠ [] := by
    rintro rfl
    exact hne (List.forall₂_nil_right_iff.mp hpredicts)
  have hsub := votes_subset hpredicts
  rw [houtcome]
  -- The votes are labels, so the kind of the labels decides whether they are counted.
  rcases hkind.countable_or_doubles with hlabels | hreals
  · have hreal : ∀ x, .real x ∉ labels := fun x hx => (hlabels _ hx).2 x rfl
    obtain ⟨v, hv, hplurality⟩ :=
      Vote.exists_plurality hvotes hsub (fun v hv => (hlabels v hv).1) hreal
    exact ⟨votes, v, hpredicts, outcome_bestGuess_of_true hv _, fun _ => hplurality,
      fun ⟨x, hx⟩ => absurd hx (hreal x)⟩
  · obtain ⟨xs, hxs, hmean⟩ := Vote.exists_mean hvotes (fun v hv => hreals v (hsub hv)) _
    refine ⟨votes, _, hpredicts, .inl hmean, fun hno => ?_, fun _ => ⟨xs, hxs, rfl⟩⟩
    obtain ⟨v, rest, rfl⟩ := List.exists_cons_of_ne_nil hvotes
    obtain ⟨x, rfl⟩ := hreals v (hsub List.mem_cons_self)
    exact absurd (hsub List.mem_cons_self) (hno x)

theorem answers_by_majority_stump :
    OneKind [.text "a", .text "b"] ∧ stump.Sound ["x"] (some [.text "a", .text "b"]) ∧
    ∃ forest, (ofTwoLabels.forest (some ["x"]) .empty [stump, stump]).outcome = .ok forest ∧
      ∀ settings, ∃ v, (forest.apply (.ok settings) [("x", .real .nan)]).outcome = .ok v ∧
        Plurality [.text "a", .text "b"] [.text "b", .text "b"] v := by
  have hnames : ofTwoLabels.names (some ["x"]) = .ok ["x"] := rfl
  have hkind : OneKind [.text "a", .text "b"] := .inl (by simp)
  have hs : ∀ t ∈ [stump, stump], t.Sound ["x"] (some [.text "a", .text "b"]) := by
    simp [sound_stump]
  obtain ⟨forest, hforest, hmentioned, hanswers⟩ :=
    answers_by_majority hnames rfl hkind .empty (List.cons_ne_nil _ _) hs
  refine ⟨hkind, sound_stump, forest, hforest, fun settings => ?_⟩
  obtain ⟨votes, v, hpredicts, hv, hplurality, -⟩ :=
    hanswers settings _ (measures_of_subset hmentioned)
  obtain rfl := eq_of_votes_stump hpredicts
  have hplurality := hplurality (by simp)
  refine ⟨v, hv.resolve_right ?_, hplurality⟩
  rintro ⟨-, -, hoversized, -⟩
  have hmem := hplurality.mem
  simp only [List.mem_cons, List.not_mem_nil, or_false] at hmem
  rcases hmem with rfl | rfl <;> cases hoversized

/-- A tree of a single leaf. -/
def lone (values : List Binary64) : ArrayTree := ⟨[-1], [-1], [-2], [.ofInt (-2)], [values], [1]⟩

theorem sound_lone {values : List Binary64} {labels : List Value} (hne : values ≠ [])
    (hnumbers : ∀ x ∈ values, x ≠ .nan) (hlength : values.length ≤ labels.length) :
    (lone values).Sound ["x"] (some labels) where
  rooted := Nat.one_pos
  value := rfl
  samples := rfl
  nodes node hnode := by
    obtain rfl : node = 0 := Nat.lt_one_iff.mp hnode
    exact .inl ⟨-1, rfl, rfl⟩
  named := by simp
  inhabited := by simpa [lone] using hne
  numbers := by simpa [lone] using hnumbers
  labelled := by
    rintro ls ⟨⟩
    simpa [lone] using hlength

/-- A classifier of one feature with the labels `1.0` and `2.0`. -/
def ofTwoDoubles : Estimator := ⟨1, 1, none, some [.real (.ofInt 1), .real (.ofInt 2)]⟩

theorem mean_ofTwoDoubles :
    Vote.mean [.ofInt 1, .ofInt 1, .ofInt 2] = .finite false 6004799503160661 (-52) := by
  rw [Vote.mean, Vote.pairwiseSum]
  decide +kernel

/-- Two of three trees say `1.0`. -/
def threeLone : List ArrayTree :=
  [lone [.ofInt 2, .ofInt 1], lone [.ofInt 2, .ofInt 1], lone [.ofInt 1, .ofInt 2]]

theorem forest_threeLone :
    (ofTwoDoubles.forest (some ["x"]) .empty threeLone).outcome =
      .ok (.forest .empty ([.ofInt 1, .ofInt 1, .ofInt 2].map fun x =>
        ⟨.empty, .constant ⟨none, none, none, none, [("n_samples", .int 1)]⟩ (.real x)⟩)) := by
  rfl

theorem sound_threeLone : ∀ t ∈ threeLone,
    t.Sound ["x"] (some [.real (.ofInt 1), .real (.ofInt 2)]) := by
  have hfirst : ∀ x ∈ [Binary64.ofInt 2, .ofInt 1], x ≠ .nan := by decide
  have hsecond : ∀ x ∈ [Binary64.ofInt 1, .ofInt 2], x ≠ .nan := by decide
  simp only [threeLone, List.forall_mem_cons]
  exact ⟨sound_lone (List.cons_ne_nil _ _) hfirst le_rfl,
    sound_lone (List.cons_ne_nil _ _) hfirst le_rfl,
    sound_lone (List.cons_ne_nil _ _) hsecond le_rfl, List.forall_mem_nil _⟩

/-- The forest answers with the average, which is no label. -/
theorem not_majority_of_doubles :
    ¬ ∀ (e : Estimator) (given : Option (List String)) (names : List String) (labels : List Value)
      (info : Info) (trees : List ArrayTree), e.names given = .ok names → e.labels = some labels →
      OneKind labels → labels.Pairwise (fun v w => v.same w = false) → trees ≠ [] →
      (∀ t ∈ trees, t.Sound names (some labels)) →
      ∀ forest, (e.forest given info trees).outcome = .ok forest →
      ∀ (settings : Settings) row, (∀ name ∈ forest.mentioned, Measures row name) →
        ∃ votes v, List.Forall₂ (fun t v => t.Predicts names (some labels) row v) trees votes ∧
          (forest.apply (.ok settings) row).outcome = .ok v ∧ Plurality labels votes v := by
  intro hmajority
  have hkind : OneKind [.real (.ofInt 1), .real (.ofInt 2)] := .inr (.inr (.inl (by simp)))
  have hdistinct : [Value.real (.ofInt 1), .real (.ofInt 2)].Pairwise
      fun v w => v.same w = false := by decide
  obtain ⟨votes, v, -, hv, hplurality⟩ :=
    hmajority ofTwoDoubles (some ["x"]) ["x"] _ .empty threeLone rfl rfl hkind hdistinct
      (List.cons_ne_nil _ _) sound_threeLone _ forest_threeLone .default []
      (List.forall_mem_nil _)
  have hmean : v = .real (Vote.mean [.ofInt 1, .ofInt 1, .ofInt 2]) := Except.ok.inj hv.symm
  -- The average lies between the two labels.
  have hmem := hplurality.mem
  rw [hmean, mean_ofTwoDoubles] at hmem
  simp only [List.mem_cons, Value.real.injEq, List.not_mem_nil, or_false] at hmem
  revert hmem
  decide

end Estimator

end Rulebook
