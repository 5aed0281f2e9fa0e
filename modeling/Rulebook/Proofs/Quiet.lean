import Rulebook.Proofs.Asking

/-!
# Votes — what being quiet silences

A forest that is asked to be quiet decides as one that is not, unless that one cannot write the
winner of a tie, and it warns of no tie among its own votes.  The forests nested in its trees are not
asked: they look the matter up in the settings.  So the quiet forest is silent exactly if no forest
that its trees come to has a tie to warn of; this is so if the trees hold no forests.

* `Model.quiet_forest_iff`: the quiet forest on rows and on data sets.
* `Model.silent_of_no_forest_below`: a forest of trees without forests.
-/

namespace Rulebook.Model

variable {defaults : Defaults} {row : Row} {info : Info} {d : Dataset} {trees : List Tree}

theorem applyQuiet_forest (quiet : Bool) :
    applyQuiet defaults (some quiet) row (.forest info trees) =
      applyTrees defaults row trees >>= fun votes => bestGuess quiet votes :=
  rfl

theorem applyAllQuiet_forest (quiet : Bool) :
    applyAllQuiet defaults (some quiet) d (.forest info trees) =
      applyTreesAll defaults trees d >>= fun columns =>
        (transpose d.size columns).mapM (bestGuess quiet) :=
  rfl

/-! ### Outcomes -/

section Walks

variable {ε α β : Type} {f g : α → Except ε β} {as : List α} {e : ε}

/-- A walk fails with the error of a step that it comes to. -/
theorem mapM_eq_error_iff :
    as.mapM g = .error e ↔ ∃ a, Reached (fun a => ∃ b, g a = .ok b) a as ∧ g a = .error e := by
  induction as with
  | nil => exact iff_of_false (fun h => nomatch h) fun ⟨_, h, _⟩ => nomatch h
  | cons a as ih =>
    rw [List.mapM_cons, Except.bind_eq_error_iff]
    constructor
    · rintro (ha | ⟨b, hb, has⟩)
      · exact ⟨a, .head, ha⟩
      · rcases Except.bind_eq_error_iff.mp has with has | ⟨bs, -, h⟩
        · obtain ⟨a', ha', he⟩ := ih.mp has
          exact ⟨a', .tail ⟨b, hb⟩ ha', he⟩
        · cases h
    · rintro ⟨a', ha', he⟩
      cases ha' with
      | head => exact .inl he
      | tail hb ha' =>
        obtain ⟨b, hb⟩ := hb
        exact .inr ⟨b, hb, Except.bind_eq_error_iff.mpr (.inl (ih.mpr ⟨a', ha', he⟩))⟩

theorem mapM_congr_of_reached (h : ∀ a, Reached (fun a => ∃ b, g a = .ok b) a as → f a = g a) :
    as.mapM f = as.mapM g := by
  induction as with
  | nil => rfl
  | cons a as ih =>
    obtain ⟨ha, has⟩ := forall_reached_cons.mp h
    rw [List.mapM_cons, List.mapM_cons, ha]
    cases hg : g a with
    | error e => rfl
    | ok b => rw [ih (has ⟨b, hg⟩)]

/-- Walks whose steps end alike, where one does not fail with a certain error, end alike where it
does not. -/
theorem mapM_eq_or_error (hg : ∀ a, g a = f a ∨ g a = .error e) (as : List α) :
    as.mapM g = as.mapM f ∨ as.mapM g = .error e := by
  refine or_iff_not_imp_right.mpr fun hne => (mapM_congr_of_reached fun a ha => ?_).symm
  refine ((hg a).resolve_right fun he => ?_).symm
  exact hne (mapM_eq_error_iff.mpr ⟨a, ha, he⟩)

theorem mapM_ne_error (hf : ∀ a, f a ≠ .error e) (as : List α) : as.mapM f ≠ .error e := by
  intro h
  obtain ⟨a, -, ha⟩ := Except.exists_of_mapM_eq_error h
  exact hf a ha

/-- What follows a computation in two ways, of which one alone fails with a certain error, ends alike
exactly if that one does not. -/
theorem bind_eq_bind_iff {x : Except ε α} (hf : ∀ a, f a ≠ .error e)
    (hg : ∀ a, g a = f a ∨ g a = .error e) :
    x >>= f = x >>= g ↔ ¬∃ a, x = .ok a ∧ g a = .error e := by
  cases x with
  | error e' => exact iff_of_true rfl fun ⟨_, h, _⟩ => nomatch h
  | ok a =>
    rw [Except.ok_bind, Except.ok_bind]
    constructor
    · rintro heq ⟨_, ⟨⟩, he⟩
      exact hf a (heq.trans he)
    · exact fun hnot => ((hg a).resolve_right fun he => hnot ⟨a, rfl, he⟩).symm

end Walks

theorem outcome_bestGuess_false (votes : List Value) :
    (bestGuess false votes).outcome = (bestGuess true votes).outcome ∨
      (bestGuess false votes).outcome = .error .oversized :=
  (outcome_bestGuess_true false votes).imp_right fun h => outcome_bestGuess_eq_oversized_iff.mpr h.2

theorem tiedOn_false_iff :
    TiedOn defaults row false (.forest info trees) ↔
      ∃ votes, (applyTrees defaults row trees).outcome = .ok votes ∧
        (bestGuess false votes).outcome = .error .oversized := by
  simp only [TiedOn, outcome_bestGuess_eq_oversized_iff]

theorem tiedOnAll_false_iff :
    TiedOnAll defaults false (.forest info trees, d) ↔
      ∃ columns, (applyTreesAll defaults trees d).outcome = .ok columns ∧
        (transpose d.size columns).mapM (fun votes => (bestGuess false votes).outcome) =
          .error .oversized := by
  simp only [TiedOnAll, mapM_eq_error_iff, outcome_bestGuess_eq_oversized_iff]

/-- On a row a quiet forest decides as another, unless that one has to write what it cannot. -/
theorem outcome_applyQuiet_iff :
    (applyQuiet defaults (some true) row (.forest info trees)).outcome =
        (applyQuiet defaults (some false) row (.forest info trees)).outcome ↔
      ¬TiedOn defaults row false (.forest info trees) := by
  rw [applyQuiet_forest, applyQuiet_forest, Traced.outcome_bind, Traced.outcome_bind,
    tiedOn_false_iff]
  exact bind_eq_bind_iff outcome_bestGuess_true_ne_oversized outcome_bestGuess_false

theorem outcome_applyAllQuiet_iff :
    (applyAllQuiet defaults (some true) d (.forest info trees)).outcome =
        (applyAllQuiet defaults (some false) d (.forest info trees)).outcome ↔
      ¬TiedOnAll defaults false (.forest info trees, d) := by
  rw [applyAllQuiet_forest, applyAllQuiet_forest, Traced.outcome_bind, Traced.outcome_bind,
    tiedOnAll_false_iff]
  simp only [Traced.outcome_mapM]
  exact bind_eq_bind_iff (fun _ => mapM_ne_error outcome_bestGuess_true_ne_oversized _)
    fun _ => mapM_eq_or_error outcome_bestGuess_false _

theorem outcome_applyQuiet_of_tiedOn (h : TiedOn defaults row false (.forest info trees)) :
    (applyQuiet defaults (some false) row (.forest info trees)).outcome = .error .oversized := by
  obtain ⟨votes, hvotes, hfails⟩ := tiedOn_false_iff.mp h
  rw [applyQuiet_forest, Traced.outcome_bind, hvotes, Except.ok_bind, hfails]

theorem outcome_applyAllQuiet_of_tiedOnAll (h : TiedOnAll defaults false (.forest info trees, d)) :
    (applyAllQuiet defaults (some false) d (.forest info trees)).outcome = .error .oversized := by
  obtain ⟨columns, hcolumns, hfails⟩ := tiedOnAll_false_iff.mp h
  rw [applyAllQuiet_forest, Traced.outcome_bind, hcolumns, Except.ok_bind, Traced.outcome_mapM,
    hfails]

/-! ### Silence -/

theorem forall_transGen_iff {α : Type} {R : α → α → Prop} {P : α → Prop} {a : α} :
    (∀ b, Relation.TransGen R a b → P b) ↔
      ∀ b, R a b → ∀ c, Relation.ReflTransGen R b c → P c := by
  simp only [Relation.TransGen.head'_iff]
  exact ⟨fun h b hab c hbc => h c ⟨b, hab, hbc⟩, fun h c ⟨b, hab, hbc⟩ => h b hab c hbc⟩

/-- A quiet forest is silent about a row if none of the models that its trees come to has a tie. -/
theorem silent_applyQuiet_iff (hloud : defaults.quiet none = .ok false) :
    (applyQuiet defaults (some true) row (.forest info trees)).Silent ↔
      ∀ c, Relation.TransGen (Asks defaults row) (.forest info trees) c →
        ¬c.TiedOn defaults row true := by
  simp only [forall_transGen_iff, ← silent_apply_iff_forall hloud]
  rw [applyQuiet_forest, Traced.silent_bind_iff, applyTrees_eq_mapM, Traced.silent_mapM_iff,
    and_iff_left]
  · refine ⟨fun h c hc => ?_, fun h t ht => h _ (.voter ht)⟩
    cases hc with
    | voter ht => exact h _ ht
  · -- its own votes are decided quietly
    exact fun votes _ => silent_bestGuess_iff.mpr (.inl rfl)

/-- A quiet forest is silent about a data set if none of the models that its trees come to has a
tie. -/
theorem silent_applyAllQuiet_iff (hloud : defaults.quiet none = .ok false) :
    (applyAllQuiet defaults (some true) d (.forest info trees)).Silent ↔
      ∀ q, Relation.TransGen (AsksAll defaults) (.forest info trees, d) q →
        ¬TiedOnAll defaults true q := by
  simp only [forall_transGen_iff, ← silent_applyAll_iff_forall hloud]
  rw [applyAllQuiet_forest, Traced.silent_bind_iff, applyTreesAll_eq_mapM, Traced.silent_mapM_iff,
    and_iff_left]
  · refine ⟨fun h q hq => ?_, fun h t ht => h _ (.voter ht)⟩
    cases hq with
    | voter ht => exact h _ ht
  · exact fun columns _ =>
      Traced.silent_mapM_iff.mpr fun votes _ => silent_bestGuess_iff.mpr (.inl rfl)

theorem quiet_none_of_loud {settings : Settings} (h : settings.suppressParityWarning = false) :
    Defaults.quiet (.ok settings) none = .ok false :=
  quiet_none_eq_ok_iff.mpr ⟨settings, rfl, h⟩

/-- A forest whose trees hold no forests is silenced. -/
theorem silent_of_no_forest_below {settings : Settings}
    (hloud : settings.suppressParityWarning = false)
    (h : ∀ c, Below (.forest info trees) c → c.kind ≠ .forest) :
    (applyQuiet (.ok settings) (some true) row (.forest info trees)).Silent ∧
      (applyAllQuiet (.ok settings) (some true) d (.forest info trees)).Silent := by
  have hquiet := quiet_none_of_loud hloud
  refine ⟨(silent_applyQuiet_iff hquiet).mpr fun c hc htied => ?_,
    (silent_applyAllQuiet_iff hquiet).mpr fun q hq htied => ?_⟩
  · refine h c (Relation.TransGen.closed (fun _ _ hc => below_of_asks hc) _ _ hc) ?_
    cases c <;> first | rfl | cases htied
  · refine h q.1 (Relation.TransGen.lift' Prod.fst (fun _ _ hq => below_of_asksAll hq) _ _ hq) ?_
    obtain ⟨c, e⟩ := q
    cases c <;> first | rfl | cases htied

/-! ### The quiet forest -/

/-- **What a quiet forest is quiet about.**  While the settings let forests warn, it decides as a
forest that is not asked to be quiet, on a row and on a data set, unless that one comes to a tie
whose winner cannot be written: there the other one fails.  The quiet forest is silent exactly if
none of the models that its trees come to is a forest with a tie to warn of. -/
theorem quiet_forest_iff {settings : Settings} (hloud : settings.suppressParityWarning = false)
    (info : Info) (trees : List Tree) :
    (∀ row,
      ((applyQuiet (.ok settings) (some true) row (.forest info trees)).outcome =
          (applyQuiet (.ok settings) (some false) row (.forest info trees)).outcome ↔
        ¬TiedOn (.ok settings) row false (.forest info trees)) ∧
      (TiedOn (.ok settings) row false (.forest info trees) →
        (applyQuiet (.ok settings) (some false) row (.forest info trees)).outcome =
          .error .oversized) ∧
      (Log.warnings (applyQuiet (.ok settings) (some true) row (.forest info trees)).events = [] ↔
        ∀ c, Relation.TransGen (Asks (.ok settings) row) (.forest info trees) c →
          ¬c.TiedOn (.ok settings) row true)) ∧
    ∀ d,
      ((applyAllQuiet (.ok settings) (some true) d (.forest info trees)).outcome =
          (applyAllQuiet (.ok settings) (some false) d (.forest info trees)).outcome ↔
        ¬TiedOnAll (.ok settings) false (.forest info trees, d)) ∧
      (TiedOnAll (.ok settings) false (.forest info trees, d) →
        (applyAllQuiet (.ok settings) (some false) d (.forest info trees)).outcome =
          .error .oversized) ∧
      (Log.warnings (applyAllQuiet (.ok settings) (some true) d (.forest info trees)).events = [] ↔
        ∀ q, Relation.TransGen (AsksAll (.ok settings)) (.forest info trees, d) q →
          ¬TiedOnAll (.ok settings) true q) := by
  have hquiet := quiet_none_of_loud hloud
  exact ⟨fun row => ⟨outcome_applyQuiet_iff, outcome_applyQuiet_of_tiedOn,
      silent_applyQuiet_iff hquiet⟩,
    fun d => ⟨outcome_applyAllQuiet_iff, outcome_applyAllQuiet_of_tiedOnAll,
      silent_applyAllQuiet_iff hquiet⟩⟩

/-- A tree that leaves the answer to a forest of two voters, whatever the row. -/
def pair (first second : String) : Tree :=
  ⟨.empty, .branch .empty .top
    (.forest .empty [⟨.empty, .constant .empty (.text first)⟩,
      ⟨.empty, .constant .empty (.text second)⟩]) (.constant .empty .missing)⟩

/-- Two voters that agree, against a third one. -/
def pairAgainst : List Tree := [pair "A" "A", ⟨.empty, .constant .empty (.text "B")⟩]

theorem quiet_forest_iff_pairAgainst :
    (∃ w, Log.warnings (applyQuiet (.ok .default) (some false) []
        (.forest .empty pairAgainst)).events = [w]) ∧
      ¬TiedOn (.ok .default) [] false (.forest .empty pairAgainst) ∧
      (∀ c, Relation.TransGen (Asks (.ok .default) []) (.forest .empty pairAgainst) c →
        ¬c.TiedOn (.ok .default) [] true) ∧
      ¬TiedOnAll (.ok .default) false (.forest .empty pairAgainst, threeRows) ∧
      ∀ q, Relation.TransGen (AsksAll (.ok .default)) (.forest .empty pairAgainst, threeRows) q →
        ¬TiedOnAll (.ok .default) true q := by
  have hloud : Settings.default.suppressParityWarning = false := rfl
  have hforest := quiet_forest_iff hloud .empty pairAgainst
  exact ⟨⟨_, rfl⟩, (hforest.1 []).1.mp rfl, (hforest.1 []).2.2.mp rfl,
    (hforest.2 threeRows).1.mp rfl, (hforest.2 threeRows).2.2.mp rfl⟩

/-- A forest nested in the trees of a quiet one warns of its tie. -/
theorem not_silent_of_quiet :
    ¬ ∀ (settings : Settings) (info : Info) (trees : List Tree) (row : Row),
      settings.suppressParityWarning = false →
      Log.warnings
        (applyQuiet (.ok settings) (some true) row (.forest info trees)).events = [] := by
  intro h
  have hpair := h .default .empty [pair "A" "B"] [] rfl
  cases hpair

end Rulebook.Model
