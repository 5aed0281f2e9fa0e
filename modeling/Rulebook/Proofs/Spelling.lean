import Rulebook.Formula.Validate
import Rulebook.Proofs.Outcome

/-!
# Formulas — what their JSON values spell

Which JSON values are accepted as formulas is told by relations that know of no complaints: a
threshold is tagged, a number may also be written as a truth value or as the text of a numeral, a
member of a conjunction may do without its tag, and further members of an object do not matter
(`Formula.Spells`).  Reading a JSON value succeeds exactly if it spells a formula, with that
formula (`Formula.validate_eq_ok_iff`).

So what is accepted is well formed, and the image of a formula, which is one of the values that
spell it, is accepted again exactly if the formula is well formed.

* `Formula.validate_stable`: reading a JSON value leads to a formula that is read from its image.
-/

namespace Rulebook

namespace Validated

variable {α β γ : Type}

/-! ### Readings that succeed -/

theorem under_eq_ok_iff {step : Step} {x : Validated α} {a : α} :
    under step x = .ok a ↔ x = .ok a := by
  cases x <;> simp [under]

theorem both_eq_ok_iff {f : α → β → γ} {x : Validated α} {y : Validated β} {c : γ} :
    both f x y = .ok c ↔ ∃ a b, x = .ok a ∧ y = .ok b ∧ f a b = c := by
  cases x <;> cases y <;> simp [both]

theorem complain_ne_ok {c : Complaint} {a : α} : (complain c : Validated α) ≠ .ok a := nofun

theorem required_eq_ok_iff {members : List (String × Json)} {name : String}
    {read : Json → Validated α} {a : α} :
    required members name read = .ok a ↔
      ∃ json, Json.find? members name = some json ∧ read json = .ok a := by
  rw [required, under_eq_ok_iff]
  cases Json.find? members name with
  | none => simp [complain]
  | some json => simp

/-- Where no name stands twice, looking a name up finds what is in the list under it. -/
theorem lookup_eq_some_iff_mem {as : List (String × α)} (h : (as.map Prod.fst).Nodup)
    {name : String} {a : α} : as.lookup name = some a ↔ (name, a) ∈ as := by
  rw [List.lookup_eq_some_iff]
  constructor
  · rintro ⟨before, after, rfl, -⟩
    exact List.mem_append_right _ List.mem_cons_self
  · intro hmem
    obtain ⟨before, after, rfl⟩ := List.append_of_mem hmem
    refine ⟨before, after, rfl, fun p hp => bne_iff_ne.mpr fun heq => ?_⟩
    rw [List.map_append, List.map_cons, List.nodup_append] at h
    exact h.2.2 p.1 (List.mem_map_of_mem hp) name List.mem_cons_self heq.symm

/-- A reading by tag succeeds where the reading that belongs to the tag does. -/
theorem byTag_eq_ok_iff {readers : List (String × (List (String × Json) → Validated α))}
    (h : (readers.map Prod.fst).Nodup) {json : Json} {a : α} :
    byTag readers json = .ok a ↔ ∃ members, json = .object members ∧
      ∃ r ∈ readers, Json.find? members "kind" = some (.text r.1) ∧ r.2 members = .ok a := by
  constructor
  · intro hread
    unfold byTag at hread
    split at hread
    next members =>
      split at hread
      next => cases hread
      next tag htag =>
        split at hread
        next read hlookup =>
          exact ⟨members, rfl, (tag, read), (lookup_eq_some_iff_mem h).mp hlookup, htag,
            under_eq_ok_iff.mp hread⟩
        next => cases hread
      next => cases hread
    next => cases hread
  · rintro ⟨members, rfl, ⟨tag, read⟩, hr, htag, hread⟩
    simp only [byTag, htag, (lookup_eq_some_iff_mem h).mpr hr]
    exact under_eq_ok_iff.mpr hread

/-! ### Readings that fail -/

/-- A reading that tells what is wrong if it fails. -/
abbrev Complains (x : Validated α) : Prop := FailsAs (· ≠ []) x

theorem complains_complain (c : Complaint) : Complains (complain c : Validated α) :=
  .error (List.cons_ne_nil _ _)

theorem Complains.under {x : Validated α} (h : Complains x) (step : Step) :
    Complains (under step x) := by
  cases x with
  | ok a => exact .ok a
  | error es => exact .error fun hnil => h es rfl (List.map_eq_nil_iff.mp hnil)

theorem Complains.both {x : Validated α} {y : Validated β} (hx : Complains x) (hy : Complains y)
    (f : α → β → γ) : Complains (both f x y) := by
  cases x with
  | ok a =>
      cases y with
      | ok b => exact .ok _
      | error es => exact .error (hy es rfl)
  | error es =>
      cases y with
      | ok b => exact .error (hx es rfl)
      | error es' => exact .error (List.append_ne_nil_of_left_ne_nil (hx es rfl) es')

theorem Complains.required {read : Json → Validated α} (h : ∀ json, Complains (read json))
    (members : List (String × Json)) (name : String) : Complains (required members name read) := by
  refine Complains.under ?_ _
  cases Json.find? members name with
  | none => exact complains_complain _
  | some json => exact h json

theorem Complains.map {x : Validated α} (h : Complains x) (f : α → β) : Complains (x.map f) := by
  cases x with
  | ok a => exact .ok _
  | error es => exact .error (h es rfl)

theorem Complains.byTag {readers : List (String × (List (String × Json) → Validated α))}
    (h : ∀ r ∈ readers, ∀ members, Complains (r.2 members)) (json : Json) :
    Complains (byTag readers json) := by
  unfold Rulebook.byTag
  split
  next members =>
    split
    next => exact complains_complain _
    next tag htag =>
      split
      next read hread =>
        obtain ⟨before, after, hreaders, -⟩ := List.lookup_eq_some_iff.mp hread
        exact Complains.under (h (tag, read) (by rw [hreaders]; simp) members) _
      next => exact complains_complain _
    next => exact complains_complain _
  next => exact complains_complain _

end Validated

open Validated

/-! ### What JSON values spell -/

/-- A JSON value that stands for a double: as a number, a truth value or the text of a numeral. -/
def Json.IsReal (json : Json) (x : Binary64) : Prop :=
  ∃ v, json.scalar? = some v ∧ v.asReal? = some x

/-- A JSON value that spells a threshold. -/
inductive Threshold.Spells : Json → Threshold → Prop
  | numeric {members : List (String × Json)} {json : Json} {x : Binary64}
      (tag : Json.find? members "kind" = some (.text "numeric"))
      (value : Json.find? members "value" = some json) (real : json.IsReal x) :
      Spells (.object members) (.numeric x)
  | symbolic {members : List (String × Json)} {token : String}
      (tag : Json.find? members "kind" = some (.text "symbolic"))
      (text : Json.find? members "token" = some (.text token)) :
      Spells (.object members) (.symbolic token)

/-- A JSON value that spells a condition. -/
inductive Condition.Spells : Json → Condition → Prop
  | intro {members inner : List (String × Json)} {json : Json} {name : String}
      {op : Comparison} {threshold : Threshold}
      (feature : Json.find? members "feature" = some (.object inner))
      (text : Json.find? inner "name" = some (.text name)) (named : name ≠ "")
      (operator : Json.find? members "operator" = some (.text op.symbol))
      (compared : Json.find? members "threshold" = some json)
      (spelled : Threshold.Spells json threshold) :
      Spells (.object members) ⟨name, op, threshold⟩

/-- The members of an object spell an atom. -/
def Condition.SpelledBy (members : List (String × Json)) (c : Condition) : Prop :=
  ∃ json, Json.find? members "condition" = some json ∧ Condition.Spells json c

/-- A JSON value that spells a member of a conjunction, with its tag or without. -/
inductive Condition.SpellsConjunct : Json → Condition → Prop
  | intro {members : List (String × Json)} {c : Condition}
      (tag : ∀ json ∈ Json.find? members "kind", json = .text "atom")
      (atom : c.SpelledBy members) : SpellsConjunct (.object members) c

/-- A JSON value that spells a formula. -/
inductive Formula.Spells : Json → Formula → Prop
  | atom {members : List (String × Json)} {c : Condition}
      (tag : Json.find? members "kind" = some (.text "atom")) (atom : c.SpelledBy members) :
      Spells (.object members) (.atom c)
  | conjunction {members : List (String × Json)} {items : List Json} {cs : List Condition}
      (tag : Json.find? members "kind" = some (.text "conjunction"))
      (atoms : Json.find? members "atoms" = some (.array items))
      (spelled : List.Forall₂ Condition.SpellsConjunct items cs) (some : cs ≠ []) :
      Spells (.object members) (.conjunction cs)
  | top {members : List (String × Json)}
      (tag : Json.find? members "kind" = some (.text "top")) : Spells (.object members) .top

/-! ### Thresholds and conditions -/

theorem validateReal_eq_ok_iff {json : Json} {x : Binary64} :
    validateReal json = .ok x ↔ json.IsReal x := by
  unfold validateReal Json.IsReal
  cases json.scalar? with
  | none => simp [complain]
  | some v => cases h : v.asReal? <;> simp [complain, h]

theorem validateText_eq_ok_iff {json : Json} {s : String} :
    validateText json = .ok s ↔ json = .text s := by
  cases json <;> simp [validateText, complain]

theorem Threshold.validate_eq_ok_iff {json : Json} {t : Threshold} :
    validate json = .ok t ↔ Spells json t := by
  rw [validate, byTag_eq_ok_iff (by decide)]
  constructor
  · rintro ⟨members, rfl, r, hr, htag, h⟩
    simp only [List.mem_cons, List.not_mem_nil, or_false] at hr
    rcases hr with rfl | rfl
    · obtain ⟨x, hx, rfl⟩ := Except.map_eq_ok_iff.mp h
      obtain ⟨json, hjson, hx⟩ := required_eq_ok_iff.mp hx
      exact .numeric htag hjson (validateReal_eq_ok_iff.mp hx)
    · obtain ⟨token, htoken, rfl⟩ := Except.map_eq_ok_iff.mp h
      obtain ⟨json, hjson, htext⟩ := required_eq_ok_iff.mp htoken
      obtain rfl := validateText_eq_ok_iff.mp htext
      exact .symbolic htag hjson
  · rintro (⟨htag, hjson, hx⟩ | ⟨htag, hjson⟩)
    · refine ⟨_, rfl, _, List.mem_cons_self, htag, Except.map_eq_ok_iff.mpr ⟨_, ?_, rfl⟩⟩
      exact required_eq_ok_iff.mpr ⟨_, hjson, validateReal_eq_ok_iff.mpr hx⟩
    · refine ⟨_, rfl, _, List.mem_cons_of_mem _ List.mem_cons_self, htag,
        Except.map_eq_ok_iff.mpr ⟨_, ?_, rfl⟩⟩
      exact required_eq_ok_iff.mpr ⟨_, hjson, validateText_eq_ok_iff.mpr rfl⟩

/-- The comparisons have different symbols, so that a symbol names one comparison at most. -/
theorem Comparison.ofSymbol?_eq_some_iff {s : String} {op : Comparison} :
    ofSymbol? s = some op ↔ s = op.symbol := by
  constructor
  · intro h
    have hfound : (op.symbol == s) = true :=
      List.find?_some (p := fun op : Comparison => op.symbol == s) h
    exact (beq_iff_eq.mp hfound).symm
  · rintro rfl
    cases op <;> rfl

namespace Condition

theorem validateName_eq_ok_iff {json : Json} {s : String} :
    validateName json = .ok s ↔ json = .text s ∧ s ≠ "" := by
  cases json with
  | text t =>
      rw [validateName]
      split_ifs with hempty
      · subst hempty
        simp [complain, eq_comm]
      · simp only [Except.ok.injEq, Json.text.injEq]
        exact ⟨by rintro rfl; exact ⟨rfl, hempty⟩, And.left⟩
  | _ => simp [validateName, complain]

theorem validateVariable_eq_ok_iff {json : Json} {s : String} :
    validateVariable json = .ok s ↔ ∃ members, json = .object members ∧
      Json.find? members "name" = some (.text s) ∧ s ≠ "" := by
  cases json with
  | object members =>
      rw [validateVariable, required_eq_ok_iff]
      simp only [validateName_eq_ok_iff, Json.object.injEq, exists_eq_left']
      constructor
      · rintro ⟨_, hname, rfl, hne⟩
        exact ⟨hname, hne⟩
      · rintro ⟨hname, hne⟩
        exact ⟨_, hname, rfl, hne⟩
  | _ => simp [validateVariable, complain]

theorem validateComparison_eq_ok_iff {json : Json} {op : Comparison} :
    validateComparison json = .ok op ↔ json = .text op.symbol := by
  cases json with
  | text s =>
      rw [validateComparison, Json.text.injEq, ← Comparison.ofSymbol?_eq_some_iff]
      cases Comparison.ofSymbol? s <;> simp [complain]
  | _ => simp [validateComparison, complain]

theorem validate_eq_ok_iff {json : Json} {c : Condition} :
    validate json = .ok c ↔ Spells json c := by
  cases json with
  | object members =>
      rw [validate, both_eq_ok_iff]
      constructor
      · rintro ⟨⟨name, op⟩, threshold, hpair, hthreshold, rfl⟩
        obtain ⟨_, _, hname, hop, heq⟩ := both_eq_ok_iff.mp hpair
        cases heq
        obtain ⟨_, hfeature, hname⟩ := required_eq_ok_iff.mp hname
        obtain ⟨inner, rfl, hname, hne⟩ := validateVariable_eq_ok_iff.mp hname
        obtain ⟨_, hoperator, hop⟩ := required_eq_ok_iff.mp hop
        obtain rfl := validateComparison_eq_ok_iff.mp hop
        obtain ⟨json, hjson, hthreshold⟩ := required_eq_ok_iff.mp hthreshold
        exact .intro hfeature hname hne hoperator hjson (Threshold.validate_eq_ok_iff.mp hthreshold)
      · rintro ⟨hfeature, hname, hne, hoperator, hjson, hspelled⟩
        refine ⟨⟨_, _⟩, _, both_eq_ok_iff.mpr ⟨_, _, ?_, ?_, rfl⟩, ?_, rfl⟩
        · exact required_eq_ok_iff.mpr
            ⟨_, hfeature, validateVariable_eq_ok_iff.mpr ⟨_, rfl, hname, hne⟩⟩
        · exact required_eq_ok_iff.mpr ⟨_, hoperator, validateComparison_eq_ok_iff.mpr rfl⟩
        · exact required_eq_ok_iff.mpr ⟨_, hjson, Threshold.validate_eq_ok_iff.mpr hspelled⟩
  | _ =>
      refine iff_of_false complain_ne_ok ?_
      rintro ⟨⟩

end Condition

/-! ### Formulas -/

namespace Formula

theorem validateAtom_eq_ok_iff {members : List (String × Json)} {c : Condition} :
    validateAtom members = .ok c ↔ c.SpelledBy members := by
  rw [validateAtom, required_eq_ok_iff]
  simp only [Condition.validate_eq_ok_iff]
  rfl

theorem validateTag_eq_ok_iff {members : List (String × Json)} :
    validateTag members = .ok () ↔ ∀ json ∈ Json.find? members "kind", json = .text "atom" := by
  unfold validateTag
  cases Json.find? members "kind" with
  | none => simp
  | some json =>
      simp only [Option.mem_def, Option.some.injEq, forall_eq']
      split
      next h => cases h
      next h => simpa using h
      next hother h =>
        cases h
        exact iff_of_false nofun hother

theorem validateConjunct_eq_ok_iff {json : Json} {c : Condition} :
    validateConjunct json = .ok c ↔ Condition.SpellsConjunct json c := by
  cases json with
  | object members =>
      rw [validateConjunct, both_eq_ok_iff]
      constructor
      · rintro ⟨_, _, htag, hatom, rfl⟩
        exact .intro (validateTag_eq_ok_iff.mp htag) (validateAtom_eq_ok_iff.mp hatom)
      · rintro ⟨htag, hatom⟩
        exact ⟨(), c, validateTag_eq_ok_iff.mpr htag, validateAtom_eq_ok_iff.mpr hatom, rfl⟩
  | _ =>
      refine iff_of_false complain_ne_ok ?_
      rintro ⟨⟩

theorem complains_validateReal (json : Json) : Complains (validateReal json) := by
  unfold validateReal
  split
  · exact complains_complain _
  · split
    · exact .ok _
    · exact complains_complain _

theorem complains_validateText (json : Json) : Complains (validateText json) := by
  cases json with
  | text s => exact .ok s
  | _ => exact complains_complain _

theorem complains_validateThreshold (json : Json) : Complains (Threshold.validate json) := by
  refine Complains.byTag (fun r hr members => ?_) json
  rcases List.mem_cons.mp hr with rfl | hr
  · exact (Complains.required complains_validateReal _ _).map _
  · cases List.mem_singleton.mp hr
    exact (Complains.required complains_validateText _ _).map _

theorem complains_validateName (json : Json) : Complains (Condition.validateName json) := by
  cases json with
  | text s =>
      rw [Condition.validateName]
      split_ifs
      · exact complains_complain _
      · exact .ok s
  | _ => exact complains_complain _

theorem complains_validateVariable (json : Json) : Complains (Condition.validateVariable json) := by
  cases json with
  | object members => exact Complains.required complains_validateName _ _
  | _ => exact complains_complain _

theorem complains_validateComparison (json : Json) :
    Complains (Condition.validateComparison json) := by
  cases json with
  | text s =>
      rw [Condition.validateComparison]
      cases Comparison.ofSymbol? s with
      | none => exact complains_complain _
      | some op => exact .ok op
  | _ => exact complains_complain _

theorem complains_validateCondition (json : Json) : Complains (Condition.validate json) := by
  cases json with
  | object members =>
      refine Complains.both (Complains.both ?_ ?_ _) ?_ _
      · exact Complains.required complains_validateVariable _ _
      · exact Complains.required complains_validateComparison _ _
      · exact Complains.required complains_validateThreshold _ _
  | _ => exact complains_complain _

theorem complains_validateTag (members : List (String × Json)) :
    Complains (validateTag members) := by
  unfold validateTag
  split
  · exact .ok ()
  · exact .ok ()
  · exact (complains_complain _).under _

theorem complains_validateConjunct (json : Json) : Complains (validateConjunct json) := by
  cases json with
  | object members =>
      refine Complains.both (complains_validateTag members) ?_ _
      exact Complains.required complains_validateCondition _ _
  | _ => exact complains_complain _

/-- The members of a conjunction are read without a complaint exactly if all are valid. -/
theorem validateConjuncts_eq_iff {index : Nat} {items : List Json} {cs : List Condition} :
    validateConjuncts index items = (cs, []) ↔
      List.Forall₂ Condition.SpellsConjunct items cs := by
  induction items generalizing index cs with
  | nil =>
      rw [validateConjuncts, List.forall₂_nil_left_iff, Prod.mk.injEq, and_iff_left rfl, eq_comm]
  | cons json items ih =>
      rw [validateConjuncts, List.forall₂_cons_left_iff]
      cases hrest : validateConjuncts (index + 1) items with
      | mk conditions complaints =>
      simp only [← validateConjunct_eq_ok_iff, ← @ih (index + 1)]
      cases hjson : validateConjunct json with
      | error es =>
          -- a member that is not valid says why
          have hsome : es ≠ [] := complains_validateConjunct json es hjson
          simp [under, hsome]
      | ok c =>
          simp only [under, hrest, Prod.mk.injEq]
          constructor
          · rintro ⟨rfl, rfl⟩
            exact ⟨c, conditions, rfl, ⟨rfl, rfl⟩, rfl⟩
          · rintro ⟨_, _, heq, ⟨rfl, rfl⟩, rfl⟩
            cases heq
            exact ⟨rfl, rfl⟩

theorem validateConditions_eq_ok_iff {json : Json} {cs : List Condition} :
    validateConditions json = .ok cs ↔ ∃ items, json = .array items ∧
      List.Forall₂ Condition.SpellsConjunct items cs ∧ cs ≠ [] := by
  cases json with
  | array items =>
      simp only [Json.array.injEq, exists_eq_left', ← @validateConjuncts_eq_iff 0]
      rw [validateConditions]
      cases validateConjuncts 0 items with
      | mk conditions complaints =>
      dsimp only
      by_cases hnone : conditions = []
      · subst hnone
        rw [if_pos rfl, if_neg (List.append_ne_nil_of_right_ne_nil _ (List.cons_ne_nil _ _))]
        refine iff_of_false nofun ?_
        rintro ⟨heq, hsome⟩
        exact hsome (congrArg Prod.fst heq).symm
      · rw [if_neg hnone, List.append_nil]
        split_ifs with hcomplaints
        · rw [hcomplaints, Except.ok.injEq, Prod.mk.injEq, and_iff_left rfl]
          exact ⟨by rintro rfl; exact ⟨rfl, hnone⟩, And.left⟩
        · exact iff_of_false nofun fun h => hcomplaints (congrArg Prod.snd h.1)
  | _ =>
      refine iff_of_false complain_ne_ok ?_
      rintro ⟨_, ⟨⟩, -⟩

/-- **Which JSON values are formulas**: those that spell one, and of each the formula that it
spells. -/
theorem validate_eq_ok_iff {json : Json} {f : Formula} : validate json = .ok f ↔ Spells json f := by
  rw [validate, byTag_eq_ok_iff (by decide)]
  constructor
  · rintro ⟨members, rfl, r, hr, htag, h⟩
    simp only [List.mem_cons, List.not_mem_nil, or_false] at hr
    rcases hr with rfl | rfl | rfl
    · obtain ⟨c, hc, rfl⟩ := Except.map_eq_ok_iff.mp h
      exact .atom htag (validateAtom_eq_ok_iff.mp hc)
    · obtain ⟨cs, hcs, rfl⟩ := Except.map_eq_ok_iff.mp h
      obtain ⟨json, hjson, hcs⟩ := required_eq_ok_iff.mp hcs
      obtain ⟨items, rfl, hspelled, hsome⟩ := validateConditions_eq_ok_iff.mp hcs
      exact .conjunction htag hjson hspelled hsome
    · cases h
      exact .top htag
  · rintro (⟨htag, hatom⟩ | ⟨htag, hatoms, hspelled, hsome⟩ | htag)
    · exact ⟨_, rfl, _, List.mem_cons_self, htag,
        Except.map_eq_ok_iff.mpr ⟨_, validateAtom_eq_ok_iff.mpr hatom, rfl⟩⟩
    · refine ⟨_, rfl, _, List.mem_cons_of_mem _ List.mem_cons_self, htag,
        Except.map_eq_ok_iff.mpr ⟨_, ?_, rfl⟩⟩
      exact required_eq_ok_iff.mpr
        ⟨_, hatoms, validateConditions_eq_ok_iff.mpr ⟨_, rfl, hspelled, hsome⟩⟩
    · exact ⟨_, rfl, _, List.mem_cons_of_mem _ (List.mem_cons_of_mem _ List.mem_cons_self), htag,
        rfl⟩

end Formula

/-! ### Images -/

theorem Threshold.spells_image (t : Threshold) : Spells t.image t := by
  cases t with
  | numeric x => exact .numeric rfl rfl ⟨.real x, rfl, rfl⟩
  | symbolic token => exact .symbolic rfl rfl

theorem Condition.spells_image {c : Condition} (h : c.name ≠ "") : Spells c.image c :=
  .intro rfl rfl h rfl rfl c.threshold.spells_image

theorem Condition.spellsConjunct_atomImage {c : Condition} (h : c.name ≠ "") :
    SpellsConjunct c.atomImage c := by
  refine .intro ?_ ⟨c.image, rfl, spells_image h⟩
  rintro _ ⟨⟩
  rfl

namespace Formula

/-- A well-formed formula is spelled by its image. -/
theorem spells_image {f : Formula} (h : f.WellFormed) : Spells f.image f := by
  cases f with
  | atom c =>
      exact .atom rfl ⟨c.image, rfl, Condition.spells_image (h.named c (List.mem_singleton_self c))⟩
  | conjunction cs =>
      refine .conjunction rfl rfl ?_ fun hnone => h.inhabited (congrArg _ hnone)
      rw [List.forall₂_map_left_iff, List.forall₂_same]
      exact fun c hc => Condition.spellsConjunct_atomImage (h.named c hc)
  | top => exact .top rfl

theorem name_ne_of_spelledBy {members : List (String × Json)} {c : Condition}
    (h : c.SpelledBy members) : c.name ≠ "" := by
  obtain ⟨json, -, ⟨-, -, hnamed, -⟩⟩ := h
  exact hnamed

theorem forall_name_ne_of_spelled {items : List Json} {cs : List Condition}
    (h : List.Forall₂ Condition.SpellsConjunct items cs) : ∀ c ∈ cs, c.name ≠ "" := by
  induction h with
  | nil => exact List.forall_mem_nil _
  | cons hconjunct _ ih =>
      obtain ⟨-, hatom⟩ := hconjunct
      exact List.forall_mem_cons.mpr ⟨name_ne_of_spelledBy hatom, ih⟩

/-- What a JSON value spells is well formed. -/
theorem Spells.wellFormed {json : Json} {f : Formula} (h : Spells json f) : f.WellFormed := by
  cases h with
  | atom tag atom =>
      exact ⟨List.forall_mem_singleton.mpr (name_ne_of_spelledBy atom), Formula.noConfusion⟩
  | conjunction tag atoms spelled some =>
      exact ⟨forall_name_ne_of_spelled spelled, fun hnone => some (Formula.conjunction.inj hnone)⟩
  | top tag => exact ⟨List.forall_mem_nil _, Formula.noConfusion⟩

/-- **Reading a formula is stable.**  A formula is read from its image exactly if it is well formed.
What is read from any JSON value is well formed, with one of the six comparisons in each condition,
and is read again from its image. -/
theorem validate_stable :
    (∀ f : Formula, validate f.image = .ok f ↔ f.WellFormed) ∧
    ∀ (json : Json) (f : Formula), validate json = .ok f →
      f.WellFormed ∧ (∀ c ∈ f.conditions, c.op ∈ Comparison.all) ∧ validate f.image = .ok f := by
  refine ⟨fun f => ⟨fun h => (validate_eq_ok_iff.mp h).wellFormed,
    fun h => validate_eq_ok_iff.mpr (spells_image h)⟩, fun json f h => ?_⟩
  have hformed := (validate_eq_ok_iff.mp h).wellFormed
  refine ⟨hformed, fun c _ => ?_, validate_eq_ok_iff.mpr (spells_image hformed)⟩
  cases c.op <;> decide

/-- A conjunction of which the members have no tag, with a truth value and a text for numbers, a
member that is given twice and one that is not known. -/
def looseConjunction : Json :=
  let condition (name symbol : String) (threshold : List (String × Json)) : Json :=
    .object [("operator", .text symbol), ("feature", .object [("name", .text name)]),
      ("threshold", .object threshold)]
  .object [("atoms", .null), ("kind", .text "conjunction"), ("note", .int 1), ("atoms", .array [
    .object [("condition", condition "x" "<" [("kind", .text "numeric"), ("value", .bool true)])],
    .object [("condition", condition "y" ">=" [("kind", .text "numeric"),
      ("value", .text " 2.5 ")])],
    .object [("kind", .text "atom"), ("condition", condition "z" "==" [("token", .text "red"),
      ("kind", .text "symbolic")])]])]

theorem validate_stable_looseConjunction :
    ∃ f : Formula, validate looseConjunction = .ok f ∧ f.WellFormed ∧ validate f.image = .ok f ∧
      f.toText = "(x < 1.0) ∧ (y >= 2.5) ∧ (z == red)" ∧
      ¬ (Formula.conjunction []).WellFormed ∧
      validate (Formula.conjunction []).image ≠ .ok (.conjunction []) := by
  obtain ⟨himage, hread⟩ := validate_stable
  obtain ⟨f, hf, htext⟩ := Except.map_eq_ok_iff.mp (show (validate looseConjunction).map
    Formula.toText = .ok "(x < 1.0) ∧ (y >= 2.5) ∧ (z == red)" by decide +kernel)
  obtain ⟨hformed, -, hagain⟩ := hread looseConjunction f hf
  have hempty : ¬ (Formula.conjunction []).WellFormed := fun h => h.inhabited rfl
  exact ⟨f, hf, hformed, hagain, htext, hempty, fun h => hempty ((himage _).mp h)⟩

end Formula

end Rulebook
