import Rulebook.Proofs.BatchCheck
import Rulebook.Proofs.IfElseChain

/-!
# Models — only mentioned variables matter

Two rows that agree on the variables that a model mentions are answered alike, with the same fault
and the same events.  Two data sets that agree on the columns of these names are too, as long as the
names are ordinary ones: a star and a pattern stand for columns of other names.

* `Row.AgreesOn`, `Dataset.AgreesOn`: the same values, and on data sets the same types.
* `Ordinary`: a name that stands for its own column in every data set, or is a pattern that cannot
  be read.
* `Model.apply_congr`, `Model.applyAll_congr`: agreement on what a model mentions is enough, by
  induction over the model.
* `Model.only_mentioned_matters`: both, and no other names will do.
-/

namespace Rulebook

/-! ### Single rows -/

/-- Two rows give some variables the same values, or both none. -/
def Row.AgreesOn (row row' : Row) (names : List String) : Prop :=
  ∀ name ∈ names, row.find? name = row'.find? name

variable {row row' : Row} {names : List String} {c : Condition} {f : Formula} {d d' : Dataset}

theorem Condition.allHold_congr {cs : List Condition}
    (h : ∀ c ∈ cs, row.find? c.name = row'.find? c.name) : allHold cs row = allHold cs row' := by
  induction cs with
  | nil => rfl
  | cons c cs ih =>
    obtain ⟨hc, hcs⟩ := List.forall_mem_cons.mp h
    rw [allHold, allHold, holds, holds, hc, ih hcs]

theorem Formula.check_congr (h : row.AgreesOn row' names) (hf : f.names ⊆ names) :
    f.check row = f.check row' :=
  Condition.allHold_congr fun c hc => h c.name (hf (List.mem_map_of_mem hc))

namespace Model

variable {defaults : Defaults}

theorem applyRules_congr {rules : List Rule}
    (h : ∀ r ∈ rules, r.antecedent.check row = r.antecedent.check row' ∧
      r.consequent.apply defaults row = r.consequent.apply defaults row') :
    applyRules defaults row rules = applyRules defaults row' rules := by
  induction rules with
  | nil => rfl
  | cons r rules ih =>
    obtain ⟨⟨hcheck, hconsequent⟩, hrules⟩ := List.forall_mem_cons.mp h
    rw [applyRules_cons, applyRules_cons, hcheck, hconsequent, ih hrules]

theorem applyTrees_congr {trees : List Tree}
    (h : ∀ t ∈ trees, t.root.apply defaults row = t.root.apply defaults row') :
    applyTrees defaults row trees = applyTrees defaults row' trees := by
  induction trees with
  | nil => rfl
  | cons t trees ih =>
    obtain ⟨ht, htrees⟩ := List.forall_mem_cons.mp h
    change (t.root.apply defaults row >>= fun v => Traced.ofExcept (t.info.finish v) >>= fun v =>
      applyTrees defaults row trees >>= fun vs => pure (v :: vs)) = _
    rw [ht, ih htrees]
    rfl

/-- **On single rows only mentioned variables matter.** -/
theorem apply_congr (h : row.AgreesOn row' names) (m : Model) (hm : m.mentioned ⊆ names) :
    m.apply defaults row = m.apply defaults row' := by
  induction m with
  | constant info v => rfl
  | rule r ih =>
    rw [mentioned_rule, List.append_subset] at hm
    change (Traced.ofExcept (r.antecedent.check row) >>= fun held =>
      if held then r.consequent.apply defaults row else pure .missing) = _
    rw [Formula.check_congr h hm.1, ih hm.2]
    rfl
  | branch info f positive negative ihpositive ihnegative =>
    rw [mentioned_branch, List.append_subset, List.append_subset] at hm
    rw [apply_branch, apply_branch, Formula.check_congr h hm.1.1, ihpositive hm.1.2,
      ihnegative hm.2]
  | decisionList info rules default ihrules ihdefault =>
    obtain ⟨hrules, hdefault⟩ := mentioned_decisionList_subset.mp hm
    have hsame : ∀ r ∈ rules, r.antecedent.check row = r.antecedent.check row' ∧
        r.consequent.apply defaults row = r.consequent.apply defaults row' := fun r hr =>
      ⟨Formula.check_congr h (hrules r hr).1, ihrules r hr (hrules r hr).2⟩
    rw [apply_decisionList, apply_decisionList, applyRules_congr hsame, ihdefault hdefault]
  | tree t ih =>
    change (t.root.apply defaults row >>= fun v => Traced.ofExcept (t.info.finish v)) = _
    rw [ih hm]
    rfl
  | forest info trees ih =>
    have htrees : ∀ t ∈ trees, t.root.apply defaults row = t.root.apply defaults row' :=
      fun t ht => ih t ht (mentioned_forest_subset.mp hm t ht)
    change (Traced.ofExcept (defaults.quiet none) >>= fun quiet =>
      applyTrees defaults row trees >>= fun votes => bestGuess quiet votes) = _
    rw [applyTrees_congr htrees]
    rfl
  | mixed info root feasible ih => exact ih hm

end Model

/-! ### Names -/

/-- A name that stands for its own column in every data set, or for none because it cannot be
read. -/
def Ordinary (name : String) : Prop :=
  standsForOne name = true ∨ isPattern name = true ∧ Text.Pattern.read? name = none

theorem namesFor_of_unreadable {name : String} (hpattern : isPattern name = true)
    (hread : Text.Pattern.read? name = none) (schema : Schema) :
    schema.namesFor name = .error (.unreadablePattern name) := by
  have hstar : name ≠ "*" := by
    rintro rfl
    revert hpattern
    decide
  rw [Schema.namesFor, if_neg hstar, if_pos hpattern, hread]

namespace Ordinary

variable {name : String}

theorem selectsOwn (h : Ordinary name) (schema : Schema) : schema.SelectsOwn name := by
  rcases h with hone | ⟨hpattern, hread⟩
  · exact Schema.selectsOwn_of_standsForOne hone
  · intro selected hselected
    rw [namesFor_of_unreadable hpattern hread] at hselected
    cases hselected

theorem spelledOut_congr {c : Condition} (h : Ordinary c.name) (schema schema' : Schema) :
    c.spelledOut schema = c.spelledOut schema' := by
  rcases h with hone | ⟨hpattern, hread⟩
  · rw [Condition.spelledOut_of_standsForOne hone, Condition.spelledOut_of_standsForOne hone]
  · rw [Condition.spelledOut, Condition.spelledOut, namesFor_of_unreadable hpattern hread,
      namesFor_of_unreadable hpattern hread]

end Ordinary

theorem Formula.spelledOut_congr (h : ∀ c ∈ f.conditions, Ordinary c.name)
    (schema schema' : Schema) : f.spelledOut schema = f.spelledOut schema' := by
  cases f with
  | atom c =>
    rw [spelledOut, spelledOut, (h c (List.mem_singleton_self c)).spelledOut_congr schema schema']
  | conjunction cs =>
    have hcs : cs.mapM (·.spelledOut schema) = cs.mapM (·.spelledOut schema') :=
      Except.mapM_congr fun c hc => (h c hc).spelledOut_congr schema schema'
    rw [spelledOut, spelledOut, hcs]
  | top => rfl

/-! ### Data sets -/

namespace ColumnType

theorem value_some_ne_missing (t : ColumnType) (cell : t.Cell) :
    t.value (some cell) ≠ .missing := by
  cases t
  case null => exact nomatch cell
  all_goals exact nofun

theorem value_some_injective (t : ColumnType) {cell cell' : t.Cell}
    (h : t.value (some cell) = t.value (some cell')) : cell = cell' := by
  cases t with
  | integer t => exact Subtype.ext (Value.int.inj h)
  | single | double => exact Value.real.inj h
  | text | categorical => exact Value.text.inj h
  | boolean => exact Value.bool.inj h
  | null => exact nomatch cell
  | enumeration categories =>
    exact List.nodup_iff_injective_get.mp categories.distinct (Value.text.inj h)

/-- The cells of one type differ in their values. -/
theorem value_injective (t : ColumnType) : Function.Injective t.value := by
  intro cell cell' h
  cases cell with
  | none =>
    cases cell' with
    | none => rfl
    | some b => exact absurd (h.symm.trans (Condition.value_none t)) (t.value_some_ne_missing b)
  | some a =>
    cases cell' with
    | none => exact absurd (h.trans (Condition.value_none t)) (t.value_some_ne_missing a)
    | some b => rw [t.value_some_injective h]

end ColumnType

/-- Two data sets with columns give some variables columns of the same types, or both none, and row
by row the same values. -/
structure Dataset.AgreesOn (d d' : Dataset) (names : List String) : Prop where
  column : d.schema ≠ []
  column' : d'.schema ≠ []
  types : ∀ name ∈ names, d.schema.type? name = d'.schema.type? name
  rows : List.Forall₂ (fun row row' => Row.AgreesOn row row' names) d.rows d'.rows

namespace Dataset.AgreesOn

theorem size_eq (h : d.AgreesOn d' names) : d.size = d'.size := by
  rw [← length_rows, ← length_rows, h.rows.length_eq]

theorem slice (h : d.AgreesOn d' names) (positions : List Nat) :
    (d.slice positions).AgreesOn (d'.slice positions) names where
  column := by rw [schema_slice]; exact h.column
  column' := by rw [schema_slice]; exact h.column'
  types := by rw [schema_slice, schema_slice]; exact h.types
  rows := by
    rw [rows_slice h.column, rows_slice h.column']
    exact forall₂_filterMap_getElem? h.rows positions

/-- The cells of the columns are the same, row by row. -/
theorem cells (h : d.AgreesOn d' names) :
    List.Forall₂ (fun cells cells' => ∀ name ∈ names,
      d.schema.cell? cells name = d'.schema.cell? cells' name) d.records d'.records := by
  have hrows := h.rows
  rw [Dataset.rows, Dataset.rows, List.forall₂_map_left_iff, List.forall₂_map_right_iff] at hrows
  refine hrows.imp fun cells cells' hrow name hname => ?_
  have htype := h.types name hname
  have hvalue := hrow name hname
  rw [Schema.type?_eq _ cells, Schema.type?_eq _ cells'] at htype
  rw [Schema.find?_row, Schema.find?_row] at hvalue
  cases hcell : d.schema.cell? cells name with
  | none =>
    rw [hcell] at htype
    exact (Option.map_eq_none_iff.mp htype.symm).symm
  | some x =>
    obtain ⟨t, cell⟩ := x
    cases hcell' : d'.schema.cell? cells' name with
    | none => rw [hcell, hcell'] at htype; cases htype
    | some x' =>
      obtain ⟨t', cell'⟩ := x'
      rw [hcell, hcell'] at htype hvalue
      obtain rfl : t = t' := Option.some.inj htype
      have hsame : cell = cell' := t.value_injective (Option.some.inj hvalue)
      rw [hsame]

/-- A test of the cells of agreeing columns has the same results. -/
theorem map_records {β : Type} (h : d.AgreesOn d' names) {test : d.schema.Cells → β}
    {test' : d'.schema.Cells → β}
    (htest : ∀ cells cells', (∀ name ∈ names,
      d.schema.cell? cells name = d'.schema.cell? cells' name) → test cells = test' cells') :
    d.records.map test = d'.records.map test' := by
  rw [← List.forall₂_eq_eq_eq, List.forall₂_map_left_iff, List.forall₂_map_right_iff]
  exact h.cells.imp htest

end Dataset.AgreesOn

namespace Condition

theorem readsAsNumber_eq (name : String) (schema : Schema) (cells : schema.Cells) :
    readsAsNumber name schema cells =
      ((schema.cell? cells name).map fun x => x.1.readsAsNumber x.2).getD true := by
  induction schema with
  | nil => rfl
  | cons column columns ih =>
    obtain ⟨cell, cells⟩ := cells
    by_cases h : column.name = name
    · simp [readsAsNumber, Schema.cell?, h]
    · simp only [readsAsNumber, Schema.cell?, h, if_false]
      exact ih cells

theorem checkType_congr (h : d.AgreesOn d' names) (hc : c.name ∈ names) :
    c.checkType d.schema = c.checkType d'.schema := by
  rw [checkType, checkType, h.types _ hc]

theorem checkPresence_congr (h : d.AgreesOn d' names) (hc : c.name ∈ names) :
    c.checkPresence d.schema = c.checkPresence d'.schema := by
  rw [checkPresence, checkPresence, h.types _ hc]

theorem checkCells_congr (h : d.AgreesOn d' names) (hc : c.name ∈ names) :
    c.checkCells d = c.checkCells d' := by
  have hreads : d.records.map (readsAsNumber c.name d.schema) =
      d'.records.map (readsAsNumber c.name d'.schema) :=
    h.map_records fun cells cells' hcells => by
      rw [readsAsNumber_eq, readsAsNumber_eq, hcells _ hc]
  have hall : d.records.all (readsAsNumber c.name d.schema) =
      d'.records.all (readsAsNumber c.name d'.schema) := by
    simpa only [List.all_map, Function.id_comp] using congrArg (List.all · id) hreads
  rw [checkCells, checkCells, hall, h.types _ hc]

end Condition

namespace Dataset.AgreesOn

/-- **A check of ordinary names looks at their columns only.** -/
theorem check (h : d.AgreesOn d' names) (hf : f.names ⊆ names)
    (hordinary : ∀ name ∈ names, Ordinary name) : d.check f = d'.check f := by
  have hmem : ∀ c ∈ f.conditions, c.name ∈ names := fun c hc => hf (List.mem_map_of_mem hc)
  have hown : ∀ c ∈ f.conditions, Ordinary c.name := fun c hc => hordinary _ (hmem c hc)
  have hnone (schema : Schema) : f.selectsNone schema = false :=
    Formula.selectsNone_eq_false_of_selectsOwn fun c hc => (hown c hc).selectsOwn schema
  have htypes : f.conditions.forM (·.checkType d.schema) =
      f.conditions.forM (·.checkType d'.schema) :=
    Except.forM_congr fun c hc => Condition.checkType_congr h (hmem c hc)
  -- Both sets spell the formula out alike, so what is left are tests of the columns it names.
  rw [Dataset.check, Dataset.check, answers, answers, h.size_eq, htypes, hnone, hnone,
    Formula.spelledOut_congr hown d.schema d'.schema]
  cases hcs : f.spelledOut d'.schema with
  | error fault => rfl
  | ok cs =>
    have hcsmem : ∀ c ∈ cs, c.name ∈ names := fun c hc => hmem c
      ((Formula.mem_spelledOut_iff (fun c hc => (hown c hc).selectsOwn d'.schema) hcs c).mp hc)
    have hpresence : cs.forM (·.checkPresence d.schema) = cs.forM (·.checkPresence d'.schema) :=
      Except.forM_congr fun c hc => Condition.checkPresence_congr h (hcsmem c hc)
    have hcells : cs.forM (·.checkCells d) = cs.forM (·.checkCells d') :=
      Except.forM_congr fun c hc => Condition.checkCells_congr h (hcsmem c hc)
    have hanswers : (d.records.map fun cells =>
          Value.bool (cs.all (·.holdsInCells d.schema cells))) =
        d'.records.map fun cells => Value.bool (cs.all (·.holdsInCells d'.schema cells)) :=
      h.map_records fun cells cells' hsame => by
        have hholds : ∀ c ∈ cs,
            c.holdsInCells d.schema cells = c.holdsInCells d'.schema cells' := by
          intro c hc
          rw [Schema.holdsInCells_eq, Schema.holdsInCells_eq, hsame _ (hcsmem c hc)]
        rw [Value.bool.injEq, Bool.eq_iff_iff, List.all_eq_true, List.all_eq_true]
        exact forall₂_congr fun c hc => by rw [hholds c hc]
    simp only [Except.ok_bind, hpresence, hcells, hanswers, Bool.false_eq_true, if_false]

end Dataset.AgreesOn

namespace Model

variable {defaults : Defaults}

/-- A model answers data sets alike that agree on some names. -/
def SeesOnly (defaults : Defaults) (names : List String) (m : Model) : Prop :=
  ∀ d d' : Dataset, d.AgreesOn d' names → m.applyAll defaults d = m.applyAll defaults d'

theorem SeesOnly.applyAt {m : Model} (hm : SeesOnly defaults names m) (h : d.AgreesOn d' names)
    (positions : List Nat) : m.applyAt defaults d positions = m.applyAt defaults d' positions :=
  applyAt_congr rfl (hm _ _ (h.slice positions))

section Ordinary

variable (hordinary : ∀ name ∈ names, Ordinary name)

include hordinary

theorem applyRulesAll_congr (h : d.AgreesOn d' names)
    {last last' : List Nat → Traced Fault (List Value)}
    (hlast : ∀ positions, last positions = last' positions) {rules : List Rule}
    (hrules : ∀ r ∈ rules, r.antecedent.names ⊆ names ∧ SeesOnly defaults names r.consequent) :
    ∀ uncovered, applyRulesAll defaults d last rules uncovered =
      applyRulesAll defaults d' last' rules uncovered := by
  induction rules with
  | nil =>
    intro uncovered
    rw [applyRulesAll_nil, applyRulesAll_nil, hlast]
  | cons r rules ih =>
    intro uncovered
    obtain ⟨⟨hnames, hconsequent⟩, hrest⟩ := List.forall_mem_cons.mp hrules
    simp only [applyRulesAll_cons_eq, (h.slice uncovered).check hnames hordinary,
      hconsequent.applyAt h, ih hrest]

omit hordinary in
theorem applyTreesAll_congr (h : d.AgreesOn d' names) {trees : List Tree}
    (htrees : ∀ t ∈ trees, SeesOnly defaults names t.root) :
    applyTreesAll defaults trees d = applyTreesAll defaults trees d' := by
  induction trees with
  | nil => rfl
  | cons t trees ih =>
    obtain ⟨ht, hrest⟩ := List.forall_mem_cons.mp htrees
    rw [applyTreesAll_cons_eq, applyTreesAll_cons_eq, applyAll_tree, applyAll_tree, ht _ _ h,
      ih hrest]

/-- **On data sets only mentioned columns matter**, where they are mentioned by ordinary names. -/
theorem applyAll_congr (m : Model) (hm : m.mentioned ⊆ names) : SeesOnly defaults names m := by
  induction m with
  | constant info v =>
    intro d d' h
    change pure (List.replicate d.size v) = pure (List.replicate d'.size v)
    rw [h.size_eq]
  | rule r ih =>
    rw [mentioned_rule, List.append_subset] at hm
    intro d d' h
    simp only [applyAll_rule, h.check hm.1 hordinary, h.size_eq, (ih hm.2).applyAt h]
  | branch info f positive negative ihpositive ihnegative =>
    rw [mentioned_branch, List.append_subset, List.append_subset] at hm
    intro d d' h
    simp only [applyAll_branch, h.check hm.1.1 hordinary, h.size_eq,
      (ihpositive hm.1.2).applyAt h, (ihnegative hm.2).applyAt h]
  | decisionList info rules default ihrules ihdefault =>
    obtain ⟨hrules, hdefault⟩ := mentioned_decisionList_subset.mp hm
    have hseen : ∀ r ∈ rules, r.antecedent.names ⊆ names ∧ SeesOnly defaults names r.consequent :=
      fun r hr => ⟨(hrules r hr).1, ihrules r hr (hrules r hr).2⟩
    intro d d' h
    rw [applyAll_decisionList, applyAll_decisionList, h.size_eq]
    exact applyRulesAll_congr hordinary h ((ihdefault hdefault).applyAt h) hseen _
  | tree t ih =>
    intro d d' h
    rw [applyAll_tree, applyAll_tree, ih hm _ _ h]
  | forest info trees ih =>
    have htrees : ∀ t ∈ trees, SeesOnly defaults names t.root := fun t ht =>
      ih t ht (mentioned_forest_subset.mp hm t ht)
    intro d d' h
    rw [applyAll_forest, applyAll_forest, applyTreesAll_congr h htrees, h.size_eq]
  | mixed info root feasible ih => exact ih hm

end Ordinary

end Model

/-! ### Other names -/

section Other

variable {name text : String}

/-- In a data set of one column any other name selects the column, or none. -/
theorem namesFor_of_not_ordinary (h : ¬ Ordinary name) (column : String) :
    (Schema.ofTexts [column]).namesFor name = .ok [column] ∨
      (Schema.ofTexts [column]).namesFor name = .ok [] := by
  by_cases hstar : name = "*"
  · exact .inl (by rw [Schema.namesFor, if_pos hstar]; rfl)
  have hpattern : isPattern name = true := by
    by_contra hno
    exact h (.inl (by simp [standsForOne, hstar, hno]))
  cases hread : Text.Pattern.read? name with
  | none => exact absurd (.inr ⟨hpattern, hread⟩) h
  | some pattern =>
    rw [Schema.namesFor, if_neg hstar, if_pos hpattern, hread]
    change Except.ok ([column].filter pattern.isIn) = _ ∨ Except.ok ([column].filter _) = _
    cases hin : pattern.isIn column with
    | true => exact .inl (by rw [List.filter_cons_of_pos hin, List.filter_nil])
    | false => exact .inr (by rw [List.filter_cons_of_neg (by simp [hin]), List.filter_nil])

/-- One row, whose only text stands in the column of the answers. -/
def answered (text : String) : Dataset := .ofTexts (fun _ => some text) [Dataset.answerName]

theorem size_answered (text : String) : (answered text).size ≠ 0 := Nat.one_ne_zero

theorem check_answered_of_selected
    (h : (answered text).schema.namesFor name = .ok [Dataset.answerName]) :
    (answered text).check (.atom (markedAt name)) = .ok [text == "marked"] := by
  have hmem : Dataset.answerName ∈ [Dataset.answerName] := List.mem_singleton_self _
  have hspelled : (Formula.atom (markedAt name)).spelledOut (answered text).schema =
      .ok [markedAt Dataset.answerName] := by
    rw [Formula.spelledOut, Condition.spelledOut, markedAt, h]
    rfl
  refine (Dataset.check_eq_ok_iff (size_answered text)
    (Dataset.selectsNone_eq_false_of_spelledOut hspelled)).mpr ⟨?_, _, hspelled, ?_, ?_, ?_⟩
  · intro c hc
    rw [List.mem_singleton.mp hc]
    exact checkType_markedAt
  · intro c hc
    rw [List.mem_singleton.mp hc]
    exact checkPresence_markedAt hmem
  · intro c hc
    rw [List.mem_singleton.mp hc]
    exact checkCells_markedAt hmem
  · have hholds := holdsInCells_markedAt (fun _ => some text) hmem
    change _ = [((markedAt Dataset.answerName).holdsInCells (.ofTexts [Dataset.answerName])
      (Schema.textCells (fun _ => some text) [Dataset.answerName]) && true)]
    rw [hholds, Bool.and_true]
    rfl

theorem check_answered_of_none (h : (answered text).schema.namesFor name = .ok []) :
    (answered text).check (.atom (markedAt name)) = .ok [decide (text ≠ "")] := by
  have hselects : (Formula.atom (markedAt name)).selectsNone (answered text).schema = true := by
    rw [Formula.selectsNone, markedAt, h]
  refine (Dataset.check_selectsNone_eq_ok_iff (size_answered text) hselects).mpr ⟨?_, ?_, ?_⟩
  · intro c hc
    rw [List.mem_singleton.mp hc]
    exact checkType_markedAt
  · rfl
  · rfl

/-- Names that are not the answers' do not tell such rows apart. -/
theorem agreesOn_answered (hreserved : Dataset.answerName ∉ names) (text text' : String) :
    (answered text).AgreesOn (answered text') names where
  column := List.cons_ne_nil _ _
  column' := List.cons_ne_nil _ _
  types _ _ := rfl
  rows := by
    refine .cons (fun name hname => ?_) .nil
    have hne : name ∉ [Dataset.answerName] := fun hmem =>
      hreserved (List.mem_singleton.mp hmem ▸ hname)
    have hrow (text : String) : ((Schema.ofTexts [Dataset.answerName]).row
        (Schema.textCells (fun _ => some text) [Dataset.answerName])).find? name = none := by
      rw [Schema.find?_row, Schema.cell?_textCells, if_neg hne]
      rfl
    exact (hrow text).trans (hrow text').symm

/-- The rule that says yes where a formula holds. -/
def Model.yesIf (f : Formula) : Model := .rule ⟨.empty, f, .constant .empty (.text "yes")⟩

theorem applyAll_yesIf {b : Bool} (h : (answered text).check f = .ok [b]) (defaults : Defaults) :
    (Model.yesIf f).applyAll defaults (answered text) =
      pure [bif b then .text "yes" else .missing] := by
  rw [Model.yesIf, Model.applyAll_rule, h]
  cases b <;> rfl

/-- **A name that is not ordinary lets other columns in.** -/
theorem exists_applyAll_ne (h : ¬ Ordinary name) (hname : name ∈ names)
    (hreserved : Dataset.answerName ∉ names) :
    ∃ (m : Model) (d d' : Dataset), m.mentioned ⊆ names ∧ d.AgreesOn d' names ∧
      ∀ defaults, m.applyAll defaults d ≠ m.applyAll defaults d' := by
  -- The name selects the column of the answers, or nothing, and that column is taken for the
  -- answers: either way its text decides.
  refine ⟨.yesIf (.atom (markedAt name)), answered "marked", answered "", ?_,
    agreesOn_answered hreserved _ _, fun defaults heq => ?_⟩
  · exact List.cons_subset.mpr ⟨hname, List.nil_subset _⟩
  · have hchecks : (answered "marked").check (.atom (markedAt name)) = .ok [true] ∧
        (answered "").check (.atom (markedAt name)) = .ok [false] := by
      rcases namesFor_of_not_ordinary h Dataset.answerName with hone | hnone
      · exact ⟨check_answered_of_selected hone, check_answered_of_selected hone⟩
      · exact ⟨check_answered_of_none hnone, check_answered_of_none hnone⟩
    rw [applyAll_yesIf hchecks.1, applyAll_yesIf hchecks.2] at heq
    cases congrArg Traced.outcome heq

end Other

/-! ### Both evaluators -/

namespace Model

/-- **Only mentioned variables matter.**  On single rows the variables that a model mentions
determine its answer.  On data sets their columns do if the names are ordinary; and of names that
leave the column of the answers alone, these are the only ones of which that holds for every model
and every two data sets. -/
theorem only_mentioned_matters (names : List String) :
    (∀ (m : Model) (row row' : Row) defaults, m.mentioned ⊆ names → row.AgreesOn row' names →
      m.apply defaults row = m.apply defaults row') ∧
    ((∀ name ∈ names, Ordinary name) →
      ∀ (m : Model) (d d' : Dataset) defaults, m.mentioned ⊆ names → d.AgreesOn d' names →
        m.applyAll defaults d = m.applyAll defaults d') ∧
    (Dataset.answerName ∉ names →
      (∀ (m : Model) (d d' : Dataset) defaults, m.mentioned ⊆ names → d.AgreesOn d' names →
        m.applyAll defaults d = m.applyAll defaults d') →
      ∀ name ∈ names, Ordinary name) := by
  refine ⟨fun m row row' defaults hm h => apply_congr h m hm,
    fun hordinary m d d' defaults hm h => applyAll_congr hordinary m hm d d' h,
    fun hreserved hlaw name hname => ?_⟩
  by_contra hnot
  obtain ⟨m, d, d', hm, h, hne⟩ := exists_applyAll_ne hnot hname hreserved
  exact hne (.error []) (hlaw m d d' (.error []) hm h)

/-- One rule on the variable `x`. -/
def markedList : Model :=
  .decisionList .empty [⟨.empty, .atom (markedAt "x"), .constant .empty (.text "A")⟩]
    (.constant .empty (.text "B"))

/-- A column `x` beside a column that has the name of the answers. -/
def besideAnswers : Dataset :=
  .ofTexts (fun name => if name = "x" then some "marked" else some "") ["x", Dataset.answerName]

theorem only_mentioned_matters_besideAnswers :
    (∀ name ∈ ["x"], Ordinary name) ∧ markedList.mentioned ⊆ ["x"] ∧
    Row.AgreesOn [("x", .text "marked")] [("y", .int 1), ("x", .text "marked")] ["x"] ∧
    Dataset.AgreesOn (.ofTexts (fun _ => some "marked") ["x"]) besideAnswers ["x"] ∧
    ∀ defaults, markedList.apply defaults [("x", .text "marked")] =
        markedList.apply defaults [("y", .int 1), ("x", .text "marked")] ∧
      markedList.applyAll defaults (.ofTexts (fun _ => some "marked") ["x"]) =
        markedList.applyAll defaults besideAnswers ∧
      (markedList.applyAll defaults besideAnswers).outcome = .ok [.text "A"] := by
  have hordinary : ∀ name ∈ ["x"], Ordinary name := by
    intro name hname
    rw [List.mem_singleton.mp hname]
    exact .inl (by decide)
  have hmentioned : markedList.mentioned ⊆ ["x"] := List.Subset.refl ["x"]
  have hrow : Row.AgreesOn [("x", .text "marked")] [("y", .int 1), ("x", .text "marked")]
      ["x"] := by
    intro name hname
    rw [List.mem_singleton.mp hname]
    rfl
  have hset : Dataset.AgreesOn (.ofTexts (fun _ => some "marked") ["x"]) besideAnswers ["x"] := by
    refine ⟨List.cons_ne_nil _ _, List.cons_ne_nil _ _, fun name hname => ?_,
      .cons (fun name hname => ?_) .nil⟩
    · rw [List.mem_singleton.mp hname]
      rfl
    · rw [List.mem_singleton.mp hname]
      rfl
  obtain ⟨hrows, hsets, -⟩ := only_mentioned_matters ["x"]
  exact ⟨hordinary, hmentioned, hrow, hset, fun defaults =>
    ⟨hrows _ _ _ defaults hmentioned hrow, hsets hordinary _ _ _ defaults hmentioned hset, rfl⟩⟩

/-- A branch on whether everything is marked. -/
def starBranch : Model :=
  .branch .empty (.conjunction [markedAt "*"]) (.constant .empty (.text "A"))
    (.constant .empty (.text "B"))

/-- A further column changes what a star stands for. -/
theorem not_only_mentioned_matters_of_star :
    ¬ ∀ (m : Model) (d d' : Dataset), d.AgreesOn d' m.mentioned →
      ∀ defaults, m.applyAll defaults d = m.applyAll defaults d' := by
  intro hlaw
  have hset : Dataset.AgreesOn (.ofTexts (fun _ => some "marked") ["x"])
      (.ofTexts (fun name => if name = "x" then some "marked" else some "") ["x", "y"])
      starBranch.mentioned := by
    refine ⟨List.cons_ne_nil _ _, List.cons_ne_nil _ _, fun name hname => ?_,
      .cons (fun name hname => ?_) .nil⟩
    · change name ∈ ["*"] at hname
      rw [List.mem_singleton.mp hname]
      rfl
    · change name ∈ ["*"] at hname
      rw [List.mem_singleton.mp hname]
      rfl
  have heq : (Except.ok [.text "A"] : Except Fault (List Value)) = .ok [.text "B"] :=
    congrArg Traced.outcome (hlaw starBranch _ _ hset (.error []))
  simp at heq

end Model

end Rulebook
