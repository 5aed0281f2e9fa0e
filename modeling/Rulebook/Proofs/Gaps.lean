import Rulebook.Proofs.SliceFaults

/-!
# Data sets — gaps satisfy nothing

A missing value, and a double that is not a number, is a gap: no condition holds of it, whatever the
comparison and the threshold, and a conjunction with a gap below one of its names does not hold.  So
it is on a single row, and for a row of a data set, whose cells are compared by other means.

In a data set a pattern may stand for other columns than the one that has its name; then a gap in
that column is not looked at.

* `Value.IsGap`: missing, or not a number.
* `Schema.ReachesOwn`: a name that does not pass over its own column.
* `gaps_satisfy_nothing`: a row with a gap never satisfies a formula; a row of a data set does not
  either, exactly when no name passes over its own column.
-/

namespace Rulebook

/-- Missing, or a double that is not a number. -/
inductive Value.IsGap : Value → Prop
  | missing : IsGap .missing
  | nan : IsGap (.real .nan)

variable {c : Condition} {f : Formula} {v : Value} {schema : Schema}

/-! ### A single row -/

namespace Condition

theorem holdsOf_of_isGap (h : v.IsGap) : c.holdsOf v ≠ .ok true := by
  cases h with
  | missing =>
      rw [holdsOf_missing]
      exact nofun
  | nan =>
      unfold holdsOf
      cases c.threshold <;> exact nofun

/-! ### A row of cells -/

/-- A cell with a gap is empty or a double, which is compared with numbers only, and with none if it
is not one. -/
theorem holdsIn_of_isGap {t : ColumnType} {cell : Option t.Cell} (h : (t.value cell).IsGap) :
    c.holdsIn t cell = false := by
  cases cell with
  | none => rfl
  | some cell =>
      unfold holdsIn
      cases t with
      | single | double =>
          change Value.IsGap (.real cell) at h
          cases h
          cases c.threshold <;> rfl
      | null => exact nomatch cell
      | integer | text | boolean | categorical | enumeration => exact nomatch h

theorem holdsInCells_of_isGap {cells : schema.Cells}
    (hfind : (schema.row cells).find? c.name = some v) (h : v.IsGap) :
    c.holdsInCells schema cells = false := by
  rw [Schema.holdsInCells_eq]
  rw [Schema.find?_row, Option.map_eq_some_iff] at hfind
  obtain ⟨⟨t, cell⟩, hcell, rfl⟩ := hfind
  rw [hcell, Option.any_some]
  exact holdsIn_of_isGap h

end Condition

/-- **A row with a gap does not satisfy a formula that names it.** -/
theorem Formula.check_of_isGap {row : Row} {name : String} (hname : name ∈ f.names)
    (hfind : row.find? name = some v) (h : v.IsGap) : f.check row ≠ .ok true := by
  intro hcheck
  obtain ⟨c, hc, rfl⟩ := List.mem_map.mp hname
  have hholds := Condition.allHold_eq_true_iff.mp hcheck c hc
  rw [Condition.holds, hfind] at hholds
  exact Condition.holdsOf_of_isGap h hholds

/-! ### Names that pass over their own column -/

namespace Schema

/-- A name that is a column's stands for this column in a data set, perhaps among others, if it can
be read at all. -/
def ReachesOwn (schema : Schema) (name : String) : Prop :=
  name ∈ schema.map (·.name) → ∀ names, schema.namesFor name = .ok names → name ∈ names

/-- Whether a name reaches its own column depends on the names of the columns only. -/
theorem reachesOwn_congr {schema' : Schema} {name : String}
    (h : schema.map (·.name) = schema'.map (·.name)) (hreaches : schema.ReachesOwn name) :
    schema'.ReachesOwn name := by
  intro hmem names hnames
  rw [← namesFor_congr h] at hnames
  rw [← h] at hmem
  exact hreaches hmem names hnames

/-- Only a pattern may pass over its own column. -/
theorem reachesOwn_of_not_isPattern {name : String} (h : isPattern name = false) :
    schema.ReachesOwn name := by
  intro hmem names hnames
  rw [namesFor, h, if_neg Bool.false_ne_true] at hnames
  split_ifs at hnames with hstar <;> cases hnames
  · exact hmem
  · exact List.mem_singleton_self name

end Schema

/-- A condition whose name reaches its own column is one of those that are spelled out. -/
theorem Formula.mem_spelledOut_of_reachesOwn {cs : List Condition} (hc : c ∈ f.conditions)
    (hmem : c.name ∈ schema.map (·.name)) (hreaches : schema.ReachesOwn c.name)
    (h : f.spelledOut schema = .ok cs) : c ∈ cs := by
  have hspelled : ∀ {cs}, c.spelledOut schema = .ok cs → c ∈ cs := by
    intro cs hcs
    obtain ⟨names, hnames, rfl⟩ := Except.map_eq_ok_iff.mp hcs
    exact List.mem_map.mpr ⟨c.name, hreaches hmem names hnames, rfl⟩
  cases f with
  | top => cases hc
  | atom c₀ =>
      obtain rfl := List.mem_singleton.mp hc
      obtain ⟨cs₀, hcs₀, hmatch⟩ := Except.bind_eq_ok_iff.mp h
      match cs₀, hmatch with
      | [c₁], hmatch =>
          cases hmatch
          exact hspelled hcs₀
  | conjunction conditions =>
      obtain ⟨css, hcss, hflat⟩ := Except.bind_eq_ok_iff.mp h
      cases hflat
      obtain ⟨cs₀, hmem₀, hcs₀⟩ := Except.exists_of_mapM_eq_ok hcss c hc
      exact List.mem_flatten.mpr ⟨cs₀, hmem₀, hspelled hcs₀⟩

/-- An atom whose name reaches its own column does not stand for none. -/
theorem Formula.selectsNone_of_reachesOwn (hc : c ∈ f.conditions)
    (hmem : c.name ∈ schema.map (·.name)) (hreaches : schema.ReachesOwn c.name) :
    f.selectsNone schema = false := by
  cases f with
  | atom c₀ =>
      obtain rfl := List.mem_singleton.mp hc
      rw [selectsNone]
      split
      next hnone => exact absurd (hreaches hmem _ hnone) List.not_mem_nil
      next => rfl
  | conjunction | top => rfl

/-! ### A row of a data set -/

/-- Columns that answer a formula without conditions on them answer an atom without a column. -/
theorem Dataset.selectsNone_of_examine (h : examine schema f = .ok none) :
    f.selectsNone schema = true := by
  obtain ⟨_, -, h⟩ := Except.bind_eq_ok_iff.mp h
  by_contra hnone
  rw [if_neg hnone] at h
  obtain ⟨_, -, h⟩ := Except.bind_eq_ok_iff.mp h
  obtain ⟨_, -, h⟩ := Except.bind_eq_ok_iff.mp h
  cases h

/-- What a row of a data set gives a value to is a column. -/
theorem Schema.mem_of_find?_row {cells : schema.Cells} {name : String}
    (h : (schema.row cells).find? name = some v) : name ∈ schema.map (·.name) := by
  rw [find?_row, Option.map_eq_some_iff] at h
  obtain ⟨x, hcell, -⟩ := h
  have htype := schema.type?_eq cells name
  rw [hcell] at htype
  obtain ⟨column, hcolumn, -⟩ := Option.map_eq_some_iff.mp htype
  refine List.mem_map.mpr ⟨column, List.mem_of_find?_eq_some hcolumn, ?_⟩
  simpa using List.find?_some hcolumn

/-- **A row of a data set with a gap does not satisfy a formula that names it**, by a name that
reaches its own column. -/
theorem Dataset.answers_of_isGap {d : Dataset} {values : List Value} {i : Nat} {row : Row}
    {name : String} (hname : name ∈ f.names) (hreaches : d.schema.ReachesOwn name)
    (hanswers : d.answers f = .ok values) (hrow : d.rows[i]? = some row)
    (hfind : row.find? name = some v) (h : v.IsGap) : values[i]? = some (.bool false) := by
  obtain ⟨c, hc, rfl⟩ := List.mem_map.mp hname
  rw [Dataset.rows, List.getElem?_map, Option.map_eq_some_iff] at hrow
  obtain ⟨cells, hcells, rfl⟩ := hrow
  have hmem := Schema.mem_of_find?_row hfind
  have hsize : d.size ≠ 0 :=
    mt List.length_eq_zero_iff.mp (List.ne_nil_of_mem (List.mem_of_getElem? hcells))
  rw [answers_eq hsize] at hanswers
  obtain ⟨_ | cs, hexamine, hanswers⟩ := Except.bind_eq_ok_iff.mp hanswers
  · have hnone := Formula.selectsNone_of_reachesOwn hc hmem hreaches
    rw [selectsNone_of_examine hexamine] at hnone
    cases hnone
  · obtain ⟨-, -, hanswers⟩ := Except.bind_eq_ok_iff.mp hanswers
    cases hanswers
    obtain ⟨-, hspelled⟩ := of_examine_eq_ok hexamine
    have hmem_cs := Formula.mem_spelledOut_of_reachesOwn hc hmem hreaches hspelled
    have hall : cs.all (·.holdsInCells d.schema cells) = false :=
      List.all_eq_false.mpr ⟨c, hmem_cs, by rw [Condition.holdsInCells_of_isGap hfind h]; decide⟩
    rw [List.getElem?_map, hcells, Option.map_some, hall]

/-- A name that passes over its own column is satisfied by a row with a gap there. -/
theorem exists_answers_of_not_reachesOwn {name : String} (h : ¬ schema.ReachesOwn name) :
    ∃ (d : Dataset) (value : Value) (row : Row), d.names = schema.map (·.name) ∧
      d.answers (.conjunction [markedAt name]) = .ok [value] ∧ value ≠ .bool false ∧
      d.rows = [row] ∧ row.find? name = some .missing := by
  obtain ⟨hmem, selected, hselected, hnot⟩ :
      name ∈ schema.map (·.name) ∧ ∃ names, schema.namesFor name = .ok names ∧ name ∉ names := by
    simpa only [Schema.ReachesOwn, not_forall, exists_prop] using h
  have hnames : (Schema.ofTexts (schema.map (·.name))).map (·.name) = schema.map (·.name) := by
    rw [Schema.ofTexts, List.map_map]
    exact List.map_id _
  have hsub : selected ⊆ schema.map (·.name) := by
    rcases Schema.namesFor_subset hselected with rfl | hsub
    · exact absurd (List.mem_singleton_self name) hnot
    · exact hsub
  -- every column but that of the name is marked
  let textOf : String → Option String := fun n => if n = name then none else some "marked"
  have hall : (selected.all fun n => textOf n == some "marked") = true := by
    rw [List.all_eq_true]
    intro n hn
    have hne : n ≠ name := fun heq => hnot (heq ▸ hn)
    simp only [textOf, if_neg hne, beq_self_eq_true]
  rw [← Schema.namesFor_congr hnames] at hselected
  have hcheck : (Dataset.ofTexts textOf _).check _ = _ := check_markedAt hselected hsub
  rw [hall] at hcheck
  obtain ⟨values, hvalues, htrue⟩ := Except.map_eq_ok_iff.mp hcheck
  obtain ⟨value, rfl⟩ : ∃ value, values = [value] :=
    List.length_eq_one_iff.mp (by simpa using congrArg List.length htrue)
  refine ⟨.ofTexts textOf (schema.map (·.name)), value,
    (Schema.ofTexts _).row (Schema.textCells textOf _), ?_, hvalues, ?_, rfl, ?_⟩
  · exact hnames
  · rintro rfl
    cases htrue
  · rw [Schema.find?_row, Schema.cell?_textCells, if_pos hmem]
    simp only [textOf, if_true, Option.map_some]
    rfl

/-- **Gaps satisfy nothing.**  A row with a gap below a name of a formula does not satisfy the
formula.  Nor does a row of a data set, whatever the types of its columns, exactly when every name
that is a column's reaches it: otherwise a pattern passes over its own column, and a row with a gap
there is answered otherwise. -/
theorem gaps_satisfy_nothing (schema : Schema) (mentioned : List String) :
    (∀ (f : Formula) (row : Row) (name : String) (v : Value), name ∈ f.names →
      row.find? name = some v → v.IsGap → f.check row ≠ .ok true) ∧
    ((∀ name ∈ mentioned, schema.ReachesOwn name) ↔
      ∀ (d : Dataset) (f : Formula) (values : List Value), d.names = schema.map (·.name) →
        (∀ name ∈ f.names, name ∈ mentioned) → d.answers f = .ok values →
        ∀ (i : Nat) (row : Row) (name : String) (v : Value), d.rows[i]? = some row →
          name ∈ f.names → row.find? name = some v → v.IsGap →
          values[i]? = some (.bool false)) := by
  refine ⟨fun f row name v => Formula.check_of_isGap, ?_, ?_⟩
  · intro hreaches d f values hnames hmentioned hanswers i row name v hrow hname hfind hgap
    refine Dataset.answers_of_isGap hname ?_ hanswers hrow hfind hgap
    exact Schema.reachesOwn_congr hnames.symm (hreaches name (hmentioned name hname))
  · intro hlaw name hname
    by_contra hnot
    obtain ⟨d, value, row, hnames, hanswers, hne, hrows, hfind⟩ :=
      exists_answers_of_not_reachesOwn hnot
    have hfalse := hlaw d _ _ hnames ?_ hanswers 0 row name _ (by rw [hrows]; rfl)
      (List.mem_singleton_self name) hfind .missing
    · exact hne (Option.some.inj hfalse)
    · intro n hn
      rwa [List.mem_singleton.mp hn]

/-- The second row has a gap below three of the names, one of them a double that is not a number
and is to differ from one. -/
theorem gaps_satisfy_nothing_mixedRows :
    (∃ values, mixedRows.answers mixedFormula = .ok values ∧ values[1]? = some (.bool false)) ∧
      ∀ row, mixedRows.rows[1]? = some row → mixedFormula.check row ≠ .ok true := by
  obtain ⟨hrow, hrows⟩ := gaps_satisfy_nothing mixedRows.schema ["n", "x", "s", "e"]
  have hreaches : ∀ name ∈ ["n", "x", "s", "e"], mixedRows.schema.ReachesOwn name := by
    intro name hname
    refine Schema.reachesOwn_of_not_isPattern ?_
    revert name
    decide
  obtain ⟨values, hvalues⟩ : ∃ values, mixedRows.answers mixedFormula = .ok values := ⟨_, rfl⟩
  have hgap := hrows.mp hreaches mixedRows mixedFormula values rfl (fun _ hname => hname) hvalues
    1 _ "x" (.real .nan) rfl (by decide) rfl .nan
  refine ⟨⟨values, hvalues, hgap⟩, ?_⟩
  rintro _ ⟨⟩
  exact hrow mixedFormula _ "x" (.real .nan) (by decide) rfl .nan

/-- A column whose name is a pattern for another one, and is empty. -/
def besidePattern : Dataset :=
  ⟨[⟨"^b$", .double⟩, ⟨"b", .double⟩], [(none, some (.finite false 1 0), ())]⟩

/-- The condition that the variable of the pattern's name is one. -/
def patternIsOne : Formula := .conjunction [⟨"^b$", .eq, .numeric (.finite false 1 0)⟩]

theorem not_gaps_satisfy_nothing_of_pattern :
    ¬ ∀ (d : Dataset) (f : Formula) (values : List Value), d.schema ≠ [] →
      d.answers f = .ok values → ∀ (i : Nat) (row : Row) (name : String) (v : Value),
        d.rows[i]? = some row → name ∈ f.names → row.find? name = some v → v.IsGap →
        values[i]? = some (.bool false) := by
  intro h
  have hanswers : besidePattern.answers patternIsOne = .ok [.bool true] := by
    rfl
  cases h besidePattern patternIsOne _ (List.cons_ne_nil _ _) hanswers 0 _ "^b$" .missing rfl
    (List.mem_singleton_self _) rfl .missing

end Rulebook
