import Mathlib.Data.List.Nodup
import Rulebook.Dataset.Check
import Rulebook.Proofs.Places

/-!
# Data sets — one cell, two evaluators

Two evaluators decide a condition.  The one of single rows compares the value of its variable; the
one of data sets compares a cell as a double, as a text or as a position among categories.  They
agree on a cell where the condition is `Tame` (`Condition.holdsOf_value`), hence on a row whose
columns pass the examinations of a check (`Condition.holds_row`).
-/

namespace Rulebook

variable {c : Condition} {d : Dataset}

/-! ### Cells and values -/

namespace Condition

/-- A condition that both evaluators can decide alike: its threshold is a number if it is a double,
the integers of 64 bits that it is put to are doubles, and it does not order categories. -/
structure Tame (c : Condition) (d : Dataset) : Prop where
  number : c.threshold ≠ .numeric .nan
  exact : ∀ t ∈ [IntegerType.int64, .uint64], d.schema.type? c.name = some (.integer t) →
    ∀ row ∈ d.rows, ∀ n, row.find? c.name = some (.int n) → n.natAbs ≤ 2 ^ 53
  unordered : ∀ categories, d.schema.type? c.name = some (.enumeration categories) →
    c.op = .eq ∨ c.op = .ne

/-- The kind of a threshold suits a type. -/
def suits (c : Condition) (t : ColumnType) : Prop :=
  match c.threshold with
  | .numeric _ => t.isNumeric
  | .symbolic _ => t.isSymbolic

/-- What passes the examination of types. -/
theorem suits_of_checkType {schema : Schema} {t : ColumnType} (ht : schema.type? c.name = some t)
    (h : c.checkType schema = .ok ()) : t = .null ∨ c.suits t := by
  unfold checkType at h
  unfold suits
  cases hc : c.threshold <;> cases t <;> simp_all [ColumnType.isNumeric, ColumnType.isSymbolic]

/-- An integer that fits in fewer than 64 bits is a double. -/
theorem natAbs_le_of_cell {t : IntegerType} (n : t.Cell) (h : t ∉ [IntegerType.int64, .uint64]) :
    n.val.natAbs ≤ 2 ^ 53 := by
  obtain ⟨n, hn⟩ := n
  have hbound : -(2 ^ 32 : Int) ≤ t.lowest ∧ t.highest ≤ 2 ^ 32 := by
    revert h
    cases t <;> decide
  change n.natAbs ≤ 2 ^ 53
  omega

theorem value_none (t : ColumnType) : t.value none = .missing := by
  cases t <;> rfl

/-- Only a column of integers gives integers. -/
theorem exists_of_value_eq_int {t : ColumnType} {cell : Option t.Cell} {n : Int}
    (h : t.value cell = .int n) : ∃ i : IntegerType, t = .integer i ∧ ∃ m : i.Cell, m.val = n := by
  cases cell with
  | none => rw [value_none] at h; cases h
  | some cell =>
      cases t with
      | integer i => exact ⟨i, rfl, cell, Value.int.inj h⟩
      | null => exact nomatch cell
      | _ => cases h

theorem holdsOf_missing (c : Condition) : c.holdsOf .missing = .ok false := by
  unfold holdsOf
  cases c.threshold <;> rfl

/-- With a number for its threshold, a comparison of doubles is decided by their order. -/
theorem holdsOfDouble_eq (op : Comparison) {x y : Binary64} (hy : y ≠ .nan) :
    holdsOfDouble op x y = (!x.isNaN && op.admits? (x.compare? y)) := by
  by_cases hx : x = .nan
  · subst hx
    rfl
  · obtain ⟨o, ho⟩ := Binary64.exists_compare? hx hy
    rw [holdsOfDouble, rank, ho]
    rfl

/-- A category is at the position of a token exactly when it is the token. -/
theorem compare_position_eq_iff (categories : Categories) (i : Fin categories.texts.length)
    (token : String) :
    (categories.texts.finIdxOf? token).map (compare i.val ·.val) = some .eq ↔
      categories.texts.get i = token := by
  cases h : categories.texts.finIdxOf? token with
  | none =>
      have hnot : token ∉ categories.texts := List.finIdxOf?_eq_none_iff.mp h
      constructor
      · intro hnone
        exact absurd hnone (by simp)
      · intro hget
        exact absurd (hget ▸ List.get_mem categories.texts i) hnot
  | some j =>
      have hj : categories.texts.get j = token := (List.finIdxOf?_eq_some_iff.mp h).1
      rw [Option.map_some, Option.some.injEq, Nat.compare_eq_eq, ← hj, Fin.val_inj]
      exact (List.nodup_iff_injective_get.mp categories.distinct).eq_iff.symm

/-- Whether two things are equal decides an unordered comparison. -/
theorem admits?_congr {op : Comparison} (hop : op = .eq ∨ op = .ne) {o o' : Option Ordering}
    (h : o = some .eq ↔ o' = some .eq) : op.admits? o = op.admits? o' := by
  have key : ∀ o : Option Ordering, Comparison.eq.admits? o = decide (o = some .eq) ∧
      Comparison.ne.admits? o = !decide (o = some .eq) := by
    rintro (_ | _ | _ | _) <;> decide
  rcases hop with rfl | rfl
  · rw [(key o).1, (key o').1, decide_eq_decide.mpr h]
  · rw [(key o).2, (key o').2, decide_eq_decide.mpr h]

/-- **On one cell the two evaluators agree.** -/
theorem holdsOf_value {t : ColumnType} (hsuits : t = .null ∨ c.suits t)
    (hnumber : c.threshold ≠ .numeric .nan) (cell : Option t.Cell)
    (hexact : ∀ n, t.value cell = .int n → n.natAbs ≤ 2 ^ 53)
    (hunordered : ∀ categories, t = .enumeration categories → c.op = .eq ∨ c.op = .ne) :
    c.holdsOf (t.value cell) = .ok (c.holdsIn t cell) := by
  obtain ⟨name, op, threshold⟩ := c
  cases cell with
  | none => rw [value_none, holdsOf_missing]; rfl
  | some cell =>
      cases threshold with
      | numeric x =>
          have hx : x ≠ .nan := fun h => hnumber (h ▸ rfl)
          cases t with
          | integer t =>
              -- an integer of this size is a double, so both compare the same numbers
              have hn := hexact _ rfl
              change (if _ then Except.ok _ else _) = Except.ok (holdsOfDouble op _ x)
              rw [Binary64.inRange_of_natAbs_le hn, if_pos rfl, holdsOfDouble_eq op hx,
                Binary64.isNaN_ofInt_of_natAbs_le hn, Binary64.compare?_ofInt_of_natAbs_le hn]
              rfl
          | single => exact congrArg Except.ok (holdsOfDouble_eq op hx).symm
          | double => exact congrArg Except.ok (holdsOfDouble_eq op hx).symm
          | null => exact nomatch cell
          | _ => exact absurd hsuits (by simp [suits, ColumnType.isNumeric])
      | symbolic token =>
          cases t with
          | text => rfl
          | categorical => rfl
          | enumeration categories =>
              -- one compares texts and the other places, which are equal together
              have htext : some (compare (categories.texts.get cell) token) = some .eq ↔
                  categories.texts.get cell = token := by
                rw [Option.some.injEq, Std.compare_eq_iff_eq]
              exact congrArg Except.ok (admits?_congr (hunordered _ rfl)
                (htext.trans (compare_position_eq_iff categories cell token).symm))
          | null => exact nomatch cell
          | _ => exact absurd hsuits (by simp [suits, ColumnType.isSymbolic])

end Condition

/-! ### Rows -/

/-- The cell of a row in the first column with a name, and the type of that column. -/
def Schema.cell? : (schema : Schema) → schema.Cells → String →
    Option ((t : ColumnType) × Option t.Cell)
  | [], _, _ => none
  | column :: columns, (cell, cells), name =>
    if column.name = name then some ⟨column.type, cell⟩ else cell? columns cells name

namespace Schema

variable {name : String}

theorem type?_eq (schema : Schema) (cells : schema.Cells) (name : String) :
    schema.type? name = (schema.cell? cells name).map (·.1) := by
  induction schema with
  | nil => rfl
  | cons column columns ih =>
      obtain ⟨cell, cells⟩ := cells
      by_cases h : column.name = name
      · simp [type?, cell?, h]
      · have hrest := ih cells
        rw [type?] at hrest ⊢
        rw [List.find?_cons_of_neg (by simpa using h), hrest, cell?, if_neg h]

theorem find?_row (schema : Schema) (cells : schema.Cells) (name : String) :
    (schema.row cells).find? name = (schema.cell? cells name).map fun x => x.1.value x.2 := by
  induction schema with
  | nil => rfl
  | cons column columns ih =>
      obtain ⟨cell, cells⟩ := cells
      by_cases h : column.name = name
      · simp [row, Row.find?, cell?, h]
      · have hne : (name == column.name) = false := by simpa using Ne.symm h
        have hrest := ih cells
        rw [Row.find?] at hrest ⊢
        rw [row, List.lookup_cons, hne, cell?, if_neg h]
        exact hrest

theorem holdsInCells_eq (c : Condition) (schema : Schema) (cells : schema.Cells) :
    c.holdsInCells schema cells = (schema.cell? cells c.name).any fun x => c.holdsIn x.1 x.2 := by
  induction schema with
  | nil => rfl
  | cons column columns ih =>
      obtain ⟨cell, cells⟩ := cells
      by_cases h : column.name = c.name
      · simp [Condition.holdsInCells, cell?, h]
      · simp only [Condition.holdsInCells, cell?, h, if_false]
        exact ih cells

end Schema

namespace Condition

/-- A condition that passes the examinations has one answer on a row. -/
theorem holds_row (htype : c.checkType d.schema = .ok ()) (hpresence :
    c.checkPresence d.schema = .ok ()) (htame : c.Tame d) {cells : d.schema.Cells}
    (hmem : cells ∈ d.records) :
    c.holds (d.schema.row cells) = .ok (c.holdsInCells d.schema cells) := by
  have htype? := d.schema.type?_eq cells c.name
  have hfind := d.schema.find?_row cells c.name
  rw [Schema.holdsInCells_eq]
  cases hcell : d.schema.cell? cells c.name with
  | none =>
      rw [checkPresence, htype?, hcell] at hpresence
      exact absurd hpresence (by simp)
  | some x =>
      obtain ⟨t, cell⟩ := x
      rw [hcell, Option.map_some] at htype? hfind
      rw [holds, hfind, Option.any_some]
      refine holdsOf_value (suits_of_checkType htype? htype) htame.number cell ?_ ?_
      · intro n hn
        have hrow : (d.schema.row cells).find? c.name = some (.int n) := by rw [hfind, hn]
        obtain ⟨i, rfl, m, rfl⟩ := exists_of_value_eq_int hn
        by_cases hwide : i ∈ [IntegerType.int64, .uint64]
        · exact htame.exact i hwide htype? _ (List.mem_map_of_mem hmem) _ hrow
        · exact natAbs_le_of_cell m hwide
      · intro categories h
        exact htame.unordered categories (h ▸ htype?)

theorem allHold_singleton (c : Condition) (row : Row) : allHold [c] row = c.holds row := by
  rw [allHold]
  rcases c.holds row with fault | _ | _ <;> rfl

/-- Conditions that are each answered are answered together. -/
theorem allHold_eq {cs : List Condition} {row : Row} {holdsOn : Condition → Bool}
    (h : ∀ c ∈ cs, c.holds row = .ok (holdsOn c)) : allHold cs row = .ok (cs.all holdsOn) := by
  induction cs with
  | nil => rfl
  | cons c cs ih =>
      rw [List.forall_mem_cons] at h
      rw [allHold, h.1, List.all_cons]
      cases holdsOn c with
      | false => rfl
      | true => exact ih h.2

theorem allHold_eq_true_iff {cs : List Condition} {row : Row} :
    allHold cs row = .ok true ↔ ∀ c ∈ cs, c.holds row = .ok true := by
  induction cs with
  | nil => exact ⟨fun _ => List.forall_mem_nil _, fun _ => rfl⟩
  | cons c cs ih =>
      rw [allHold, List.forall_mem_cons, ← ih]
      rcases c.holds row with fault | _ | _ <;> simp

theorem exists_allHold_eq {cs : List Condition} {row : Row}
    (h : ∀ c ∈ cs, ∃ b, c.holds row = .ok b) : ∃ b, allHold cs row = .ok b := by
  choose! holdsOn hholds using h
  exact ⟨_, allHold_eq hholds⟩

end Condition

end Rulebook
