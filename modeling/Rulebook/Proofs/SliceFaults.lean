import Rulebook.Proofs.Mentioned
import Rulebook.Proofs.Slices

/-!
# Data sets — slicing commutes with checking

A slice with a row fails as the whole set does, for all that a check looks at before the rows comes
from the columns (`Dataset.examine`).  The exception is a number that is to be compared with texts:
whether they are numerals is seen from the rows, and a slice may leave out those that are not.  It
takes a star or a pattern that selects a column of another name, since for a column's own name the
type refuses a number already (`Condition.readsAsNumber_of_checkType`).

* `Dataset.Picks`: what stands in a list at some positions.
* `Dataset.check_eq_error_iff_of_subset`: when some of the rows fail as all do.
* `Dataset.slice_commutes`: the rows, the slices, the answers and the faults of a slice.
-/

namespace Rulebook

variable {α : Type} {c : Condition} {d : Dataset} {f : Formula} {fault : Fault} {name : String}
  {schema : Schema} {positions : List Nat}

/-! ### What the columns decide -/

namespace Dataset

/-- What a check finds out from the columns: the conditions on single columns that a formula stands
for, or that it is an atom without a column, which the column of the answers answers. -/
def examine (schema : Schema) (f : Formula) : Except Fault (Option (List Condition)) := do
  f.conditions.forM (·.checkType schema)
  if f.selectsNone schema then
    if (schema.type? answerName).isNone then throw (.absentColumn answerName)
    return none
  let conditions ← f.spelledOut schema
  conditions.forM (·.checkPresence schema)
  return some conditions

/-- What a check does with the rows. -/
def answersOf (d : Dataset) : Option (List Condition) → Except Fault (List Value)
  | none => .ok (d.rows.map fun row => (row.find? answerName).getD .missing)
  | some cs => do
    cs.forM (·.checkCells d)
    return d.records.map fun cells => .bool (cs.all (·.holdsInCells d.schema cells))

theorem answers_eq (h : d.size ≠ 0) : d.answers f = examine d.schema f >>= d.answersOf := by
  unfold answers examine
  rw [if_neg h]
  simp only [bind_assoc]
  refine congrArg _ (funext fun _ => ?_)
  by_cases hnone : f.selectsNone d.schema = true
  · rw [if_pos hnone, if_pos hnone]
    cases d.schema.type? answerName <;> rfl
  · rw [if_neg hnone, if_neg hnone]
    simp only [bind_assoc]
    rfl

/-- A set with a row fails over its columns or over the cells below them. -/
theorem check_eq_error_iff (h : d.size ≠ 0) :
    d.check f = .error fault ↔ examine d.schema f = .error fault ∨
      ∃ cs, examine d.schema f = .ok (some cs) ∧ cs.forM (·.checkCells d) = .error fault := by
  rw [check, Except.map_eq_error_iff, answers_eq h, Except.bind_eq_error_iff]
  refine or_congr_right ⟨?_, ?_⟩
  · rintro ⟨_ | cs, hcs, hrows⟩
    · cases hrows
    · rcases Except.bind_eq_error_iff.mp hrows with hcells | ⟨_, -, h⟩
      · exact ⟨cs, hcs, hcells⟩
      · cases h
  · rintro ⟨cs, hcs, hcells⟩
    exact ⟨some cs, hcs, Except.bind_eq_error_iff.mpr (.inl hcells)⟩

end Dataset

/-! ### Faults of the columns -/

theorem Condition.checkType_ne_noNumeral : c.checkType schema ≠ .error (.noNumeral name) := by
  intro h
  unfold checkType at h
  split at h
  case h_3 =>
    dsimp only at h
    split_ifs at h
    cases h
  all_goals cases h

theorem Condition.spelledOut_ne_noNumeral : c.spelledOut schema ≠ .error (.noNumeral name) := by
  intro h
  replace h := Except.map_eq_error_iff.mp h
  unfold Schema.namesFor at h
  dsimp only at h
  split_ifs at h
  split at h <;> cases h

theorem Condition.checkPresence_ne_noNumeral :
    c.checkPresence schema ≠ .error (.noNumeral name) := by
  intro h
  unfold checkPresence at h
  split_ifs at h
  cases h

theorem Formula.spelledOut_ne_noNumeral : f.spelledOut schema ≠ .error (.noNumeral name) := by
  intro h
  cases f with
  | top => cases h
  | atom c =>
      rcases Except.bind_eq_error_iff.mp h with hc | ⟨cs, -, hmatch⟩
      · exact c.spelledOut_ne_noNumeral hc
      · match cs, hmatch with
        | [], hmatch => cases hmatch
        | _ :: _ :: _, hmatch => cases hmatch
  | conjunction cs =>
      rcases Except.bind_eq_error_iff.mp h with hcs | ⟨css, -, hflat⟩
      · obtain ⟨c, -, hc⟩ := Except.exists_of_mapM_eq_error hcs
        exact c.spelledOut_ne_noNumeral hc
      · cases hflat

namespace Dataset

/-- The columns alone do not tell that a text is no numeral. -/
theorem examine_ne_noNumeral : examine schema f ≠ .error (.noNumeral name) := by
  intro h
  rcases Except.bind_eq_error_iff.mp h with htype | ⟨_, -, h⟩
  · obtain ⟨_, c, _, -, -, hc⟩ := Except.forM_eq_error_iff.mp htype
    exact c.checkType_ne_noNumeral hc
  by_cases hnone : f.selectsNone schema = true
  · rw [if_pos hnone] at h
    split at h <;> cases h
  rw [if_neg hnone] at h
  rcases Except.bind_eq_error_iff.mp h with hspelled | ⟨cs, -, h⟩
  · exact f.spelledOut_ne_noNumeral hspelled
  rcases Except.bind_eq_error_iff.mp h with hpresence | ⟨_, -, h⟩
  · obtain ⟨_, c, _, -, -, hc⟩ := Except.forM_eq_error_iff.mp hpresence
    exact c.checkPresence_ne_noNumeral hc
  · cases h

/-- Conditions that the columns are examined for come from a formula whose thresholds suit them. -/
theorem of_examine_eq_ok {cs : List Condition} (h : examine schema f = .ok (some cs)) :
    (∀ c ∈ f.conditions, c.checkType schema = .ok ()) ∧ f.spelledOut schema = .ok cs := by
  obtain ⟨_, htype, h⟩ := Except.bind_eq_ok_iff.mp h
  refine ⟨Except.forM_eq_ok_iff.mp htype, ?_⟩
  by_cases hnone : f.selectsNone schema = true
  · rw [if_pos hnone] at h
    split at h <;> cases h
  rw [if_neg hnone] at h
  obtain ⟨cs', hspelled, h⟩ := Except.bind_eq_ok_iff.mp h
  obtain ⟨_, -, h⟩ := Except.bind_eq_ok_iff.mp h
  cases h
  exact hspelled

end Dataset

/-! ### Texts that are no numerals -/

namespace Condition

theorem checkCells_eq_noNumeral_iff :
    c.checkCells d = .error (.noNumeral name) ↔
      (∃ x, c.threshold = .numeric x) ∧ c.name = name ∧
        ∃ cells ∈ d.records, readsAsNumber name d.schema cells = false := by
  unfold checkCells
  cases hc : c.threshold with
  | numeric x =>
      by_cases hall : d.records.all (readsAsNumber c.name d.schema) = true
      · simp only [hall, if_true, reduceCtorEq, false_iff, not_and]
        rintro - rfl ⟨cells, hcells, hreads⟩
        rw [List.all_eq_true.mp hall cells hcells] at hreads
        cases hreads
      · have hsome : ∃ cells ∈ d.records, readsAsNumber c.name d.schema cells = false := by
          simpa using hall
        simp only [if_neg hall, Except.error.injEq, Fault.noNumeral.injEq]
        constructor
        · rintro rfl
          exact ⟨⟨x, rfl⟩, rfl, hsome⟩
        · exact fun h => h.2.1
  | symbolic token =>
      simp only [reduceCtorEq, exists_false, false_and, iff_false]
      repeat' split
      all_goals exact fun h => nomatch h

/-- Any other fault of the cells comes from the type of the column. -/
theorem checkCells_of_error (h : c.checkCells d = .error fault)
    (hnot : ∀ name, fault ≠ .noNumeral name) (records : List d.schema.Cells) :
    c.checkCells ⟨d.schema, records⟩ = .error fault := by
  unfold checkCells at h ⊢
  cases hc : c.threshold with
  | numeric x =>
      simp only [hc] at h
      split at h
      · cases h
      · cases h
        exact absurd rfl (hnot c.name)
  | symbolic token => rwa [hc] at h

/-- A number that the type of its column allows finds no texts there. -/
theorem readsAsNumber_of_checkType (h : c.checkType schema = .ok ())
    (hnumber : ∃ x, c.threshold = .numeric x) (cells : schema.Cells) :
    readsAsNumber c.name schema cells = true := by
  obtain ⟨x, hx⟩ := hnumber
  rw [readsAsNumber_eq]
  cases hcell : schema.cell? cells c.name with
  | none => rfl
  | some cell =>
      obtain ⟨t, cell⟩ := cell
      have ht : schema.type? c.name = some t := by
        rw [Schema.type?_eq schema cells, hcell]
        rfl
      have hsuits := suits_of_checkType ht h
      rw [suits, hx] at hsuits
      cases cell with
      | none =>
          cases t with
          | enumeration categories => exact absurd hsuits (by simp [ColumnType.isNumeric])
          | _ => rfl
      | some cell =>
          cases t with
          | null => exact Empty.elim cell
          | integer t => rfl
          | single => rfl
          | double => rfl
          | _ => exact absurd hsuits (by simp [ColumnType.isNumeric])

end Condition

/-! ### Slices -/

namespace Dataset

/-- The list `bs` has what stands in `as` at the positions, in their order. -/
def Picks (as : List α) (positions : List Nat) (bs : List α) : Prop :=
  List.Forall₂ (fun p b => as[p]? = some b) positions bs

theorem picks_filterMap {as : List α} (h : ∀ p ∈ positions, p < as.length) :
    Picks as positions (positions.filterMap (as[·]?)) := by
  induction positions with
  | nil => exact .nil
  | cons p positions ih =>
      obtain ⟨hp, hpositions⟩ := List.forall_mem_cons.mp h
      rw [List.filterMap_cons_some (List.getElem?_eq_getElem hp)]
      exact .cons (List.getElem?_eq_getElem hp) (ih hpositions)

theorem Picks.eq_filterMap {as bs : List α} (h : Picks as positions bs) :
    bs = positions.filterMap (as[·]?) := by
  induction h with
  | nil => rfl
  | cons hp _ ih => rw [List.filterMap_cons_some hp, ← ih]

/-- Positions from outside that are there, and can be written, select the slice at them. -/
theorem select?_eq_ok (hp : ∀ p ∈ positions, p < d.size)
    (hwritable : ∀ p ∈ positions, p < power 2 32) :
    d.select? (positions.map Int.ofNat) = .ok (d.slice positions) := by
  have hrefused : ((positions.map Int.ofNat).any fun i =>
      decide (i < 0) || decide ((power 2 32 : Int) ≤ i)) = false := by
    rw [List.any_map, List.any_eq_false]
    intro p hmem
    have hlt := hwritable p hmem
    simp only [Function.comp_apply, Int.ofNat_eq_natCast, Bool.or_eq_true, decide_eq_true_eq]
    omega
  have hthere : ((positions.map Int.ofNat).any fun i => decide ((d.size : Int) ≤ i)) = false := by
    rw [List.any_map, List.any_eq_false]
    intro p hmem
    have hlt := hp p hmem
    simp only [Function.comp_apply, Int.ofNat_eq_natCast, decide_eq_true_eq]
    omega
  have hpositions : (positions.map Int.ofNat).map Int.toNat = positions := by
    rw [List.map_map]
    exact List.map_id _
  simp only [select?, hrefused, hthere, hpositions, Bool.false_eq_true, and_false, if_false]

/-- **When some of the rows fail as all do.**  A fault of a set is one of any of its rows, unless it
is that a text is no numeral: then such a text has to be among them. -/
theorem check_eq_error_iff_of_subset {records : List d.schema.Cells} (hsub : records ⊆ d.records)
    (hne : records ≠ []) (h : d.check f = .error fault) :
    (⟨d.schema, records⟩ : Dataset).check f = .error fault ↔
      ∀ name, fault = .noNumeral name →
        ∃ cells ∈ records, Condition.readsAsNumber name d.schema cells = false := by
  have hsize : d.size ≠ 0 := by
    intro hsize
    rw [check_of_size_eq_zero hsize] at h
    cases h
  have hrecords : (⟨d.schema, records⟩ : Dataset).size ≠ 0 := mt List.length_eq_zero_iff.mp hne
  constructor
  · intro hfails name hname
    subst hname
    rcases (check_eq_error_iff hrecords).mp hfails with hcolumns | ⟨cs, -, hcells⟩
    · exact absurd hcolumns examine_ne_noNumeral
    · obtain ⟨_, c, _, -, -, hc⟩ := Except.forM_eq_error_iff.mp hcells
      exact (Condition.checkCells_eq_noNumeral_iff.mp hc).2.2
  · intro hreads
    refine (check_eq_error_iff hrecords).mpr ?_
    rcases (check_eq_error_iff hsize).mp h with hcolumns | ⟨cs, hcs, hcells⟩
    · exact .inl hcolumns
    · -- the condition that fails first on all rows does so on some of them
      obtain ⟨before, c, after, hsplit, hbefore, hc⟩ := Except.forM_eq_error_iff.mp hcells
      refine .inr ⟨cs, hcs, Except.forM_eq_error_iff.mpr ⟨before, c, after, hsplit, ?_, ?_⟩⟩
      · intro b hb
        exact checkCells_of_subset (hbefore b hb) hsub
      · by_cases hnumeral : ∃ name, fault = .noNumeral name
        · obtain ⟨name, rfl⟩ := hnumeral
          obtain ⟨hnumber, hname, -⟩ := Condition.checkCells_eq_noNumeral_iff.mp hc
          exact Condition.checkCells_eq_noNumeral_iff.mpr ⟨hnumber, hname, hreads name rfl⟩
        · exact Condition.checkCells_of_error hc (not_exists.mp hnumeral) records

/-- Where the names select their own columns, no text is met that is no numeral. -/
theorem check_ne_noNumeral (hown : ∀ c ∈ f.conditions, d.schema.SelectsOwn c.name) :
    d.check f ≠ .error (.noNumeral name) := by
  intro h
  by_cases hsize : d.size = 0
  · rw [check_of_size_eq_zero hsize] at h
    cases h
  rcases (check_eq_error_iff hsize).mp h with hcolumns | ⟨cs, hcs, hcells⟩
  · exact examine_ne_noNumeral hcolumns
  · obtain ⟨htype, hspelled⟩ := of_examine_eq_ok hcs
    obtain ⟨before, c, after, rfl, -, hc⟩ := Except.forM_eq_error_iff.mp hcells
    obtain ⟨hnumber, rfl, cells, -, hreads⟩ := Condition.checkCells_eq_noNumeral_iff.mp hc
    have hmem : c ∈ f.conditions := (Formula.mem_spelledOut_iff hown hspelled c).mp (by simp)
    rw [Condition.readsAsNumber_of_checkType (htype c hmem) hnumber] at hreads
    cases hreads

/-- What is asked of the slice of a data set at some of its positions. -/
structure SlicesTo (d : Dataset) (positions : List Nat) (s : Dataset) : Prop where
  size : s.size = positions.length
  schema : s.schema = d.schema
  /-- The rows are those at the positions. -/
  rows : Picks d.rows positions s.rows
  /-- It is what positions from outside select. -/
  select : (∀ p ∈ positions, p < power 2 32) → d.select? (positions.map Int.ofNat) = .ok s
  /-- Its own slices are slices of the set at the positions that stand at theirs. -/
  slice : ∀ inner outer, Picks positions inner outer → s.slice inner = d.slice outer
  /-- It is answered as the set is at the positions. -/
  check : ∀ f held, d.check f = .ok held →
    ∃ picked, s.check f = .ok picked ∧ Picks held positions picked
  /-- It fails as the set does, unless no text in it is the one that is no numeral. -/
  fails : positions ≠ [] → ∀ f fault, d.check f = .error fault →
    (s.check f = .error fault ↔ ∀ name, fault = .noNumeral name →
      ∃ p ∈ positions, ∃ cells, d.records[p]? = some cells ∧
        Condition.readsAsNumber name d.schema cells = false)
  /-- It fails as the set does on names that select their own columns. -/
  fails_own : positions ≠ [] → ∀ f fault, (∀ c ∈ f.conditions, d.schema.SelectsOwn c.name) →
    d.check f = .error fault → s.check f = .error fault

/-- **Slicing commutes.**  The slice at positions of the set has their rows, slices and answers, and
it fails where the set does. -/
theorem slice_commutes (hd : d.schema ≠ []) (hp : ∀ p ∈ positions, p < d.size) :
    SlicesTo d positions (d.slice positions) := by
  have hrecords : positions ≠ [] → positions.filterMap (d.records[·]?) ≠ [] := by
    intro hne
    have hlength : (positions.filterMap (d.records[·]?)).length = positions.length := by
      have hsize := size_slice hd hp
      rwa [slice_eq hd] at hsize
    rwa [← List.length_pos_iff, hlength, List.length_pos_iff]
  have hsub := filterMap_getElem?_subset d.records positions
  exact {
    size := size_slice hd hp
    schema := schema_slice d positions
    rows := by
      rw [rows_slice hd]
      exact picks_filterMap (by rwa [length_rows])
    select := select?_eq_ok hp
    slice := by
      intro inner outer hpicks
      rw [slice_slice hd hp, hpicks.eq_filterMap]
    check := by
      intro f held hcheck
      refine ⟨_, check_slice hd hcheck positions, picks_filterMap ?_⟩
      rwa [length_of_check hcheck]
    fails := by
      intro hne f fault hcheck
      rw [slice_eq hd, check_eq_error_iff_of_subset hsub (hrecords hne) hcheck]
      simp only [List.mem_filterMap]
      constructor
      · intro h name hname
        obtain ⟨cells, ⟨p, hmem, hcells⟩, hreads⟩ := h name hname
        exact ⟨p, hmem, cells, hcells, hreads⟩
      · intro h name hname
        obtain ⟨p, hmem, cells, hcells, hreads⟩ := h name hname
        exact ⟨cells, ⟨p, hmem, hcells⟩, hreads⟩
    fails_own := by
      intro hne f fault hown hcheck
      rw [slice_eq hd, check_eq_error_iff_of_subset hsub (hrecords hne) hcheck]
      intro name hname
      exact absurd (hname ▸ hcheck) (check_ne_noNumeral hown) }

/-- A number for the text among the columns. -/
def textAsNumber : Formula := .atom ⟨"s", .ge, .numeric (.finite false 1 0)⟩

/-- Three rows of two, the second of them twice. -/
theorem slice_commutes_mixedRows :
    SlicesTo mixedRows [1, 0, 1] (mixedRows.slice [1, 0, 1]) ∧
      (mixedRows.slice [1, 0, 1]).check mixedFormula = .ok [false, true, false] ∧
      (mixedRows.slice [1, 0, 1]).check textAsNumber =
        .error (.wrongKind "s" (.column .text) (.numeric (.finite false 1 0))) := by
  have hslice : SlicesTo mixedRows [1, 0, 1] (mixedRows.slice [1, 0, 1]) :=
    slice_commutes (List.cons_ne_nil _ _) (by decide)
  obtain ⟨picked, hpicked, hpicks⟩ := hslice.check mixedFormula [true, false] rfl
  have hown : ∀ c ∈ textAsNumber.conditions, mixedRows.schema.SelectsOwn c.name := by
    intro c hc
    rw [List.mem_singleton.mp hc]
    exact Schema.selectsOwn_of_standsForOne (by decide)
  refine ⟨hslice, ?_, hslice.fails_own (List.cons_ne_nil _ _) textAsNumber _ hown rfl⟩
  rw [hpicked, hpicks.eq_filterMap]
  rfl

/-- A column of a numeral and of a text that is none. -/
def numeralAndText : Dataset := ⟨[⟨"c", .text⟩], [(some "1", ()), (some "a", ())]⟩

/-- A star stands for a column of texts, whose type is not compared with the number.  The row with
the numeral is answered where both rows together fail. -/
theorem not_slice_commutes_of_star :
    ¬ ∀ (d : Dataset) (positions : List Nat) (f : Formula) (fault : Fault), d.schema ≠ [] →
      (∀ p ∈ positions, p < d.size) → positions ≠ [] → d.check f = .error fault →
      (d.slice positions).check f = .error fault := by
  intro h
  have hfails : numeralAndText.check starIsOne = .error (.noNumeral "c") := rfl
  have hanswered : (numeralAndText.slice [0]).check starIsOne = .ok [true] := rfl
  have heq := h numeralAndText [0] starIsOne _ (List.cons_ne_nil _ _) (by decide)
    (List.cons_ne_nil _ _) hfails
  cases hanswered.symm.trans heq

end Dataset

end Rulebook
