import Rulebook.Proofs.CellCheck
import Rulebook.Proofs.Checking

/-!
# Data sets — a check of all rows is a check of each row

The check of a single row goes through the conditions up to the first that fails; the check of a
data set looks at every condition.  Where the evaluators agree on a row, the two checks differ in
what a name stands for: in a data set a star and a pattern stand for columns of other names, on a
single row a name stands for itself.

* `Schema.SelectsOwn`: a name that stands for its own column in a data set.
* `Dataset.rows_of_check`: where every name does, an answered check is the check of each row.
* `check_rows_iff_selectsOwn`: no other names will do.
-/

namespace Rulebook

variable {c : Condition} {f : Formula} {d : Dataset}

/-! ### Names -/

namespace Schema

/-- Among the columns of a data set a name selects its own column and no other, if it can be read
at all. -/
def SelectsOwn (schema : Schema) (name : String) : Prop :=
  ∀ names, schema.namesFor name = .ok names → names ≠ [] ∧ ∀ n ∈ names, n = name

variable {schema schema' : Schema} {name : String} {names : List String}

/-- Only a star and a pattern may select other columns. -/
theorem selectsOwn_of_standsForOne (h : standsForOne name) : schema.SelectsOwn name := by
  intro names hnames
  simp only [standsForOne, Bool.and_eq_true, decide_eq_true_eq, Bool.not_eq_true'] at h
  rw [namesFor, if_neg h.1, h.2, if_neg Bool.false_ne_true, Except.ok.injEq] at hnames
  subst hnames
  exact ⟨List.cons_ne_nil _ _, fun n hn => List.mem_singleton.mp hn⟩

/-- What a name selects depends on the names of the columns only. -/
theorem namesFor_congr (h : schema.map (·.name) = schema'.map (·.name)) (name : String) :
    schema.namesFor name = schema'.namesFor name := by
  rw [namesFor, namesFor, h]

/-- A name that does not stand for itself selects columns that are there. -/
theorem namesFor_subset (h : schema.namesFor name = .ok names) :
    names = [name] ∨ names ⊆ schema.map (·.name) := by
  rw [namesFor] at h
  split_ifs at h with hstar hpattern
  · cases h
    exact .inr (List.Subset.refl _)
  · split at h
    · cases h
      exact .inr fun _ => List.mem_of_mem_filter
    · cases h
  · cases h
    exact .inl rfl

end Schema

namespace Condition

variable {schema : Schema}

/-- A condition on a name that selects its own column is spelled out as itself. -/
theorem spelledOut_of_selectsOwn (hown : schema.SelectsOwn c.name) {cs : List Condition}
    (h : c.spelledOut schema = .ok cs) : cs ≠ [] ∧ ∀ c' ∈ cs, c' = c := by
  rw [spelledOut] at h
  cases hnames : schema.namesFor c.name with
  | error e => rw [hnames] at h; cases h
  | ok names =>
      rw [hnames] at h
      cases h
      obtain ⟨hne, hall⟩ := hown names hnames
      refine ⟨by simpa using hne, fun c' hc' => ?_⟩
      obtain ⟨n, hn, rfl⟩ := List.mem_map.mp hc'
      rw [hall n hn]

end Condition

/-- A name that selects its own column does not stand for none. -/
theorem Formula.selectsNone_eq_false_of_selectsOwn {schema : Schema}
    (hown : ∀ c ∈ f.conditions, schema.SelectsOwn c.name) : f.selectsNone schema = false := by
  cases f with
  | atom c =>
      have hown₀ := hown c (List.mem_singleton_self _)
      rw [selectsNone]
      split
      next hnames => exact absurd rfl (hown₀ _ hnames).1
      next => rfl
  | conjunction cs => rfl
  | top => rfl

/-- A formula whose names select their own columns is spelled out in its own conditions. -/
theorem Formula.mem_spelledOut_iff {schema : Schema} {cs : List Condition}
    (hown : ∀ c ∈ f.conditions, schema.SelectsOwn c.name) (h : f.spelledOut schema = .ok cs)
    (c : Condition) : c ∈ cs ↔ c ∈ f.conditions := by
  cases f with
  | top => cases h; exact Iff.rfl
  | atom c₀ =>
      obtain ⟨cs₀, hcs₀, hmatch⟩ := Except.bind_eq_ok_iff.mp h
      have hown₀ := hown c₀ (List.mem_singleton_self _)
      obtain ⟨-, hall⟩ := Condition.spelledOut_of_selectsOwn hown₀ hcs₀
      match cs₀, hmatch with
      | [c₁], hmatch =>
          cases hmatch
          rw [hall c₁ (List.mem_singleton_self _)]
          exact Iff.rfl
  | conjunction conditions =>
      obtain ⟨css, hcss, hflat⟩ := Except.bind_eq_ok_iff.mp h
      cases hflat
      replace hcss := Except.mapM_eq_ok_iff.mp hcss
      change _ ↔ c ∈ conditions
      change ∀ c ∈ conditions, _ at hown
      clear h
      -- each condition is spelled out as copies of itself, and at least one
      induction hcss with
      | nil => exact Iff.rfl
      | cons hhead _ ih =>
          rw [List.forall_mem_cons] at hown
          obtain ⟨hne, hall⟩ := Condition.spelledOut_of_selectsOwn hown.1 hhead
          rw [List.flatten_cons, List.mem_append, List.mem_cons, ih hown.2]
          obtain ⟨c₁, hc₁⟩ := List.exists_mem_of_ne_nil _ hne
          refine or_congr_left ⟨hall c, fun heq => ?_⟩
          rw [heq, ← hall c₁ hc₁]
          exact hc₁

/-- Where the names select their own columns, an answered check is the check of each row. -/
theorem Dataset.rows_of_check (hown : ∀ c ∈ f.conditions, d.schema.SelectsOwn c.name)
    (htame : ∀ c ∈ f.conditions, c.Tame d) {held : List Bool} (h : d.check f = .ok held) :
    d.rows.map f.check = held.map .ok := by
  by_cases hsize : d.size = 0
  · have hrecords : d.records = [] := List.length_eq_zero_iff.mp hsize
    rw [check_of_size_eq_zero hsize, Except.ok.injEq] at h
    rw [← h, rows, hrecords]
    rfl
  · obtain ⟨htype, cs, hcs, hpresence, -, rfl⟩ :=
      (check_eq_ok_iff hsize (Formula.selectsNone_eq_false_of_selectsOwn hown)).mp h
    have hmem := Formula.mem_spelledOut_iff hown hcs
    rw [rows, List.map_map, List.map_map]
    refine List.map_congr_left fun cells hcells => ?_
    have hall : f.check (d.schema.row cells) =
        .ok (f.conditions.all (·.holdsInCells d.schema cells)) :=
      Condition.allHold_eq fun c hc =>
        c.holds_row (htype c hc) (hpresence c ((hmem c).mpr hc)) (htame c hc) hcells
    have hsame : (f.conditions.all (·.holdsInCells d.schema cells)) =
        cs.all (·.holdsInCells d.schema cells) := by
      rw [Bool.eq_iff_iff, List.all_eq_true, List.all_eq_true]
      exact forall_congr' fun c => imp_congr_left (hmem c).symm
    exact hall.trans (congrArg Except.ok hsame)

/-! ### Names that select other columns -/

/-- Columns of texts with the given names. -/
def Schema.ofTexts (names : List String) : Schema := names.map (⟨·, .text⟩)

/-- The row that has the given text, if any, below each name. -/
def Schema.textCells (textOf : String → Option String) :
    (names : List String) → (Schema.ofTexts names).Cells
  | [] => ()
  | name :: names => (textOf name, textCells textOf names)

theorem Schema.cell?_textCells (textOf : String → Option String) (names : List String)
    (name : String) :
    (ofTexts names).cell? (textCells textOf names) name =
      if name ∈ names then some ⟨.text, textOf name⟩ else none := by
  induction names with
  | nil => rfl
  | cons first names ih =>
      change (if first = name then some ⟨.text, textOf first⟩ else
        (ofTexts names).cell? (textCells textOf names) name) = _
      by_cases h : first = name
      · rw [if_pos h, h, if_pos (List.mem_cons_self)]
      · rw [if_neg h, ih]
        simp [Ne.symm h]

/-- A data set of one row of texts. -/
def Dataset.ofTexts (textOf : String → Option String) (names : List String) : Dataset :=
  ⟨Schema.ofTexts names, [Schema.textCells textOf names]⟩

/-- The condition that a variable is marked. -/
def markedAt (name : String) : Condition := ⟨name, .eq, .symbolic "marked"⟩

section Marked

variable {textOf : String → Option String} {names : List String} {name : String}

theorem type?_ofTexts (names : List String) (name : String) :
    (Schema.ofTexts names).type? name = if name ∈ names then some .text else none := by
  rw [Schema.type?_eq _ (Schema.textCells (fun _ => none) names), Schema.cell?_textCells]
  split_ifs <;> rfl

theorem tame_markedAt : (markedAt name).Tame (.ofTexts textOf names) := by
  refine ⟨Threshold.noConfusion, fun t _ ht => ?_, fun categories _ => .inl rfl⟩
  have htype := type?_ofTexts names name
  change (Schema.ofTexts names).type? name = _ at ht
  rw [ht] at htype
  split_ifs at htype
  cases htype

theorem checkType_markedAt : (markedAt name).checkType (.ofTexts names) = .ok () := by
  rw [Condition.checkType, markedAt, type?_ofTexts]
  by_cases hmem : name ∈ names
  · rw [if_pos hmem]
    rfl
  · rw [if_neg hmem]

theorem checkPresence_markedAt (hmem : name ∈ names) :
    (markedAt name).checkPresence (.ofTexts names) = .ok () := by
  rw [Condition.checkPresence, markedAt, type?_ofTexts, if_pos hmem]
  rfl

theorem checkCells_markedAt (hmem : name ∈ names) :
    (markedAt name).checkCells (.ofTexts textOf names) = .ok () := by
  have htype : (Dataset.ofTexts textOf names).schema.type? name = some .text :=
    (type?_ofTexts names name).trans (if_pos hmem)
  rw [Condition.checkCells, markedAt, htype]

theorem holdsInCells_markedAt (textOf : String → Option String) (hmem : name ∈ names) :
    (markedAt name).holdsInCells (.ofTexts names) (Schema.textCells textOf names) =
      (textOf name == some "marked") := by
  rw [Schema.holdsInCells_eq, markedAt, Schema.cell?_textCells, if_pos hmem, Option.any_some]
  cases textOf name with
  | none => rfl
  | some s =>
      change (compare s "marked" == .eq) = (s == "marked")
      rw [Bool.eq_iff_iff, beq_iff_eq, beq_iff_eq, Std.compare_eq_iff_eq]

/-- On one row a name stands for itself. -/
theorem eq_of_check_markedAt {holds : Bool} (h : (Formula.conjunction [markedAt name]).check
    ((Schema.ofTexts names).row (Schema.textCells textOf names)) = .ok holds) :
    holds = (textOf name == some "marked") := by
  change Condition.allHold [_] _ = _ at h
  rw [Condition.allHold_singleton] at h
  by_cases hmem : name ∈ names
  · have hrow := Condition.holds_row (d := .ofTexts textOf names) checkType_markedAt
      (checkPresence_markedAt hmem) tame_markedAt (List.mem_singleton_self _)
    have hcells := holdsInCells_markedAt textOf hmem
    exact (Except.ok.inj (h.symm.trans hrow)).trans hcells
  · have hfind := (Schema.ofTexts names).find?_row (Schema.textCells textOf names) name
    rw [Schema.cell?_textCells, if_neg hmem] at hfind
    rw [Condition.holds, markedAt, hfind] at h
    cases h

/-- In a data set a name stands for the columns it selects. -/
theorem check_markedAt {selected : List String}
    (h : (Schema.ofTexts names).namesFor name = .ok selected) (hsub : selected ⊆ names) :
    (Dataset.ofTexts textOf names).check (.conjunction [markedAt name]) =
      .ok [selected.all (textOf · == some "marked")] := by
  have hspelled : (Formula.conjunction [markedAt name]).spelledOut (.ofTexts names) =
      .ok (selected.map markedAt) := by
    refine Except.bind_eq_ok_iff.mpr ⟨[selected.map markedAt], ?_, ?_⟩
    · rw [Except.mapM_eq_ok_iff]
      exact .cons (by rw [Condition.spelledOut, markedAt, h]; rfl) .nil
    · rw [List.flatten_cons, List.flatten_nil, List.append_nil]
      rfl
  refine (Dataset.check_eq_ok_iff (d := .ofTexts textOf names) Nat.one_ne_zero rfl).mpr
    ⟨?_, _, hspelled, ?_, ?_, ?_⟩
  · intro c hc
    rw [List.mem_singleton.mp hc]
    exact checkType_markedAt
  · intro c hc
    obtain ⟨n, hn, rfl⟩ := List.mem_map.mp hc
    exact checkPresence_markedAt (hsub hn)
  · intro c hc
    obtain ⟨n, hn, rfl⟩ := List.mem_map.mp hc
    exact checkCells_markedAt (hsub hn)
  · change [_] = [(selected.map markedAt).all _]
    rw [List.all_map]
    refine congrArg (fun holds => [holds]) ?_
    rw [Bool.eq_iff_iff, List.all_eq_true, List.all_eq_true]
    refine forall₂_congr fun n hn => ?_
    have hcells := holdsInCells_markedAt textOf (hsub hn)
    exact iff_of_eq (congrArg (· = true) hcells.symm)

/-- A selection other than a name's own can be marked where the name is not, or the name where the
selection is not. -/
theorem exists_marked_ne {selected : List String}
    (hnot : ¬(selected ≠ [] ∧ ∀ n ∈ selected, n = name)) :
    ∃ textOf : String → Option String,
      (textOf name == some "marked") ≠ selected.all (textOf · == some "marked") := by
  by_cases hnil : selected = []
  · refine ⟨fun _ => none, ?_⟩
    rw [hnil]
    exact Bool.false_ne_true
  · have hother : ∃ n ∈ selected, n ≠ name := by
      by_contra hall
      exact hnot ⟨hnil, by simpa using hall⟩
    obtain ⟨n, hn, hne⟩ := hother
    refine ⟨fun m => if m = n then none else some "marked", ?_⟩
    have hall : (selected.all fun m => (if m = n then none else some "marked") == some "marked") =
        false := by
      rw [List.all_eq_false]
      exact ⟨n, hn, by simp⟩
    simp [hall, hne.symm]

/-- **A name that does not select its own column, and no other, divides the evaluators.** -/
theorem exists_rows_ne_check {schema : Schema} (h : ¬ schema.SelectsOwn name) :
    ∃ d : Dataset, ∃ held, d.names = schema.map (·.name) ∧ (markedAt name).Tame d ∧
      d.check (.conjunction [markedAt name]) = .ok held ∧
      d.rows.map (Formula.conjunction [markedAt name]).check ≠ held.map .ok := by
  obtain ⟨selected, hselected, hnot⟩ := by simpa only [Schema.SelectsOwn, not_forall] using h
  have hnames : (Schema.ofTexts (schema.map (·.name))).map (·.name) = schema.map (·.name) := by
    rw [Schema.ofTexts, List.map_map]
    exact List.map_id _
  have hsub : selected ⊆ schema.map (·.name) := by
    rcases Schema.namesFor_subset hselected with rfl | hsub
    · exact absurd ⟨List.cons_ne_nil _ _, fun n hn => List.mem_singleton.mp hn⟩ hnot
    · exact hsub
  rw [← Schema.namesFor_congr hnames] at hselected
  obtain ⟨textOf, hne⟩ := exists_marked_ne hnot
  refine ⟨.ofTexts textOf (schema.map (·.name)), _, ?_, tame_markedAt,
    check_markedAt hselected hsub, fun heq => hne ?_⟩
  · exact hnames
  · exact (eq_of_check_markedAt (List.head_eq_of_cons_eq heq)).symm

end Marked

/-! ### The two evaluators -/

/-- **The names decide whether the evaluators agree.**  Over columns of given names, variables
select their own columns, and no others, exactly when on every data set with such columns every
tame formula over the variables that is answered for the set is answered, and alike, on every
row. -/
theorem check_rows_iff_selectsOwn (schema : Schema) (mentioned : List String) :
    (∀ name ∈ mentioned, schema.SelectsOwn name) ↔
      ∀ (d : Dataset) (f : Formula) (held : List Bool), d.names = schema.map (·.name) →
        (∀ name ∈ f.names, name ∈ mentioned) → (∀ c ∈ f.conditions, c.Tame d) →
        d.check f = .ok held → d.rows.map f.check = held.map .ok := by
  constructor
  · intro hown d f held hnames hmentioned htame hcheck
    refine Dataset.rows_of_check (fun c hc => ?_) htame hcheck
    have hmem : c.name ∈ mentioned := hmentioned _ (List.mem_map_of_mem hc)
    intro names hselected
    rw [Schema.namesFor_congr hnames] at hselected
    exact hown c.name hmem names hselected
  · intro hagree name hname
    by_contra hnot
    -- a condition on the name alone tells the evaluators apart
    obtain ⟨d, held, hnames, htame, hcheck, hne⟩ := exists_rows_ne_check hnot
    refine hne (hagree d _ held hnames ?_ ?_ hcheck)
    · intro n hn
      rw [List.mem_singleton.mp hn]
      exact hname
    · intro c hc
      rw [List.mem_singleton.mp hc]
      exact htame

/-- Two rows of an integer, a double, a text and a category, with gaps. -/
def mixedRows : Dataset :=
  ⟨[⟨"n", .integer .int64⟩, ⟨"x", .double⟩, ⟨"s", .text⟩,
      ⟨"e", .enumeration ⟨["low", "high"], by decide⟩⟩],
    [(some ⟨3, by decide⟩, some (.finite false 1 1), some "a", some ⟨0, by decide⟩, ()),
      (none, some .nan, none, some ⟨1, by decide⟩, ())]⟩

/-- One condition on each of the four columns. -/
def mixedFormula : Formula :=
  .conjunction [⟨"n", .ge, .numeric (.finite false 1 1)⟩, ⟨"x", .ne, .numeric (.finite false 1 0)⟩,
    ⟨"s", .le, .symbolic "b"⟩, ⟨"e", .ne, .symbolic "high"⟩]

theorem check_mixedRows_eq :
    mixedRows.check mixedFormula = .ok [true, false] ∧
      mixedRows.rows.map mixedFormula.check = [.ok true, .ok false] := by
  have hown : ∀ name ∈ ["n", "x", "s", "e"], mixedRows.schema.SelectsOwn name := by
    intro name hname
    refine Schema.selectsOwn_of_standsForOne ?_
    revert name
    decide
  have hexact : ∀ row ∈ mixedRows.rows, ∀ n, row.find? "n" = some (.int n) →
      n.natAbs ≤ 2 ^ 53 := by
    intro row hrow n hn
    change row ∈ [_, _] at hrow
    rcases List.mem_pair.mp hrow with rfl | rfl
    · cases hn
      decide
    · cases hn
  have htame : ∀ c ∈ mixedFormula.conditions, c.Tame mixedRows := by
    intro c hc
    change c ∈ [_, _, _, _] at hc
    simp only [List.mem_cons, List.not_mem_nil, or_false] at hc
    rcases hc with rfl | rfl | rfl | rfl
    · exact ⟨by decide, fun _ _ _ => hexact, fun _ h => (nomatch h)⟩
    · exact ⟨by decide, fun _ _ h => (nomatch h), fun _ h => (nomatch h)⟩
    · exact ⟨by decide, fun _ _ h => (nomatch h), fun _ h => (nomatch h)⟩
    · exact ⟨by decide, fun _ _ h => (nomatch h), fun _ _ => .inr rfl⟩
  have hcheck : mixedRows.check mixedFormula = .ok [true, false] := rfl
  refine ⟨hcheck, (check_rows_iff_selectsOwn mixedRows.schema ["n", "x", "s", "e"]).mp hown
    mixedRows mixedFormula _ rfl ?_ htame hcheck⟩
  intro name hname
  exact hname

/-- A column of one integer. -/
def oneInteger : Dataset := ⟨[⟨"x", .integer .int64⟩], [(some ⟨1, by decide⟩, ())]⟩

/-- The condition that a star is one. -/
def starIsOne : Formula := .atom ⟨"*", .eq, .numeric (.finite false 1 0)⟩

/-- In a data set of one column a star stands for it, on a row for a variable that is not there. -/
theorem not_rows_of_check_star :
    ¬ ∀ (d : Dataset) (f : Formula) (held : List Bool), d.schema ≠ [] →
      (∀ c ∈ f.conditions, c.Tame d) → d.check f = .ok held →
      d.rows.map f.check = held.map .ok := by
  intro h
  have htame : ∀ c ∈ starIsOne.conditions, c.Tame oneInteger := by
    intro c hc
    rw [List.mem_singleton.mp hc]
    exact ⟨by decide, fun _ _ h => (nomatch h), fun _ h => (nomatch h)⟩
  have hrow : oneInteger.rows.map starIsOne.check = [.error (.absentVariable "*")] := rfl
  have heq := h oneInteger starIsOne [true] (List.cons_ne_nil _ _) htame rfl
  rw [hrow] at heq
  cases List.head_eq_of_cons_eq heq

end Rulebook
