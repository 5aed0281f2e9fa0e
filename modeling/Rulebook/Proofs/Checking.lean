import Rulebook.Dataset.Check
import Rulebook.Proofs.Outcome

/-!
# Data sets — when a check answers

A data set without rows answers every formula.  Any other answers when the formula passes four
examinations (`check_eq_ok_iff`): the kinds of its thresholds against the types of the columns, the
spelling out of its names, and the presence and the cells of the columns they stand for.  The
answers are then those of the spelled-out conditions, row by row.

An atom that stands for no column is not spelled out.  Where the kind of its threshold passes, it is
answered by a column that has the name of the answers already (`check_selectsNone_eq_ok_iff`).
-/

namespace Rulebook.Dataset

variable {d : Dataset} {f : Formula} {held : List Bool}

theorem check_of_size_eq_zero (h : d.size = 0) (f : Formula) : d.check f = .ok [] := by
  simp [check, answers, h, pure, Except.pure, Except.map]

/-- What is spelled out is no atom without a column. -/
theorem selectsNone_eq_false_of_spelledOut {schema : Schema} {cs : List Condition}
    (h : f.spelledOut schema = .ok cs) : f.selectsNone schema = false := by
  cases f with
  | atom c =>
      obtain ⟨cs₀, hcs₀, hmatch⟩ := Except.bind_eq_ok_iff.mp h
      rw [Condition.spelledOut, Except.map_eq_ok_iff] at hcs₀
      obtain ⟨names, hnames, rfl⟩ := hcs₀
      cases names with
      | nil => cases hmatch
      | cons name names => rw [Formula.selectsNone, hnames]
  | conjunction cs => rfl
  | top => rfl

theorem check_eq_ok_iff (h : d.size ≠ 0) (hsome : f.selectsNone d.schema = false) :
    d.check f = .ok held ↔
      (∀ c ∈ f.conditions, c.checkType d.schema = .ok ()) ∧
      ∃ cs, f.spelledOut d.schema = .ok cs ∧ (∀ c ∈ cs, c.checkPresence d.schema = .ok ()) ∧
        (∀ c ∈ cs, c.checkCells d = .ok ()) ∧
        held = d.records.map fun cells => cs.all (·.holdsInCells d.schema cells) := by
  have hflags : ∀ cs : List Condition,
      (d.records.map fun cells => Value.bool (cs.all (·.holdsInCells d.schema cells))).map
        (·.isTrue) = d.records.map fun cells => cs.all (·.holdsInCells d.schema cells) := by
    intro cs
    rw [List.map_map]
    rfl
  simp only [check, answers, h, hsome, if_false, Bool.false_eq_true, Except.map_eq_ok_iff,
    Except.bind_eq_ok_iff, pure, Except.pure, Except.ok.injEq]
  constructor
  · rintro ⟨_, ⟨_, hty, cs, hcs, _, hp, _, hc, rfl⟩, rfl⟩
    exact ⟨Except.forM_eq_ok_iff.mp hty, cs, hcs, Except.forM_eq_ok_iff.mp hp,
      Except.forM_eq_ok_iff.mp hc, hflags cs⟩
  · rintro ⟨hty, cs, hcs, hp, hc, rfl⟩
    exact ⟨_, ⟨(), Except.forM_eq_ok_iff.mpr hty, cs, hcs, (), Except.forM_eq_ok_iff.mpr hp, (),
      Except.forM_eq_ok_iff.mpr hc, rfl⟩, hflags cs⟩

/-- An atom that stands for no column is answered by what stands in the place of the answers. -/
theorem check_selectsNone_eq_ok_iff (h : d.size ≠ 0) (hnone : f.selectsNone d.schema = true) :
    d.check f = .ok held ↔
      (∀ c ∈ f.conditions, c.checkType d.schema = .ok ()) ∧
      (d.schema.type? answerName).isSome ∧
        held = d.rows.map fun row => ((row.find? answerName).getD .missing).isTrue := by
  simp only [check, answers, h, hnone, if_false, if_true, Except.map_eq_ok_iff,
    Except.bind_eq_ok_iff]
  cases ht : d.schema.type? answerName with
  | none =>
      simp [throw, throwThe, MonadExceptOf.throw, bind, Except.bind]
  | some t =>
      simp only [Option.isNone_some, Bool.false_eq_true, if_false, Option.isSome_some, true_and,
        pure, Except.pure, bind, Except.bind, Except.ok.injEq]
      constructor
      · rintro ⟨_, ⟨_, hty, rfl⟩, rfl⟩
        exact ⟨Except.forM_eq_ok_iff.mp hty, List.map_map⟩
      · rintro ⟨hty, rfl⟩
        exact ⟨_, ⟨(), Except.forM_eq_ok_iff.mpr hty, rfl⟩, List.map_map⟩

theorem length_of_check (h : d.check f = .ok held) : held.length = d.size := by
  by_cases hs : d.size = 0
  · rw [check_of_size_eq_zero hs, Except.ok.injEq] at h
    rw [← h, hs, List.length_nil]
  · cases hnone : f.selectsNone d.schema with
    | false =>
        obtain ⟨-, cs, -, -, -, rfl⟩ := (check_eq_ok_iff hs hnone).mp h
        exact List.length_map _
    | true =>
        obtain ⟨-, -, rfl⟩ := (check_selectsNone_eq_ok_iff hs hnone).mp h
        rw [List.length_map, length_rows]

end Rulebook.Dataset
