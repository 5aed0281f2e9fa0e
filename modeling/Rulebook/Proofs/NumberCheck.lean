import Rulebook.Formula.Row
import Rulebook.Proofs.DoubleRange
import Rulebook.Proofs.PlaceOrder

/-!
# Formulas — numbers are compared exactly

A condition with a number for its threshold compares the number of a row with it as members of the
line of the rationals with two ends, whatever the size of either: no number is rounded for it.  A
double that is not a number is nowhere on the line.  As a value it satisfies nothing, and as a
threshold it differs from every number.

The check asks of an integer, before it compares it, whether it is a double that is not a number,
and has no answer where no double is near.

* `Comparison.Relates`: what a comparison says of two members of an order.
* `Value.Convertible`: the numbers of which the question has an answer.
* `Condition.compares_exactly`: a check compares such a number exactly, and is a fault for others.
-/

namespace Rulebook

/-! ### What a comparison says -/

namespace Comparison

/-- What a comparison says of two members of an order. -/
def Relates {α : Type} [LT α] [LE α] : Comparison → α → α → Prop
  | .le, a, b => a ≤ b
  | .lt, a, b => a < b
  | .ge, a, b => b ≤ a
  | .gt, a, b => b < a
  | .eq, a, b => a = b
  | .ne, a, b => a ≠ b

theorem admits_cmp {α : Type} [LinearOrder α] (op : Comparison) (a b : α) :
    op.admits (cmp a b) = true ↔ op.Relates a b := by
  rcases lt_trichotomy a b with h | rfl | h
  · rw [h.cmp_eq_lt]
    cases op <;> simp [admits, Relates, h, h.le, h.ne, h.not_ge, h.not_gt]
  · rw [cmp_self_eq_eq]
    cases op <;> simp [admits, Relates]
  · rw [h.cmp_eq_gt]
    cases op <;> simp [admits, Relates, h, h.le, h.ne', h.not_ge, h.not_gt]

/-- What a comparison says of a value and a threshold that may be nowhere in the order: nothing
holds of such a value, and every other value differs from such a threshold. -/
def RelatesAt {α : Type} [LT α] [LE α] (op : Comparison) : Option α → Option α → Prop
  | none, _ => False
  | some _, none => op = .ne
  | some a, some b => op.Relates a b

theorem admits?_compare (op : Comparison) (p : Extended) (q : Option Extended) :
    op.admits? (q.map p.compare) = true ↔
      op.RelatesAt (some p.position) (q.map Extended.position) := by
  cases q with
  | none => exact beq_iff_eq
  | some q =>
      change op.admits (p.compare q) = true ↔ _
      rw [Extended.compare_eq_cmp, admits_cmp]
      rfl

end Comparison

/-! ### Numbers -/

/-- Where a double is among the rationals and their two ends. -/
def Binary64.position? (x : Binary64) : Option (WithBot (WithTop ℚ)) :=
  x.place?.map Extended.position

namespace Value

/-- Integers and doubles. -/
inductive IsNumber : Value → Prop
  | int (n : Int) : IsNumber (.int n)
  | real (y : Binary64) : IsNumber (.real y)

/-- Where a number is among the rationals and their two ends. -/
def position? : Value → Option (WithBot (WithTop ℚ))
  | .int n => some ((n : ℚ) : WithTop ℚ)
  | .real y => y.position?
  | _ => none

/-- The numbers that are near a double: those that are one, and the integers up to half a step
beyond the greatest. -/
def Convertible : Value → Prop
  | .int n => n.natAbs < 2 ^ 1024 - 2 ^ 970
  | _ => True

instance (v : Value) : Decidable v.Convertible :=
  match v with
  | .int n => inferInstanceAs (Decidable (n.natAbs < 2 ^ 1024 - 2 ^ 970))
  | .missing | .bool _ | .real _ | .text _ | .list _ => inferInstanceAs (Decidable True)

end Value

/-! ### Checks -/

namespace Condition

/-- An integer is compared exactly with a number where a double is near, and is a fault
elsewhere. -/
theorem holdsOf_int (name : String) (op : Comparison) (x : Binary64) (n : Int) :
    (n.natAbs < 2 ^ 1024 - 2 ^ 970 → ∃ answer,
      holdsOf ⟨name, op, .numeric x⟩ (.int n) = .ok answer ∧
        (answer = true ↔ op.RelatesAt (Value.int n).position? x.position?)) ∧
    (¬ n.natAbs < 2 ^ 1024 - 2 ^ 970 →
      holdsOf ⟨name, op, .numeric x⟩ (.int n) = .error .outOfRange) := by
  have hposition : (Extended.ofInt n).position = ((n : ℚ) : WithTop ℚ) := by
    rw [Extended.ofInt, Extended.position, zpow_zero, mul_one]
  rw [← Binary64.inRange_iff]
  constructor
  · intro hrange
    refine ⟨_, if_pos hrange, ?_⟩
    rw [Comparison.admits?_compare, hposition]
    rfl
  · exact fun hrange => if_neg hrange

/-- A double is compared exactly with a number. -/
theorem holdsOf_real (name : String) (op : Comparison) (x y : Binary64) :
    ∃ answer, holdsOf ⟨name, op, .numeric x⟩ (.real y) = .ok answer ∧
      (answer = true ↔ op.RelatesAt y.position? x.position?) := by
  refine ⟨_, rfl, ?_⟩
  by_cases hy : y = .nan
  · subst hy
    exact iff_of_false nofun id
  · obtain ⟨p, hp⟩ := Binary64.exists_place? hy
    have hnumber : y.isNaN = false := by
      cases y with
      | nan => exact absurd rfl hy
      | infinite | finite => rfl
    have hcompare : y.compare? x = x.place?.map p.compare := by
      rw [Binary64.compare?, hp]
      cases x.place? <;> rfl
    rw [hnumber, Bool.not_false, Bool.true_and, hcompare, Comparison.admits?_compare,
      Binary64.position?, hp]
    rfl

/-- **Numbers are compared exactly.**  A check of an integer or a double against a number has an
answer where a double is near the value, and it is what the comparison says of the two on the line
of the rationals with its ends, where neither is rounded.  An integer that no double is near is a
fault. -/
theorem compares_exactly {c : Condition} {row : Row} {v : Value} {x : Binary64}
    (hthreshold : c.threshold = .numeric x) (hfind : row.find? c.name = some v)
    (hnumber : v.IsNumber) :
    (v.Convertible → ∃ answer, c.holds row = .ok answer ∧
      (answer = true ↔ c.op.RelatesAt v.position? x.position?)) ∧
    (¬ v.Convertible → c.holds row = .error .outOfRange) := by
  obtain ⟨name, op, threshold⟩ := c
  obtain rfl : threshold = .numeric x := hthreshold
  have hholds : holds ⟨name, op, .numeric x⟩ row = holdsOf ⟨name, op, .numeric x⟩ v := by
    rw [holds, hfind]
  rw [hholds]
  cases hnumber with
  | int n => exact holdsOf_int name op x n
  | real y => exact ⟨fun _ => holdsOf_real name op x y, fun hv => absurd trivial hv⟩

/-- `x > 9007199254740992.0`. -/
def aboveWide : Condition := ⟨"x", .gt, .numeric (.finite false (2 ^ 52) 1)⟩

/-- The integer behind the threshold is above it, although the two are one double. -/
theorem compares_exactly_aboveWide :
    aboveWide.holds [("x", .int (2 ^ 53 + 1))] = .ok true ∧
      aboveWide.holds [("x", .int (10 ^ 309))] = .error .outOfRange := by
  have hfind : ∀ n : Int, Row.find? [("x", .int n)] aboveWide.name = some (.int n) := fun _ => rfl
  obtain ⟨hexact, -⟩ := compares_exactly (c := aboveWide) rfl (hfind (2 ^ 53 + 1)) (.int _)
  obtain ⟨-, hfault⟩ := compares_exactly (c := aboveWide) rfl (hfind (10 ^ 309)) (.int _)
  refine ⟨?_, hfault (by decide +kernel)⟩
  obtain ⟨answer, hanswer, hiff⟩ := hexact (by decide +kernel)
  have habove : ((2 ^ 52 : Int) : ℚ) * 2 ^ (1 : Int) < ((2 ^ 53 + 1 : Int) : ℚ) := by
    rw [zpow_one]
    exact_mod_cast (by decide : (2 ^ 52 * 2 : Int) < 2 ^ 53 + 1)
  rw [hanswer, hiff.mpr (WithBot.coe_lt_coe.mpr (WithTop.coe_lt_coe.mpr habove))]

/-- Not every integer has an answer. -/
theorem not_compares_exactly_of_huge :
    ¬ ∀ (c : Condition) (row : Row) (v : Value) (x : Binary64), c.threshold = .numeric x →
      row.find? c.name = some v → v.IsNumber → ∃ answer, c.holds row = .ok answer := by
  intro h
  obtain ⟨answer, hanswer⟩ := h ⟨"x", .ge, .numeric (.finite false (2 ^ 52) (-52))⟩
    [("x", .int (10 ^ 309))] _ _ rfl rfl (.int _)
  obtain ⟨-, hfault⟩ := holdsOf_int "x" .ge (.finite false (2 ^ 52) (-52)) (10 ^ 309)
  cases (hfault (by decide +kernel)).symm.trans hanswer

end Condition

end Rulebook
