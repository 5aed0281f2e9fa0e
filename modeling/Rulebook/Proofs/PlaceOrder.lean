import Mathlib.Order.WithBot
import Rulebook.Proofs.Places

/-!
# Numbers — the line is ordered

The places of numbers are the rationals with two ends, and their comparison is the linear order of
these.

* `Extended.position`: the place as a member of the linear order.
* `Extended.compare_eq_cmp`: the comparison is that of the positions, so what holds of a linear
  order holds of it.
* `x ≤ y`, `x < y` for doubles: the comparison has an answer, and it is that one.  A double that is
  not a number is in no relation, not even to itself.
-/

namespace Rulebook

namespace Extended

/-- Where a place is among the rationals and their two ends. -/
def position : Extended → WithBot (WithTop ℚ)
  | .bottom => ⊥
  | .dyadic m e => ((m * 2 ^ e : ℚ) : WithTop ℚ)
  | .top => ((⊤ : WithTop ℚ) : WithBot (WithTop ℚ))

theorem compare_eq_cmp (p q : Extended) : p.compare q = cmp p.position q.position := by
  have hcoe : StrictMono fun x : ℚ => ((x : WithTop ℚ) : WithBot (WithTop ℚ)) :=
    WithBot.coe_strictMono.comp WithTop.coe_strictMono
  cases p <;> cases q
  case bottom.bottom | top.top => exact (cmp_self_eq_eq _).symm
  case bottom.dyadic | bottom.top =>
    exact ((cmp_eq_lt_iff _ _).mpr (WithBot.bot_lt_coe _)).symm
  case dyadic.bottom | top.bottom =>
    exact ((cmp_eq_gt_iff _ _).mpr (WithBot.bot_lt_coe _)).symm
  case dyadic.top =>
    exact ((cmp_eq_lt_iff _ _).mpr (WithBot.coe_lt_coe.mpr (WithTop.coe_lt_top _))).symm
  case top.dyadic =>
    exact ((cmp_eq_gt_iff _ _).mpr (WithBot.coe_lt_coe.mpr (WithTop.coe_lt_top _))).symm
  case dyadic.dyadic =>
    rw [compare_dyadic, ← cmp_eq_compare]
    exact (hcoe.cmp_map_eq _ _).symm

variable {p q : Extended}

theorem compare_eq_lt_iff : p.compare q = .lt ↔ p.position < q.position := by
  rw [compare_eq_cmp, cmp_eq_lt_iff]

theorem compare_eq_eq_iff : p.compare q = .eq ↔ p.position = q.position := by
  rw [compare_eq_cmp, cmp_eq_eq_iff]

theorem isLE_compare_iff : (p.compare q).isLE = true ↔ p.position ≤ q.position := by
  rw [compare_eq_cmp, Ordering.isLE_iff_ne_gt, cmp_eq_gt_iff, not_lt]

end Extended

namespace Binary64

instance : LE Binary64 where
  le x y := (x.compare? y).any (·.isLE) = true

instance : LT Binary64 where
  lt x y := x.compare? y = some .lt

instance (x y : Binary64) : Decidable (x ≤ y) :=
  inferInstanceAs (Decidable ((x.compare? y).any (·.isLE) = true))

instance (x y : Binary64) : Decidable (x < y) :=
  inferInstanceAs (Decidable (x.compare? y = some .lt))

variable {x y z : Binary64}

theorem le_iff : x ≤ y ↔
    ∃ p q, x.place? = some p ∧ y.place? = some q ∧ p.position ≤ q.position := by
  change (x.compare? y).any (·.isLE) = true ↔ _
  cases hx : x.place? with
  | none => simp [compare?, hx]
  | some p =>
    cases hy : y.place? with
    | none => simp [compare?, hx, hy]
    | some q => simp [compare?, hx, hy, Extended.isLE_compare_iff]

theorem lt_iff : x < y ↔
    ∃ p q, x.place? = some p ∧ y.place? = some q ∧ p.position < q.position := by
  change x.compare? y = some .lt ↔ _
  cases hx : x.place? with
  | none => simp [compare?, hx]
  | some p =>
    cases hy : y.place? with
    | none => simp [compare?, hx, hy]
    | some q => simp [compare?, hx, hy, Extended.compare_eq_lt_iff]

theorem le_refl_of_ne_nan (hx : x ≠ .nan) : x ≤ x := by
  obtain ⟨p, hp⟩ := exists_place? hx
  exact le_iff.2 ⟨p, p, hp, hp, le_rfl⟩

theorem le_of_not_lt (hx : x ≠ .nan) (hy : y ≠ .nan) (h : ¬ x < y) : y ≤ x := by
  obtain ⟨p, hp⟩ := exists_place? hx
  obtain ⟨q, hq⟩ := exists_place? hy
  refine le_iff.2 ⟨q, p, hq, hp, not_lt.mp fun hlt => h (lt_iff.2 ⟨p, q, hp, hq, hlt⟩)⟩

theorem le_of_lt (h : x < y) : x ≤ y := by
  obtain ⟨p, q, hp, hq, hlt⟩ := lt_iff.1 h
  exact le_iff.2 ⟨p, q, hp, hq, hlt.le⟩

theorem le_trans (hxy : x ≤ y) (hyz : y ≤ z) : x ≤ z := by
  obtain ⟨p, q, hp, hq, hpq⟩ := le_iff.1 hxy
  obtain ⟨q', r, hq', hr, hqr⟩ := le_iff.1 hyz
  obtain rfl : q = q' := Option.some.inj (hq.symm.trans hq')
  exact le_iff.2 ⟨p, r, hp, hr, hpq.trans hqr⟩

theorem lt_of_le_of_lt (hxy : x ≤ y) (hyz : y < z) : x < z := by
  obtain ⟨p, q, hp, hq, hpq⟩ := le_iff.1 hxy
  obtain ⟨q', r, hq', hr, hqr⟩ := lt_iff.1 hyz
  obtain rfl : q = q' := Option.some.inj (hq.symm.trans hq')
  exact lt_iff.2 ⟨p, r, hp, hr, hpq.trans_lt hqr⟩

theorem not_lt_of_le (h : x ≤ y) : ¬ y < x := by
  intro hlt
  obtain ⟨p, q, hp, hq, hpq⟩ := le_iff.1 h
  obtain ⟨q', p', hq', hp', hqp⟩ := lt_iff.1 hlt
  obtain rfl : q = q' := Option.some.inj (hq.symm.trans hq')
  obtain rfl : p = p' := Option.some.inj (hp.symm.trans hp')
  exact hpq.not_gt hqp

end Binary64

end Rulebook
