import Mathlib.Algebra.Order.Field.Basic
import Mathlib.Algebra.Order.Ring.Cast
import Mathlib.Data.Rat.Cast.Order
import Mathlib.Order.Compare
import Rulebook.Number.Binary64

/-!
# Numbers — places on the line

The order of the line is the order of the rationals `m · 2 ^ e` (`compare_dyadic`), so two spellings
of one place compare alike with everything.  An integer of at most `2 ^ 53` in magnitude is a double
of its own value: it has at most 53 bits, or is the power `2 ^ 53` itself, and rounding drops
nothing (`exists_ofInt_eq`).
-/

namespace Rulebook

/-! ### The order -/

namespace Extended

theorem rescale_cast {m e low : Int} (h : low ≤ e) :
    (rescale m e low : ℚ) * 2 ^ low = m * 2 ^ e := by
  have hpower : ((power 2 (e - low) : Nat) : ℚ) = 2 ^ (e - low) := by
    rw [power, Nat.pow_eq, Nat.cast_pow, ← zpow_natCast, Int.toNat_of_nonneg (by omega)]
    rfl
  rw [rescale, Int.cast_mul, Int.cast_natCast, hpower, mul_assoc, ← zpow_add₀ two_ne_zero,
    Int.sub_add_cancel]

/-- **The order of the line is that of the rationals.** -/
theorem compare_dyadic (m e m' e' : Int) :
    (dyadic m e).compare (dyadic m' e') = compare ((m : ℚ) * 2 ^ e) (m' * 2 ^ e') := by
  have hpos : (0 : ℚ) < 2 ^ min e e' := zpow_pos two_pos _
  rw [← rescale_cast (min_le_left e e'), ← rescale_cast (min_le_right e e'), ← cmp_eq_compare,
    cmp_mul_pos_right hpos, (Int.cast_strictMono (R := ℚ)).cmp_map_eq, cmp_eq_compare]
  rfl

/-- Two spellings of one place compare alike. -/
theorem compare_congr_left {m e m' e' : Int} (h : (m : ℚ) * 2 ^ e = m' * 2 ^ e') (p : Extended) :
    (dyadic m e).compare p = (dyadic m' e').compare p := by
  cases p with
  | bottom => rfl
  | dyadic n k => rw [compare_dyadic, compare_dyadic, h]
  | top => rfl

end Extended

/-! ### Integers as doubles -/

theorem roundHalfEven_one (n : Nat) : roundHalfEven n 1 = n := by
  simp [roundHalfEven, Nat.mod_one]

theorem binade_one {n : Nat} (h : n ≠ 0) : binade n 1 = n.log2 := by
  have hle : 2 ^ n.log2 ≤ n := Nat.log2_self_le h
  have hone : Nat.log2 1 = 0 := rfl
  simp [binade, scaled, power, hle, hone]

/-- The rounding of a quotient whose significand `m` at the exponent `e` needs no further bit. -/
theorem round_eq {f : Format} {negative : Bool} {num den m : Nat} {e : Int} (h : num ≠ 0)
    (he : max f.lowest (binade num den - (f.precision - 1 : Nat)) = e)
    (hm : roundHalfEven (scaled num den e).1 (scaled num den e).2 = m)
    (hlt : m < power 2 f.precision) (hhigh : e ≤ f.highest) :
    f.round negative num den = .finite negative m e := by
  subst he hm
  simp [Format.round, h, hlt.ne, not_lt.mpr hhigh]

/-- A number of at most 53 bits keeps its value. -/
theorem round_double_of_log2_le (negative : Bool) {n : Nat} (h : n ≠ 0) (hn : n.log2 ≤ 52) :
    Format.double.round negative n 1 =
      .finite negative (n * 2 ^ (52 - n.log2)) ((n.log2 : Int) - 52) := by
  have hscaled : scaled n 1 ((n.log2 : Int) - 52) = (n * 2 ^ (52 - n.log2), 1) := by
    have hneg : (-((n.log2 : Int) - 52)).toNat = 52 - n.log2 := by omega
    have hpos : ((n.log2 : Int) - 52).toNat = 0 := by omega
    rw [scaled, power, power, hneg, hpos]
    rfl
  have hlt : n * 2 ^ (52 - n.log2) < 2 ^ 53 := by
    calc n * 2 ^ (52 - n.log2) < 2 ^ (n.log2 + 1) * 2 ^ (52 - n.log2) :=
          Nat.mul_lt_mul_of_pos_right Nat.lt_log2_self (Nat.two_pow_pos _)
      _ = 2 ^ 53 := by rw [← Nat.pow_add]; congr 1; omega
  refine round_eq h ?_ ?_ hlt ?_
  · rw [binade_one h]
    change max (-1074 : Int) (n.log2 - 52) = _
    omega
  · rw [hscaled, roundHalfEven_one]
  · change (n.log2 : Int) - 52 ≤ 971
    omega

theorem exists_round_double_eq (negative : Bool) {n : Nat} (hn : n ≤ 2 ^ 53) :
    ∃ m e, Format.double.round negative n 1 = .finite negative m e ∧ (m : ℚ) * 2 ^ e = n := by
  by_cases h : n = 0
  · exact ⟨0, -1074, by simp [Format.round, Format.double, h], by simp [h]⟩
  by_cases hlog : n.log2 ≤ 52
  · refine ⟨_, _, round_double_of_log2_le negative h hlog, ?_⟩
    have hexp : ((52 - n.log2 : Nat) : Int) + (n.log2 - 52) = 0 := by omega
    rw [Nat.cast_mul, Nat.cast_pow, Nat.cast_ofNat, ← zpow_natCast, mul_assoc,
      ← zpow_add₀ two_ne_zero, hexp, zpow_zero, mul_one]
  · -- Only the power itself has more bits.
    have hle : 2 ^ 53 ≤ n :=
      (Nat.pow_le_pow_right two_pos (by omega)).trans (Nat.log2_self_le h)
    obtain rfl := le_antisymm hn hle
    refine ⟨2 ^ 52, 1, by cases negative <;> decide +kernel, ?_⟩
    rw [zpow_one, Nat.cast_pow, Nat.cast_pow, Nat.cast_ofNat, ← pow_succ]

/-- **An integer of at most `2 ^ 53` in magnitude is a double.** -/
theorem exists_ofInt_eq {n : Int} (hn : n.natAbs ≤ 2 ^ 53) :
    ∃ negative m e, Binary64.ofInt n = .finite negative m e ∧
      ((if negative then -(m : Int) else m : Int) : ℚ) * 2 ^ e = n := by
  obtain ⟨m, e, hround, hvalue⟩ := exists_round_double_eq (decide (n < 0)) hn
  refine ⟨_, m, e, hround, ?_⟩
  rcases lt_or_ge n 0 with h | h
  · have habs : (n.natAbs : ℚ) = -n := by
      rw [← Int.cast_natCast, Int.ofNat_natAbs_of_nonpos h.le, Int.cast_neg]
    simp [h, neg_mul, hvalue, habs]
  · have habs : (n.natAbs : ℚ) = n := by rw [← Int.cast_natCast, Int.natAbs_of_nonneg h]
    simp [not_lt.mpr h, hvalue, habs]

namespace Binary64

/-- Every double but the one that is not a number has a place. -/
theorem exists_place? {x : Binary64} (h : x ≠ .nan) : ∃ p, x.place? = some p := by
  cases x with
  | nan => exact absurd rfl h
  | infinite negative => cases negative <;> exact ⟨_, rfl⟩
  | finite negative m e => exact ⟨_, rfl⟩

theorem exists_compare? {x y : Binary64} (hx : x ≠ .nan) (hy : y ≠ .nan) :
    ∃ o, x.compare? y = some o := by
  obtain ⟨p, hp⟩ := exists_place? hx
  obtain ⟨q, hq⟩ := exists_place? hy
  exact ⟨p.compare q, by simp [compare?, hp, hq]⟩

theorem inRange_of_natAbs_le {n : Int} (hn : n.natAbs ≤ 2 ^ 53) : inRange n = true := by
  obtain ⟨negative, m, e, h, -⟩ := exists_ofInt_eq hn
  rw [inRange, h]

theorem isNaN_ofInt_of_natAbs_le {n : Int} (hn : n.natAbs ≤ 2 ^ 53) :
    (ofInt n).isNaN = false := by
  obtain ⟨negative, m, e, h, -⟩ := exists_ofInt_eq hn
  rw [h]
  rfl

/-- Such an integer compares with a number as the double does. -/
theorem compare?_ofInt_of_natAbs_le {n : Int} (hn : n.natAbs ≤ 2 ^ 53) (x : Binary64) :
    (ofInt n).compare? x = x.place?.map (Extended.ofInt n).compare := by
  obtain ⟨negative, m, e, h, hvalue⟩ := exists_ofInt_eq hn
  have hplace : (.dyadic (if negative then -(m : Int) else m) e : Extended).compare =
      (Extended.ofInt n).compare := by
    funext p
    exact Extended.compare_congr_left (by rw [hvalue, zpow_zero, mul_one]) p
  rw [h, ← hplace]
  cases hx : x.place? <;> simp only [compare?, hx] <;> rfl

end Binary64

end Rulebook
