import Rulebook.Proofs.Places

/-!
# Numbers — the integers that round to a double

Rounding to a format ends out of range from the middle between the greatest value of the format and
the next power of two on: there the tie goes to the even significand, which is that of the power
(`round_eq_infinite_iff`).  So the integers in the range of the doubles are those below
`2 ^ 1024 - 2 ^ 970` in magnitude (`Binary64.inRange_iff`).
-/

namespace Rulebook

/-! ### Rounding a quotient -/

variable {n d a : Nat}

/-- A quotient rounds to an even number or beyond from the half below that number on. -/
theorem le_roundHalfEven_iff (hd : 0 < d) (hpos : 0 < a) (heven : a % 2 = 0) :
    a ≤ roundHalfEven n d ↔ (2 * a - 1) * d ≤ 2 * n := by
  have hn : n / d * d + n % d = n := Nat.div_add_mod' n d
  have hr : n % d < d := Nat.mod_lt n hd
  have hhalf : (2 * a - 1) * d = 2 * (a * d) - d := by
    rw [Nat.sub_mul, Nat.mul_assoc, Nat.one_mul]
  unfold roundHalfEven
  generalize n / d = q at hn ⊢
  generalize n % d = r at hn hr ⊢
  dsimp only
  rw [hhalf]
  rcases lt_trichotomy (q + 1) a with hlt | rfl | hgt
  · -- the next number is still below it
    have hbelow : (q + 1 + 1) * d ≤ a * d := Nat.mul_le_mul_right d hlt
    rw [Nat.add_one_mul (q + 1), Nat.add_one_mul q] at hbelow
    split_ifs <;> omega
  · -- it is the next number, and the one below is odd
    rw [Nat.add_one_mul q d]
    split_ifs <;> omega
  · have habove : a * d ≤ q * d := Nat.mul_le_mul_right d (Nat.le_of_lt_succ hgt)
    split_ifs <;> omega

theorem roundHalfEven_le (h : n < a * d) : roundHalfEven n d ≤ a := by
  have hq : n / d < a := Nat.div_lt_of_lt_mul (by rwa [Nat.mul_comm] at h)
  unfold roundHalfEven
  dsimp only
  split_ifs <;> omega

/-! ### Formats -/

/-- A number is out of range when the exponent of its significand is, once rounded. -/
theorem round_one_eq_infinite_iff (f : Format) (negative : Bool) (hn : n ≠ 0) {e : Int}
    (he : max f.lowest (n.log2 - (f.precision - 1 : Nat)) = e) :
    f.round negative n 1 = .infinite negative ↔
      f.highest < e ∨ f.highest < e + 1 ∧
        roundHalfEven (scaled n 1 e).1 (scaled n 1 e).2 = 2 ^ f.precision := by
  have hpower : power 2 f.precision = 2 ^ f.precision := rfl
  simp only [Format.round, if_neg hn, binade_one hn, he, hpower]
  by_cases hcarry : roundHalfEven (scaled n 1 e).1 (scaled n 1 e).2 = 2 ^ f.precision
  · rw [if_pos hcarry]
    dsimp only
    split_ifs with hhigh
    · exact iff_of_true rfl (.inr ⟨hhigh, hcarry⟩)
    · exact iff_of_false (by rintro ⟨⟩) (by omega)
  · rw [if_neg hcarry]
    dsimp only
    split_ifs with hhigh
    · exact iff_of_true rfl (.inl hhigh)
    · exact iff_of_false (by rintro ⟨⟩) (by omega)

/-- **Where a format ends.**  With `p` bits at the exponent `h` the greatest value is
`2 ^ (h + p) - 2 ^ h`, and half a step further the next power of two is as near. -/
theorem round_eq_infinite_iff {p h top half : Nat} {lowest : Int} (hp : 0 < p)
    (hhalf : half + 1 = h) (htop : h + p = top) (hlow : lowest ≤ 0) (negative : Bool) (n : Nat) :
    Format.round ⟨p, lowest, h⟩ negative n 1 = .infinite negative ↔ 2 ^ top - 2 ^ half ≤ n := by
  have hstep : 2 ^ half * 2 = 2 ^ h := by rw [← pow_succ, hhalf]
  have hbelow : 2 ^ (top - 1) * 2 = 2 ^ top := by rw [← pow_succ]; congr 1; omega
  have hle : 2 ^ h ≤ 2 ^ (top - 1) := Nat.pow_le_pow_right two_pos (by omega)
  by_cases hn : n = 0
  · subst hn
    have hlt : 2 ^ half < 2 ^ top := Nat.pow_lt_pow_right one_lt_two (by omega)
    exact iff_of_false (by rintro ⟨⟩) (not_le.mpr (Nat.sub_pos_of_lt hlt))
  have hlog : 2 ^ n.log2 ≤ n ∧ n < 2 ^ (n.log2 + 1) := ⟨Nat.log2_self_le hn, Nat.lt_log2_self⟩
  rw [round_one_eq_infinite_iff _ negative hn rfl]
  dsimp only
  rcases lt_trichotomy n.log2 (top - 1) with hlt | heq | hgt
  · -- the significand stands below the highest exponent, and a carry stays within
    have hsmall : 2 ^ (n.log2 + 1) ≤ 2 ^ (top - 1) := Nat.pow_le_pow_right two_pos hlt
    exact iff_of_false (by omega) (by omega)
  · -- it stands at the highest exponent, and only a carry leads beyond
    have hexp : max lowest (n.log2 - (p - 1 : Nat)) = h := by omega
    have hscaled : scaled n 1 h = (n, 2 ^ h) := by
      simp [scaled, power]
    have hsplit : 2 ^ p * 2 ^ h = 2 ^ top := by rw [← htop, pow_add, Nat.mul_comm]
    have hbound : n < 2 ^ p * 2 ^ h := by
      rw [hsplit]
      exact hlog.2.trans_eq (congrArg (2 ^ ·) (by omega))
    have heven : 2 ^ p % 2 = 0 := Nat.even_iff.mp ((Nat.even_pow' hp.ne').mpr even_two)
    have hcarry : roundHalfEven n (2 ^ h) = 2 ^ p ↔ (2 * 2 ^ p - 1) * 2 ^ h ≤ 2 * n := by
      rw [← le_roundHalfEven_iff (Nat.two_pow_pos h) (Nat.two_pow_pos p) heven]
      exact ⟨ge_of_eq, (roundHalfEven_le hbound).antisymm⟩
    rw [hexp, hscaled, hcarry, Nat.sub_mul, Nat.mul_assoc, hsplit, Nat.one_mul]
    omega
  · have hlarge : 2 ^ top ≤ 2 ^ n.log2 := Nat.pow_le_pow_right two_pos (by omega)
    exact iff_of_true (.inl (by omega)) (by omega)

namespace Binary64

/-- Rounding keeps the sign. -/
theorem round_eq_or (f : Format) (negative : Bool) (num den : Nat) :
    f.round negative num den = .infinite negative ∨
      ∃ m e, f.round negative num den = .finite negative m e := by
  unfold Format.round
  dsimp only
  split_ifs <;> first | exact .inl rfl | exact .inr ⟨_, _, rfl⟩

/-- **The integers in the range of the doubles.** -/
theorem inRange_iff {n : Int} : inRange n = true ↔ n.natAbs < 2 ^ 1024 - 2 ^ 970 := by
  have hdouble : Format.double = ⟨53, -1074, (971 : Nat)⟩ := rfl
  have hend : ofInt n = .infinite (decide (n < 0)) ↔ 2 ^ 1024 - 2 ^ 970 ≤ n.natAbs := by
    rw [ofInt, hdouble]
    refine round_eq_infinite_iff ?_ ?_ ?_ ?_ _ _ <;> decide
  have hround : ofInt n = .infinite (decide (n < 0)) ∨
      ∃ m e, ofInt n = .finite (decide (n < 0)) m e := round_eq_or Format.double _ _ _
  rw [← not_le, ← hend, inRange]
  generalize ofInt n = x at hround
  rcases hround with rfl | ⟨m, e, rfl⟩
  · exact iff_of_false (by rintro ⟨⟩) (not_not_intro rfl)
  · exact iff_of_true rfl (by rintro ⟨⟩)

end Binary64

end Rulebook
