import HuntDraw.Proofs.Number.Range

/-! Quotients of whole numbers. A ratio is rounded to a finite number as long as it is less than half a step beyond the
largest of them. -/

namespace HuntDraw

variable {n d b : Nat}

/-- Halves go to the even neighbour, so that a rounded quotient reaches an even number from half a step below it. -/
theorem le_divHalfEven_iff (hd : d ≠ 0) (hb : b % 2 = 0) : b ≤ divHalfEven n d ↔ (b : ℚ) - 1 / 2 ≤ n / d := by
  have hdpos : (0 : ℚ) < d := by positivity
  have hnat : b ≤ divHalfEven n d ↔ 2 * (d * b) ≤ 2 * n + d := by
    have hmod := Nat.mod_lt n (Nat.pos_of_ne_zero hd)
    have hdiv := Nat.div_add_mod n d
    have hnear : ∀ k, d * (n / d + k) = d * (n / d) + d * k := fun k => Nat.mul_add _ _ _
    rcases Nat.lt_trichotomy b (n / d + 1) with hlow | heq | hhigh
    · -- what is not above the whole part is reached
      have hle : d * b ≤ d * (n / d) := Nat.mul_le_mul_left d (Nat.lt_succ_iff.1 hlow)
      refine iff_of_true ?_ (by omega)
      simp only [divHalfEven]
      split_ifs <;> omega
    · have hone := hnear 1
      rw [Nat.mul_one] at hone
      rw [heq, hone]
      simp only [divHalfEven]
      split_ifs <;> omega
    · obtain ⟨k, rfl⟩ := Nat.exists_eq_add_of_lt hhigh
      have hle : d * (n / d + 2) ≤ d * (n / d + 1 + k + 1) := Nat.mul_le_mul_left d (by omega)
      have htwo := hnear 2
      refine iff_of_false ?_ (by omega)
      simp only [divHalfEven]
      split_ifs <;> omega
  have hrat : 2 * (d * b) ≤ 2 * n + d ↔ (2 * (d * b) : ℚ) ≤ 2 * n + d := by exact_mod_cast Iff.rfl
  rw [hnat, hrat, le_div_iff₀ hdpos]
  constructor <;> intro h <;> linarith

namespace Binary64

variable {s : Bool} {i j : Int}

/-- Half a step beyond the largest finite number. -/
def reach : ℚ := 2 ^ (1024 : Int) - 2 ^ (970 : Int)

theorem two_zpow_le_reach : (2 : ℚ) ^ (1023 : Int) ≤ reach := by
  have hhigh : (2 : ℚ) ^ (1024 : Int) = 2 ^ (54 : Int) * 2 ^ (970 : Int) := zpow_add₀ two_ne_zero 54 970
  have hlow : (2 : ℚ) ^ (1023 : Int) = 2 ^ (53 : Int) * 2 ^ (970 : Int) := zpow_add₀ two_ne_zero 53 970
  have hpos : (0 : ℚ) < 2 ^ (970 : Int) := by positivity
  rw [reach, hhigh, hlow]
  generalize (2 : ℚ) ^ (970 : Int) = step at hpos
  norm_num
  linarith

/-- A mantissa is rounded up to the limit from half a step below it. -/
theorem roundingMantissa_eq_limit_iff (hn : n ≠ 0) (hd : d ≠ 0) (hexp : roundingExponent n d = 971) :
    roundingMantissa n d = mantissaLimit ↔ reach ≤ n / d := by
  have hlimit := roundingMantissa_le_limit hn hd
  have hreached : roundingMantissa n d = mantissaLimit ↔ mantissaLimit ≤ roundingMantissa n d :=
    ⟨fun h => h.ge, fun h => le_antisymm hlimit h⟩
  have hden : d * Nat.pow 2 (roundingExponent n d).toNat ≠ 0 := by simp [hd]
  have hscaled := ratio_scaled n d (-roundingExponent n d)
  rw [neg_neg] at hscaled
  have hhigh : (2 : ℚ) ^ (1024 : Int) = 2 ^ (53 : Int) * 2 ^ (971 : Int) := zpow_add₀ two_ne_zero 53 971
  have hlow : (2 : ℚ) ^ (971 : Int) = 2 ^ (1 : Int) * 2 ^ (970 : Int) := zpow_add₀ two_ne_zero 1 970
  have hstep : ((mantissaLimit : Nat) - 1 / 2 : ℚ) * 2 ^ (971 : Int) = reach := by
    rw [reach, hhigh, hlow]
    generalize (2 : ℚ) ^ (970 : Int) = step
    push_cast
    ring
  have hpos : (0 : ℚ) < 2 ^ (971 : Int) := by positivity
  rw [hreached, roundingMantissa, le_divHalfEven_iff hden (by decide), hscaled, hexp, zpow_neg, ← div_eq_mul_inv,
    le_div_iff₀ hpos, hstep]

/-- A ratio is rounded to a finite number exactly if it is within reach. -/
theorem ofRatio_isFinite_iff (s : Bool) (hd : d ≠ 0) : (ofRatio s n d).isFinite ↔ (n / d : ℚ) < reach := by
  by_cases hn : n = 0
  · have hzero : ((n : Nat) : ℚ) / d = 0 := by simp [hn]
    rw [hzero, hn, ofRatio_zero]
    exact iff_of_true rfl (lt_of_lt_of_le (by positivity) two_zpow_le_reach)
  obtain ⟨hlow, hhigh⟩ := leadingBit_bounds hn hd
  rcases lt_trichotomy (leadingBit n d) 1023 with hbit | hbit | hbit
  · -- below the last power of two
    have hlt : (n / d : ℚ) < 2 ^ (1023 : Int) := hhigh.trans_le (zpow_le_zpow_right₀ one_le_two (by omega))
    exact iff_of_true (ofRatio_bounded s hd (by decide) le_rfl hlt).1 (hlt.trans_le two_zpow_le_reach)
  · have hexp : roundingExponent n d = 971 := by
      rw [roundingExponent, hbit]
      rfl
    rw [← not_le, ← roundingMantissa_eq_limit_iff hn hd hexp, ofRatio_of_ne s hn, hexp]
    have hlimit := roundingMantissa_le_limit hn hd
    have hfull := (roundingMantissa_full hn hd).resolve_left (by rw [hexp]; decide)
    by_cases hcarry : roundingMantissa n d = mantissaLimit
    · have hnot : ¬Canonical fullMantissa (971 + 1) := fun hc => absurd hc.2.2.1 (by decide)
      simp only [hcarry, if_true, dif_neg hnot, isFinite, Bool.false_eq_true, not_true]
    · have hcanonical : Canonical (roundingMantissa n d) 971 := ⟨by omega, by decide, le_rfl, .inr hfull⟩
      simp only [hcarry, if_false, dif_pos hcanonical, isFinite, not_false_eq_true]
  · -- no exponent goes so far
    have hexp : 972 ≤ roundingExponent n d := by
      rw [roundingExponent]
      omega
    have hbeyond : reach ≤ (n / d : ℚ) := by
      refine le_trans ?_ ((zpow_le_zpow_right₀ one_le_two (by omega : (1024 : Int) ≤ leadingBit n d)).trans hlow)
      rw [reach, sub_le_self_iff]
      positivity
    refine iff_of_false ?_ hbeyond.not_gt
    have hnot : ∀ c : Nat × Int, 972 ≤ c.2 → ¬Canonical c.1 c.2 := fun c hc hcanonical =>
      absurd hcanonical.2.2.1 (by omega)
    rw [ofRatio_of_ne s hn]
    split_ifs with hcarry
    · simp [hnot (fullMantissa, roundingExponent n d + 1) (by simp only; omega), isFinite]
    · simp [hnot (roundingMantissa n d, roundingExponent n d) hexp, isFinite]

theorem ofRatio_ne_nan (s : Bool) (n d : Nat) : ofRatio s n d ≠ .nan := by
  by_cases hn : n = 0
  · rw [hn, ofRatio_zero]
    exact nofun
  · rw [ofRatio_of_ne s hn]
    dsimp only
    split_ifs <;> simp

theorem ofQuotient?_isSome_iff (hj : j ≠ 0) : (ofQuotient? i j).isSome ↔ |(i / j : ℚ)| < reach := by
  have hratio : |(i / j : ℚ)| = i.natAbs / j.natAbs := by
    rw [abs_div, Nat.cast_natAbs, Nat.cast_natAbs, Int.cast_abs, Int.cast_abs]
  rw [hratio, ← ofRatio_isFinite_iff (decide (i < 0) != decide (j < 0)) (Int.natAbs_ne_zero.2 hj), ofQuotient?]
  have hnumber := ofRatio_ne_nan (decide (i < 0) != decide (j < 0)) i.natAbs j.natAbs
  generalize ofRatio (decide (i < 0) != decide (j < 0)) i.natAbs j.natAbs = x at hnumber
  cases x with
  | nan => exact absurd rfl hnumber
  | infinite => simp [isFinite]
  | finite => simp [isFinite]

end Binary64
end HuntDraw
