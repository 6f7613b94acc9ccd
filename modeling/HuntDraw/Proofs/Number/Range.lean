import HuntDraw.Proofs.Number.Order
import HuntDraw.Proofs.Number.Sign

/-! The range of numbers. A ratio below a power of two within reach is rounded to a finite number that is at
most this power, so that products and quotients that stay within reach are finite too. -/

namespace HuntDraw

variable {n d : Nat} {k K : Int}

theorem natCast_zpow (b : Nat) (k : Int) : (b : ℚ) ^ k = (Nat.pow b k.toNat : Nat) / (Nat.pow b (-k).toNat : Nat) := by
  obtain ⟨j, rfl | rfl⟩ := k.eq_nat_or_neg <;> simp

theorem two_zpow (k : Int) : (2 : ℚ) ^ k = (Nat.pow 2 k.toNat : Nat) / (Nat.pow 2 (-k).toNat : Nat) :=
  natCast_zpow 2 k

theorem ratio_scaled (n d : Nat) (k : Int) : ((n * Nat.pow 2 k.toNat : Nat) : ℚ) / (d * Nat.pow 2 (-k).toNat : Nat) =
    n / d * 2 ^ k := by
  rw [two_zpow, Nat.cast_mul, Nat.cast_mul, mul_div_mul_comm]

theorem leadingBit_bounds (hn : n ≠ 0) (hd : d ≠ 0) :
    (2 : ℚ) ^ leadingBit n d ≤ n / d ∧ (n / d : ℚ) < 2 ^ (leadingBit n d + 1) := by
  have hnpos : (0 : ℚ) < n := by positivity
  have hdpos : (0 : ℚ) < d := by positivity
  have hnlow : (2 : ℚ) ^ n.log2 ≤ n := by exact_mod_cast Nat.log2_self_le hn
  have hnhigh : (n : ℚ) < 2 ^ (n.log2 + 1) := by exact_mod_cast Nat.lt_log2_self
  have hdlow : (2 : ℚ) ^ d.log2 ≤ d := by exact_mod_cast Nat.log2_self_le hd
  have hdhigh : (d : ℚ) < 2 ^ (d.log2 + 1) := by exact_mod_cast Nat.lt_log2_self
  set k : Int := (n.log2 : Int) - d.log2 with hk
  have hlow : (2 : ℚ) ^ (k - 1) ≤ n / d := by
    have hpow : (2 : ℚ) ^ (k - 1) = 2 ^ n.log2 / 2 ^ (d.log2 + 1) := by
      rw [← zpow_natCast, ← zpow_natCast, ← zpow_sub₀ two_ne_zero]
      congr 1
      push_cast
      omega
    rw [hpow]
    exact div_le_div₀ hnpos.le hnlow hdpos hdhigh.le
  have hhigh : (n / d : ℚ) < 2 ^ (k + 1) := by
    have hpow : (2 : ℚ) ^ (k + 1) = 2 ^ (n.log2 + 1) / 2 ^ d.log2 := by
      rw [← zpow_natCast, ← zpow_natCast, ← zpow_sub₀ two_ne_zero]
      congr 1
      push_cast
      omega
    rw [hpow]
    exact div_lt_div₀ hnhigh hdlow (by positivity) (by positivity)
  have htest : d * Nat.pow 2 k.toNat ≤ n * Nat.pow 2 (-k).toNat ↔ (2 : ℚ) ^ k ≤ n / d := by
    have hden : (0 : ℚ) < (Nat.pow 2 (-k).toNat : Nat) := by exact_mod_cast Nat.pos_of_ne_zero (by simp)
    rw [two_zpow, div_le_div_iff₀ hden hdpos, mul_comm (d : Nat)]
    exact_mod_cast Iff.rfl
  -- the lengths of both leave two places for the digit, and the test tells which of them
  rw [leadingBit, ← hk]
  split_ifs with h
  · exact ⟨htest.1 h, hhigh⟩
  · refine ⟨hlow, ?_⟩
    rw [sub_add_cancel]
    exact lt_of_not_ge fun hle => h (htest.2 hle)

theorem divHalfEven_bounds (hd : d ≠ 0) :
    (n / d : ℚ) - 1 / 2 ≤ divHalfEven n d ∧ (divHalfEven n d : ℚ) ≤ n / d + 1 / 2 := by
  have hdpos : (0 : ℚ) < d := by positivity
  have hmod := Nat.mod_lt n (Nat.pos_of_ne_zero hd)
  have hnat : 2 * n ≤ 2 * (d * divHalfEven n d) + d ∧ 2 * (d * divHalfEven n d) ≤ 2 * n + d := by
    have hdiv := Nat.div_add_mod n d
    have hsucc : d * (n / d + 1) = d * (n / d) + d := Nat.mul_succ _ _
    simp only [divHalfEven]
    split_ifs <;> omega
  have hlow : (2 * n : ℚ) ≤ 2 * (d * divHalfEven n d) + d := by exact_mod_cast hnat.1
  have hhigh : (2 * (d * divHalfEven n d) : ℚ) ≤ 2 * n + d := by exact_mod_cast hnat.2
  constructor
  · rw [sub_le_iff_le_add, div_le_iff₀ hdpos]
    linarith
  · rw [← sub_le_iff_le_add, le_div_iff₀ hdpos]
    linarith

/-- A whole number that is off by a half at most does not pass another one. -/
theorem le_of_le_add_half {m b : Nat} {q : ℚ} (hm : (m : ℚ) ≤ q + 1 / 2) (hq : q ≤ b) : m ≤ b := by
  have hlt : (m : ℚ) < (b + 1 : Nat) := by
    push_cast
    linarith
  exact Nat.lt_succ_iff.1 (by exact_mod_cast hlt)

theorem le_of_sub_half_le {m b : Nat} {q : ℚ} (hm : q - 1 / 2 ≤ (m : ℚ)) (hq : (b : ℚ) ≤ q) : b ≤ m := by
  have hlt : (b : ℚ) < (m + 1 : Nat) := by
    push_cast
    linarith
  exact Nat.lt_succ_iff.1 (by exact_mod_cast hlt)

namespace Binary64

def magnitude : Binary64 → ℚ
  | .finite _ m e _ => m * 2 ^ e
  | _ => 0

variable {s : Bool} {x y : Binary64} {i : Int}

theorem scale_eq (m : Nat) (e : Int) : (scaleNum m e : ℚ) / scaleDen e = m * 2 ^ e := by
  have hscaled := ratio_scaled m 1 e
  rwa [Nat.one_mul, Nat.cast_one, div_one] at hscaled

theorem scaleDen_ne (e : Int) : scaleDen e ≠ 0 := by simp [scaleDen]

def roundingExponent (n d : Nat) : Int := max (leadingBit n d - 52) (-1074)

def roundingMantissa (n d : Nat) : Nat :=
  divHalfEven (n * Nat.pow 2 (-roundingExponent n d).toNat) (d * Nat.pow 2 (roundingExponent n d).toNat)

/-- A ratio that is not zero is given its mantissa and exponent, after a carry. -/
theorem ofRatio_of_ne (s : Bool) (hn : n ≠ 0) : ofRatio s n d =
    let c := if roundingMantissa n d = mantissaLimit then (fullMantissa, roundingExponent n d + 1)
      else (roundingMantissa n d, roundingExponent n d)
    if hc : Canonical c.1 c.2 then .finite s c.1 c.2 hc else .infinite s := if_neg hn

theorem roundingMantissa_bounds (n : Nat) (hd : d ≠ 0) :
    (n / d * 2 ^ (-roundingExponent n d) : ℚ) - 1 / 2 ≤ roundingMantissa n d ∧
      (roundingMantissa n d : ℚ) ≤ n / d * 2 ^ (-roundingExponent n d) + 1 / 2 := by
  have hscaled := ratio_scaled n d (-roundingExponent n d)
  rw [neg_neg] at hscaled
  rw [← hscaled]
  exact divHalfEven_bounds (by simp [hd])

/-- The mantissa stays below the powers of two that the ratio is below. -/
theorem roundingMantissa_le {j : Int} (hd : d ≠ 0) (hj : roundingExponent n d ≤ j) (h : (n / d : ℚ) < 2 ^ j) :
    roundingMantissa n d ≤ 2 ^ (j - roundingExponent n d).toNat := by
  refine le_of_le_add_half (roundingMantissa_bounds n hd).2 ?_
  have hpow : ((2 ^ (j - roundingExponent n d).toNat : Nat) : ℚ) = 2 ^ j * 2 ^ (-roundingExponent n d) := by
    rw [← zpow_add₀ two_ne_zero, Nat.cast_pow, ← zpow_natCast, Int.toNat_of_nonneg (by omega), Nat.cast_ofNat,
      sub_eq_add_neg]
  rw [hpow]
  exact mul_le_mul_of_nonneg_right h.le (by positivity)

theorem roundingMantissa_le_limit (hn : n ≠ 0) (hd : d ≠ 0) : roundingMantissa n d ≤ mantissaLimit := by
  have hexp : leadingBit n d + 1 ≤ roundingExponent n d + 53 := by
    rw [roundingExponent]
    omega
  have hlt : (n / d : ℚ) < 2 ^ (roundingExponent n d + 53) :=
    (leadingBit_bounds hn hd).2.trans_le (zpow_le_zpow_right₀ one_le_two hexp)
  have hle := roundingMantissa_le hd (by omega) hlt
  rwa [add_sub_cancel_left] at hle

theorem roundingMantissa_full (hn : n ≠ 0) (hd : d ≠ 0) :
    roundingExponent n d = -1074 ∨ fullMantissa ≤ roundingMantissa n d := by
  by_cases hleast : leadingBit n d - 52 ≤ -1074
  · exact Or.inl (max_eq_right hleast)
  · have hexp : roundingExponent n d = leadingBit n d - 52 := max_eq_left (by omega)
    refine Or.inr (le_of_sub_half_le (roundingMantissa_bounds n hd).1 ?_)
    have hpow : ((fullMantissa : Nat) : ℚ) = 2 ^ leadingBit n d * 2 ^ (-roundingExponent n d) := by
      rw [← zpow_add₀ two_ne_zero, hexp]
      norm_num
    rw [hpow]
    exact mul_le_mul_of_nonneg_right (leadingBit_bounds hn hd).1 (by positivity)

/-- A ratio below a power of two is rounded to a finite number that is not above it. -/
theorem ofRatio_bounded (s : Bool) (hd : d ≠ 0) (hK : -1022 ≤ K) (hK' : K ≤ 1023)
    (h : (n / d : ℚ) < 2 ^ K) : (ofRatio s n d).isFinite ∧ (ofRatio s n d).magnitude ≤ 2 ^ K := by
  by_cases hn : n = 0
  · rw [hn, ofRatio_zero]
    refine ⟨rfl, ?_⟩
    simp only [zero, magnitude, Nat.cast_zero, MulZeroClass.zero_mul]
    positivity
  have hbit : leadingBit n d < K :=
    (zpow_lt_zpow_iff_right₀ one_lt_two).1 ((leadingBit_bounds hn hd).1.trans_lt h)
  have hexp : -1074 ≤ roundingExponent n d ∧ roundingExponent n d ≤ 970 ∧ roundingExponent n d ≤ K := by
    rw [roundingExponent]
    omega
  have hvalue : (roundingMantissa n d : ℚ) * 2 ^ roundingExponent n d ≤ 2 ^ K := by
    have hpow : (2 : ℚ) ^ K = (2 ^ (K - roundingExponent n d).toNat : Nat) * 2 ^ roundingExponent n d := by
      rw [Nat.cast_pow, ← zpow_natCast, Int.toNat_of_nonneg (by omega), Nat.cast_ofNat, ← zpow_add₀ two_ne_zero,
        sub_add_cancel]
    rw [hpow]
    exact mul_le_mul_of_nonneg_right (by exact_mod_cast roundingMantissa_le hd hexp.2.2 h) (by positivity)
  have hlimit := roundingMantissa_le_limit hn hd
  rw [ofRatio_of_ne s hn]
  -- a mantissa that is rounded up to the limit is written with the next exponent, at the same value
  by_cases hcarry : roundingMantissa n d = mantissaLimit
  · have hcanonical : Canonical fullMantissa (roundingExponent n d + 1) :=
      ⟨by decide, by omega, by omega, Or.inr le_rfl⟩
    have hsame : (fullMantissa : ℚ) * 2 ^ (roundingExponent n d + 1) =
        roundingMantissa n d * 2 ^ roundingExponent n d := by
      rw [hcarry, zpow_add₀ two_ne_zero, zpow_one]
      push_cast
      ring
    simp only [if_pos hcarry, dif_pos hcanonical, isFinite, magnitude, true_and]
    exact hsame.trans_le hvalue
  · have hcanonical : Canonical (roundingMantissa n d) (roundingExponent n d) :=
      ⟨by omega, by omega, by omega, roundingMantissa_full hn hd⟩
    simp only [if_neg hcarry, dif_pos hcanonical, isFinite, magnitude, true_and]
    exact hvalue

/-- Whole numbers below a power of two within reach have a nearest number. -/
theorem ofInt?_bounded (hK : -1022 ≤ K) (hK' : K ≤ 1023) (h : (i.natAbs : ℚ) < 2 ^ K) :
    ∃ x, ofInt? i = some x ∧ x.isFinite ∧ x.magnitude ≤ 2 ^ K := by
  obtain ⟨hfinite, hle⟩ := ofRatio_bounded (n := i.natAbs) (decide (i < 0)) one_ne_zero hK hK'
    (by rwa [Nat.cast_one, div_one])
  rw [ofInt?]
  generalize ofRatio (decide (i < 0)) i.natAbs 1 = x at hfinite hle
  cases x with
  | nan => simp [isFinite] at hfinite
  | infinite => simp [isFinite] at hfinite
  | finite s m e h => exact ⟨_, rfl, hfinite, hle⟩

theorem mul_isFinite (hx : x.isFinite) (hy : y.isFinite) (h : x.magnitude * y.magnitude < 2 ^ (1023 : Int)) :
    (mul x y).isFinite := by
  match x, y with
  | .finite s m e _, .finite t n f _ =>
    refine (ofRatio_bounded _ (scaleDen_ne _) (by decide) le_rfl ?_).1
    rw [scale_eq, zpow_add₀ two_ne_zero, Nat.cast_mul, mul_mul_mul_comm]
    exact h
  | .nan, _ | .infinite _, _ => simp [isFinite] at hx
  | .finite .., .nan | .finite .., .infinite _ => simp [isFinite] at hy

theorem magnitude_nonneg (x : Binary64) : 0 ≤ x.magnitude := by
  match x with
  | .nan | .infinite _ => exact le_rfl
  | .finite s m e _ =>
    rw [magnitude]
    positivity

theorem magnitude_lt (x : Binary64) : x.magnitude < 2 ^ (53 : Int) * 2 ^ (971 : Int) := by
  match x with
  | .nan | .infinite _ => exact mul_pos (by positivity) (by positivity)
  | .finite s m e h =>
    have hm : (m : ℚ) < 2 ^ (53 : Int) := by exact_mod_cast h.1
    have he : (2 : ℚ) ^ e ≤ 2 ^ (971 : Int) := zpow_le_zpow_right₀ one_le_two h.2.2.1
    calc (m : ℚ) * 2 ^ e < 2 ^ (53 : Int) * 2 ^ e := mul_lt_mul_of_pos_right hm (by positivity)
      _ ≤ 2 ^ (53 : Int) * 2 ^ (971 : Int) := mul_le_mul_of_nonneg_left he (by positivity)

theorem hundred_finite : ∃ m e h, ofNat 100 = .finite false m e h ∧ m ≠ 0 ∧ (m * 2 ^ e : ℚ) = 100 :=
  ⟨7036874417766400, -46, by decide, by decide +kernel, by decide, by norm_num⟩

theorem div_hundred_isFinite : (div x (ofNat 100)).isFinite ↔ x.isFinite := by
  obtain ⟨n, f, hn, hundred, hne, hvalue⟩ := hundred_finite
  rw [hundred]
  match x with
  | .nan | .infinite _ => simp [div, isFinite]
  | .finite s m e h =>
    have hnum : scaleNum n f ≠ 0 := Nat.mul_ne_zero hne (by simp)
    have hratio : ((scaleNum m e * scaleDen f : Nat) : ℚ) / (scaleDen e * scaleNum n f : Nat) =
        m * 2 ^ e / 100 := by
      rw [← hvalue, ← scale_eq, ← scale_eq]
      push_cast
      rw [div_div_div_eq]
    have hlt : (m * 2 ^ e / 100 : ℚ) < 2 ^ (1023 : Int) := by
      have hmax : (m * 2 ^ e : ℚ) < 2 ^ (53 : Int) * 2 ^ (971 : Int) := magnitude_lt (.finite s m e h)
      have hpow : (2 : ℚ) ^ (1023 : Int) = 2 ^ (52 : Int) * 2 ^ (971 : Int) := (zpow_add₀ two_ne_zero 52 971)
      have hpos : (0 : ℚ) < 2 ^ (971 : Int) := by positivity
      rw [div_lt_iff₀ (by norm_num), hpow]
      generalize (2 : ℚ) ^ (971 : Int) = reach at hmax hpos
      norm_num at hmax ⊢
      linarith
    refine iff_of_true ?_ rfl
    rw [div, if_neg hne]
    exact (ofRatio_bounded _ (Nat.mul_ne_zero (scaleDen_ne e) hnum) (by decide) le_rfl (hratio.trans_lt hlt)).1

theorem floor_isOk : (∃ n, floor x = .ok n) ↔ x.isFinite := by
  cases x <;> simp [floor, isFinite]

theorem multiple_eq (m : Nat) {e : Int} (he : -1074 ≤ e) :
    (multiple false m e (-1074) : ℚ) = m * 2 ^ e * 2 ^ (1074 : Int) := by
  have hpow : ((2 ^ (e - -1074).toNat : Nat) : ℚ) = 2 ^ e * 2 ^ (1074 : Int) := by
    rw [← zpow_add₀ two_ne_zero, Nat.cast_pow, ← zpow_natCast, Int.toNat_of_nonneg (by omega), Nat.cast_ofNat,
      sub_neg_eq_add]
  rw [mul_assoc, ← hpow]
  exact_mod_cast rfl

theorem magnitude_le_hundred (hx : ¬x.Negative) (h : x.le (ofNat 100)) : x.isFinite ∧ x.magnitude ≤ 100 := by
  obtain ⟨n, f, hn, hundred, -, hvalue⟩ := hundred_finite
  rw [hundred] at h
  match x with
  | .nan => simp [le, order?] at h
  | .infinite s =>
    cases s with
    | false => simp [le, order?] at h
    | true => exact absurd rfl hx
  | .finite s m e hc =>
    refine ⟨rfl, ?_⟩
    by_cases hm : m = 0
    · simp [magnitude, hm]
    have hs : s = false := by simpa [Negative, hm] using hx
    subst hs
    have hplace : order (.finite false m e hc) (.finite false n f hn) =
        compare (multiple false m e (-1074)) (multiple false n f (-1074)) := rfl
    rw [le, order?_eq (by simp) (by simp), hplace] at h
    have hle : multiple false m e (-1074) ≤ multiple false n f (-1074) :=
      not_lt.1 fun hgt => by simp [compare_gt_iff_gt.2 hgt] at h
    have hscaled : (m * 2 ^ e * 2 ^ (1074 : Int) : ℚ) ≤ n * 2 ^ f * 2 ^ (1074 : Int) := by
      rw [← multiple_eq m hc.2.1, ← multiple_eq n hn.2.1]
      exact Int.cast_le.2 hle
    rw [magnitude, ← hvalue]
    exact le_of_mul_le_mul_right hscaled (by positivity)

end Binary64
end HuntDraw
