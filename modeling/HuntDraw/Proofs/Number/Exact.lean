import HuntDraw.Proofs.Number.Range

/-! Exact values. The number nearest to a ratio depends on the ratio alone, a ratio that some number stands for is
rounded to this number, and the whole numbers up to `2 ^ 53` are numbers. -/

namespace HuntDraw

variable {n d n' d' k m : Nat} {e j : Int} {s : Bool}

/-- The leading digit is told by the powers of two around the ratio. -/
theorem leadingBit_eq (hn : n ≠ 0) (hd : d ≠ 0) (hlow : (2 : ℚ) ^ j ≤ n / d) (hhigh : (n / d : ℚ) < 2 ^ (j + 1)) :
    leadingBit n d = j := by
  obtain ⟨hlow', hhigh'⟩ := leadingBit_bounds hn hd
  have hbelow : leadingBit n d < j + 1 := (zpow_lt_zpow_iff_right₀ one_lt_two).1 (hlow'.trans_lt hhigh)
  have habove : j < leadingBit n d + 1 := (zpow_lt_zpow_iff_right₀ one_lt_two).1 (hlow.trans_lt hhigh')
  omega

theorem leadingBit_mul_right (hn : n ≠ 0) (hd : d ≠ 0) (hk : k ≠ 0) : leadingBit (n * k) (d * k) = leadingBit n d := by
  have hratio : ((n * k : Nat) : ℚ) / (d * k : Nat) = n / d := by
    push_cast
    exact mul_div_mul_right _ _ (by exact_mod_cast hk)
  obtain ⟨hlow, hhigh⟩ := leadingBit_bounds hn hd
  exact leadingBit_eq (Nat.mul_ne_zero hn hk) (Nat.mul_ne_zero hd hk) (hratio ▸ hlow) (hratio ▸ hhigh)

theorem divHalfEven_mul_right (n d : Nat) (hk : k ≠ 0) : divHalfEven (n * k) (d * k) = divHalfEven n d := by
  have hpos : 0 < k := Nat.pos_of_ne_zero hk
  simp only [divHalfEven, Nat.mul_div_mul_right _ _ hpos, Nat.mul_mod_mul_right, ← Nat.mul_assoc,
    Nat.mul_lt_mul_right hpos]

theorem Canonical.exponent_eq (hc : Canonical 0 e) : e = -1074 := hc.2.2.2.resolve_right (by decide)

theorem ne_zero_of_ratio (hm : m ≠ 0) (h : (n / d : ℚ) = m * 2 ^ e) : n ≠ 0 := by
  rintro rfl
  have hpos : (0 : ℚ) < m * 2 ^ e := mul_pos (by positivity) (by positivity)
  rw [← h, Nat.cast_zero, zero_div] at hpos
  exact hpos.false

namespace Binary64

theorem ofRatio_mul_right (s : Bool) (n : Nat) (hd : d ≠ 0) (hk : k ≠ 0) :
    ofRatio s (n * k) (d * k) = ofRatio s n d := by
  by_cases hn : n = 0
  · rw [hn, Nat.zero_mul, ofRatio_zero, ofRatio_zero]
  have hexp : roundingExponent (n * k) (d * k) = roundingExponent n d := by
    rw [roundingExponent, roundingExponent, leadingBit_mul_right hn hd hk]
  have hmantissa : roundingMantissa (n * k) (d * k) = roundingMantissa n d := by
    rw [roundingMantissa, roundingMantissa, hexp, Nat.mul_right_comm n, Nat.mul_right_comm d,
      divHalfEven_mul_right _ _ hk]
  rw [ofRatio_of_ne s (Nat.mul_ne_zero hn hk), ofRatio_of_ne s hn, hexp, hmantissa]

theorem ofRatio_congr (s : Bool) (hd : d ≠ 0) (hd' : d' ≠ 0) (h : (n / d : ℚ) = n' / d') :
    ofRatio s n d = ofRatio s n' d' := by
  have hcross : n * d' = n' * d := by
    rw [div_eq_div_iff (by exact_mod_cast hd) (by exact_mod_cast hd')] at h
    exact_mod_cast h
  rw [← ofRatio_mul_right s n hd hd', hcross, Nat.mul_comm d, ofRatio_mul_right s n' hd' hd]

theorem ofRatio_neg (n d : Nat) : ofRatio true n d = neg (ofRatio false n d) := by
  by_cases hn : n = 0
  · rw [hn, ofRatio_zero, ofRatio_zero]
    rfl
  rw [ofRatio_of_ne true hn, ofRatio_of_ne false hn]
  dsimp only
  split_ifs <;> rfl

theorem roundingExponent_eq (hc : Canonical m e) (hm : m ≠ 0) (hd : d ≠ 0) (h : (n / d : ℚ) = m * 2 ^ e) :
    roundingExponent n d = e := by
  have hn := ne_zero_of_ratio hm h
  have hlimit : (n / d : ℚ) < 2 ^ (e + 53) := by
    rw [h, add_comm, zpow_add₀ two_ne_zero]
    exact mul_lt_mul_of_pos_right (by exact_mod_cast hc.1) (by positivity)
  obtain ⟨hlow, hhigh⟩ := leadingBit_bounds hn hd
  have hbelow : leadingBit n d < e + 53 := (zpow_lt_zpow_iff_right₀ one_lt_two).1 (hlow.trans_lt hlimit)
  rw [roundingExponent]
  rcases hc.2.2.2 with hleast | hfull
  · omega
  · have hreach : (2 : ℚ) ^ (e + 52) ≤ n / d := by
      rw [h, add_comm, zpow_add₀ two_ne_zero]
      exact mul_le_mul_of_nonneg_right (by exact_mod_cast hfull) (by positivity)
    have habove : e + 52 < leadingBit n d + 1 := (zpow_lt_zpow_iff_right₀ one_lt_two).1 (hreach.trans_lt hhigh)
    have hleast := hc.2.1
    omega

theorem ofRatio_eq (hc : Canonical m e) (hd : d ≠ 0) (h : (n / d : ℚ) = m * 2 ^ e) :
    ofRatio s n d = .finite s m e hc := by
  by_cases hm : m = 0
  · subst hm
    have hn : n = 0 := by simpa [hd] using h
    obtain rfl := hc.exponent_eq
    rw [hn, ofRatio_zero]
    rfl
  have hn := ne_zero_of_ratio hm h
  have hexp := roundingExponent_eq hc hm hd h
  have hmantissa : roundingMantissa n d = m := by
    obtain ⟨hlow, hhigh⟩ := roundingMantissa_bounds n hd
    rw [hexp, h, mul_assoc, ← zpow_add₀ two_ne_zero, add_neg_cancel, zpow_zero, mul_one] at hlow hhigh
    exact le_antisymm (le_of_le_add_half hhigh le_rfl) (le_of_sub_half_le hlow le_rfl)
  have hne : m ≠ mantissaLimit := hc.1.ne
  rw [ofRatio_of_ne s hn, hexp, hmantissa]
  simp only [if_neg hne, dif_pos hc]

theorem scaleNum_eq (h : (m * 2 ^ e : ℚ) = n) : scaleNum m e = n * scaleDen e := by
  rw [← scale_eq, div_eq_iff (by exact_mod_cast scaleDen_ne e)] at h
  exact_mod_cast h

variable {hc : Canonical m e}

theorem isInteger_of_value (h : (m * 2 ^ e : ℚ) = n) : (Binary64.finite s m e hc).isInteger := by
  simp [isInteger, scaleNum_eq h]

theorem truncate_of_value (h : (m * 2 ^ e : ℚ) = n) :
    (Binary64.finite s m e hc).truncate = .ok (if s then -(n : Int) else n) := by
  rw [truncate, scaleNum_eq h, Nat.mul_div_cancel _ (Nat.pos_of_ne_zero (scaleDen_ne e))]

theorem value_of_isInteger (h : (Binary64.finite s m e hc).isInteger) : ∃ n : Nat, (m * 2 ^ e : ℚ) = n := by
  obtain ⟨n, hn⟩ : scaleDen e ∣ scaleNum m e := Nat.dvd_of_mod_eq_zero (by simpa [isInteger] using h)
  refine ⟨n, ?_⟩
  rw [← scale_eq, div_eq_iff (by exact_mod_cast scaleDen_ne e), hn, mul_comm]
  push_cast
  rfl

theorem exists_canonical (h : n ≤ mantissaLimit) : ∃ m e, Canonical m e ∧ (m * 2 ^ e : ℚ) = n := by
  by_cases hzero : n = 0
  · exact ⟨0, -1074, by decide, by simp [hzero]⟩
  rcases h.eq_or_lt with rfl | hlt
  · exact ⟨fullMantissa, 1, by decide, by norm_num⟩
  have hlog : n.log2 ≤ 52 := by
    have hpow : n.log2 < 53 := (Nat.log2_lt hzero).2 hlt
    omega
  -- the mantissa is shifted up until it has all bits
  have hfull : fullMantissa ≤ n * 2 ^ (52 - n.log2) := by
    calc 2 ^ 52 = 2 ^ n.log2 * 2 ^ (52 - n.log2) := by rw [← pow_add, Nat.add_sub_cancel' hlog]
      _ ≤ n * 2 ^ (52 - n.log2) := Nat.mul_le_mul_right _ (Nat.log2_self_le hzero)
  have hlimit : n * 2 ^ (52 - n.log2) < mantissaLimit := by
    calc n * 2 ^ (52 - n.log2) < 2 ^ (n.log2 + 1) * 2 ^ (52 - n.log2) :=
          Nat.mul_lt_mul_of_pos_right Nat.lt_log2_self (by positivity)
      _ = 2 ^ 53 := by
        rw [← pow_add]
        congr 1
        omega
  refine ⟨n * 2 ^ (52 - n.log2), -(52 - n.log2 : Nat), ⟨hlimit, by omega, by omega, .inr hfull⟩, ?_⟩
  rw [zpow_neg, zpow_natCast]
  push_cast
  exact mul_inv_cancel_right₀ (by positivity) _

end Binary64
end HuntDraw
