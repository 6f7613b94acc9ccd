import HuntDraw.Number.Decimal
import HuntDraw.Proofs.Number.Exact

/-! Decimal numerals: the number that one is read as depends on its value alone, and the shortest numeral of a number
is read as this number. -/

namespace HuntDraw

open Binary64

theorem digitCount_le_iff {n k : Nat} (hk : 0 < k) : digitCount n ≤ k ↔ n < 10 ^ k :=
  Nat.length_toDigits_le_iff (by decide) hk

theorem digitCount_pos (n : Nat) : 0 < digitCount n := Nat.length_toDigits_pos

namespace Decimal

variable {d d' : Decimal} {m : Nat} {e k : Int} {s : Bool}

def value (d : Decimal) : ℚ := d.digits * 10 ^ d.exponent

def top (d : Decimal) : Int := d.exponent + digitCount d.digits

theorem value_ratio (d : Decimal) :
    ((d.digits * Nat.pow 10 d.exponent.toNat : Nat) : ℚ) / (Nat.pow 10 (-d.exponent).toNat : Nat) = d.value := by
  have hpow : (10 : ℚ) ^ d.exponent = (Nat.pow 10 d.exponent.toNat : Nat) / (Nat.pow 10 (-d.exponent).toNat : Nat) :=
    natCast_zpow 10 d.exponent
  rw [value, hpow, Nat.cast_mul, mul_div_assoc]

theorem value_eq_zero : d.value = 0 ↔ d.digits = 0 := by
  simp [value, zpow_ne_zero]

theorem value_lt_top (d : Decimal) : d.value < 10 ^ d.top := by
  have hdigits : (d.digits : ℚ) < 10 ^ (digitCount d.digits : Int) := by
    exact_mod_cast (digitCount_le_iff (digitCount_pos _)).1 le_rfl
  rw [top, add_comm, zpow_add₀ (by norm_num)]
  exact mul_lt_mul_of_pos_right hdigits (by positivity)

theorem top_le_value (h : d.digits ≠ 0) : 10 ^ (d.top - 1) ≤ d.value := by
  have hdigits : (10 : ℚ) ^ ((digitCount d.digits : Int) - 1) ≤ d.digits := by
    obtain ⟨k, hk⟩ := Nat.exists_eq_succ_of_ne_zero (digitCount_pos d.digits).ne'
    have hle : 10 ^ k ≤ d.digits := by
      rcases Nat.eq_zero_or_pos k with rfl | hpos
      · exact Nat.one_le_iff_ne_zero.2 h
      · exact Nat.le_of_not_lt fun hlt => absurd ((digitCount_le_iff hpos).2 hlt) (by omega)
    rw [hk, Nat.succ_eq_add_one, Nat.cast_add, Nat.cast_one, add_sub_cancel_right, zpow_natCast]
    exact_mod_cast hle
  rw [top, add_sub_assoc, zpow_add₀ (by norm_num), mul_comm]
  exact mul_le_mul_of_nonneg_right hdigits (by positivity)

theorem top_le (h : d.digits ≠ 0) (hvalue : d.value < 10 ^ k) : d.top ≤ k := by
  have hlt : d.top - 1 < k := (zpow_lt_zpow_iff_right₀ (by norm_num)).1 ((top_le_value h).trans_lt hvalue)
  omega

theorem lt_top (hvalue : 10 ^ k ≤ d.value) : k < d.top :=
  (zpow_lt_zpow_iff_right₀ (by norm_num)).1 (hvalue.trans_lt (value_lt_top d))

theorem top_congr (h : d.digits ≠ 0) (hvalue : d.value = d'.value) : d.top = d'.top := by
  have h' : d'.digits ≠ 0 := fun hzero => h (value_eq_zero.1 (hvalue.trans (value_eq_zero.2 hzero)))
  exact le_antisymm (top_le h (hvalue ▸ value_lt_top d')) (top_le h' (hvalue ▸ value_lt_top d))

theorem toBinary64_eq_if (s : Bool) (d : Decimal) : d.toBinary64 s =
    if d.digits = 0 then .zero s else if 400 < d.top then .infinite s else if d.top < -400 then .zero s
    else .ofRatio s (d.digits * Nat.pow 10 d.exponent.toNat) (Nat.pow 10 (-d.exponent).toNat) := rfl

theorem toBinary64_congr (s : Bool) (h : d.value = d'.value) : d.toBinary64 s = d'.toBinary64 s := by
  by_cases hd : d.digits = 0
  · have hd' : d'.digits = 0 := value_eq_zero.1 (h.symm.trans (value_eq_zero.2 hd))
    rw [toBinary64_eq_if, toBinary64_eq_if, if_pos hd, if_pos hd']
  have hd' : d'.digits ≠ 0 := fun hzero => hd (value_eq_zero.1 (h.trans (value_eq_zero.2 hzero)))
  have hratio : ofRatio s (d.digits * Nat.pow 10 d.exponent.toNat) (Nat.pow 10 (-d.exponent).toNat) =
      ofRatio s (d'.digits * Nat.pow 10 d'.exponent.toNat) (Nat.pow 10 (-d'.exponent).toNat) :=
    ofRatio_congr s (by simp) (by simp) ((value_ratio d).trans (h.trans (value_ratio d').symm))
  rw [toBinary64_eq_if, toBinary64_eq_if, if_neg hd, if_neg hd', top_congr hd h, hratio]

theorem toBinary64_neg (d : Decimal) : d.toBinary64 true = neg (d.toBinary64 false) := by
  rw [toBinary64_eq_if, toBinary64_eq_if, ofRatio_neg]
  split_ifs <;> rfl

/-- The numbers lie well within the powers of ten that settle the range. -/
theorem two_zpow_le (hk : k ≤ 1200) : (2 : ℚ) ^ k ≤ 10 ^ (400 : Int) := by
  calc (2 : ℚ) ^ k ≤ 2 ^ ((3 * 400 : Nat) : Int) := zpow_le_zpow_right₀ one_le_two hk
    _ = (2 ^ 3) ^ 400 := by rw [zpow_natCast, pow_mul]
    _ ≤ 10 ^ 400 := pow_le_pow_left₀ (by norm_num) (by norm_num) 400

theorem toBinary64_eq (hc : Canonical m e) (h : d.value = m * 2 ^ e) : d.toBinary64 s = .finite s m e hc := by
  by_cases hd : d.digits = 0
  · have hm : m = 0 := by
      have hzero := h.symm.trans (value_eq_zero.2 hd)
      simpa [zpow_ne_zero] using hzero
    subst hm
    obtain rfl := hc.exponent_eq
    rw [toBinary64_eq_if, if_pos hd]
    rfl
  have hm : m ≠ 0 := by
    rintro rfl
    exact hd (value_eq_zero.1 (by rw [h, Nat.cast_zero, zero_mul]))
  have hhigh : d.top ≤ 400 := by
    refine top_le hd ?_
    have hlimit : (m * 2 ^ e : ℚ) < 2 ^ (53 : Int) * 2 ^ (971 : Int) := magnitude_lt (.finite false m e hc)
    rw [h]
    rw [← zpow_add₀ two_ne_zero] at hlimit
    exact hlimit.trans_le (two_zpow_le (by decide))
  have hlow : -400 < d.top := by
    refine lt_top ?_
    rw [h]
    calc (10 : ℚ) ^ (-400 : Int) ≤ 1 * 2 ^ (-1074 : Int) := by
          rw [one_mul, zpow_neg, zpow_neg]
          exact inv_anti₀ (by positivity) (two_zpow_le (by decide))
      _ ≤ m * 2 ^ e := mul_le_mul (by exact_mod_cast Nat.one_le_iff_ne_zero.2 hm)
          (zpow_le_zpow_right₀ one_le_two hc.2.1) (by positivity) (by positivity)
  rw [toBinary64_eq_if, if_neg hd, if_neg (not_lt.2 hhigh), if_neg (not_lt.2 hlow.le)]
  exact ofRatio_eq hc (by simp) ((value_ratio d).trans h)

theorem value_shift (n : Nat) (e : Int) (k : Nat) : value ⟨n * 10 ^ k, e - k⟩ = value ⟨n, e⟩ := by
  have hpow : (10 : ℚ) ^ k * 10 ^ (e - k) = 10 ^ e := by
    rw [← zpow_natCast, ← zpow_add₀ (by norm_num), add_sub_cancel]
  simp only [value]
  push_cast
  rw [mul_assoc, hpow]

theorem trim_value (fuel : Nat) (d : Decimal) : (d.trim fuel).value = d.value := by
  induction fuel generalizing d with
  | zero => rfl
  | succ fuel ih =>
    rw [trim]
    split_ifs with h
    · have hdigits : d.digits / 10 * 10 ^ 1 = d.digits := by omega
      have hshift := value_shift (d.digits / 10) (d.exponent + 1) 1
      rw [hdigits, Nat.cast_one, add_sub_cancel_right] at hshift
      rw [ih, ← hshift]
    · rfl

theorem exact_value (m : Nat) (e : Int) : (exact m e).value = m * 2 ^ e := by
  rw [exact]
  split_ifs with he
  · obtain ⟨k, rfl⟩ := Int.eq_ofNat_of_zero_le he
    simp [value]
  · obtain ⟨k, rfl⟩ : ∃ k : Nat, e = -k := ⟨(-e).toNat, by omega⟩
    have hpow : (10 : ℚ) ^ k = 2 ^ k * 5 ^ k := by rw [← mul_pow]; norm_num
    simp only [value, neg_neg, Int.toNat_natCast, zpow_neg, zpow_natCast, hpow, Nat.pow_eq]
    push_cast
    field_simp

theorem shortest_toBinary64 (hc : Canonical m e) : (shortest m e).toBinary64 s = .finite s m e hc := by
  have hexact : ofRatio false (scaleNum m e) (scaleDen e) = .finite false m e hc :=
    ofRatio_eq hc (scaleDen_ne e) (scale_eq m e)
  have hpositive : (shortest m e).toBinary64 false = .finite false m e hc := by
    rw [shortest, toBinary64_congr false (trim_value _ _)]
    generalize hfound : (List.range 17).findSome? _ = found
    cases found with
    | none => exact toBinary64_eq hc (exact_value m e)
    | some c =>
      -- what was found reads back, since that is how it was looked for
      obtain ⟨k, -, hk⟩ := List.exists_of_findSome?_eq_some hfound
      have hback := List.find?_some hk
      exact (of_decide_eq_true hback).trans hexact
  cases s with
  | false => exact hpositive
  | true => rw [toBinary64_neg, hpositive]; rfl

end Decimal
end HuntDraw
