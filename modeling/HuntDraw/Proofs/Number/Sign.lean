import HuntDraw.Number.Binary64
import Mathlib.Tactic

/-! Signs of numbers: products, quotients and whole parts of numbers that are not below zero are not
below zero either, whatever the rounding. -/

namespace HuntDraw.Binary64

/-- Below zero; a negative zero is not. -/
def Negative : Binary64 → Prop
  | .nan => False
  | .infinite s => s = true
  | .finite s m _ _ => s = true ∧ m ≠ 0

variable {x y : Binary64} {n d : Nat} {i : Int}

theorem ofRatio_zero (s : Bool) (d : Nat) : ofRatio s 0 d = zero s := if_pos rfl

theorem not_negative_zero (s : Bool) : ¬(zero s).Negative := fun h => h.2 rfl

theorem floor_zero (s : Bool) : floor (zero s) = .ok 0 := by
  cases s <;> decide +kernel

theorem mul_zero (x : Binary64) (t : Bool) : (∃ s, mul x (zero t) = zero s) ∨ mul x (zero t) = .nan := by
  match x with
  | .nan | .infinite _ => exact Or.inr rfl
  | .finite s m e _ =>
    refine Or.inl ⟨s != t, ?_⟩
    change ofRatio (s != t) (scaleNum (m * 0) _) _ = _
    rw [Nat.mul_zero, scaleNum, Nat.zero_mul, ofRatio_zero]

theorem zero_div (s : Bool) {f : Int} {hf : Canonical d f} (hd : d ≠ 0) :
    div (zero s) (.finite false d f hf) = zero s := by
  change (if d = 0 then _ else ofRatio (s != false) (scaleNum 0 _ * _) _) = _
  rw [if_neg hd, scaleNum, Nat.zero_mul, Nat.zero_mul, ofRatio_zero, Bool.bne_false]

theorem ofRatio_not_negative (n d : Nat) : ¬(ofRatio false n d).Negative := by
  rw [ofRatio]
  split_ifs
  · exact not_negative_zero false
  · intro h
    simp only at h
    split_ifs at h <;> simp [Negative] at h

theorem mul_not_negative (hx : ¬x.Negative) (hy : ¬y.Negative) : ¬(mul x y).Negative := by
  match x, y with
  | .nan, _ => simp [mul, Negative]
  | .infinite _, .nan | .finite .., .nan => simp [mul, Negative]
  | .infinite s, .infinite t => simp_all [mul, Negative]
  | .infinite s, .finite t n _ _ =>
    rw [mul]
    split_ifs with hn
    · simp [Negative]
    · simp_all [Negative]
  | .finite s m _ _, .infinite t =>
    rw [mul]
    split_ifs with hm
    · simp [Negative]
    · simp_all [Negative]
  | .finite s m e _, .finite t n f _ =>
    rw [mul]
    by_cases hzero : m * n = 0
    · rw [hzero, scaleNum, Nat.zero_mul, ofRatio_zero]
      exact not_negative_zero _
    · obtain ⟨hm, hn⟩ := Nat.mul_ne_zero_iff.1 hzero
      have hs : s = false := by simpa [Negative, hm] using hx
      have ht : t = false := by simpa [Negative, hn] using hy
      rw [hs, ht]
      exact ofRatio_not_negative _ _

theorem div_not_negative {f : Int} {hf : Canonical d f} (hx : ¬x.Negative) (hd : d ≠ 0) :
    ¬(div x (.finite false d f hf)).Negative := by
  match x with
  | .nan => simp [div, Negative]
  | .infinite s => simpa [div, Negative] using hx
  | .finite s m e _ =>
    rw [div, if_neg hd]
    by_cases hm : m = 0
    · rw [hm, scaleNum, Nat.zero_mul, Nat.zero_mul, ofRatio_zero]
      exact not_negative_zero _
    · have hs : s = false := by simpa [Negative, hm] using hx
      rw [hs]
      exact ofRatio_not_negative _ _

theorem floor_nonneg (hx : ¬x.Negative) (h : floor x = .ok i) : 0 ≤ i := by
  match x with
  | .nan | .infinite _ => simp [floor] at h
  | .finite s m e _ =>
    simp only [floor, Except.ok.injEq] at h
    subst h
    by_cases hm : m = 0
    · simp [hm, scaleNum]
    · have hs : s = false := by simpa [Negative, hm] using hx
      rw [hs]
      exact Int.fdiv_nonneg (by simp) (by simp)

/-- What is not below zero in the order of numbers has no negative sign, a negative zero aside. -/
theorem not_negative_of_zero_le (h : (ofNat 0).le x) : ¬x.Negative := by
  have hzero : ofNat 0 = zero false := ofRatio_zero false 1
  rw [hzero, zero, le] at h
  match x with
  | .nan => exact id
  | .infinite s =>
    rintro rfl
    simp [order?] at h
  | .finite s m e _ =>
    rintro ⟨rfl, hm⟩
    have hgt : multiple true m e (min (-1074) e) < multiple false 0 (-1074) (min (-1074) e) := by
      simp only [multiple, if_true, Nat.zero_mul]
      have hpos : 0 < m * Nat.pow 2 (e - min (-1074) e).toNat :=
        Nat.mul_pos (Nat.pos_of_ne_zero hm) (Nat.pow_pos two_pos)
      simpa using hpos
    simp [order?, compare_gt_iff_gt.2 hgt] at h

theorem ofInt?_not_negative (hi : 0 ≤ i) (h : ofInt? i = some x) : ¬x.Negative := by
  rw [ofInt?, decide_eq_false (by omega)] at h
  have hpos := ofRatio_not_negative i.natAbs 1
  split at h
  · simp at h
  · rwa [Option.some.inj h] at hpos

def unsigned : Binary64 → Binary64
  | .finite _ m e h => .finite false m e h
  | x => x

theorem eq_zero_of_not_negative {m : Nat} {e : Int} {hc : Canonical m e} (h : ¬(finite true m e hc).Negative) :
    m = 0 := by
  simpa [Negative] using h

/-- Without a sign, a number that is not below zero is the same value. -/
theorem same_unsigned (hx : x.isFinite) (h : ¬x.Negative) : x.unsigned.same x := by
  match x with
  | .finite s m e hc =>
    have hmultiple : multiple false m e e = multiple s m e e := by
      cases s with
      | false => rfl
      | true =>
        obtain rfl := eq_zero_of_not_negative h
        simp [multiple]
    simp [same, unsigned, order?, hmultiple]

theorem zero_le_unsigned (hx : x.isFinite) : (ofNat 0).le x.unsigned := by
  match x with
  | .finite s m e hc =>
    have hzero : ofNat 0 = zero false := ofRatio_zero false 1
    have hle : multiple false 0 (-1074) (min (-1074) e) ≤ multiple false m e (min (-1074) e) := by
      simp [multiple]
    rw [hzero, zero, le, unsigned]
    rcases hle.lt_or_eq with hlt | heq
    · simp [order?, compare_lt_iff_lt.2 hlt]
    · simp [order?, heq]

end HuntDraw.Binary64
