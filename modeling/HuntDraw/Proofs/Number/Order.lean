import HuntDraw.Number.Binary64
import Mathlib.Data.Rat.Cast.Order
import Mathlib.Order.WithBot
import Mathlib.Tactic

/-! Numbers that are numbers are totally ordered: each stands at a place among the multiples of the
least positive one, or beyond all of them on its side. This is the order of their values. -/

namespace HuntDraw.Binary64

/-- On which side of the finite numbers a number stands, and which multiple of `2 ^ -1074` it is. -/
def place : Binary64 → Int × Int
  | .nan => (0, 0)
  | .infinite s => (if s then -1 else 1, 0)
  | .finite s m e _ => (0, multiple s m e (-1074))

def order : Binary64 → Binary64 → Ordering :=
  compareLex (compareOn fun x => x.place.1) (compareOn fun x => x.place.2)

instance : Std.TransCmp order :=
  inferInstanceAs (Std.TransCmp (compareLex (compareOn _) (compareOn _)))

theorem compare_mul_right {k : Int} (hk : 0 < k) (a b : Int) : compare (a * k) (b * k) = compare a b := by
  rcases lt_trichotomy a b with h | rfl | h
  · rw [compare_lt_iff_lt.2 h, compare_lt_iff_lt.2 (mul_lt_mul_of_pos_right h hk)]
  · rw [compare_eq_iff_eq.2 rfl, compare_eq_iff_eq.2 rfl]
  · rw [compare_gt_iff_gt.2 h, compare_gt_iff_gt.2 (mul_lt_mul_of_pos_right h hk)]

theorem multiple_least (s : Bool) (m : Nat) {e unit : Int} (hu : -1074 ≤ unit) (he : unit ≤ e) :
    multiple s m e (-1074) = multiple s m e unit * (2 ^ (unit + 1074).toNat : Nat) := by
  have hsum : (e - -1074).toNat = (e - unit).toNat + (unit + 1074).toNat := by omega
  have hpow : m * Nat.pow 2 (e - -1074).toNat =
      m * Nat.pow 2 (e - unit).toNat * 2 ^ (unit + 1074).toNat := by
    rw [hsum, Nat.mul_assoc]
    exact congrArg (m * ·) (pow_add 2 _ _)
  simp only [multiple, hpow]
  cases s <;> simp

theorem order?_eq {x y : Binary64} (hx : x ≠ .nan) (hy : y ≠ .nan) : order? x y = some (order x y) := by
  match x, y with
  | .nan, _ => exact absurd rfl hx
  | _, .nan => exact absurd rfl hy
  | .infinite s, .infinite t => cases s <;> cases t <;> rfl
  | .infinite s, .finite .. => cases s <;> rfl
  | .finite .., .infinite t => cases t <;> rfl
  | .finite s m e he, .finite t n f hf =>
    have hu : -1074 ≤ min e f := le_min he.2.1 hf.2.1
    have hx := multiple_least s m hu (min_le_left e f)
    have hy := multiple_least t n hu (min_le_right e f)
    have hpos : (0 : Int) < (2 ^ (min e f + 1074).toNat : Nat) := by positivity
    have hplace : order (.finite s m e he) (.finite t n f hf) =
        compare (multiple s m e (-1074)) (multiple t n f (-1074)) := rfl
    rw [hplace, hx, hy, compare_mul_right hpos, order?]

/-- The exact value of a number; what is not finite has none, and counts as nothing. -/
def value : Binary64 → ℚ
  | .finite s m e _ => (if s then -1 else 1) * (m * 2 ^ e)
  | _ => 0

@[simp] theorem value_zero (s : Bool) : (zero s).value = 0 := by
  simp [zero, value]

theorem value_eq_multiple (s : Bool) (m : Nat) {e unit : Int} (hc : Canonical m e) (hunit : unit ≤ e) :
    (finite s m e hc).value = multiple s m e unit * 2 ^ unit := by
  have hpow : (2 : ℚ) ^ e = ((2 ^ (e - unit).toNat : Nat) : ℚ) * 2 ^ unit := by
    rw [Nat.cast_pow, Nat.cast_ofNat, ← zpow_natCast, ← zpow_add₀ two_ne_zero]
    congr 1
    omega
  rw [value, multiple, hpow]
  cases s <;> simp <;> ring

/-- The value of a number, with the infinities at the ends. -/
def extended : Binary64 → WithBot (WithTop ℚ)
  | .infinite true => ⊥
  | .infinite false => ((⊤ : WithTop ℚ) : WithBot (WithTop ℚ))
  | x => ((x.value : WithTop ℚ) : WithBot (WithTop ℚ))

theorem extended_finite (s : Bool) (m : Nat) (e : Int) (hc : Canonical m e) :
    (finite s m e hc).extended = (((finite s m e hc).value : WithTop ℚ) : WithBot (WithTop ℚ)) := rfl

theorem order_eq_extended {x y : Binary64} (hx : x ≠ .nan) (hy : y ≠ .nan) :
    order x y = compare x.extended y.extended := by
  match x, y with
  | .nan, _ => exact absurd rfl hx
  | _, .nan => exact absurd rfl hy
  | .infinite s, .infinite t => cases s <;> cases t <;> rfl
  | .infinite s, .finite .. => cases s <;> rfl
  | .finite .., .infinite t => cases t <;> rfl
  | .finite s m e he, .finite t n f hf =>
    have hunit : StrictMono fun i : Int => (i : ℚ) * 2 ^ (-1074 : Int) :=
      fun i j hij => mul_lt_mul_of_pos_right (by exact_mod_cast hij) (by positivity)
    have hcoe : StrictMono fun q : ℚ => ((q : WithTop ℚ) : WithBot (WithTop ℚ)) :=
      fun p q hpq => WithBot.coe_lt_coe.2 (WithTop.coe_lt_coe.2 hpq)
    calc order (.finite s m e he) (.finite t n f hf)
        = cmp (multiple s m e (-1074)) (multiple t n f (-1074)) := (cmp_eq_compare _ _).symm
      _ = cmp (extended (.finite s m e he)) (extended (.finite t n f hf)) := by
        rw [extended_finite, extended_finite, value_eq_multiple s m he he.2.1, value_eq_multiple t n hf hf.2.1]
        exact ((hcoe.comp hunit).cmp_map_eq _ _).symm
      _ = compare (extended (.finite s m e he)) (extended (.finite t n f hf)) := cmp_eq_compare _ _

end HuntDraw.Binary64
