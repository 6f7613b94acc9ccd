import HuntDraw.Text.Order
import Mathlib.Data.List.Basic

/-! The order of texts by code point is a total order: it is the lexicographic order of their code
points, and a text is known by these. So is the order by 16-bit units, by which a text is known too. -/

namespace HuntDraw

theorem then_of_ne {o p : Ordering} (h : o ≠ .eq) : o.then p = o := by
  cases o with
  | eq => exact absurd rfl h
  | lt => rfl
  | gt => rfl

namespace Text

open Std

theorem orderNats_eq (xs ys : List Nat) : orderNats xs ys = compare xs ys := by
  induction xs generalizing ys with
  | nil => cases ys <;> rfl
  | cons x xs ih =>
    cases ys with
    | nil => rfl
    | cons y ys => rw [orderNats, ih, List.compare_cons_cons]

theorem codePoints_injective {a b : String} (h : codePoints a = codePoints b) : a = b :=
  String.toList_injective (List.map_injective_iff.2 (fun _ _ => Char.toNat_inj.1) h)

theorem order_eq : order = compareOn codePoints := by
  funext a b
  exact orderNats_eq _ _

instance : TransCmp order := order_eq ▸ inferInstance

instance : LawfulEqCmp order where
  compare_self := ReflCmp.compare_self
  eq_of_compare h := by
    rw [order_eq] at h
    exact codePoints_injective (LawfulEqOrd.eq_of_compare h)

theorem le_trans (a b c : String) (hab : le a b) (hbc : le b c) : le a c :=
  TransCmp.isLE_trans hab hbc

theorem le_total (a b : String) : (le a b || le b a) = true := by
  have hswap : order b a = (order a b).swap := OrientedCmp.eq_swap
  rw [le, le, hswap]
  cases order a b <;> rfl

theorem le_antisymm {a b : String} (hab : le a b) (hba : le b a) : a = b :=
  LawfulEqCmp.eq_of_compare (OrientedCmp.isLE_antisymm hab hba)

section Units

variable {c d : Char} {cs ds : List Char} {us vs : List Nat}

theorem toNat_bounds (c : Char) : c.toNat < 0xD800 ∨ 0xDFFF < c.toNat ∧ c.toNat < 0x110000 := c.valid

/-- The units of a character tell it from all others, and where it ends: no half of a pair is a character. -/
theorem charUnits16_append (h : charUnits16 c ++ us = charUnits16 d ++ vs) : c = d ∧ us = vs := by
  have hc := toNat_bounds c
  have hd := toNat_bounds d
  rw [← Char.toNat_inj]
  simp only [charUnits16] at h
  split_ifs at h <;> simp only [List.cons_append, List.nil_append, List.cons.injEq] at h
  · exact h
  · omega
  · omega
  · exact ⟨by omega, h.2.2⟩

theorem units16_injective (h : units16 cs = units16 ds) : cs = ds := by
  have hne : ∀ c, charUnits16 c ≠ [] := fun c => by
    rw [charUnits16]
    split <;> exact List.cons_ne_nil _ _
  induction cs generalizing ds with
  | nil =>
    cases ds with
    | nil => rfl
    | cons d ds => exact absurd (List.append_eq_nil_iff.1 h.symm).1 (hne d)
  | cons c cs ih =>
    cases ds with
    | nil => exact absurd (List.append_eq_nil_iff.1 h).1 (hne c)
    | cons d ds =>
      obtain ⟨rfl, hrest⟩ := charUnits16_append h
      rw [ih hrest]

theorem order16_eq : order16 = compareOn units16 := by
  funext cs ds
  exact orderNats_eq _ _

instance : TransCmp order16 := order16_eq ▸ inferInstance

instance : LawfulEqCmp order16 where
  compare_self := ReflCmp.compare_self
  eq_of_compare h := by
    rw [order16_eq] at h
    exact units16_injective (LawfulEqOrd.eq_of_compare h)

end Units

end Text
end HuntDraw
