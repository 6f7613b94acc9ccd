import HuntDraw.Engine.World
import HuntDraw.Proofs.Text.Blank
import Mathlib.Data.List.Basic

/-! Ids are given out once: the text of an id tells its number, and no id holds a slash, so that the id at the end of a
handle can be told from what stands before it. -/

namespace HuntDraw.Action

def digitValue (c : Char) : Nat := if c.isDigit then c.toNat - '0'.toNat else c.toNat - 'a'.toNat + 10

def digitsValue (cs : List Char) : Nat := cs.foldl (fun n c => 16 * n + digitValue c) 0

theorem digitValue_digitChar {d : Nat} (h : d < 16) : digitValue d.digitChar = d := by
  decide +revert

theorem digitsValue_append (cs : List Char) (c : Char) :
    digitsValue (cs ++ [c]) = 16 * digitsValue cs + digitValue c := by
  simp [digitsValue]

theorem digitsValue_toDigits (n : Nat) : digitsValue (Nat.toDigits 16 n) = n := by
  induction n using Nat.strongRecOn with
  | ind n ih =>
    rw [Nat.toDigits_eq_if (by decide)]
    split_ifs with hn
    · simpa [digitsValue] using digitValue_digitChar hn
    · rw [digitsValue_append, ih (n / 16) (by omega), digitValue_digitChar (Nat.mod_lt n (by decide))]
      omega

theorem digitsValue_zeros (k : Nat) (cs : List Char) :
    digitsValue (List.replicate k '0' ++ cs) = digitsValue cs := by
  have hzeros : (List.replicate k '0').foldl (fun n c => 16 * n + digitValue c) 0 = 0 := by
    induction k with
    | zero => rfl
    | succ k ih => exact ih
  rw [digitsValue, List.foldl_append, hzeros]
  rfl

theorem idText_injective {m n : Nat} (h : idText m = idText n) : m = n := by
  have hvalue : ∀ k, digitsValue (idText k).toList = k := fun k => by
    rw [idText, String.toList_ofList, digitsValue_zeros, digitsValue_toDigits]
  rw [← hvalue m, h, hvalue n]

theorem notMem_toDigits {c : Char} (hc : ∀ d < 16, c ≠ d.digitChar) (n : Nat) : c ∉ Nat.toDigits 16 n := by
  induction n using Nat.strongRecOn with
  | ind n ih =>
    rw [Nat.toDigits_eq_if (by decide)]
    split_ifs with hn
    · simp [hc n hn]
    · rw [List.mem_append, List.mem_singleton, not_or]
      exact ⟨ih (n / 16) (by omega), hc _ (Nat.mod_lt n (by decide))⟩

theorem notMem_idText {c : Char} (hc : ∀ d < 16, c ≠ d.digitChar) (n : Nat) : c ∉ (idText n).toList := by
  rw [idText, String.toList_ofList, List.mem_append, not_or]
  exact ⟨fun h => hc 0 (by decide) (List.eq_of_mem_replicate h), notMem_toDigits hc n⟩

theorem slash_notMem_idText (n : Nat) : '/' ∉ (idText n).toList := notMem_idText (by decide) n

theorem eq_behind_last {sep : Char} {before before' after after' : List Char} (hafter : sep ∉ after)
    (hafter' : sep ∉ after') (h : before ++ sep :: after = before' ++ sep :: after') : after = after' := by
  have hlast : ∀ before after : List Char, sep ∉ after →
      (before ++ sep :: after).reverse.takeWhile (· ≠ sep) = after.reverse := fun before after hafter => by
    have hall : ∀ c ∈ after.reverse, decide (c ≠ sep) = true := fun c hc =>
      decide_eq_true fun heq => hafter (List.mem_reverse.1 (heq ▸ hc))
    rw [List.reverse_append, List.reverse_cons, List.append_assoc]
    exact (Text.scan_append hall (by simp) before.reverse).1
  have hreverse := hlast before after hafter
  rw [h, hlast before' after' hafter'] at hreverse
  exact (List.reverse_injective hreverse).symm

def executionHandle (resource : String) (n : Nat) : String := resource ++ "/executions/" ++ idText n

/-- The id at the end of the handle of an execution is told by the handle. -/
theorem executionHandle_number {resource resource' : String} {m n : Nat}
    (h : executionHandle resource m = executionHandle resource' n) : m = n := by
  have hparts : ∀ (r : String) (k : Nat), (executionHandle r k).toList =
      (r.toList ++ "/executions".toList) ++ '/' :: (idText k).toList := fun r k => by
    simp [executionHandle, String.toList_append]
  have hlists := congrArg String.toList h
  rw [hparts, hparts] at hlists
  exact idText_injective (String.toList_injective
    (eq_behind_last (slash_notMem_idText m) (slash_notMem_idText n) hlists))

end HuntDraw.Action
