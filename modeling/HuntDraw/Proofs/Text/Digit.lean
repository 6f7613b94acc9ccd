import HuntDraw.Proofs.Number.Numeral
import HuntDraw.Text.Case
import HuntDraw.Text.Digit
import Mathlib.Data.Nat.Digits.Lemmas

/-! Digits of any script. A row of decimal digits that is not too long is read as the number that it stands for in base
ten, and nothing else is read. Folding the case of a text leaves its digits alone and makes no new ones. -/

namespace HuntDraw.Text

variable {c : Char} {cs : List Char} {n v : Nat}

section Values

theorem isDecimal_iff : isDecimal c ↔ ∃ z ∈ decimalZeros, z ≤ c.toNat ∧ c.toNat < z + 10 := by
  have hplain : c.isDigit ↔ 48 ≤ c.toNat ∧ c.toNat ≤ 57 := Numeral.isAsciiDigit_iff
  rw [isDecimal, decimalValue?]
  split_ifs with hascii hdigit
  · exact iff_of_true rfl ⟨48, by decide, (hplain.1 hdigit).1, Nat.lt_succ_of_le (hplain.1 hdigit).2⟩
  · have hzeros : ∀ z ∈ decimalZeros, z = 48 ∨ 128 ≤ z := by decide
    refine iff_of_false Bool.false_ne_true ?_
    rintro ⟨z, hz, hlow, hhigh⟩
    rcases hzeros z hz with rfl | hz
    · exact hdigit (hplain.2 ⟨hlow, by omega⟩)
    · omega
  · simp

theorem decimalValue?_lt (h : decimalValue? c = some v) : v < 10 := by
  have hplain : c.isDigit ↔ 48 ≤ c.toNat ∧ c.toNat ≤ 57 := Numeral.isAsciiDigit_iff
  rw [decimalValue?] at h
  split_ifs at h with hascii hdigit
  · have := hplain.1 hdigit
    rw [Option.some.injEq] at h
    omega
  · obtain ⟨z, hz, rfl⟩ := Option.map_eq_some_iff.1 h
    have hin := List.find?_some hz
    simp only [Bool.and_eq_true, decide_eq_true_eq] at hin
    omega

def digitValue (c : Char) : Nat := (decimalValue? c).getD 0

theorem digitValue_lt (c : Char) : digitValue c < 10 := by
  rw [digitValue]
  cases h : decimalValue? c with
  | none => decide
  | some v => exact decimalValue?_lt h

theorem decimalValue?_eq_some (h : isDecimal c) : decimalValue? c = some (digitValue c) := by
  obtain ⟨v, hv⟩ := Option.isSome_iff_exists.1 h
  rw [digitValue, hv, Option.getD_some]

def numeralValue (cs : List Char) : Nat := Nat.ofDigits 10 (cs.reverse.map digitValue)

theorem numeralValue_cons (c : Char) (cs : List Char) :
    numeralValue (c :: cs) = digitValue c * 10 ^ cs.length + numeralValue cs := by
  simp [numeralValue, Nat.ofDigits_append]
  ring

theorem numeralValue_lt (cs : List Char) : numeralValue cs < 10 ^ cs.length := by
  have hlength : (cs.reverse.map digitValue).length = cs.length := by rw [List.length_map, List.length_reverse]
  rw [numeralValue, ← hlength]
  refine Nat.ofDigits_lt_base_pow_length (by decide) fun v hv => ?_
  obtain ⟨c, -, rfl⟩ := List.mem_map.1 hv
  exact digitValue_lt c

theorem readDecimal_eq_some {acc : Nat} :
    readDecimal acc cs = some n ↔ (∀ c ∈ cs, isDecimal c) ∧ n = acc * 10 ^ cs.length + numeralValue cs := by
  induction cs generalizing acc with
  | nil =>
    have hvalue : numeralValue [] = 0 := rfl
    simp only [readDecimal, Option.some.injEq, List.length_nil, pow_zero, hvalue]
    exact ⟨fun h => ⟨List.forall_mem_nil _, by omega⟩, fun h => by omega⟩
  | cons c cs ih =>
    rw [readDecimal, List.forall_mem_cons]
    cases hc : isDecimal c with
    | false =>
      have hnone : decimalValue? c = none := Option.isSome_eq_false_iff.1 hc |> Option.isNone_iff_eq_none.1
      simp [hnone]
    | true =>
      rw [decimalValue?_eq_some hc]
      simp only [ih, true_and, numeralValue_cons, List.length_cons]
      have hsum : (10 * acc + digitValue c) * 10 ^ cs.length + numeralValue cs =
          acc * 10 ^ (cs.length + 1) + (digitValue c * 10 ^ cs.length + numeralValue cs) := by ring
      rw [hsum]

theorem readNumeral?_eq_some :
    readNumeral? cs = some n ↔ cs ≠ [] ∧ (∀ c ∈ cs, isDecimal c) ∧ n = numeralValue cs := by
  cases cs with
  | nil => simp [readNumeral?]
  | cons c cs =>
    rw [readNumeral?, readDecimal_eq_some]
    · simp
    · simp

/-- Decimal digits are read as the number that they stand for, unless there are too many. -/
theorem parseNumeral_eq_ok : parseNumeral cs = .ok n ↔
    cs ≠ [] ∧ (∀ c ∈ cs, isDecimal c) ∧ cs.length ≤ numeralLimit ∧ n = numeralValue cs := by
  rw [parseNumeral]
  split_ifs with hlimit
  · refine iff_of_false (by simp) fun ⟨_, hall, hlength, _⟩ => ?_
    rw [List.takeWhile_eq_self_iff.2 hall] at hlimit
    omega
  · cases hread : readNumeral? cs with
    | none =>
      refine iff_of_false (by simp) fun ⟨hne, hall, _, _⟩ => ?_
      exact absurd (readNumeral?_eq_some.2 ⟨hne, hall, rfl⟩) (by simp [hread])
    | some m =>
      obtain ⟨hne, hall, rfl⟩ := readNumeral?_eq_some.1 hread
      rw [List.takeWhile_eq_self_iff.2 hall, not_lt] at hlimit
      exact ⟨fun h => ⟨hne, hall, hlimit, (Except.ok.inj h).symm⟩, fun h => congrArg Except.ok h.2.2.2.symm⟩

end Values

section Folding

def apart (low high : Nat) : Bool :=
  (decimalZeros.all fun z => high.blt z || (z + 9).blt low) && otherDigitRanges.all fun d => high.blt d.1 || d.2.blt low

theorem isDigit_eq_false : isDigit c = false ↔ apart c.toNat c.toNat := by
  have hdecimal : isDecimal c = false ↔ ∀ z ∈ decimalZeros, c.toNat < z ∨ z + 9 < c.toNat := by
    rw [← Bool.not_eq_true, isDecimal_iff]
    simp only [not_exists, not_and, not_lt]
    exact forall₂_congr fun z _ => by omega
  have hother : inRanges otherDigitRanges c = false ↔ ∀ d ∈ otherDigitRanges, c.toNat < d.1 ∨ d.2 < c.toNat := by
    simp only [inRanges, List.any_eq_false, Bool.and_eq_true, decide_eq_true_eq]
    exact forall₂_congr fun d _ => by omega
  simp only [isDigit, Bool.or_eq_false_iff, hdecimal, hother, apart, Bool.and_eq_true, List.all_eq_true,
    Bool.or_eq_true, Nat.blt_eq]

/-- What is between two numbers without a digit between them is none. -/
theorem apart_of_le {low high : Nat} (h : apart low high) (hlow : low ≤ n) (hhigh : n ≤ high) : apart n n := by
  simp only [apart, Bool.and_eq_true, List.all_eq_true, Bool.or_eq_true, Nat.blt_eq] at h ⊢
  exact h.imp (fun h z hz => (h z hz).imp (by omega) (by omega)) fun h d hd => (h d hd).imp (by omega) (by omega)

theorem toNat_ofNat (h : n.isValidChar) : (Char.ofNat n).toNat = n := by
  rw [Char.ofNat, dif_pos h]
  rfl

theorem isDigit_ofNat (h : apart n n) : isDigit (Char.ofNat n) = false := by
  rw [isDigit_eq_false]
  by_cases hvalid : n.isValidChar
  · rwa [toNat_ofNat hvalid]
  · rw [Char.ofNat, dif_neg hvalid]
    decide

theorem foldRuns_apart : foldRuns.all fun r => apart r.first r.last && decide (0 ≤ r.first + r.offset) &&
    apart (r.first + r.offset).toNat (r.last + r.offset).toNat := by
  decide +kernel

theorem foldExpansions_apart : foldExpansions.all fun e => apart e.1 e.1 && !e.2.isEmpty && e.2.all fun n => apart n n := by
  decide +kernel

theorem toLower_digits : ∀ n < 128, (isDigit (Char.ofNat n) = true → (Char.ofNat n).toLower = Char.ofNat n) ∧
    (isDigit (Char.ofNat n) = false → isDigit (Char.ofNat n).toLower = false) := by
  decide +kernel

/-- A digit stays as it is, and other characters are folded to others. -/
theorem foldChar_cases (c : Char) : isDigit c = true ∧ foldChar c = [c] ∨
    isDigit c = false ∧ foldChar c ≠ [] ∧ ∀ d ∈ foldChar c, isDigit d = false := by
  rw [foldChar]
  split_ifs with hascii
  · obtain ⟨hdigit, hother⟩ := toLower_digits c.toNat hascii
    rw [Char.ofNat_toNat] at hdigit hother
    cases hc : isDigit c with
    | true => exact .inl ⟨rfl, by rw [hdigit hc]⟩
    | false => exact .inr ⟨rfl, List.cons_ne_nil _ _, List.forall_mem_singleton.2 (hother hc)⟩
  · rw [mapCase]
    cases hrun : foldRuns.find? (·.holds c.toNat) with
    | some r =>
      have hholds := List.find?_some hrun
      simp only [CaseRun.holds, Bool.and_eq_true, decide_eq_true_eq] at hholds
      have hapart := List.all_eq_true.1 foldRuns_apart r (List.mem_of_find?_eq_some hrun)
      simp only [Bool.and_eq_true, decide_eq_true_eq] at hapart
      obtain ⟨⟨hfrom, hstart⟩, hto⟩ := hapart
      refine .inr ⟨isDigit_eq_false.2 (apart_of_le hfrom hholds.1.1 hholds.1.2), List.cons_ne_nil _ _,
        List.forall_mem_singleton.2 (isDigit_ofNat (apart_of_le hto ?_ ?_))⟩ <;> omega
    | none =>
      cases hexpansion : foldExpansions.find? (·.1 = c.toNat) with
      | some e =>
        have hc : e.1 = c.toNat := by simpa using List.find?_some hexpansion
        have hapart := List.all_eq_true.1 foldExpansions_apart e (List.mem_of_find?_eq_some hexpansion)
        simp only [Bool.and_eq_true, List.all_eq_true] at hapart
        obtain ⟨⟨hfrom, hne⟩, hto⟩ := hapart
        exact .inr ⟨isDigit_eq_false.2 (hc ▸ hfrom), by simpa using hne,
          List.forall_mem_map.2 fun n hn => isDigit_ofNat (hto n hn)⟩
      | none =>
        cases hc : isDigit c with
        | true => exact .inl ⟨rfl, rfl⟩
        | false => exact .inr ⟨rfl, List.cons_ne_nil _ _, List.forall_mem_singleton.2 hc⟩

theorem isDecimal_eq_false (h : isDigit c = false) : isDecimal c = false := (Bool.or_eq_false_iff.1 h).1

theorem foldChar_kind (c : Char) :
    foldChar c ≠ [] ∧ ∀ d ∈ foldChar c, isDigit d = isDigit c ∧ isDecimal d = isDecimal c := by
  rcases foldChar_cases c with ⟨hdigit, hself⟩ | ⟨hdigit, hne, hall⟩
  · rw [hself]
    exact ⟨List.cons_ne_nil _ _, List.forall_mem_singleton.2 ⟨rfl, rfl⟩⟩
  · exact ⟨hne, fun d hd => ⟨(hall d hd).trans hdigit.symm,
      (isDecimal_eq_false (hall d hd)).trans (isDecimal_eq_false hdigit).symm⟩⟩

theorem all_isDigit_foldCase (cs : List Char) : (foldCase cs).all isDigit = cs.all isDigit := by
  rw [Bool.eq_iff_iff, List.all_eq_true, List.all_eq_true]
  constructor
  · intro h c hc
    obtain ⟨hne, hkind⟩ := foldChar_kind c
    obtain ⟨d, hd⟩ := List.exists_mem_of_ne_nil _ hne
    exact (hkind d hd).1.symm.trans (h d (List.mem_flatMap.2 ⟨c, hc, hd⟩))
  · intro h d hd
    obtain ⟨c, hc, hd⟩ := List.mem_flatMap.1 hd
    exact ((foldChar_kind c).2 d hd).1.trans (h c hc)

theorem foldCase_eq_self (h : cs.all isDigit) : foldCase cs = cs := by
  have hself : ∀ c ∈ cs, foldChar c = [c] := fun c hc =>
    (foldChar_cases c).elim And.right fun hother => nomatch hother.1.symm.trans (List.all_eq_true.1 h c hc)
  rw [foldCase, List.flatMap_congr hself, List.flatMap_singleton']

end Folding

end HuntDraw.Text
