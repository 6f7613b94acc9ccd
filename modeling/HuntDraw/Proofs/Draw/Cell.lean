import HuntDraw.Draw.Document
import HuntDraw.Proofs.Draw.Ranking
import HuntDraw.Proofs.Number.Numeral
import HuntDraw.Proofs.Schema.Checked

/-! Cells: what each kind of field is written as is read back as the value of the field, numbers up to the sign of a
zero. -/

namespace HuntDraw.Document

open Csv Check Checked Numeral Binary64

variable {s : String} {i : Int} {x : Binary64} {v : Json}

theorem unblank_text (h : Text.Filled s) : unblank (.text s) = .text s := by
  simp [unblank, h.2, h.1]

theorem unblank_eq_text (h : unblank v = .text s) : Text.Filled s := by
  match v with
  | .text t =>
    simp only [unblank] at h
    split_ifs at h with hempty
    obtain rfl := Json.text.inj h
    exact ⟨fun heq => hempty (by rw [heq]; rfl), Text.strip_strip t⟩
  | .null | .bool _ | .int _ | .float _ | .list _ | .object _ => simp [unblank] at h

def ofNumber (x : Binary64) : Json :=
  match x.isInteger, x.truncate with
  | true, .ok i => .int i
  | _, _ => .float x

variable {m n : Nat} {e : Int} {hc : Canonical m e}

theorem ofNumber_whole (b : Bool) (h : (m * 2 ^ e : ℚ) = n) :
    ofNumber (.finite b m e hc) = .int (if b then -(n : Int) else n) := by
  rw [ofNumber, isInteger_of_value h, truncate_of_value h]

theorem ofNumber_fraction (h : ¬x.isInteger) : ofNumber x = .float x := by
  rw [ofNumber, Bool.eq_false_iff.2 h]

theorem ofNumber_ne (x : Binary64) : ofNumber x ≠ .null := by
  rw [ofNumber]
  split <;> simp

theorem numeral_spelt (h : Spelt s) (hread : Numeral.document? s = some x) : numeral (.text s) = ofNumber x := by
  rw [numeral, unblank_text h.filled]
  simp only [hread]
  rfl

theorem numeral_toString (hc : Canonical m e) (hvalue : (m * 2 ^ e : ℚ) = i.natAbs) :
    numeral (.text (toString i)) = .int i := by
  have hexact : Decimal.toBinary64 (decide (i < 0)) ⟨i.natAbs, 0⟩ = .finite (decide (i < 0)) m e hc :=
    Decimal.toBinary64_eq hc (by simp [Decimal.value, hvalue])
  have hsigned : (if decide (i < 0) then -(i.natAbs : Int) else i.natAbs) = i := by
    by_cases hi : i < 0
    · rw [if_pos (decide_eq_true hi)]
      omega
    · rw [if_neg (by simpa using hi)]
      omega
  rw [numeral_spelt (spelt_toString i) (document?_toString i), hexact, ofNumber_whole _ hvalue, hsigned]

theorem numeral_toString_of_le (h : i.natAbs ≤ 2 ^ 53) : numeral (.text (toString i)) = .int i := by
  obtain ⟨m, e, hc, hvalue⟩ := exists_canonical h
  exact numeral_toString hc hvalue

/-- A number is read from its cell as a whole number, or as itself. -/
theorem numeral_numberText (hx : x.isFinite) : numeral (.text (Cell.numberText x)) = ofNumber x := by
  match x with
  | .finite b m e hc =>
    by_cases hinteger : (Binary64.finite b m e hc).isInteger
    · obtain ⟨n, hn⟩ := value_of_isInteger hinteger
      have habs : (if b then -(n : Int) else n).natAbs = n := by split_ifs <;> simp
      rw [Cell.numberText, hinteger, truncate_of_value hn, ofNumber_whole b hn]
      exact numeral_toString hc (by rw [habs, hn])
    · rw [Cell.numberText, Bool.eq_false_iff.2 hinteger]
      exact numeral_spelt (spelt_text hx) (document?_text hx)

/-- What a number that is not below zero is read as is the number without its sign. -/
theorem number_ofNumber (hx : x.isFinite) (h : ¬x.Negative) : number (ofNumber x) = .valid x.unsigned := by
  match x with
  | .finite b m e hc =>
    by_cases hinteger : (Binary64.finite b m e hc).isInteger
    · obtain ⟨n, hn⟩ := value_of_isInteger hinteger
      have hpositive : (if b then -(n : Int) else n) = n := by
        cases b with
        | false => rfl
        | true =>
          obtain rfl := eq_zero_of_not_negative h
          obtain rfl : n = 0 := by simpa using hn.symm
          rfl
      have hexact : ofRatio false n 1 = .finite false m e hc :=
        ofRatio_eq hc one_ne_zero (by rw [Nat.cast_one, div_one, hn])
      rw [ofNumber_whole b hn, hpositive, number, ofInt?, decide_eq_false (by omega), Int.natAbs_natCast, hexact]
      rfl
    · have hunsigned : (Binary64.finite b m e hc).unsigned = .finite b m e hc := by
        cases b with
        | false => rfl
        | true =>
          obtain rfl := eq_zero_of_not_negative h
          exact absurd (isInteger_of_value (n := 0) (by simp)) hinteger
      rw [ofNumber_fraction hinteger, hunsigned, number]

theorem numberFrom_numeral (hx : x.isFinite) (h : ¬x.Negative) :
    numberFrom 0 (numeral (.text (Cell.numberText x))) = .valid x.unsigned := by
  rw [numeral_numberText hx, numberFrom, number_ofNumber hx h, andThen, if_pos (zero_le_unsigned hx)]

theorem nullable_of_ne {α : Type} {check : Check α} (h : v ≠ .null) : nullable check v = (check v).map some := by
  cases v with
  | null => exact absurd rfl h
  | _ => rfl

theorem wholeFrom_int (h : 0 ≤ i) : wholeFrom 0 (.int i) = .valid i := if_pos h

theorem count_cell {o : Option Int} (h : ∀ i, o = some i → 0 ≤ i ∧ i ≤ 2 ^ 53) :
    count (.text (Cell.ofInt? o).render) = .valid o := by
  cases o with
  | none => rfl
  | some i =>
    obtain ⟨hlow, hhigh⟩ := h i rfl
    have hnumeral : numeral (.text (Cell.ofInt? (some i)).render) = .int i := numeral_toString_of_le (by omega)
    rw [count, hnumeral, nullable_of_ne (by simp), wholeFrom_int hlow]
    rfl

theorem tally_cell (h : 0 ≤ i ∧ i ≤ 2 ^ 53) : tally (.text (Cell.whole i).render) = .valid i := by
  have hnumeral : numeral (.text (Cell.whole i).render) = .int i := numeral_toString_of_le (by omega)
  rw [tally, numeralOrZero, hnumeral]
  exact wholeFrom_int h.1

theorem percent_cell {o : Option Binary64} (h : ∀ x, o = some x → x.isFinite ∧ ¬x.Negative) :
    percent (.text (Cell.ofNumber? o).render) = .valid (o.map unsigned) := by
  cases o with
  | none => rfl
  | some x =>
    obtain ⟨hx, hneg⟩ := h x rfl
    have hne : numeral (.text (Cell.ofNumber? (some x)).render) ≠ .null := (numeral_numberText hx).symm ▸ ofNumber_ne x
    rw [percent, nullable_of_ne hne]
    exact map_eq_valid.2 ⟨_, numberFrom_numeral hx hneg, rfl⟩

theorem points_cell (hx : x.isFinite) (hneg : ¬x.Negative) :
    numberFrom 0 (numeralOrZero (.text (Cell.number x).render)) = .valid x.unsigned := by
  have hne : numeral (.text (Cell.number x).render) ≠ .null := (numeral_numberText hx).symm ▸ ofNumber_ne x
  have hor : numeralOrZero (.text (Cell.number x).render) = numeral (.text (Cell.number x).render) := by
    rw [numeralOrZero]
    split
    · exact absurd ‹_› hne
    · rfl
  rw [hor]
  exact numberFrom_numeral hx hneg

theorem whole_cell (h : i.natAbs ≤ 2 ^ 53) : whole (numeral (.text (Cell.whole i).render)) = .valid i := by
  rw [Cell.render, numeral_toString_of_le h, whole]

theorem yesNo_cell (b : Bool) : yesNo (.text (Cell.flag b).render) = .valid b := by
  cases b <;> rfl

theorem yesNoOrNo_cell (b : Bool) : yesNoOrNo (.text (Cell.flag b).render) = .valid b := by
  cases b <;> rfl

theorem name_cell (h : Text.Filled s) : name (.text (Cell.text s).render) = .valid s :=
  filledText_eq_valid.2 ⟨unblank_text h, h.1⟩

theorem name_filled (h : name v = .valid s) : Text.Filled s := unblank_eq_text (filledText_eq_valid.1 h).1

theorem optionalText_cell {o : Option String} (h : ∀ s, o = some s → Text.Filled s) :
    optionalText (.text (Cell.ofText? o).render) = .valid o := by
  cases o with
  | none => rfl
  | some s =>
    rw [optionalText, Cell.ofText?, Cell.render, unblank_text (h s rfl)]
    rfl

theorem optionalText_filled {o : Option String} (h : optionalText v = .valid o) : ∀ s, o = some s → Text.Filled s := by
  rintro s rfl
  exact unblank_eq_text (text_eq_valid.1 (nullable_eq_some h))

theorem residency_cell {r : Residency} (h : r.IsKnown) :
    member Residency (.text (Cell.text r.text).render) = .valid r := by
  cases r with
  | resident => rfl
  | nonResident => rfl
  | other t => simp [Residency.IsKnown] at h

theorem outcome_cell (o : Option Outcome) :
    nullable (member Outcome) (unblank (.text (Cell.ofText? (o.map Outcome.text)).render)) = .valid o := by
  match o with
  | none | some .awarded | some .notAwarded => rfl

end HuntDraw.Document
