import HuntDraw.Data.JsonRead
import HuntDraw.Proofs.Data.Fields
import HuntDraw.Proofs.Number.Numeral
import Mathlib.Tactic.IntervalCases

/-! What it takes for a text to be read as a value: texts whose characters are escaped one by one, whole numbers, and
lists and objects with commas between their parts. -/

namespace HuntDraw.Json

variable {v : Json} {cs rest : List Char} {n gap fuel : Nat} {escape : Char → List Char}

section Texts

theorem readChars_plain {c : Char} (hquote : c ≠ '"') (hescape : c ≠ '\\') (hcontrol : ¬c.toNat < 32) :
    readChars (c :: rest) = (fun p => (c :: p.1, p.2)) <$> readChars rest := by
  rw [readChars.eq_7 c rest hquote (fun _ _ _ _ _ h => absurd h hescape) hescape, if_neg hcontrol]

theorem readChars_escaped {letter c : Char} (hletter : letter ≠ 'u') (h : escaped? letter = some c) (e : Char)
    (rest : List Char) :
    readChars ('\\' :: letter :: e :: rest) = (fun p => (c :: p.1, p.2)) <$> readChars (e :: rest) := by
  rw [readChars.eq_6 letter (e :: rest) hletter (by simp [hletter]), h]

theorem unitChar_eq (h : n < 0xD800 ∨ 0xDFFF < n) : isHigh n = false ∧ unitChar n = Char.ofNat n := by
  have hhigh : isHigh n = false := by simp [isHigh]; omega
  have hlow : isLow n = false := by simp [isLow]; omega
  exact ⟨hhigh, by rw [unitChar, hhigh, hlow]; rfl⟩

theorem readChars_unit {a b c d e : Char} (hunit : readHex4? (a :: b :: c :: d :: e :: rest) = some (n, e :: rest))
    (hn : n < 0xD800 ∨ 0xDFFF < n) : readChars ('\\' :: 'u' :: a :: b :: c :: d :: e :: rest) =
      (fun p => (Char.ofNat n :: p.1, p.2)) <$> readChars (e :: rest) := by
  obtain ⟨hhigh, hchar⟩ := unitChar_eq hn
  rw [readChars.eq_3, hunit]
  simp only
  split
  · rename_i heq
    rw [if_neg (fun h => absurd (hhigh.symm.trans h.1) Bool.false_ne_true), ← heq, hchar]
  · rw [hchar]

theorem hexValue?_digitChar (h : n < 16) : hexValue? (Nat.digitChar n) = some n := by
  interval_cases n <;> rfl

theorem readHex4?_digits {a b c d : Nat} (ha : a < 16) (hb : b < 16) (hc : c < 16) (hd : d < 16) (e : Char)
    (rest : List Char) :
    readHex4? (Nat.digitChar a :: Nat.digitChar b :: Nat.digitChar c :: Nat.digitChar d :: e :: rest) =
      some (((a * 16 + b) * 16 + c) * 16 + d, e :: rest) := by
  rw [readHex4?, hexValue?_digitChar ha, hexValue?_digitChar hb, hexValue?_digitChar hc, hexValue?_digitChar hd]
  rfl

def Escapes (escape : Char → List Char) : Prop :=
  ∀ c e rest, readChars (escape c ++ e :: rest) = (fun p => (c :: p.1, p.2)) <$> readChars (e :: rest)

def quoted (escape : Char → List Char) (s : String) : List Char := '"' :: (s.toList.flatMap escape ++ ['"'])

theorem Escapes.readChars_flatMap (h : Escapes escape) (cs rest : List Char) :
    readChars (cs.flatMap escape ++ '"' :: rest) = .ok (cs, rest) := by
  induction cs with
  | nil => rw [List.flatMap_nil, List.nil_append, readChars.eq_2]
  | cons c cs ih =>
    obtain ⟨e, more, hmore⟩ : ∃ e more, cs.flatMap escape ++ '"' :: rest = e :: more :=
      List.exists_cons_of_ne_nil (by simp)
    rw [List.flatMap_cons, List.append_assoc, hmore, h, ← hmore, ih]
    rfl

theorem Escapes.readQuoted (h : Escapes escape) (s : String) (rest : List Char) :
    readQuoted (s.toList.flatMap escape ++ '"' :: rest) = .ok (s, rest) := by
  rw [Json.readQuoted, h.readChars_flatMap]
  simp

end Texts

/-- A character that may start a written value: no blank, and not the end of a list or of an object. -/
def Starts (c : Char) : Prop := ¬(c = ' ' ∨ c = '\t' ∨ c = '\n' ∨ c = '\r') ∧ c ≠ ']' ∧ c ≠ '\x7d' ∧ c ≠ '\uFEFF'

instance (c : Char) : Decidable (Starts c) := inferInstanceAs (Decidable (_ ∧ _))

theorem skipSpace_cons {c : Char} (h : Starts c) : skipSpace (c :: rest) = c :: rest := by
  rw [skipSpace, if_neg h.1]

theorem skipSpace_gap (gap : Nat) (cs : List Char) : skipSpace (List.replicate gap ' ' ++ cs) = skipSpace cs := by
  induction gap with
  | zero => rfl
  | succ gap ih => rw [List.replicate_succ, List.cons_append, skipSpace, if_pos (Or.inl rfl), ih]

def behindCommas (gap : Nat) (parts : List (List Char)) : List Char :=
  parts.flatMap fun cs => ',' :: (List.replicate gap ' ' ++ cs)

/-- What may stand behind a value: nothing, a comma, or the end of a list or of an object. No number goes on there. -/
def Ends (rest : List Char) : Prop := ∀ c ∈ rest.head?, c = ',' ∨ c = ']' ∨ c = '\x7d'

theorem ends_nil : Ends [] := by simp [Ends]

theorem ends_cons {c : Char} (h : c = ',' ∨ c = ']' ∨ c = '\x7d') : Ends (c :: rest) := by simpa [Ends] using h

theorem ends_behindCommas {parts : List (List Char)} (h : Ends rest) : Ends (behindCommas gap parts ++ rest) := by
  cases parts with
  | nil => exact h
  | cons part parts => exact ends_cons (.inl rfl)

/-- A text from which a value is read: before the end of what it stands in, and with two steps for each of its
characters. -/
structure WrittenAs (v : Json) (cs : List Char) : Prop where
  starts : ∃ c more, cs = c :: more ∧ Starts c
  reads : ∀ rest fuel, Ends rest → 2 * cs.length ≤ fuel → readValue fuel (cs ++ rest) = .ok (v, rest)

namespace WrittenAs

theorem skipSpace_eq (h : WrittenAs v cs) (rest : List Char) : skipSpace (cs ++ rest) = cs ++ rest := by
  obtain ⟨c, more, rfl, hc⟩ := h.starts
  exact skipSpace_cons hc

theorem read_eq (h : WrittenAs v cs) : read cs = .ok v := by
  have hstart := h.skipSpace_eq []
  have hread := h.reads [] (2 * cs.length + 2) ends_nil (by omega)
  rw [List.append_nil] at hstart hread
  rw [read, hstart, hread]
  rfl

theorem null : WrittenAs .null "null".toList where
  starts := ⟨'n', _, rfl, by decide⟩
  reads rest fuel hrest hfuel := by
    obtain ⟨fuel, rfl⟩ : ∃ k, fuel = k + 1 := ⟨fuel - 1, by simp at hfuel; omega⟩
    rfl

theorem bool (b : Bool) : WrittenAs (.bool b) (if b then "true".toList else "false".toList) where
  starts := by
    cases b
    · exact ⟨'f', _, rfl, by decide⟩
    · exact ⟨'t', _, rfl, by decide⟩
  reads rest fuel hrest hfuel := by
    obtain ⟨fuel, rfl⟩ : ∃ k, fuel = k + 1 := ⟨fuel - 1, by cases b <;> simp at hfuel <;> omega⟩
    cases b <;> rfl

theorem text (h : Escapes escape) (s : String) : WrittenAs (.text s) (quoted escape s) where
  starts := ⟨'"', _, rfl, by decide⟩
  reads rest fuel hrest hfuel := by
    obtain ⟨fuel, rfl⟩ : ∃ k, fuel = k + 1 := ⟨fuel - 1, by simp [quoted] at hfuel; omega⟩
    have hquoted : quoted escape s ++ rest = '"' :: (s.toList.flatMap escape ++ '"' :: rest) := by simp [quoted]
    rw [hquoted]
    change (fun p : String × List Char => (Json.text p.1, p.2)) <$> readQuoted _ = _
    rw [h.readQuoted]
    rfl

section Numbers

open Numeral (Digits sign isAsciiDigit digitsValue digit_ne)

variable {c : Char} {ds : List Char}

theorem takeWhile_digits (hds : Digits ds) (h : Ends rest) : (ds ++ rest).takeWhile isAsciiDigit = ds := by
  refine Numeral.takeWhile_digits hds fun c hc => ?_
  rcases h c hc with rfl | rfl | rfl <;> decide

theorem fractionPart_eq (h : Ends rest) : fractionPart rest = [] := by
  cases rest with
  | nil => rfl
  | cons c rest => rcases h c rfl with rfl | rfl | rfl <;> rfl

theorem exponentPart_eq (h : Ends rest) : exponentPart rest = [] := by
  cases rest with
  | nil => rfl
  | cons c rest => rcases h c rfl with rfl | rfl | rfl <;> rfl

theorem head_toDigits (hn : n ≠ 0) : (Nat.toDigits 10 n).head? ≠ some '0' := by
  induction n using Nat.strong_induction_on with
  | _ n ih =>
    by_cases hlt : n < 10
    · rw [Nat.toDigits_of_lt_base hlt]
      interval_cases n <;> first | exact absurd rfl hn | decide
    · rw [Nat.toDigits_of_base_le (by decide) (not_lt.1 hlt), List.head?_append_of_ne_nil _ Nat.toDigits_ne_nil]
      exact ih (n / 10) (by omega) (by omega)

theorem signPart_eq (s : Bool) (hc : isAsciiDigit c) : signPart (sign s ++ c :: rest) = sign s := by
  have hminus : c ≠ '-' := digit_ne hc rfl
  cases s with
  | true => rfl
  | false => simp [signPart, sign, hminus]

theorem wholePart_eq (n : Nat) (h : Ends rest) : wholePart (Nat.toDigits 10 n ++ rest) = Nat.toDigits 10 n := by
  by_cases hn : n = 0
  · subst hn
    rfl
  · obtain ⟨d, ds, hds, -⟩ := Numeral.headed_toDigits n
    have hzero : d ≠ '0' := by simpa [hds] using head_toDigits hn
    refine Eq.trans ?_ (takeWhile_digits (Numeral.digits_toDigits n) h)
    rw [hds, List.cons_append, wholePart]
    simp [hzero]

theorem readNumber?_digits (s : Bool) (n : Nat) (h : Ends rest) :
    readNumber? (sign s ++ (Nat.toDigits 10 n ++ rest)) = some (.int (if s then -n else n), rest) := by
  have hsign : signPart (sign s ++ (Nat.toDigits 10 n ++ rest)) = sign s := by
    obtain ⟨d, ds, hds, hd⟩ := Numeral.headed_toDigits n
    rw [hds]
    exact signPart_eq s hd
  have hfilled : (Nat.toDigits 10 n).isEmpty = false := List.isEmpty_eq_false_iff.2 Nat.toDigits_ne_nil
  simp only [readNumber?, hsign, List.drop_left, wholePart_eq n h, hfilled, Bool.false_eq_true, if_false,
    fractionPart_eq h, exponentPart_eq h, List.length_nil, List.drop_zero, List.isEmpty_nil, and_self, if_true]
  rw [Numeral.digitsValue_toDigits]
  cases s <;> rfl

/-- What begins with a digit, or with a sign in front of one, is no literal. -/
theorem find?_literals (s : Bool) (hc : isAsciiDigit c) :
    (literals.find? fun l => l.1.isPrefixOf (sign s ++ c :: rest)) = none := by
  have hn : c ≠ 'n' := digit_ne hc rfl
  have ht : c ≠ 't' := digit_ne hc rfl
  have hf : c ≠ 'f' := digit_ne hc rfl
  have hN : c ≠ 'N' := digit_ne hc rfl
  have hI : c ≠ 'I' := digit_ne hc rfl
  have hminus : c ≠ '-' := digit_ne hc rfl
  cases s <;> simp [literals, sign, hn.symm, ht.symm, hf.symm, hN.symm, hI.symm, hminus.symm]

theorem readValue_scalar (hquote : c ≠ '"') (hlist : c ≠ '[') (hobject : c ≠ '\x7b') :
    readValue (fuel + 1) (c :: rest) = readScalar (c :: rest) := by
  rw [readValue.eq_def]
  simp only
  split <;> simp_all

theorem readValue_digits (s : Bool) (n : Nat) (h : Ends rest) :
    readValue (fuel + 1) (sign s ++ (Nat.toDigits 10 n ++ rest)) = .ok (.int (if s then -n else n), rest) := by
  have hnumber := readNumber?_digits s n h
  obtain ⟨d, ds, hds, hd⟩ := Numeral.headed_toDigits n
  rw [hds, List.cons_append] at hnumber ⊢
  have hscalar : readValue (fuel + 1) (sign s ++ d :: (ds ++ rest)) = readScalar (sign s ++ d :: (ds ++ rest)) := by
    cases s with
    | true => exact readValue_scalar (by decide) (by decide) (by decide)
    | false => exact readValue_scalar (digit_ne hd rfl) (digit_ne hd rfl) (digit_ne hd rfl)
  rw [hscalar, readScalar, find?_literals s hd]
  simp only [hnumber]

theorem starts_digit (hc : isAsciiDigit c) : Starts c := by
  refine ⟨?_, digit_ne hc rfl, digit_ne hc rfl, digit_ne hc rfl⟩
  rintro (rfl | rfl | rfl | rfl) <;> exact nomatch hc

theorem int (i : Int) : WrittenAs (.int i) (toString i).toList := by
  have htext : (toString i).toList = sign (decide (i < 0)) ++ Nat.toDigits 10 i.natAbs := by
    rw [Numeral.toString_eq, String.toList_ofList]
  have hvalue : (if decide (i < 0) then -(i.natAbs : Int) else i.natAbs) = i := by
    by_cases hneg : i < 0
    · rw [decide_eq_true hneg, if_pos rfl]
      omega
    · rw [decide_eq_false hneg, if_neg Bool.false_ne_true]
      omega
  obtain ⟨d, ds, hds, hd⟩ := Numeral.headed_toDigits i.natAbs
  rw [htext]
  refine ⟨?_, fun rest fuel hrest hfuel => ?_⟩
  · rw [hds]
    cases decide (i < 0) with
    | true => exact ⟨'-', d :: ds, rfl, by decide⟩
    | false => exact ⟨d, ds, rfl, starts_digit hd⟩
  · obtain ⟨fuel, rfl⟩ : ∃ k, fuel = k + 1 := by
      rw [hds, List.length_append, List.length_cons] at hfuel
      exact ⟨fuel - 1, by omega⟩
    rw [List.append_assoc, readValue_digits _ _ hrest, hvalue]

end Numbers

theorem emptyList : WrittenAs (.list []) ['[', ']'] where
  starts := ⟨'[', _, rfl, by decide⟩
  reads rest fuel hrest hfuel := by
    obtain ⟨fuel, rfl⟩ : ∃ k, fuel = k + 1 := ⟨fuel - 1, by simp at hfuel; omega⟩
    rfl

theorem emptyObject : WrittenAs (.object []) ['\x7b', '\x7d'] where
  starts := ⟨'\x7b', _, rfl, by decide⟩
  reads rest fuel hrest hfuel := by
    obtain ⟨fuel, rfl⟩ : ∃ k, fuel = k + 1 := ⟨fuel - 1, by simp at hfuel; omega⟩
    rfl

section Lists

variable {items : List Json} {parts : List (List Char)}

theorem readItems_eq (h : WrittenAs v cs) (hitems : List.Forall₂ WrittenAs items parts)
    (hfuel : 2 * (cs.length + (behindCommas gap parts).length) < fuel) (rest : List Char) :
    readItems fuel (cs ++ (behindCommas gap parts ++ ']' :: rest)) = .ok (v :: items, rest) := by
  have hend : Ends (']' :: rest) := ends_cons (.inr (.inl rfl))
  induction hitems generalizing v cs fuel with
  | nil =>
    obtain ⟨fuel, rfl⟩ : ∃ k, fuel = k + 1 := ⟨fuel - 1, by omega⟩
    rw [readItems, h.reads _ _ (ends_behindCommas hend) (by omega)]
    rfl
  | @cons u ds items parts hu hitems ih =>
    obtain ⟨fuel, rfl⟩ : ∃ k, fuel = k + 1 := ⟨fuel - 1, by omega⟩
    simp only [behindCommas, List.flatMap_cons, List.length_append, List.length_cons] at hfuel
    have hbehind := ih hu (show 2 * (ds.length + (behindCommas gap parts).length) < fuel by
      simp only [behindCommas]; omega)
    rw [readItems, h.reads _ _ (ends_behindCommas hend) (by omega)]
    change (readItems fuel (skipSpace (List.replicate gap ' ' ++ ds ++ behindCommas gap parts ++ ']' :: rest)) >>= _) = _
    rw [List.append_assoc, List.append_assoc, skipSpace_gap, hu.skipSpace_eq, hbehind]
    rfl

theorem list (gap : Nat) (h : WrittenAs v cs) (hitems : List.Forall₂ WrittenAs items parts) :
    WrittenAs (.list (v :: items)) ('[' :: (cs ++ (behindCommas gap parts ++ [']']))) where
  starts := ⟨'[', _, rfl, by decide⟩
  reads rest fuel hrest hfuel := by
    simp only [List.length_cons, List.length_append, List.length_nil] at hfuel
    obtain ⟨fuel, rfl⟩ : ∃ k, fuel = k + 1 := ⟨fuel - 1, by omega⟩
    have hread := h.readItems_eq hitems
      (show 2 * (cs.length + (behindCommas gap parts).length) < fuel by omega) rest
    obtain ⟨c, more, rfl, hc⟩ := h.starts
    have htext : '[' :: (c :: more ++ (behindCommas gap parts ++ [']'])) ++ rest =
        '[' :: c :: (more ++ (behindCommas gap parts ++ ']' :: rest)) := by simp
    rw [htext, readValue.eq_def]
    simp only
    rw [skipSpace_cons hc]
    split
    · rename_i heq
      exact absurd (List.cons.inj heq).1 hc.2.1
    · rw [← List.cons_append, hread]
      rfl

end Lists

section Objects

variable {k : String} {fields : Fields Json} {parts : List (List Char)}

/-- A text from which a field is read: its key, a colon, and its value behind a gap. -/
def Field (escape : Char → List Char) (gap : Nat) (p : String × Json) (part : List Char) : Prop :=
  ∃ cs, WrittenAs p.2 cs ∧ part = quoted escape p.1 ++ ':' :: (List.replicate gap ' ' ++ cs)

theorem readPairs_key (hescape : Escapes escape) (k : String) (h : WrittenAs v cs) (hfuel : 2 * cs.length ≤ fuel)
    (hrest : Ends rest) :
    readPairs (fuel + 1) (quoted escape k ++ ':' :: (List.replicate gap ' ' ++ cs) ++ rest) =
      match skipSpace rest with
      | '\x7d' :: rest => .ok ([(k, v)], rest)
      | ',' :: rest => do
        let (more, rest) ← readPairs fuel (skipSpace rest)
        .ok ((k, v) :: more, rest)
      | rest => .error ⟨.comma, rest.length⟩ := by
  have hquoted : quoted escape k ++ ':' :: (List.replicate gap ' ' ++ cs) ++ rest =
      '"' :: (k.toList.flatMap escape ++ '"' :: ':' :: (List.replicate gap ' ' ++ (cs ++ rest))) := by simp [quoted]
  rw [hquoted, readPairs]
  simp only [hescape.readQuoted]
  change (readValue fuel (skipSpace (List.replicate gap ' ' ++ (cs ++ rest))) >>= _) = _
  rw [skipSpace_gap, h.skipSpace_eq, h.reads _ _ hrest hfuel]
  rfl

theorem readPairs_eq (hescape : Escapes escape) {p : String × Json} {part : List Char}
    (hp : Field escape gap p part) (hfields : List.Forall₂ (Field escape gap) fields parts)
    (hfuel : 2 * (part.length + (behindCommas gap parts).length) < fuel) (rest : List Char) :
    readPairs fuel (part ++ (behindCommas gap parts ++ '\x7d' :: rest)) = .ok (p :: fields, rest) := by
  have hend : Ends ('\x7d' :: rest) := ends_cons (.inr (.inr rfl))
  induction hfields generalizing p part fuel with
  | nil =>
    obtain ⟨cs, hcs, rfl⟩ := hp
    simp only [List.length_append, List.length_cons] at hfuel
    obtain ⟨fuel, rfl⟩ : ∃ k, fuel = k + 1 := ⟨fuel - 1, by omega⟩
    rw [readPairs_key hescape p.1 hcs (by omega) (ends_behindCommas hend)]
    rfl
  | @cons q next fields parts hq hfields ih =>
    obtain ⟨cs, hcs, rfl⟩ := hp
    simp only [behindCommas, List.flatMap_cons, List.length_append, List.length_cons] at hfuel
    obtain ⟨fuel, rfl⟩ : ∃ k, fuel = k + 1 := ⟨fuel - 1, by omega⟩
    have hbehind := ih hq (show 2 * (next.length + (behindCommas gap parts).length) < fuel by
      simp only [behindCommas]; omega)
    rw [readPairs_key hescape p.1 hcs (by omega) (ends_behindCommas hend)]
    change (readPairs fuel (skipSpace (List.replicate gap ' ' ++ next ++ behindCommas gap parts ++ '\x7d' :: rest)) >>=
      _) = _
    have hskip : skipSpace (next ++ (behindCommas gap parts ++ '\x7d' :: rest)) =
        next ++ (behindCommas gap parts ++ '\x7d' :: rest) := by
      obtain ⟨ds, -, rfl⟩ := hq
      exact skipSpace_cons (by decide)
    rw [List.append_assoc, List.append_assoc, skipSpace_gap, hskip, hbehind]
    rfl

/-- An object in which every key stands once is written as its fields are, with commas between them. -/
theorem object (hescape : Escapes escape) {p : String × Json} {part : List Char}
    (hkeys : (Fields.keys (p :: fields)).Nodup) (hp : Field escape gap p part)
    (hfields : List.Forall₂ (Field escape gap) fields parts) :
    WrittenAs (.object (p :: fields)) ('\x7b' :: (part ++ (behindCommas gap parts ++ ['\x7d']))) where
  starts := ⟨'\x7b', _, rfl, by decide⟩
  reads rest fuel hrest hfuel := by
    simp only [List.length_cons, List.length_append, List.length_nil] at hfuel
    obtain ⟨fuel, rfl⟩ : ∃ k, fuel = k + 1 := ⟨fuel - 1, by omega⟩
    have hread := readPairs_eq hescape hp hfields
      (show 2 * (part.length + (behindCommas gap parts).length) < fuel by omega) rest
    obtain ⟨tail, rfl⟩ : ∃ tail, part = '"' :: tail := by
      obtain ⟨cs, -, rfl⟩ := hp
      exact ⟨_, rfl⟩
    have htext : '\x7b' :: ('"' :: tail ++ (behindCommas gap parts ++ ['\x7d'])) ++ rest =
        '\x7b' :: '"' :: (tail ++ (behindCommas gap parts ++ '\x7d' :: rest)) := by simp
    rw [htext, readValue.eq_def]
    simp only
    rw [skipSpace_cons (by decide)]
    change (fun q : Fields Json × List Char => (Json.object (Fields.ofPairs q.1), q.2)) <$>
      readPairs fuel ('"' :: tail ++ (behindCommas gap parts ++ '\x7d' :: rest)) = _
    rw [hread]
    change Except.ok (Json.object (Fields.ofPairs (p :: fields)), rest) = _
    rw [Fields.ofPairs_eq_self hkeys]

end Objects

end WrittenAs
end HuntDraw.Json
