import HuntDraw.Number.Numeral
import HuntDraw.Proofs.Number.Decimal
import HuntDraw.Proofs.Text.Blank

/-! The text of a number is read as this number: the digits of a numeral are laid out in one of four ways, each of
which is read as a numeral of the same value. -/

namespace HuntDraw.Numeral

open Decimal

variable {cs whole fraction rest : List Char} {c : Char}

def Digits (cs : List Char) : Prop := ∀ c ∈ cs, isAsciiDigit c

def Stops (rest : List Char) : Prop := ∀ c ∈ rest.head?, isAsciiDigit c = false ∧ c ≠ '.'

theorem Digits.append {cs ds : List Char} (hcs : Digits cs) (hds : Digits ds) : Digits (cs ++ ds) :=
  fun c hc => (List.mem_append.1 hc).elim (hcs c) (hds c)

theorem Digits.take {ds : List Char} (h : Digits ds) (k : Nat) : Digits (ds.take k) := fun c hc =>
  h c (List.mem_of_mem_take hc)

theorem Digits.drop {ds : List Char} (h : Digits ds) (k : Nat) : Digits (ds.drop k) := fun c hc =>
  h c (List.mem_of_mem_drop hc)

theorem digits_toDigits (n : Nat) : Digits (Nat.toDigits 10 n) := fun _ hc =>
  Nat.isDigit_of_mem_toDigits (by decide) (by decide) hc

theorem digits_zeros (k : Nat) : Digits (List.replicate k '0') := fun _ hc => List.eq_of_mem_replicate hc ▸ rfl

theorem digitsValue_toDigits (n : Nat) : digitsValue (Nat.toDigits 10 n) = n :=
  Nat.ofDigitChars_toDigits (by decide) (by decide)

theorem digitsValue_append (cs ds : List Char) :
    digitsValue (cs ++ ds) = digitsValue cs * 10 ^ ds.length + digitsValue ds := by
  induction ds using List.reverseRecOn with
  | nil => simp [digitsValue]
  | append_singleton ds c ih =>
    have hlast : ∀ es, digitsValue (es ++ [c]) = 10 * digitsValue es + (c.toNat - 48) := fun es => by simp [digitsValue]
    rw [← List.append_assoc, hlast, hlast, ih, List.length_append, List.length_singleton, pow_succ]
    ring

theorem digitsValue_zeros (k : Nat) : digitsValue (List.replicate k '0') = 0 := by
  induction k with
  | zero => rfl
  | succ k ih => rw [List.replicate_succ', digitsValue_append, ih]; rfl

theorem takeWhile_digits (hcs : Digits cs) (hrest : Stops rest) : (cs ++ rest).takeWhile isAsciiDigit = cs := by
  rw [List.takeWhile_append_of_pos hcs]
  cases rest with
  | nil => simp
  | cons c rest => simp [(hrest c rfl).1]

theorem dropWhile_digits (hcs : Digits cs) (hrest : Stops rest) : (cs ++ rest).dropWhile isAsciiDigit = rest := by
  rw [List.dropWhile_append_of_pos hcs]
  cases rest with
  | nil => rfl
  | cons c rest => simp [(hrest c rfl).1]

theorem magnitude?_whole (hwhole : Digits whole) (hne : whole ≠ []) (hrest : Stops rest) :
    magnitude? (whole ++ rest) = (exponent? rest).map fun x => ⟨digitsValue whole, x⟩ := by
  rw [magnitude?, takeWhile_digits hwhole hrest, dropWhile_digits hwhole hrest]
  cases rest with
  | nil => simp [hne]
  | cons c rest => simp [hne, (hrest c rfl).2]

theorem stops_nil : Stops [] := by simp [Stops]

theorem magnitude?_point (hwhole : Digits whole) (hne : whole ≠ []) (hfraction : Digits fraction) (hrest : Stops rest) :
    magnitude? (whole ++ '.' :: (fraction ++ rest)) =
      (exponent? rest).map fun x => ⟨digitsValue (whole ++ fraction), x - fraction.length⟩ := by
  have htake : (whole ++ '.' :: (fraction ++ rest)).takeWhile isAsciiDigit = whole := by
    rw [List.takeWhile_append_of_pos hwhole]
    simp [isAsciiDigit]
  have hdrop : (whole ++ '.' :: (fraction ++ rest)).dropWhile isAsciiDigit = '.' :: (fraction ++ rest) := by
    rw [List.dropWhile_append_of_pos hwhole]
    rfl
  rw [magnitude?, htake, hdrop]
  simp [takeWhile_digits hfraction hrest, dropWhile_digits hfraction hrest, hne]

theorem exponent?_mark (f : FloatNotation) (x : Int) : exponent? (f.exponentMark x) = some x := by
  have hdigits : Digits (FloatNotation.padLeft f.exponentWidth (Nat.toDigits 10 x.natAbs)) :=
    (digits_zeros _).append (digits_toDigits _)
  have hall := List.all_eq_true.2 hdigits
  have hne : FloatNotation.padLeft f.exponentWidth (Nat.toDigits 10 x.natAbs) ≠ [] :=
    List.append_ne_nil_of_right_ne_nil _ Nat.toDigits_ne_nil
  have hvalue : digitsValue (FloatNotation.padLeft f.exponentWidth (Nat.toDigits 10 x.natAbs)) = x.natAbs := by
    rw [FloatNotation.padLeft, digitsValue_append, digitsValue_zeros, zero_mul, zero_add, digitsValue_toDigits]
  by_cases hx : x < 0
  · simp [FloatNotation.exponentMark, exponent?, signed, hx, hne, hall, hvalue, -Nat.cast_natAbs]
    omega
  · simp [FloatNotation.exponentMark, exponent?, signed, hx, hne, hall, hvalue, -Nat.cast_natAbs]
    omega

theorem stops_mark (f : FloatNotation) (x : Int) : Stops (f.exponentMark x) := by
  simp [Stops, FloatNotation.exponentMark, isAsciiDigit]

variable {ds : List Char}

theorem magnitude?_marked (f : FloatNotation) (hds : Digits ds) (hne : ds ≠ []) (x : Int) :
    magnitude? (ds.take 1 ++ (if ds.length = 1 then [] else '.' :: ds.drop 1) ++ f.exponentMark x) =
      some ⟨digitsValue ds, x - (ds.length - 1)⟩ := by
  have hpos := List.length_pos_iff.2 hne
  have hsome : ds.take 1 ≠ [] := by simpa using hne
  split_ifs with hone
  · have hread := magnitude?_whole (hds.take 1) hsome (stops_mark f x)
    rw [exponent?_mark, Option.map_some, List.take_of_length_le hone.le] at hread
    rw [List.append_nil, List.take_of_length_le hone.le, hread, hone]
    simp
  · have hread := magnitude?_point (hds.take 1) hsome (hds.drop 1) (stops_mark f x)
    rw [exponent?_mark, Option.map_some, List.take_append_drop, List.length_drop, Nat.cast_sub hpos] at hread
    rw [List.append_assoc, List.cons_append, hread, Nat.cast_one]

theorem magnitude?_small (hds : Digits ds) (k : Nat) :
    magnitude? ('0' :: '.' :: (List.replicate k '0' ++ ds)) = some ⟨digitsValue ds, -(k + ds.length : Nat)⟩ := by
  have hread := magnitude?_point (digits_zeros 1) (by simp) ((digits_zeros k).append hds) stops_nil
  rw [exponent?, Option.map_some, ← List.append_assoc, List.replicate_append_replicate, digitsValue_append,
    digitsValue_zeros, zero_mul, zero_add, List.append_nil, List.length_append, List.length_replicate,
    zero_sub] at hread
  exact hread

theorem magnitude?_large (hds : Digits ds) (hne : ds ≠ []) (k : Nat) (pointZero : Bool) :
    ∃ d, magnitude? (ds ++ List.replicate k '0' ++ (if pointZero then ['.', '0'] else [])) = some d ∧
      d.value = value ⟨digitsValue ds, k⟩ := by
  have hwhole := hds.append (digits_zeros k)
  have hsome : ds ++ List.replicate k '0' ≠ [] := List.append_ne_nil_of_left_ne_nil hne _
  cases pointZero with
  | true =>
    have hread := magnitude?_point hwhole hsome (digits_zeros 1) stops_nil
    rw [exponent?, Option.map_some, List.append_assoc ds _ (List.replicate 1 '0'), List.replicate_append_replicate,
      digitsValue_append, digitsValue_zeros, add_zero, List.length_replicate, List.length_replicate, zero_sub] at hread
    have hshift := value_shift (digitsValue ds) k (k + 1)
    rw [Nat.cast_add, sub_add_cancel_left, Nat.cast_one] at hshift
    exact ⟨_, hread, hshift⟩
  | false =>
    have hread := magnitude?_whole hwhole hsome stops_nil
    rw [exponent?, Option.map_some, digitsValue_append, digitsValue_zeros, add_zero, List.length_replicate] at hread
    have hshift := value_shift (digitsValue ds) k k
    rw [sub_self] at hshift
    exact ⟨_, hread, hshift⟩

theorem magnitude?_split (hds : Digits ds) {k : Nat} (hk : 0 < k) (hle : k ≤ ds.length) :
    magnitude? (ds.take k ++ '.' :: ds.drop k) = some ⟨digitsValue ds, k - ds.length⟩ := by
  have hsome : ds.take k ≠ [] := List.ne_nil_of_length_pos (by rw [List.length_take]; omega)
  have hread := magnitude?_point (hds.take k) hsome (hds.drop k) stops_nil
  rw [exponent?, Option.map_some, List.append_nil, List.take_append_drop, List.length_drop, Nat.cast_sub hle, zero_sub,
    neg_sub] at hread
  exact hread

theorem magnitude?_layout (f : FloatNotation) (d : Decimal) :
    ∃ d', magnitude? (f.layout d) = some d' ∧ d'.value = d.value := by
  have hdigits := digits_toDigits d.digits
  have hne : Nat.toDigits 10 d.digits ≠ [] := Nat.toDigits_ne_nil
  have hvalue := digitsValue_toDigits d.digits
  rw [FloatNotation.layout]
  generalize Nat.toDigits 10 d.digits = ds at *
  have hself : ∀ x, x = d.exponent → (⟨digitsValue ds, x⟩ : Decimal) = d := by
    rintro x rfl
    rw [hvalue]
  have hpos := List.length_pos_iff.2 hne
  dsimp only
  by_cases hmark : d.exponent + ds.length - 1 < f.least ∨ f.bound ≤ d.exponent + ds.length - 1
  · rw [if_pos hmark, magnitude?_marked f hdigits hne, hself _ (by omega)]
    exact ⟨d, rfl, rfl⟩
  rw [if_neg hmark]
  by_cases hlead : d.exponent + ds.length - 1 < 0
  · rw [if_pos hlead, magnitude?_small hdigits, hself _ (by omega)]
    exact ⟨d, rfl, rfl⟩
  rw [if_neg hlead]
  by_cases hwhole : 0 ≤ d.exponent
  · rw [if_pos hwhole]
    obtain ⟨d', hread, hsame⟩ := magnitude?_large hdigits hne d.exponent.toNat f.pointZero
    rw [hself _ (Int.toNat_of_nonneg hwhole)] at hsame
    exact ⟨d', hread, hsame⟩
  · rw [if_neg hwhole, magnitude?_split hdigits (by omega) (by omega), hself _ (by omega)]
    exact ⟨d, rfl, rfl⟩

theorem digit_ne {c e : Char} (hc : isAsciiDigit c) (he : isAsciiDigit e = false) : c ≠ e := by
  rintro rfl
  rw [hc] at he
  cases he

theorem isAsciiDigit_iff : isAsciiDigit c ↔ 48 ≤ c.toNat ∧ c.toNat ≤ 57 := by
  rw [isAsciiDigit, Bool.and_eq_true, decide_eq_true_eq, decide_eq_true_eq, Char.le_def, Char.le_def,
    UInt32.le_iff_toNat_le, UInt32.le_iff_toNat_le]
  rfl

theorem toLower_digit (hc : isAsciiDigit c) : c.toLower = c := by
  have hupper : ¬(c.val ≥ 'A'.val ∧ c.val ≤ 'Z'.val) := fun h => by
    have hle : 65 ≤ c.toNat := UInt32.le_iff_toNat_le.1 h.1
    have hdigit := (isAsciiDigit_iff.1 hc).2
    omega
  exact dif_neg hupper

theorem name_ne (hc : isAsciiDigit c) (name : String) {e : Char} {more : List Char} (hname : name.toList = e :: more)
    (he : isAsciiDigit e = false) : String.ofList ((c :: rest).map Char.toLower) ≠ name := by
  intro h
  have hlist := congrArg String.toList h
  rw [String.toList_ofList, hname, List.map_cons, toLower_digit hc] at hlist
  exact digit_ne hc he (List.cons.inj hlist).1

def sign (s : Bool) : List Char := if s then ['-'] else []

theorem plain?_digits (s : Bool) (hc : isAsciiDigit c) :
    plain? (sign s ++ c :: rest) = (magnitude? (c :: rest)).map (·.toBinary64 s) := by
  have hsigned : signed (sign s ++ c :: rest) = (s, c :: rest) := by
    have hminus : c ≠ '-' := digit_ne hc rfl
    have hplus : c ≠ '+' := digit_ne hc rfl
    cases s with
    | true => rfl
    | false => simp [sign, signed, hminus, hplus]
  have hinf : String.ofList ((c :: rest).map Char.toLower) ≠ "inf" := name_ne hc "inf" rfl rfl
  have hinfinity : String.ofList ((c :: rest).map Char.toLower) ≠ "infinity" := name_ne hc "infinity" rfl rfl
  have hnan : String.ofList ((c :: rest).map Char.toLower) ≠ "nan" := name_ne hc "nan" rfl rfl
  rw [plain?, hsigned]
  simp only [hinf, hinfinity, hnan, or_self, if_false]

def Written (c : Char) : Prop := isAsciiDigit c ∨ c ∈ ['.', 'e', '+', '-']

theorem Written.spec (h : Written c) : c.toNat < 128 ∧ c ≠ '_' ∧ Text.isBlank c = false := by
  rcases h with h | h
  · obtain ⟨hlow, hhigh⟩ := isAsciiDigit_iff.1 h
    refine ⟨by omega, digit_ne h rfl, ?_⟩
    simp [Text.isBlank, Text.isWhite, Text.inRanges, Text.blankRanges]
    omega
  · simp only [List.mem_cons, List.not_mem_nil, or_false] at h
    rcases h with rfl | rfl | rfl | rfl <;> decide

theorem joinDigits_eq {last : Option Char} (hlast : last ≠ some '_') (h : ∀ c ∈ cs, c ≠ '_') :
    joinDigits last cs = some cs := by
  induction cs generalizing last with
  | nil => simp [joinDigits, hlast]
  | cons c cs ih =>
    have hc := h c List.mem_cons_self
    have hnext : some c ≠ some '_' := by simpa using hc
    simp [joinDigits, hc, hlast, ih hnext fun d hd => h d (List.mem_cons_of_mem c hd)]

def Plain (cs : List Char) : Prop := ∀ c ∈ cs, Written c

theorem plain_nil : Plain [] := List.forall_mem_nil _

theorem plain_cons : Plain (c :: cs) ↔ Written c ∧ Plain cs := List.forall_mem_cons

theorem plain_append : Plain (cs ++ ds) ↔ Plain cs ∧ Plain ds := List.forall_mem_append

theorem Digits.plain (h : Digits ds) : Plain ds := fun c hc => .inl (h c hc)

theorem document?_plain (h : Plain cs) : document? (String.ofList cs) = plain? cs := by
  have htrim : Text.trimChars Text.isBlank cs = cs := Text.trimChars_eq_of_forall fun c hc => (h c hc).spec.2.2
  have hplain : cs.map plainDigit = cs :=
    (List.map_congr_left fun c hc => if_pos (h c hc).spec.1).trans (List.map_id cs)
  rw [document?, String.toList_ofList, htrim, hplain, joinDigits_eq (by simp) fun c hc => (h c hc).spec.2.1]
  rfl

theorem plain_mark (f : FloatNotation) (x : Int) : Plain (f.exponentMark x) := by
  have hdigits : Plain (FloatNotation.padLeft f.exponentWidth (Nat.toDigits 10 x.natAbs)) :=
    ((digits_zeros _).append (digits_toDigits _)).plain
  have hsign : Written (if x < 0 then '-' else '+') := .inr (by split_ifs <;> decide)
  exact plain_append.2 ⟨plain_cons.2 ⟨.inr (by decide), plain_cons.2 ⟨hsign, plain_nil⟩⟩, hdigits⟩

theorem plain_layout (f : FloatNotation) (d : Decimal) : Plain (f.layout d) := by
  have hdigits := digits_toDigits d.digits
  have hzeros := fun k => (digits_zeros k).plain
  have hzero : Written '0' := .inl rfl
  have hpoint : Written '.' := .inr (by decide)
  have hmark := plain_mark f
  rw [FloatNotation.layout]
  generalize Nat.toDigits 10 d.digits = ds at *
  have htake := fun k => (hdigits.take k).plain
  have hdrop := fun k => (hdigits.drop k).plain
  dsimp only
  split_ifs <;> simp only [plain_append, plain_cons, plain_nil, hmark, htake, hdrop, hzeros, hdigits.plain, hzero,
    hpoint, and_true]

open Binary64

variable {x : Binary64} {n m : Nat} {e : Int}

def Headed (cs : List Char) : Prop := ∃ c rest, cs = c :: rest ∧ isAsciiDigit c

theorem headed_toDigits (n : Nat) : Headed (Nat.toDigits 10 n) := by
  obtain ⟨c, rest, heq⟩ := List.exists_cons_of_ne_nil (Nat.toDigits_ne_nil (n := n) (b := 10))
  exact ⟨c, rest, heq, digits_toDigits n c (heq ▸ List.mem_cons_self)⟩

theorem headed_layout (f : FloatNotation) (d : Decimal) : Headed (f.layout d) := by
  obtain ⟨c, rest, heq, hc⟩ := headed_toDigits d.digits
  rw [FloatNotation.layout, heq]
  dsimp only
  split_ifs with hmark hone hlead hwhole
  · exact ⟨c, _, rfl, hc⟩
  · exact ⟨c, _, rfl, hc⟩
  · exact ⟨'0', _, rfl, rfl⟩
  · exact ⟨c, _, rfl, hc⟩
  · exact ⟨c, _, rfl, hc⟩
  · obtain ⟨k, hk⟩ : ∃ k, (d.exponent + (c :: rest).length - 1 + 1).toNat = k + 1 :=
      Nat.exists_eq_succ_of_ne_zero (by omega)
    rw [hk]
    exact ⟨c, _, rfl, hc⟩

theorem plain_sign (s : Bool) : Plain (sign s) := by
  cases s with
  | true => exact plain_cons.2 ⟨.inr (by decide), plain_nil⟩
  | false => exact plain_nil

theorem document?_signed (s : Bool) (hplain : Plain cs) (hhead : Headed cs) :
    document? (String.ofList (sign s ++ cs)) = (magnitude? cs).map (·.toBinary64 s) := by
  obtain ⟨c, rest, rfl, hc⟩ := hhead
  rw [document?_plain (plain_append.2 ⟨plain_sign s, hplain⟩), plain?_digits s hc]

/-- A finite number is written as its sign and a numeral that is read as the number. -/
theorem render_eq (s : Bool) (hc : Canonical m e) :
    ∃ cs d, FloatNotation.plain.render (.finite s m e hc) = sign s ++ cs ∧ Plain cs ∧ Headed cs ∧
      magnitude? cs = some d ∧ d.toBinary64 s = .finite s m e hc := by
  by_cases hm : m = 0
  · subst hm
    obtain rfl := hc.exponent_eq
    have hplain : Plain ['0', '.', '0'] :=
      plain_cons.2 ⟨.inl rfl, plain_cons.2 ⟨.inr (by decide), plain_cons.2 ⟨.inl rfl, plain_nil⟩⟩⟩
    refine ⟨['0', '.', '0'], ⟨0, -1⟩, ?_, hplain, ⟨'0', _, rfl, rfl⟩, rfl, rfl⟩
    simp [FloatNotation.render, FloatNotation.plain, sign]
  · obtain ⟨d, hread, hvalue⟩ := magnitude?_layout .plain (shortest m e)
    refine ⟨_, d, ?_, plain_layout _ _, headed_layout _ _, hread,
      (toBinary64_congr s hvalue).trans (shortest_toBinary64 hc)⟩
    simp [FloatNotation.render, hm, sign]

theorem document?_text (hx : x.isFinite) : document? x.text = some x := by
  match x with
  | .finite s m e hc =>
    obtain ⟨cs, d, hrender, hplain, hhead, hread, hback⟩ := render_eq s hc
    rw [Binary64.text, hrender, document?_signed s hplain hhead, hread, Option.map_some, hback]

theorem toString_eq (i : Int) : toString i = String.ofList (sign (decide (i < 0)) ++ Nat.toDigits 10 i.natAbs) := by
  cases i with
  | ofNat n => rfl
  | negSucc n =>
    have hrepr : toString (Int.negSucc n) = "-" ++ String.ofList (Nat.toDigits 10 (n + 1)) := rfl
    rw [hrepr, ← String.toList_inj]
    simp [sign]

/-- A whole number is read as a numeral without places behind the point. -/
theorem document?_toString (i : Int) : document? (toString i) = some (toBinary64 (decide (i < 0)) ⟨i.natAbs, 0⟩) := by
  have hread := magnitude?_whole (digits_toDigits i.natAbs) Nat.toDigits_ne_nil stops_nil
  rw [exponent?, Option.map_some, List.append_nil, digitsValue_toDigits] at hread
  rw [toString_eq, document?_signed _ (digits_toDigits _).plain (headed_toDigits _), hread, Option.map_some]

def Spelt (s : String) : Prop := s ≠ "" ∧ Plain s.toList

theorem spelt_ofList (s : Bool) (hplain : Plain cs) (hhead : Headed cs) : Spelt (String.ofList (sign s ++ cs)) := by
  constructor
  · obtain ⟨c, rest, rfl, -⟩ := hhead
    rw [Ne, ← String.toList_inj, String.toList_ofList]
    simp
  · rw [String.toList_ofList]
    exact plain_append.2 ⟨plain_sign s, hplain⟩

theorem spelt_text (hx : x.isFinite) : Spelt x.text := by
  match x with
  | .finite s m e hc =>
    obtain ⟨cs, d, hrender, hplain, hhead, -⟩ := render_eq s hc
    rw [Binary64.text, hrender]
    exact spelt_ofList s hplain hhead

theorem spelt_toString (i : Int) : Spelt (toString i) := by
  rw [toString_eq]
  exact spelt_ofList _ (digits_toDigits _).plain (headed_toDigits _)

theorem Spelt.filled {s : String} (h : Spelt s) : Text.Filled s := by
  refine ⟨h.1, ?_⟩
  rw [Text.strip, Text.trimChars_eq_of_forall fun c hc => (h.2 c hc).spec.2.2, String.ofList_toList]

end HuntDraw.Numeral
