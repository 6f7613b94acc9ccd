import HuntDraw.Proofs.Draw.Rows
import HuntDraw.Proofs.Store.Rows

/-! Lists that limit a draw to some applicants. Entries are compared as texts, but each has become the plain digits of
the number that it names, so that it is this number that selects. -/

namespace HuntDraw

open Attempt

namespace Text

theorem isBlank_of_isDecimal {c : Char} (h : isDecimal c) : isBlank c = false := by
  have hapart : ∀ r ∈ blankRanges, apart r.1 r.2 := by decide
  rw [Bool.eq_false_iff]
  intro hblank
  have hdigit : isDigit c = false := by
    rw [isDigit_eq_false]
    simp only [isBlank, isWhite, inRanges, Bool.or_eq_true, List.any_eq_true, Bool.and_eq_true,
      decide_eq_true_eq] at hblank
    rcases hblank with ⟨r, hr, hlow, hhigh⟩ | ⟨hlow, hhigh⟩
    · exact apart_of_le (hapart r hr) hlow hhigh
    · have hseparators : apart 28 31 := by decide
      exact apart_of_le hseparators hlow hhigh
  rw [isDecimal_eq_false hdigit] at h
  cases h

/-- The text of a number is read as this number, which then is not negative. -/
theorem readNumeral?_toString {i : Int} {n : Nat}
    (h : readNumeral? (trimChars isBlank (toString i).toList) = some n) : i = n := by
  have htrim : trimChars isBlank (toString i).toList = (toString i).toList :=
    trimChars_eq_of_forall fun c hc => ((Numeral.spelt_toString i).2 c hc).spec.2.2
  rw [htrim, Numeral.toString_eq, String.toList_ofList] at h
  by_cases hi : i < 0
  · -- the sign is no digit
    have hsign : '-' ∈ Numeral.sign (decide (i < 0)) ++ Nat.toDigits 10 i.natAbs := by simp [Numeral.sign, hi]
    exact absurd ((readNumeral?_eq_some.1 h).2.1 _ hsign) (by decide)
  · have hread := readNumeral?_toDigits i.natAbs
    simp only [hi, decide_false, Numeral.sign, Bool.false_eq_true, if_false, List.nil_append, hread,
      Option.some.injEq] at h
    omega

end Text

namespace DrawConfig

theorem canonicalNumber_spec {v : Json} {t : String} (h : canonicalNumber v = .ok t) :
    ∃ n : Nat, Text.readNumeral? (Text.trimChars Text.isBlank v.asText.toList) = some n ∧ t = toString n := by
  rw [canonicalNumber] at h
  split_ifs at h
  split at h
  · rename_i n hread
    obtain ⟨hne, hdigits, -, hvalue⟩ := Text.parseNumeral_eq_ok.1 hread
    exact ⟨n, Text.readNumeral?_eq_some.2 ⟨hne, hdigits, hvalue⟩, (Except.ok.inj h).symm⟩
  · cases h

inductive ListEntry where
  | number (i : Int)
  | text (s : String)
  deriving DecidableEq, Repr

namespace ListEntry

def toJson : ListEntry → Json
  | number i => .int i
  | text s => .text s

/-- The number that an entry names: itself, or what its decimal digits stand for, with blanks around them. -/
inductive Names : ListEntry → Int → Prop
  | number (i : Int) : Names (.number i) i
  | text {s : String} {before digits after : List Char} (htext : s.toList = before ++ digits ++ after)
      (hbefore : ∀ c ∈ before, Text.isBlank c) (hafter : ∀ c ∈ after, Text.isBlank c) (hne : digits ≠ [])
      (hdigits : ∀ c ∈ digits, Text.isDecimal c) : Names (.text s) (Text.numeralValue digits)

def value? : ListEntry → Option Int
  | number i => some i
  | text s => (Text.readNumeral? (Text.trimChars Text.isBlank s.toList)).map Int.ofNat

variable {e : ListEntry} {i : Int} {t : String}

theorem names_iff : e.Names i ↔ e.value? = some i := by
  constructor
  · intro h
    cases h with
    | number i => rfl
    | @text s before digits after htext hbefore hafter hne hdigits =>
      have htrim : Text.trimChars Text.isBlank s.toList = digits := htext ▸ Text.trimChars_append hbefore hafter
        (fun c hc => Text.isBlank_of_isDecimal (hdigits c hc)) hne
      rw [value?, htrim, Text.readNumeral?_eq_some.2 ⟨hne, hdigits, rfl⟩]
      rfl
  · intro h
    cases e with
    | number j =>
      obtain rfl := Option.some.inj h
      exact .number j
    | text s =>
      obtain ⟨n, hread, rfl⟩ := Option.map_eq_some_iff.1 h
      obtain ⟨hne, hdigits, rfl⟩ := Text.readNumeral?_eq_some.1 hread
      obtain ⟨before, after, htext, hbefore, hafter⟩ := Text.exists_trimChars Text.isBlank s.toList
      exact .text htext hbefore hafter hne hdigits

instance (e : ListEntry) (i : Int) : Decidable (e.Names i) := decidable_of_iff _ names_iff.symm

theorem Names.unique {j : Int} (hi : e.Names i) (hj : e.Names j) : i = j :=
  Option.some.inj ((names_iff.1 hi).symm.trans (names_iff.1 hj))

/-- An accepted entry has become the plain digits of the number that it names. -/
theorem names_of_canonicalNumber (h : canonicalNumber e.toJson = .ok t) : ∃ n : Nat, e.Names n ∧ t = toString n := by
  obtain ⟨n, hread, rfl⟩ := canonicalNumber_spec h
  refine ⟨n, names_iff.2 ?_, rfl⟩
  cases e with
  | number i => rw [value?, Text.readNumeral?_toString hread]
  | text s => exact congrArg (Option.map Int.ofNat) hread

end ListEntry

variable {c : DrawConfig} {entries : List ListEntry} {i : Int}

/-- The configuration was accepted with these entries. -/
def MadeOf (c : DrawConfig) (entries : List ListEntry) : Prop := ∃ fields : Fields Json,
  (fields.get? "applicants").getD (.list []) = .list (entries.map ListEntry.toJson) ∧ check (.object fields) = .valid c

theorem MadeOf.canonical (h : c.MadeOf entries) :
    (entries.map ListEntry.toJson).mapM canonicalNumber = .ok c.applicants := by
  obtain ⟨fields, hentries, hcheck⟩ := h
  obtain ⟨fs, hfs, -, happlicants⟩ := fields_of_check hcheck
  obtain rfl := Checked.valid.inj hfs
  rw [Check.optional] at happlicants
  cases hfield : fields.get? "applicants" with
  | none =>
    rw [hfield] at hentries happlicants
    have hnil : entries.map ListEntry.toJson = [] := (Json.list.inj hentries).symm
    rw [hnil, ← Checked.valid.inj happlicants]
    rfl
  | some v =>
    rw [hfield] at hentries happlicants
    obtain rfl : v = .list (entries.map ListEntry.toJson) := hentries
    have hlist := Checked.within_eq_valid.1 happlicants
    rw [checkApplicants] at hlist
    split at hlist
    · rename_i numbers hnumbers
      exact Checked.valid.inj hlist ▸ hnumbers
    · cases hlist

theorem MadeOf.mem_iff (h : c.MadeOf entries) : toString i ∈ c.applicants ↔ ∃ e ∈ entries, e.Names i := by
  obtain ⟨hfrom, hto⟩ := mapM_mem h.canonical
  constructor
  · intro hi
    obtain ⟨v, hv, hcanonical⟩ := hfrom _ hi
    obtain ⟨e, he, rfl⟩ := List.mem_map.1 hv
    obtain ⟨n, hn, htext⟩ := ListEntry.names_of_canonicalNumber hcanonical
    -- the text of a number is read as this number and no other
    obtain ⟨m, hm, -⟩ := canonicalNumber_spec (canonicalNumber_canonical hcanonical)
    have him : i = m := Text.readNumeral?_toString hm
    have hnm : (n : Int) = m := Text.readNumeral?_toString (htext ▸ hm)
    exact ⟨e, he, him.trans hnm.symm ▸ hn⟩
  · rintro ⟨e, he, hi⟩
    obtain ⟨t, ht, hcanonical⟩ := hto _ (List.mem_map_of_mem he)
    obtain ⟨n, hn, rfl⟩ := ListEntry.names_of_canonicalNumber hcanonical
    exact hi.unique hn ▸ ht

theorem MadeOf.eq_nil_iff (h : c.MadeOf entries) : c.applicants = [] ↔ entries = [] := by
  have hlength := (mapM_eq_ok.1 h.canonical).length_eq
  rw [List.length_map] at hlength
  rw [← List.length_eq_zero_iff, ← hlength, List.length_eq_zero_iff]

theorem MadeOf.isValid (h : c.MadeOf entries) : c.IsValid :=
  let ⟨_, _, hcheck⟩ := h
  isValid_of_check hcheck

/-- Only the empty list names nothing, since every entry that was accepted names a number. -/
theorem MadeOf.nil_iff (h : c.MadeOf entries) : entries = [] ↔ ¬∃ i, ∃ e ∈ entries, e.Names i := by
  constructor
  · rintro rfl
    simp
  · intro hnone
    refine List.eq_nil_iff_forall_not_mem.2 fun e he => ?_
    obtain ⟨t, -, hcanonical⟩ := (mapM_mem h.canonical).2 _ (List.mem_map_of_mem he)
    obtain ⟨n, hn, -⟩ := ListEntry.names_of_canonicalNumber hcanonical
    exact hnone ⟨n, e, he, hn⟩

end DrawConfig

namespace Entry

open DrawConfig

variable {c c' : DrawConfig} {entries entries' : List ListEntry}

theorem isEligible_madeOf (h : c.MadeOf entries) (a : Applicant) : isEligible c a =
    decide (a.outcome ≠ some .awarded ∧ (entries = [] ∨ ∃ e ∈ entries, e.Names a.number)) := by
  rw [Bool.eq_iff_iff, Draw.isEligible_iff, decide_eq_true_eq, h.mem_iff, h.eq_nil_iff]

theorem applicants_congr (h : c.MadeOf entries) (h' : c'.MadeOf entries')
    (hsame : ∀ i : Int, (∃ e ∈ entries', e.Names i) ↔ ∃ e ∈ entries, e.Names i) (xs : List Applicant) :
    applicants xs c' = applicants xs c := by
  have hnil : entries' = [] ↔ entries = [] := by simp only [h.nil_iff, h'.nil_iff, hsame]
  rw [applicants, applicants]
  refine congrArg (List.map Applicant.clear) (List.filter_congr fun a _ => ?_)
  simp only [isEligible_madeOf h, isEligible_madeOf h', hsame, hnil]

/-- The numbers that the entries name select, however they are spelt, in whatever order and however often. -/
theorem applicants_madeOf (h : c.MadeOf entries) :
    (∀ xs : List Applicant, applicants xs c =
      (xs.filter fun a => a.outcome ≠ some .awarded ∧ (entries = [] ∨ ∃ e ∈ entries, e.Names a.number)).map
        fun a => { a with outcome := none, ordinalAwarded := none, codeAwarded := none }) ∧
      checkApplicants (Json.ofTexts c.applicants) = .valid c.applicants ∧
      (∀ node : String, ofRow (row (node, c)) = .ok c) ∧
      ∀ (entries' : List ListEntry) (c' : DrawConfig), c'.MadeOf entries' →
        (∀ i : Int, (∃ e ∈ entries', e.Names i) ↔ ∃ e ∈ entries, e.Names i) →
        ∀ xs : List Applicant, applicants xs c' = applicants xs c := by
  have hvalid := h.isValid
  refine ⟨fun xs => ?_, checkApplicants_eq hvalid.applicants, ofRow_row hvalid,
    fun _ _ h' hsame => applicants_congr h h' hsame⟩
  rw [applicants]
  exact congrArg (List.map Applicant.clear) (List.filter_congr fun a _ => isEligible_madeOf h a)

/-- The numbers twelve and seven, spelt in other ways, and one of them twice. -/
theorem applicants_madeOf_spellings :
    let twelve : Applicant := ⟨12, 40, .resident, .nan, ["B"], some .notAwarded, none, none⟩
    let seven : Applicant := ⟨7, 40, .resident, .nan, ["B"], some .awarded, some 1, some "B"⟩
    let spelt : DrawConfig := ⟨"id", "name", false, none, [], ["12", "7", "12"]⟩
    let plain : DrawConfig := ⟨"id", "name", false, none, [], ["7", "12"]⟩
    spelt.MadeOf [.text " 012\t", .number 7, .text "١٢"] ∧ plain.MadeOf [.number 7, .number 12] ∧
      (∀ i : Int, (∃ e ∈ [ListEntry.number 7, .number 12], e.Names i) ↔
        ∃ e ∈ [ListEntry.text " 012\t", .number 7, .text "١٢"], e.Names i) ∧
      applicants [seven, twelve, { twelve with number := 120 }, twelve] spelt =
        [{ twelve with outcome := none }, { twelve with outcome := none }] ∧
      ofRow (row ("node", spelt)) = .ok spelt ∧ applicants [seven, twelve] plain = applicants [seven, twelve] spelt := by
  intro twelve seven spelt plain
  have hspelt : spelt.MadeOf [.text " 012\t", .number 7, .text "١٢"] :=
    ⟨[("id", .text "id"), ("name", .text "name"),
      ("applicants", .list [.text " 012\t", .int 7, .text "١٢"])], rfl, by decide +kernel⟩
  have hplain : plain.MadeOf [.number 7, .number 12] :=
    ⟨[("id", .text "id"), ("name", .text "name"), ("applicants", .list [.int 7, .int 12])], rfl, by decide +kernel⟩
  have hsame : ∀ i : Int, (∃ e ∈ [ListEntry.number 7, .number 12], e.Names i) ↔
      ∃ e ∈ [ListEntry.text " 012\t", .number 7, .text "١٢"], e.Names i := by
    have hblanks : (ListEntry.text " 012\t").value? = some 12 := by decide +kernel
    have hscript : (ListEntry.text "١٢").value? = some 12 := by decide +kernel
    have hnumber : ∀ i, (ListEntry.number i).value? = some i := fun _ => rfl
    simp [ListEntry.names_iff, hblanks, hscript, hnumber]
  obtain ⟨hselects, -, hrow, hcongr⟩ := applicants_madeOf hspelt
  refine ⟨hspelt, hplain, hsame, ?_, hrow "node", hcongr _ plain hplain hsame _⟩
  rw [hselects]
  decide +kernel

end Entry
end HuntDraw
