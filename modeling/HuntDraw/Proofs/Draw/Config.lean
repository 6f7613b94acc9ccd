import HuntDraw.Draw.Config
import HuntDraw.Proofs.Data.Attempt
import HuntDraw.Proofs.Schema.Checked
import HuntDraw.Proofs.Text.Digit

/-! Configurations of draws that were checked: no quota rule stands twice, and applicants are named by the plain digits
of their numbers. Checking such a configuration again changes nothing. -/

namespace HuntDraw

open Attempt

namespace Text

open Numeral (Digits)

variable {n : Nat}

theorem decimalValue?_digit {c : Char} (h : Numeral.isAsciiDigit c) : decimalValue? c = some (c.toNat - 48) := by
  obtain ⟨hlow, hhigh⟩ := Numeral.isAsciiDigit_iff.1 h
  have hdigit : c.isDigit = true := h
  rw [decimalValue?, if_pos (by omega), if_pos hdigit]

theorem readDecimal_digits {ds : List Char} (h : Digits ds) (acc : Nat) :
    readDecimal acc ds = some (Nat.ofDigitChars 10 ds acc) := by
  induction ds generalizing acc with
  | nil => rfl
  | cons d ds ih =>
    rw [readDecimal, decimalValue?_digit (h d List.mem_cons_self)]
    exact ih (fun c hc => h c (List.mem_cons_of_mem d hc)) _

theorem readNumeral?_toDigits (n : Nat) : readNumeral? (Nat.toDigits 10 n) = some n := by
  obtain ⟨d, ds, hds⟩ := List.exists_cons_of_ne_nil (Nat.toDigits_ne_nil (n := n) (b := 10))
  have hread := readDecimal_digits (Numeral.digits_toDigits n) 0
  rw [Nat.ofDigitChars_toDigits (by decide) (by decide), hds] at hread
  rwa [hds]

theorem parseNumeral_toDigits (h : (Nat.toDigits 10 n).length ≤ numeralLimit) :
    parseNumeral (Nat.toDigits 10 n) = .ok n := by
  obtain ⟨hne, hall, hvalue⟩ := readNumeral?_eq_some.1 (readNumeral?_toDigits n)
  exact parseNumeral_eq_ok.2 ⟨hne, hall, h, hvalue⟩

theorem length_toDigits_le {cs : List Char} (h : parseNumeral cs = .ok n) : (Nat.toDigits 10 n).length ≤ numeralLimit := by
  obtain ⟨hne, -, hlength, rfl⟩ := parseNumeral_eq_ok.1 h
  refine Nat.le_trans ((Nat.length_toDigits_le_iff (by decide) (List.length_pos_iff.2 hne)).2 ?_) hlength
  exact numeralValue_lt cs

end Text

namespace DrawConfig

structure IsValid (c : DrawConfig) : Prop where
  rules : c.rules.Nodup
  applicants : ∀ a ∈ c.applicants, canonicalNumber (.text a) = .ok a

theorem canonicalNumber_toString {n : Nat} (h : (Nat.toDigits 10 n).length ≤ Text.numeralLimit) :
    canonicalNumber (.text (toString n)) = .ok (toString n) := by
  have hlist : (toString n).toList = Nat.toDigits 10 n := Nat.toList_repr
  have hdigits := Numeral.digits_toDigits n
  have htrim : Text.trimChars Text.isBlank (Nat.toDigits 10 n) = Nat.toDigits 10 n :=
    Text.trimChars_eq_of_forall fun c hc => (hdigits.plain c hc).spec.2.2
  have hall : ∀ c ∈ Nat.toDigits 10 n, Text.isDigit c = true := fun c hc => by
    rw [Text.isDigit, Text.isDecimal, Text.decimalValue?_digit (hdigits c hc)]
    rfl
  have hfilled : ¬((Nat.toDigits 10 n).isEmpty ∨ !(Nat.toDigits 10 n).all Text.isDigit) := by
    rw [List.isEmpty_iff, List.all_eq_true.2 hall]
    simp [Nat.toDigits_ne_nil]
  simp only [canonicalNumber, Json.asText, hlist, htrim]
  rw [if_neg hfilled, Text.parseNumeral_toDigits h]

theorem canonicalNumber_canonical {v : Json} {a : String} (h : canonicalNumber v = .ok a) :
    canonicalNumber (.text a) = .ok a := by
  rw [canonicalNumber] at h
  split_ifs at h
  split at h
  · rename_i n hread
    obtain rfl := Except.ok.inj h
    exact canonicalNumber_toString (Text.length_toDigits_le hread)
  · exact nomatch h

theorem checkApplicants_eq {applicants : List String} (h : ∀ a ∈ applicants, canonicalNumber (.text a) = .ok a) :
    checkApplicants (Json.ofTexts applicants) = .valid applicants := by
  have hentries : (applicants.map Json.text).mapM canonicalNumber = .ok applicants := by
    rw [mapM_eq_ok, List.forall₂_map_left_iff]
    exact List.forall₂_same.2 h
  rw [Json.ofTexts, checkApplicants, hentries]

theorem checkApplicants_valid {v : Json} {applicants : List String} (h : checkApplicants v = .valid applicants) :
    ∀ a ∈ applicants, canonicalNumber (.text a) = .ok a := by
  cases v with
  | list entries =>
    rw [checkApplicants] at h
    split at h
    · rename_i numbers hnumbers
      obtain rfl := Checked.valid.inj h
      intro a ha
      obtain ⟨entry, -, hentry⟩ := (mapM_mem hnumbers).1 a ha
      exact canonicalNumber_canonical hentry
    · exact nomatch h
  | _ => exact nomatch h

theorem checkRules_valid {v : Json} {rules : List QuotaRule} (h : checkRules v = .valid rules) : rules.Nodup := by
  obtain ⟨rules', -, h⟩ := Checked.andThen_eq_valid.1 h
  split_ifs at h with hnodup
  · exact Checked.valid.inj h ▸ hnodup
  · exact nomatch h

/-- A configuration has the rules and the applicants that its fields were checked to be. -/
theorem fields_of_check {v : Json} {c : DrawConfig} (h : check v = .valid c) : ∃ fs,
    Check.record "DrawConfig" v = .valid fs ∧
      Check.optional fs "quota_rule_flags" [] checkRules = .valid c.rules ∧
      Check.optional fs "applicants" [] checkApplicants = .valid c.applicants := by
  obtain ⟨fs, hfs, h⟩ := Checked.andThen_eq_valid.1 h
  obtain ⟨_, applicants, hfive, happlicants, rfl⟩ := Checked.seq_eq_valid.1 h
  obtain ⟨_, rules, hfour, hrules, rfl⟩ := Checked.seq_eq_valid.1 hfive
  obtain ⟨_, sort, hthree, -, rfl⟩ := Checked.seq_eq_valid.1 hfour
  obtain ⟨_, points, htwo, -, rfl⟩ := Checked.seq_eq_valid.1 hthree
  obtain ⟨_, name, hone, -, rfl⟩ := Checked.seq_eq_valid.1 htwo
  obtain ⟨id, -, rfl⟩ := Checked.map_eq_valid.1 hone
  exact ⟨fs, hfs, hrules, happlicants⟩

theorem isValid_of_check {v : Json} {c : DrawConfig} (h : check v = .valid c) : c.IsValid := by
  obtain ⟨fs, -, hrules, happlicants⟩ := fields_of_check h
  exact ⟨Check.optional_valid (P := List.Nodup) List.nodup_nil (fun _ _ => checkRules_valid) hrules,
    Check.optional_valid (P := fun as => ∀ a ∈ as, canonicalNumber (.text a) = .ok a) (by simp)
      (fun _ _ => checkApplicants_valid) happlicants⟩

end DrawConfig
end HuntDraw
