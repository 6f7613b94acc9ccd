import HuntDraw.Draw.Document
import HuntDraw.Proofs.Draw.Entry
import HuntDraw.Proofs.Number.Sign
import HuntDraw.Proofs.Schema.Checked

/-! Documents: an applicant that is read from one has a known residency and a first choice, and a hunt code has
a text, no count and no percentage below nothing, and a percentage behind each of its pools. -/

namespace HuntDraw

/-- What is known of a hunt code that could be read. -/
structure HuntCode.Proper (c : HuntCode) : Prop where
  named : c.code ≠ ""
  counts : ∀ n ∈ c.counts, 0 ≤ n
  cap : ∀ p, c.nonResident.capPercent = some p → ¬p.Negative
  reserve : ∀ p, c.reserved.capPercent = some p → ¬p.Negative
  capped : c.nonResident.hardCap → c.nonResident.capPercent.isSome
  enabled : c.reserved.enabled → c.reserved.capPercent.isSome

namespace Document

open Attempt Checked Check

variable {α : Type} {key : String} {check : Fields Json → Checked α} {rows : List (Fields Json)}

theorem readRows_mem {index : Nat} {xs : List α} (h : readRows key check index rows = .ok xs) :
    ∀ a ∈ xs, ∃ fs ∈ rows, check fs = .valid a := by
  induction rows generalizing index xs with
  | nil =>
    rw [readRows, Except.ok.injEq] at h
    simp [← h]
  | cons fs rows ih =>
    rw [readRows] at h
    cases hfs : check fs with
    | faulty faults => simp [hfs] at h
    | valid b =>
      simp only [hfs, map_eq_ok] at h
      obtain ⟨rest, hrest, rfl⟩ := h
      intro a ha
      rcases List.mem_cons.1 ha with rfl | ha
      · exact ⟨fs, List.mem_cons_self, hfs⟩
      · obtain ⟨fs', hmem, hvalid⟩ := ih hrest a ha
        exact ⟨fs', List.mem_cons_of_mem fs hmem, hvalid⟩

structure ApplicantFields (fs : Fields Json) (a : Applicant) : Prop where
  number : required fs "application_number" (fun v => whole (numeral v)) = .valid a.number
  age : required fs "age" (fun v => whole (numeral v)) = .valid a.age
  residency : required fs "residency" (member Residency) = .valid a.residency
  points : optional fs "point_balance" (.zero false) (fun v => numberFrom 0 (numeralOrZero v)) = .valid a.points
  choices : ∃ c₁ c₂ c₃ c₄, required fs "choice1" name = .valid c₁ ∧
    optional fs "choice2" none optionalText = .valid c₂ ∧ optional fs "choice3" none optionalText = .valid c₃ ∧
    optional fs "choice4" none optionalText = .valid c₄ ∧ c₁ :: [c₂, c₃, c₄].reduceOption = a.choices
  outcome : optional fs "draw_outcome" none (fun v => nullable (member Outcome) (unblank v)) = .valid a.outcome
  ordinalAwarded : optional fs "choice_ordinal_awarded" none count = .valid a.ordinalAwarded
  codeAwarded : optional fs "choice_awarded" none optionalText = .valid a.codeAwarded

theorem checkApplicant_eq_valid {fs : Fields Json} {a : Applicant} :
    checkApplicant fs = .valid a ↔ ApplicantFields fs a := by
  constructor
  · intro h
    simp only [checkApplicant, seq_eq_valid, map_eq_valid] at h
    obtain ⟨_, _, ⟨_, _, ⟨_, _, ⟨_, c₄, ⟨_, c₃, ⟨_, c₂, ⟨_, c₁, ⟨_, _, ⟨_, _, ⟨_, _, ⟨_, hnumber, rfl⟩, hage, rfl⟩,
      hresidency, rfl⟩, hpoints, rfl⟩, h₁, rfl⟩, h₂, rfl⟩, h₃, rfl⟩, h₄, rfl⟩, houtcome, rfl⟩, hordinal, rfl⟩,
      hcode, rfl⟩ := h
    exact ⟨hnumber, hage, hresidency, hpoints, ⟨c₁, c₂, c₃, c₄, h₁, h₂, h₃, h₄, rfl⟩, houtcome, hordinal, hcode⟩
  · intro h
    obtain ⟨c₁, c₂, c₃, c₄, h₁, h₂, h₃, h₄, hchoices⟩ := h.choices
    rw [checkApplicant, h.number, h.age, h.residency, h.points, h₁, h₂, h₃, h₄, h.outcome, h.ordinalAwarded,
      h.codeAwarded]
    exact congrArg (fun cs => Checked.valid { a with choices := cs }) hchoices

/-- A row names a residency of the set, and a first choice that is not blank. -/
theorem checkApplicant_valid {fs : Fields Json} {a : Applicant} (h : checkApplicant fs = .valid a) :
    a.residency.IsKnown ∧ ∃ c rest, a.choices = c :: rest ∧ c ≠ "" := by
  have hfields := checkApplicant_eq_valid.1 h
  constructor
  · obtain ⟨v, -, hv⟩ := required_eq_valid.1 hfields.residency
    have hmember : a.residency ∈ [Residency.resident, .nonResident] := member_mem hv
    simpa [Residency.IsKnown] using hmember
  · obtain ⟨c₁, _, _, _, hchoice, -, -, -, hchoices⟩ := hfields.choices
    obtain ⟨v, -, hv⟩ := required_eq_valid.1 hchoice
    exact ⟨c₁, _, hchoices.symm, filledText_ne hv⟩

theorem readApplicants_valid {applicants : List Applicant} (h : readApplicants rows = .ok applicants) :
    ∀ a ∈ applicants, a.residency.IsKnown ∧ ∃ c rest, a.choices = c :: rest ∧ c ≠ "" := by
  intro a ha
  obtain ⟨fs, -, hvalid⟩ := readRows_mem h a ha
  exact checkApplicant_valid hvalid

theorem count_nonneg {v : Json} {o : Option Int} (h : count v = .valid o) : ∀ n, o = some n → 0 ≤ n := by
  rintro n rfl
  exact wholeFrom_le (nullable_eq_some h)

theorem tally_nonneg {v : Json} {n : Int} (h : tally v = .valid n) : 0 ≤ n := wholeFrom_le h

theorem percent_not_negative {v : Json} {o : Option Binary64} (h : percent v = .valid o) :
    ∀ p, o = some p → ¬p.Negative := by
  rintro p rfl
  exact Binary64.not_negative_of_zero_le (numberFrom_le (nullable_eq_some h))

structure HuntCodeFields (fs : Fields Json) (c : HuntCode) : Prop where
  code : required fs "hunt_code" name = .valid c.code
  isValid : required fs "is_valid" yesNo = .valid c.isValid
  isInDraw : required fs "in_the_draw" yesNo = .valid c.isInDraw
  quota : optional fs "total_quota" none count = .valid c.quota
  drawQuota : optional fs "total_quota_in_this_draw" none count = .valid c.drawQuota
  awarded : optional fs "total_quota_awarded" 0 tally = .valid c.awarded
  previousBalance : optional fs "previous_quota_balance" none count = .valid c.previousBalance
  balance : optional fs "quota_balance" none count = .valid c.balance
  drawBalance : optional fs "quota_balance_in_this_draw" none count = .valid c.drawBalance
  drawAwarded : optional fs "quota_awarded_in_this_draw" 0 tally = .valid c.drawAwarded
  hardCap : ∃ capCheck, optional fs "nr_cap_chk" false yesNoOrNo = .valid capCheck ∧
    (capCheck && c.nonResident.capPercent.isSome) = c.nonResident.hardCap
  capPercent : optional fs "nrcap_prect" none percent = .valid c.nonResident.capPercent
  capQuota : optional fs "nrcap_amt" none count = .valid c.nonResident.quota
  capBalance : optional fs "nrcap_bal" none count = .valid c.nonResident.balance
  nrDrawAwarded : optional fs "nr_quota_awarded_in_this_draw" 0 tally = .valid c.nonResident.drawAwarded
  nrAwarded : optional fs "nr_total_quota_awarded" 0 tally = .valid c.nonResident.awarded
  rDrawAwarded : optional fs "r_quota_awarded_in_this_draw" 0 tally = .valid c.resident.drawAwarded
  rAwarded : optional fs "r_total_quota_awarded" 0 tally = .valid c.resident.awarded
  reservedPercent : optional fs "unLPP_prect" none percent = .valid c.reserved.capPercent
  reservedQuota : optional fs "unLPP_amt" none count = .valid c.reserved.quota
  reservedBalance : optional fs "unLPP_bal" none count = .valid c.reserved.balance
  enabled : c.reserved.capPercent.isSome = c.reserved.enabled

theorem checkHuntCode_eq_valid {fs : Fields Json} {c : HuntCode} :
    checkHuntCode fs = .valid c ↔ HuntCodeFields fs c := by
  constructor
  · intro h
    rw [checkHuntCode] at h
    -- the fields are taken off from the last to the first, and the row is put together again behind the first
    obtain ⟨_, _, h, hreserveBalance, e20⟩ := seq_eq_valid.1 h
    obtain ⟨_, _, h, hreserveQuota, e19⟩ := seq_eq_valid.1 h
    obtain ⟨_, _, h, hreserve, e18⟩ := seq_eq_valid.1 h
    obtain ⟨_, _, h, hrAwarded, e17⟩ := seq_eq_valid.1 h
    obtain ⟨_, _, h, hrDraw, e16⟩ := seq_eq_valid.1 h
    obtain ⟨_, _, h, hnrAwarded, e15⟩ := seq_eq_valid.1 h
    obtain ⟨_, _, h, hnrDraw, e14⟩ := seq_eq_valid.1 h
    obtain ⟨_, _, h, hcapBalance, e13⟩ := seq_eq_valid.1 h
    obtain ⟨_, _, h, hcapQuota, e12⟩ := seq_eq_valid.1 h
    obtain ⟨_, _, h, hcap, e11⟩ := seq_eq_valid.1 h
    obtain ⟨_, _, h, hcheck, e10⟩ := seq_eq_valid.1 h
    obtain ⟨_, _, h, hdrawAwarded, e9⟩ := seq_eq_valid.1 h
    obtain ⟨_, _, h, hdrawBalance, e8⟩ := seq_eq_valid.1 h
    obtain ⟨_, _, h, hbalance, e7⟩ := seq_eq_valid.1 h
    obtain ⟨_, _, h, hprevious, e6⟩ := seq_eq_valid.1 h
    obtain ⟨_, _, h, hawarded, e5⟩ := seq_eq_valid.1 h
    obtain ⟨_, _, h, hdrawQuota, e4⟩ := seq_eq_valid.1 h
    obtain ⟨_, _, h, hquota, e3⟩ := seq_eq_valid.1 h
    obtain ⟨_, _, h, hinDraw, e2⟩ := seq_eq_valid.1 h
    obtain ⟨_, _, h, hvalid, e1⟩ := seq_eq_valid.1 h
    obtain ⟨code, hcode, rfl⟩ := map_eq_valid.1 h
    subst e1 e2 e3 e4 e5 e6 e7 e8 e9 e10 e11 e12 e13 e14 e15 e16 e17 e18 e19 e20
    exact ⟨hcode, hvalid, hinDraw, hquota, hdrawQuota, hawarded, hprevious, hbalance, hdrawBalance, hdrawAwarded,
      ⟨_, hcheck, rfl⟩, hcap, hcapQuota, hcapBalance, hnrDraw, hnrAwarded, hrDraw, hrAwarded, hreserve, hreserveQuota,
      hreserveBalance, rfl⟩
  · intro h
    obtain ⟨capCheck, hcheck, hcap⟩ := h.hardCap
    rw [checkHuntCode, h.code, h.isValid, h.isInDraw, h.quota, h.drawQuota, h.awarded, h.previousBalance, h.balance,
      h.drawBalance, h.drawAwarded, hcheck, h.capPercent, h.capQuota, h.capBalance, h.nrDrawAwarded, h.nrAwarded,
      h.rDrawAwarded, h.rAwarded, h.reservedPercent, h.reservedQuota, h.reservedBalance]
    exact congrArg₂ (fun capped enabled => Checked.valid
      { c with nonResident.hardCap := capped, reserved.enabled := enabled }) hcap h.enabled

theorem checkHuntCode_valid {fs : Fields Json} {c : HuntCode} (h : checkHuntCode fs = .valid c) : c.Proper := by
  have hcount : ∀ {key o}, optional fs key none count = .valid o → ∀ n, o = some n → 0 ≤ n :=
    optional_valid (by simp) fun _ _ => count_nonneg
  have htally : ∀ {key n}, optional fs key 0 tally = .valid n → 0 ≤ n :=
    optional_valid le_rfl fun _ _ => tally_nonneg
  have hpercent : ∀ {key o}, optional fs key none percent = .valid o → ∀ p, o = some p → ¬p.Negative :=
    optional_valid (by simp) fun _ _ => percent_not_negative
  have hfields := checkHuntCode_eq_valid.1 h
  refine ⟨?_, ?_, hpercent hfields.capPercent, hpercent hfields.reservedPercent, ?_, hfields.enabled.symm.le⟩
  · obtain ⟨v, -, hv⟩ := required_eq_valid.1 hfields.code
    exact filledText_ne hv
  · simp only [HuntCode.counts, List.forall_mem_append, List.forall_mem_filterMap, List.forall_mem_cons]
    exact ⟨⟨hcount hfields.quota, hcount hfields.drawQuota, hcount hfields.previousBalance, hcount hfields.balance,
      hcount hfields.drawBalance, hcount hfields.capQuota, hcount hfields.capBalance, hcount hfields.reservedQuota,
      hcount hfields.reservedBalance, by simp⟩, htally hfields.awarded, htally hfields.drawAwarded,
      htally hfields.nrDrawAwarded, htally hfields.nrAwarded, htally hfields.rDrawAwarded, htally hfields.rAwarded,
      by simp⟩
  · obtain ⟨_, -, hcap⟩ := hfields.hardCap
    exact fun hhard => (Bool.and_eq_true_iff.1 (hcap.trans hhard)).2

theorem readHuntCodes_valid {codes : List HuntCode} (h : readHuntCodes rows = .ok codes) :
    ∀ c ∈ codes, c.Proper := by
  intro c hc
  obtain ⟨fs, -, hvalid⟩ := readRows_mem h c hc
  exact checkHuntCode_valid hvalid

end Document
end HuntDraw
