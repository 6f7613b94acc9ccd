import HuntDraw.Proofs.Draw.Cell
import HuntDraw.Proofs.Draw.Document
import Mathlib.Data.List.ReduceOption

/-! Exported records. Hunt codes and applicants are read back from the rows that they are written as, and whatever can
be read can be written and read again. -/

namespace HuntDraw

open Csv

def Csv.cellFields (cells : List (String × Cell)) : Fields Json := cells.map fun p => (p.1, .text p.2.render)

namespace HuntCode

def percents (c : HuntCode) : List Binary64 := [c.nonResident.capPercent, c.reserved.capPercent].reduceOption

theorem forall_percents {P : Binary64 → Prop} {c : HuntCode} : (∀ x ∈ c.percents, P x) ↔
    (∀ x, c.nonResident.capPercent = some x → P x) ∧ ∀ x, c.reserved.capPercent = some x → P x := by
  simp only [percents, List.reduceOption, List.forall_mem_filterMap, List.forall_mem_cons, id]
  exact ⟨fun h => ⟨h.1, h.2.1⟩, fun h => ⟨h.1, h.2, by simp⟩⟩

/-- Counts that numbers hold exactly, and finite percentages. -/
structure Within (c : HuntCode) : Prop where
  counts : ∀ n ∈ c.counts, n.natAbs ≤ 2 ^ 53
  percents : ∀ x ∈ c.percents, x.isFinite

structure Exportable (c : HuntCode) : Prop where
  code : Text.Filled c.code
  counts : ∀ n ∈ c.counts, 0 ≤ n ∧ n ≤ 2 ^ 53
  percents : ∀ x ∈ c.percents, x.isFinite ∧ ¬x.Negative
  capped : c.nonResident.hardCap → c.nonResident.capPercent.isSome
  enabled : c.reserved.enabled = c.reserved.capPercent.isSome

def exported (c : HuntCode) : Fields Json := cellFields (Document.huntCodeCells c)

def withPercents (c : HuntCode) (cap reserve : Option Binary64) : HuntCode :=
  { c with nonResident.capPercent := cap, reserved.capPercent := reserve }

def unsigned (c : HuntCode) : HuntCode :=
  c.withPercents (c.nonResident.capPercent.map .unsigned) (c.reserved.capPercent.map .unsigned)

/-- Equality of records: percentages are compared as values, so that zeros are equal. -/
structure Same (c d : HuntCode) : Prop where
  cap : Option.Rel (fun x y => x.same y) c.nonResident.capPercent d.nonResident.capPercent
  reserve : Option.Rel (fun x y => x.same y) c.reserved.capPercent d.reserved.capPercent
  others : c = d.withPercents c.nonResident.capPercent c.reserved.capPercent

theorem rel_unsigned {o : Option Binary64} (h : ∀ x, o = some x → x.isFinite ∧ ¬x.Negative) :
    Option.Rel (fun x y => x.same y) (o.map Binary64.unsigned) o := by
  cases o with
  | none => exact .none
  | some x => exact .some (Binary64.same_unsigned (h x rfl).1 (h x rfl).2)

theorem Exportable.same {c : HuntCode} (h : c.Exportable) : c.unsigned.Same c := by
  obtain ⟨hcap, hreserve⟩ := forall_percents.1 h.percents
  exact ⟨rel_unsigned hcap, rel_unsigned hreserve, rfl⟩

end HuntCode

namespace Applicant

structure Within (a : Applicant) : Prop where
  number : a.number.natAbs ≤ 2 ^ 53
  age : a.age.natAbs ≤ 2 ^ 53
  points : a.points.isFinite
  ordinalAwarded : ∀ n, a.ordinalAwarded = some n → n.natAbs ≤ 2 ^ 53

structure Exportable (a : Applicant) : Prop where
  number : a.number.natAbs ≤ 2 ^ 53
  age : a.age.natAbs ≤ 2 ^ 53
  residency : a.residency.IsKnown
  points : a.points.isFinite ∧ ¬a.points.Negative
  chosen : a.choices ≠ []
  choices_le : a.choices.length ≤ rounds
  choices : ∀ s ∈ a.choices, Text.Filled s
  ordinalAwarded : ∀ n, a.ordinalAwarded = some n → 0 ≤ n ∧ n ≤ 2 ^ 53
  codeAwarded : ∀ s, a.codeAwarded = some s → Text.Filled s

def exported (a : Applicant) : Fields Json := cellFields (Document.applicantCells a)

def unsigned (a : Applicant) : Applicant := { a with points := a.points.unsigned }

/-- Equality of records: points are compared as values, so that zeros are equal. -/
structure Same (a b : Applicant) : Prop where
  points : a.points.same b.points
  others : a = { b with points := a.points }

theorem Exportable.same {a : Applicant} (h : a.Exportable) : a.unsigned.Same a :=
  ⟨Binary64.same_unsigned h.points.1 h.points.2, rfl⟩

end Applicant

namespace Document

open Check Checked

variable {α : Type} {cells : List (String × Cell)} {key : String} {cell : Cell} {check : Check α} {a absent : α}

theorem get?_cellFields (h : Fields.get? cells key = some cell) :
    (cellFields cells).get? key = some (.text cell.render) := by
  rw [cellFields, Fields.get?_map (fun c : Cell => Json.text c.render), h]
  rfl

theorem required_cell (hcell : Fields.get? cells key = some cell) (h : check (.text cell.render) = .valid a) :
    required (cellFields cells) key check = .valid a :=
  required_eq_valid.2 ⟨_, get?_cellFields hcell, h⟩

theorem optional_cell (hcell : Fields.get? cells key = some cell) (h : check (.text cell.render) = .valid a) :
    optional (cellFields cells) key absent check = .valid a := by
  rw [Check.optional, get?_cellFields hcell]
  exact within_eq_valid.2 h

variable {c : HuntCode}

theorem checkHuntCode_exported (hc : c.Exportable) : checkHuntCode c.exported = .valid c.unsigned := by
  have hcounts := hc.counts
  simp only [HuntCode.counts, List.forall_mem_append, List.forall_mem_filterMap, List.forall_mem_cons, id] at hcounts
  obtain ⟨⟨hquota, hdrawQuota, hprevious, hbalance, hdrawBalance, hcapQuota, hcapBalance, hreservedQuota,
    hreservedBalance, -⟩, hawarded, hdrawAwarded, hnrDraw, hnrAwarded, hrDraw, hrAwarded, -⟩ := hcounts
  obtain ⟨hcap, hreserve⟩ := HuntCode.forall_percents.1 hc.percents
  have hhard : (c.nonResident.hardCap && (c.nonResident.capPercent.map Binary64.unsigned).isSome) =
      c.nonResident.hardCap := by
    rw [Option.isSome_map]
    exact Bool.and_eq_left_iff_imp.2 hc.capped
  exact checkHuntCode_eq_valid.2 {
    code := required_cell rfl (name_cell hc.code)
    isValid := required_cell rfl (yesNo_cell _)
    isInDraw := required_cell rfl (yesNo_cell _)
    quota := optional_cell rfl (count_cell hquota)
    drawQuota := optional_cell rfl (count_cell hdrawQuota)
    awarded := optional_cell rfl (tally_cell hawarded)
    previousBalance := optional_cell rfl (count_cell hprevious)
    balance := optional_cell rfl (count_cell hbalance)
    drawBalance := optional_cell rfl (count_cell hdrawBalance)
    drawAwarded := optional_cell rfl (tally_cell hdrawAwarded)
    hardCap := ⟨_, optional_cell rfl (yesNoOrNo_cell _), hhard⟩
    capPercent := optional_cell rfl (percent_cell hcap)
    capQuota := optional_cell rfl (count_cell hcapQuota)
    capBalance := optional_cell rfl (count_cell hcapBalance)
    nrDrawAwarded := optional_cell rfl (tally_cell hnrDraw)
    nrAwarded := optional_cell rfl (tally_cell hnrAwarded)
    rDrawAwarded := optional_cell rfl (tally_cell hrDraw)
    rAwarded := optional_cell rfl (tally_cell hrAwarded)
    reservedPercent := optional_cell rfl (percent_cell hreserve)
    reservedQuota := optional_cell rfl (count_cell hreservedQuota)
    reservedBalance := optional_cell rfl (count_cell hreservedBalance)
    enabled := Option.isSome_map.trans hc.enabled.symm }

variable {a : Applicant}

theorem reduceOption_getElem? (rest : List String) (h : rest.length ≤ 3) :
    [rest[0]?, rest[1]?, rest[2]?].reduceOption = rest := by
  match rest with
  | [] | [_] | [_, _] | [_, _, _] => rfl
  | _ :: _ :: _ :: _ :: _ =>
    simp only [List.length_cons] at h
    omega

theorem checkApplicant_exported (ha : a.Exportable) : checkApplicant a.exported = .valid a.unsigned := by
  obtain ⟨c, rest, hchoices⟩ := List.exists_cons_of_ne_nil ha.chosen
  have hfilled : ∀ n s, a.choices[n]? = some s → Text.Filled s := fun n s hs =>
    ha.choices s (List.mem_of_getElem? hs)
  have hrest : rest.length ≤ 3 := by
    have hle := ha.choices_le
    rw [hchoices, List.length_cons, Applicant.rounds] at hle
    omega
  have hfirst : name (.text (Cell.ofText? a.choices[0]?).render) = .valid c := by
    rw [hchoices]
    exact name_cell (ha.choices c (hchoices ▸ List.mem_cons_self))
  have hclose : c :: [a.choices[1]?, a.choices[2]?, a.choices[3]?].reduceOption = a.choices := by
    rw [hchoices]
    exact congrArg (c :: ·) (reduceOption_getElem? rest hrest)
  exact checkApplicant_eq_valid.2 {
    number := required_cell rfl (whole_cell ha.number)
    age := required_cell rfl (whole_cell ha.age)
    residency := required_cell rfl (residency_cell ha.residency)
    points := optional_cell rfl (points_cell ha.points.1 ha.points.2)
    choices := ⟨c, _, _, _, required_cell rfl hfirst, optional_cell rfl (optionalText_cell (hfilled 1)),
      optional_cell rfl (optionalText_cell (hfilled 2)), optional_cell rfl (optionalText_cell (hfilled 3)), hclose⟩
    outcome := optional_cell rfl (outcome_cell a.outcome)
    ordinalAwarded := optional_cell rfl (count_cell ha.ordinalAwarded)
    codeAwarded := optional_cell rfl (optionalText_cell ha.codeAwarded) }

variable {fs : Fields Json} {rows : List (Fields Json)}

/-- A hunt code that could be read can be written, where its numbers are within what cells hold. -/
theorem HuntCodeFields.exportable (h : HuntCodeFields fs c) (hwithin : c.Within) : c.Exportable := by
  have hproper := checkHuntCode_valid (checkHuntCode_eq_valid.2 h)
  refine ⟨?_, fun n hn => ?_, fun x hx => ⟨hwithin.percents x hx, ?_⟩, hproper.capped, h.enabled.symm⟩
  · obtain ⟨v, -, hv⟩ := required_eq_valid.1 h.code
    exact name_filled hv
  · have hlow := hproper.counts n hn
    have hhigh := hwithin.counts n hn
    exact ⟨hlow, by omega⟩
  · exact HuntCode.forall_percents.2 ⟨hproper.cap, hproper.reserve⟩ x hx

theorem ApplicantFields.exportable (h : ApplicantFields fs a) (hwithin : a.Within) : a.Exportable := by
  obtain ⟨c₁, c₂, c₃, c₄, h₁, h₂, h₃, h₄, hchoices⟩ := h.choices
  have hpoints : ¬a.points.Negative := optional_valid (P := fun x => ¬x.Negative)
    (Binary64.not_negative_zero false) (fun _ _ hv => Binary64.not_negative_of_zero_le (numberFrom_le hv)) h.points
  have htext : ∀ {key o}, Check.optional fs key none optionalText = .valid o → ∀ s, o = some s → Text.Filled s :=
    optional_valid (by simp) fun _ _ => optionalText_filled
  have hordinal : ∀ n, a.ordinalAwarded = some n → 0 ≤ n :=
    optional_valid (P := fun o => ∀ n, o = some n → 0 ≤ n) (by simp) (fun _ _ => count_nonneg) h.ordinalAwarded
  refine ⟨hwithin.number, hwithin.age, (checkApplicant_valid (checkApplicant_eq_valid.2 h)).1,
    ⟨hwithin.points, hpoints⟩, ?_, ?_, ?_, fun n hn => ?_, htext h.codeAwarded⟩
  · rw [← hchoices]
    exact List.cons_ne_nil _ _
  · have hle := List.reduceOption_length_le [c₂, c₃, c₄]
    rw [← hchoices, List.length_cons]
    exact Nat.succ_le_succ hle
  · obtain ⟨v, -, hv⟩ := required_eq_valid.1 h₁
    rw [← hchoices, List.reduceOption]
    simp only [List.forall_mem_cons, List.forall_mem_filterMap, id]
    exact ⟨name_filled hv, htext h₂, htext h₃, htext h₄, by simp⟩
  · have hlow := hordinal n hn
    have hhigh := hwithin.ordinalAwarded n hn
    exact ⟨hlow, by omega⟩

/-- Rows that are each found to be a record are read as these records. -/
theorem readRows_map {β : Type} {check : Fields Json → Checked α} {row : β → Fields Json} {record : β → α}
    {xs : List β} (h : ∀ x ∈ xs, check (row x) = .valid (record x)) (index : Nat) :
    readRows key check index (xs.map row) = .ok (xs.map record) := by
  induction xs generalizing index with
  | nil => rfl
  | cons x xs ih =>
    rw [List.map_cons, readRows, h x List.mem_cons_self, ih fun y hy => h y (List.mem_cons_of_mem x hy)]
    rfl

theorem readHuntCodes_exported {codes : List HuntCode} (h : ∀ c ∈ codes, c.Exportable) :
    readHuntCodes (codes.map HuntCode.exported) = .ok (codes.map HuntCode.unsigned) :=
  readRows_map (fun c hc => checkHuntCode_exported (h c hc)) 0

theorem readApplicants_exported {applicants : List Applicant} (h : ∀ a ∈ applicants, a.Exportable) :
    readApplicants (applicants.map Applicant.exported) = .ok (applicants.map Applicant.unsigned) :=
  readRows_map (fun a ha => checkApplicant_exported (h a ha)) 0

theorem readHuntCodes_exportable {codes : List HuntCode} (h : readHuntCodes rows = .ok codes)
    (hwithin : ∀ c ∈ codes, c.Within) : ∀ c ∈ codes, c.Exportable := by
  intro c hc
  obtain ⟨fs, -, hvalid⟩ := readRows_mem h c hc
  exact (checkHuntCode_eq_valid.1 hvalid).exportable (hwithin c hc)

theorem readApplicants_exportable {applicants : List Applicant} (h : readApplicants rows = .ok applicants)
    (hwithin : ∀ a ∈ applicants, a.Within) : ∀ a ∈ applicants, a.Exportable := by
  intro a ha
  obtain ⟨fs, -, hvalid⟩ := readRows_mem h a ha
  exact (checkApplicant_eq_valid.1 hvalid).exportable (hwithin a ha)

/-- Hunt codes and applicants are read back from the rows that they are written as, with every number the same value;
whatever is read from rows can be written so, and reading what was written of it changes nothing. -/
theorem exported_read_back :
    (∀ c : HuntCode, c.Exportable → readHuntCodes [c.exported] = .ok [c.unsigned] ∧ c.unsigned.Same c) ∧
    (∀ a : Applicant, a.Exportable → readApplicants [a.exported] = .ok [a.unsigned] ∧ a.unsigned.Same a) ∧
    (∀ rows codes, readHuntCodes rows = .ok codes → (∀ c ∈ codes, c.Within) →
      (∀ c ∈ codes, c.Exportable ∧ c.unsigned.Same c) ∧
        readHuntCodes (codes.map HuntCode.exported) = .ok (codes.map HuntCode.unsigned)) ∧
    (∀ rows applicants, readApplicants rows = .ok applicants → (∀ a ∈ applicants, a.Within) →
      (∀ a ∈ applicants, a.Exportable ∧ a.unsigned.Same a) ∧
        readApplicants (applicants.map Applicant.exported) = .ok (applicants.map Applicant.unsigned)) := by
  refine ⟨fun c hc => ⟨?_, hc.same⟩, fun a ha => ⟨?_, ha.same⟩, fun rows codes hread hwithin => ?_,
    fun rows applicants hread hwithin => ?_⟩
  · have hone : ∀ d ∈ [c], d.Exportable := by simpa using hc
    exact readHuntCodes_exported hone
  · have hone : ∀ b ∈ [a], b.Exportable := by simpa using ha
    exact readApplicants_exported hone
  · have hexportable := readHuntCodes_exportable hread hwithin
    exact ⟨fun c hc => ⟨hexportable c hc, (hexportable c hc).same⟩, readHuntCodes_exported hexportable⟩
  · have hexportable := readApplicants_exportable hread hwithin
    exact ⟨fun a ha => ⟨hexportable a ha, (hexportable a ha).same⟩, readApplicants_exported hexportable⟩

/-- A cap of 12.5 percent, and a reserve of a negative zero. -/
def writtenCode : HuntCode where
  code := "EE1"
  isValid := true
  isInDraw := false
  quota := some 40
  nonResident := { hardCap := true, capPercent := some (.ofRatio false 25 2), awarded := 3 }
  reserved := { enabled := true, capPercent := some (.zero true) }

def writtenApplicant : Applicant :=
  ⟨-7, 2 ^ 53, .nonResident, .zero true, ["EE1", "EE2"], some .awarded, some 1, some "EE1"⟩

theorem writtenCode_exportable : writtenCode.Exportable where
  code := by decide
  counts := by decide
  percents := by
    have hfinite : (Binary64.ofRatio false 25 2).isFinite := by decide +kernel
    have hmem : writtenCode.percents = [.ofRatio false 25 2, .zero true] := rfl
    rw [hmem, List.forall_mem_cons, List.forall_mem_singleton]
    exact ⟨⟨hfinite, Binary64.ofRatio_not_negative 25 2⟩, rfl, Binary64.not_negative_zero true⟩
  capped := fun _ => rfl
  enabled := rfl

theorem writtenApplicant_exportable : writtenApplicant.Exportable where
  number := by decide
  age := by decide
  residency := .inr rfl
  points := ⟨rfl, Binary64.not_negative_zero true⟩
  chosen := by decide
  choices_le := by decide
  choices := by decide
  ordinalAwarded := by
    rintro n hn
    obtain rfl := Option.some.inj hn
    decide
  codeAwarded := by
    rintro s hs
    obtain rfl := Option.some.inj hs
    decide

theorem writtenCode_within : writtenCode.unsigned.Within where
  counts := by decide
  percents := by
    have hfinite : (Binary64.ofRatio false 25 2).unsigned.isFinite := by decide +kernel
    have hmem : writtenCode.unsigned.percents = [(Binary64.ofRatio false 25 2).unsigned, .zero false] := rfl
    rw [hmem, List.forall_mem_cons, List.forall_mem_singleton]
    exact ⟨hfinite, rfl⟩

theorem writtenApplicant_within : writtenApplicant.unsigned.Within where
  number := by decide
  age := by decide
  points := rfl
  ordinalAwarded := by
    rintro n hn
    obtain rfl := Option.some.inj hn
    decide

/-- The negative zeros come back as zeros, and nothing else changes. -/
theorem written_read_back :
    (writtenCode.Exportable ∧ readHuntCodes [writtenCode.exported] = .ok [writtenCode.unsigned] ∧
      writtenCode.unsigned.Same writtenCode ∧
      readHuntCodes [writtenCode.unsigned.exported] = .ok [writtenCode.unsigned.unsigned]) ∧
    (writtenApplicant.Exportable ∧ readApplicants [writtenApplicant.exported] = .ok [writtenApplicant.unsigned] ∧
      writtenApplicant.unsigned.Same writtenApplicant ∧
      readApplicants [writtenApplicant.unsigned.exported] = .ok [writtenApplicant.unsigned.unsigned]) := by
  obtain ⟨hcode, happlicant, hcodes, happlicants⟩ := exported_read_back
  obtain ⟨hread, hsame⟩ := hcode writtenCode writtenCode_exportable
  obtain ⟨hread', hsame'⟩ := happlicant writtenApplicant writtenApplicant_exportable
  have hwithin : ∀ c ∈ [writtenCode.unsigned], c.Within := by simpa using writtenCode_within
  have hwithin' : ∀ a ∈ [writtenApplicant.unsigned], a.Within := by simpa using writtenApplicant_within
  exact ⟨⟨writtenCode_exportable, hread, hsame, (hcodes _ _ hread hwithin).2⟩, writtenApplicant_exportable, hread',
    hsame', (happlicants _ _ hread' hwithin').2⟩

end Document
end HuntDraw
