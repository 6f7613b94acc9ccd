import HuntDraw.Csv.Cell
import HuntDraw.Draw.Applicant
import HuntDraw.Draw.HuntCode
import HuntDraw.Schema.Check

/-! Hunt codes and applicants as rows of documents: reading rows, with every fault of the first row
that has one, and writing them. Empty cells mean that nothing was given. -/

namespace HuntDraw

/-- A row that cannot be read, by the record it is about. -/
structure RowFault where
  record : String
  faults : List Fault
  deriving DecidableEq, Repr

namespace RowFault

def errors (f : RowFault) : List String :=
  f.faults.map fun e => (if e.path.isEmpty then "row" else e.place) ++ ": " ++ e.complaint.message

def message (f : RowFault) : String :=
  s!"Record {f.record} has the following errors: " ++ "; ".intercalate f.errors

end RowFault

namespace Document

/-- Text without the blanks around it, or nothing when no other character is there. -/
def unblank : Json → Json
  | .text s => let t := Text.strip s; if t.isEmpty then .null else .text t
  | v => v

/-- Text that is a number, as that number: whole ones as whole numbers. -/
def numeral (v : Json) : Json :=
  match unblank v with
  | .text s =>
    match Numeral.document? s with
    | some x =>
      match x.isInteger, x.truncate with
      | true, .ok i => .int i
      | _, _ => .float x
    | none => .text s
  | v => v

def numeralOrZero (v : Json) : Json :=
  match numeral v with
  | .null => .int 0
  | v => v

def count : Check (Option Int) := fun v => Check.nullable (Check.wholeFrom 0) (numeral v)

def percent : Check (Option Binary64) := fun v => Check.nullable (Check.numberFrom 0) (numeral v)

def tally : Check Int := fun v => Check.wholeFrom 0 (numeralOrZero v)

def yesNo : Check Bool := fun v => (Check.oneOf ["Y", "N"] v).map (· == "Y")

def yesNoOrNo : Check Bool := fun v =>
  match unblank v with
  | .null => .valid false
  | v => yesNo v

def name : Check String := fun v => Check.filledText (unblank v)

def optionalText : Check (Option String) := fun v => Check.nullable Check.text (unblank v)

open Check in
/-- The hunt code of a row. A cap holds only where its percentage is given, and a reserved pool is
enabled by its percentage. -/
def checkHuntCode (fs : Fields Json) : Checked HuntCode :=
  (fun code isValid isInDraw quota drawQuota awarded previousBalance balance drawBalance drawAwarded
      capCheck capPercent capQuota capBalance nrDrawAwarded nrAwarded rDrawAwarded rAwarded
      reservedPercent reservedQuota reservedBalance =>
    { code, isValid, isInDraw, quota, drawQuota, previousBalance, balance, drawBalance, awarded, drawAwarded
      nonResident := ⟨capCheck && capPercent.isSome, capPercent, capQuota, capBalance, nrDrawAwarded, nrAwarded⟩
      resident := ⟨rDrawAwarded, rAwarded⟩
      reserved := ⟨reservedPercent.isSome, reservedPercent, reservedQuota, reservedBalance⟩ : HuntCode })
    <$> required fs "hunt_code" name
    <*> required fs "is_valid" yesNo
    <*> required fs "in_the_draw" yesNo
    <*> optional fs "total_quota" none count
    <*> optional fs "total_quota_in_this_draw" none count
    <*> optional fs "total_quota_awarded" 0 tally
    <*> optional fs "previous_quota_balance" none count
    <*> optional fs "quota_balance" none count
    <*> optional fs "quota_balance_in_this_draw" none count
    <*> optional fs "quota_awarded_in_this_draw" 0 tally
    <*> optional fs "nr_cap_chk" false yesNoOrNo
    <*> optional fs "nrcap_prect" none percent
    <*> optional fs "nrcap_amt" none count
    <*> optional fs "nrcap_bal" none count
    <*> optional fs "nr_quota_awarded_in_this_draw" 0 tally
    <*> optional fs "nr_total_quota_awarded" 0 tally
    <*> optional fs "r_quota_awarded_in_this_draw" 0 tally
    <*> optional fs "r_total_quota_awarded" 0 tally
    <*> optional fs "unLPP_prect" none percent
    <*> optional fs "unLPP_amt" none count
    <*> optional fs "unLPP_bal" none count

open Check in
/-- The applicant of a row; blank choices close up. -/
def checkApplicant (fs : Fields Json) : Checked Applicant :=
  (fun number age residency points choice1 choice2 choice3 choice4 outcome ordinalAwarded codeAwarded =>
    { number, age, residency, points, outcome, ordinalAwarded, codeAwarded
      choices := choice1 :: [choice2, choice3, choice4].reduceOption : Applicant })
    <$> required fs "application_number" (fun v => whole (numeral v))
    <*> required fs "age" (fun v => whole (numeral v))
    <*> required fs "residency" (member Residency)
    <*> optional fs "point_balance" (Binary64.zero false) (fun v => numberFrom 0 (numeralOrZero v))
    <*> required fs "choice1" name
    <*> optional fs "choice2" none optionalText
    <*> optional fs "choice3" none optionalText
    <*> optional fs "choice4" none optionalText
    <*> optional fs "draw_outcome" none (fun v => nullable (member Outcome) (unblank v))
    <*> optional fs "choice_ordinal_awarded" none count
    <*> optional fs "choice_awarded" none optionalText

/-- What a row is called in a report: its key, or its number. -/
def label (fs : Fields Json) (key : String) (index : Nat) : String :=
  match unblank ((fs.get? key).getD .null) with
  | .null => s!"at row {index + 1}"
  | v => v.asText

/-- Reads rows in turn, from the given number on, up to the first faulty one. -/
def readRows {α : Type} (key : String) (check : Fields Json → Checked α) (index : Nat) :
    List (Fields Json) → Except RowFault (List α)
  | [] => .ok []
  | fs :: rest =>
    match check fs with
    | .faulty faults => .error ⟨label fs key index, faults⟩
    | .valid a => (a :: ·) <$> readRows key check (index + 1) rest

def readHuntCodes (rows : List (Fields Json)) : Except RowFault (List HuntCode) :=
  readRows "hunt_code" checkHuntCode 0 rows

def readApplicants (rows : List (Fields Json)) : Except RowFault (List Applicant) :=
  readRows "application_number" checkApplicant 0 rows

open Csv

/-- A hunt code by column, in the order in which the columns are written. -/
def huntCodeCells (c : HuntCode) : List (String × Cell) := [
  ("hunt_code", .text c.code),
  ("is_valid", .flag c.isValid),
  ("in_the_draw", .flag c.isInDraw),
  ("total_quota", .ofInt? c.quota),
  ("nr_cap_chk", .flag c.nonResident.hardCap),
  ("nrcap_prect", .ofNumber? c.nonResident.capPercent),
  ("nrcap_amt", .ofInt? c.nonResident.quota),
  ("nrcap_bal", .ofInt? c.nonResident.balance),
  ("unLPP_prect", .ofNumber? c.reserved.capPercent),
  ("unLPP_amt", .ofInt? c.reserved.quota),
  ("unLPP_bal", .ofInt? c.reserved.balance),
  ("previous_quota_balance", .ofInt? c.previousBalance),
  ("total_quota_in_this_draw", .ofInt? c.drawQuota),
  ("quota_balance", .ofInt? c.balance),
  ("quota_balance_in_this_draw", .ofInt? c.drawBalance),
  ("total_quota_awarded", .whole c.awarded),
  ("quota_awarded_in_this_draw", .whole c.drawAwarded),
  ("nr_quota_awarded_in_this_draw", .whole c.nonResident.drawAwarded),
  ("nr_total_quota_awarded", .whole c.nonResident.awarded),
  ("r_quota_awarded_in_this_draw", .whole c.resident.drawAwarded),
  ("r_total_quota_awarded", .whole c.resident.awarded)]

def huntCodeHeader : List String :=
  (huntCodeCells { code := "", isValid := false, isInDraw := false }).map (·.1)

/-- An applicant by column; choices beyond the last round are not written. -/
def applicantCells (a : Applicant) : List (String × Cell) := [
  ("application_number", .whole a.number),
  ("age", .whole a.age),
  ("residency", .text a.residency.text),
  ("point_balance", .number a.points),
  ("choice1", .ofText? a.choices[0]?),
  ("choice2", .ofText? a.choices[1]?),
  ("choice3", .ofText? a.choices[2]?),
  ("choice4", .ofText? a.choices[3]?),
  ("draw_outcome", .ofText? (a.outcome.map Outcome.text)),
  ("choice_ordinal_awarded", .ofInt? a.ordinalAwarded),
  ("choice_awarded", .ofText? a.codeAwarded)]

def applicantHeader : List String :=
  (applicantCells ⟨0, 0, .resident, .zero false, [], none, none, none⟩).map (·.1)

def huntCodeTable (codes : List HuntCode) : String :=
  cellTable huntCodeHeader (codes.map fun c => (huntCodeCells c).map (·.2))

def applicantTable (applicants : List Applicant) : String :=
  cellTable applicantHeader (applicants.map fun a => (applicantCells a).map (·.2))

end Document
end HuntDraw
