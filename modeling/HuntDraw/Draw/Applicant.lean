import HuntDraw.Data.Json
import HuntDraw.Data.Worded

/-! Applicants: who applied, with which ranked choices, and what the draw gave them. -/

namespace HuntDraw

inductive Residency where
  | resident
  | nonResident
  | other (text : String)
  deriving DecidableEq, Repr

namespace Residency

def text : Residency → String
  | .resident => "RESIDENT"
  | .nonResident => "NON_RESIDENT"
  | .other s => s

/-- The two kinds that a document may name. -/
instance : Worded Residency where
  kind := "ApplicantResidency"
  all := [.resident, .nonResident]
  name := text
  text := text

def ofText (s : String) : Residency := (Worded.ofText? s).getD (.other s)

end Residency

inductive Outcome where
  | awarded
  | notAwarded
  deriving DecidableEq, Repr

def Outcome.text : Outcome → String
  | .awarded => "AWARDED"
  | .notAwarded => "NOT_AWARDED"

instance : Worded Outcome where
  kind := "ApplicantDrawOutcome"
  all := [.awarded, .notAwarded]
  name := Outcome.text
  text := Outcome.text

structure Applicant where
  number : Int
  age : Int
  residency : Residency
  points : Binary64
  choices : List String
  outcome : Option Outcome
  ordinalAwarded : Option Int
  codeAwarded : Option String
  deriving DecidableEq

namespace Applicant

/-- The rounds of a draw: as many choices of an applicant are looked at. -/
def rounds : Nat := 4

def isResident (a : Applicant) : Bool := a.residency = .resident

def award (a : Applicant) (code : String) (ordinal : Int) : Applicant :=
  { a with outcome := some .awarded, ordinalAwarded := some ordinal, codeAwarded := some code }

def clear (a : Applicant) : Applicant :=
  { a with outcome := none, ordinalAwarded := none, codeAwarded := none }

def refuse (a : Applicant) : Applicant :=
  { a with outcome := some .notAwarded, ordinalAwarded := none, codeAwarded := none }

def toJson (a : Applicant) : Json :=
  .object [
    ("application_number", .int a.number),
    ("age", .int a.age),
    ("residency", .text a.residency.text),
    ("point_balance", .float a.points),
    ("choices", Json.ofTexts a.choices),
    ("draw_outcome", Json.ofText? (a.outcome.map Outcome.text)),
    ("choice_ordinal_awarded", Json.ofInt? a.ordinalAwarded),
    ("choice_awarded", Json.ofText? a.codeAwarded)]

end Applicant
end HuntDraw
