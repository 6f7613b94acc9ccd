import HuntDraw.Draw.Document
import HuntDraw.Draw.Metrics
import HuntDraw.Failure.Basic
import HuntDraw.Proofs.Draw.Schedule

/-! What comes of a draw over rows: the tables of its hunt codes, its applicants and its figures. -/

namespace HuntDraw

open Attempt

structure Tables where
  codes : String
  applicants : String
  metrics : String

namespace Draw

/-- The number of workers makes no difference to a draw. -/
theorem run_workers (codes : List HuntCode) (applicants : List Applicant) (sort : Option DrawSort)
    (config : Option DrawConfig) (m n : Int) :
    run codes applicants sort config m = run codes applicants sort config n := by
  simp only [run, rounds_eq_inTurn]

def tablesOf (r : DrawResult) (metrics : List (Metric × MetricValue)) : Tables :=
  ⟨Document.huntCodeTable r.codes, Document.applicantTable r.applicants, metricTable metrics⟩

def Makes (codeRows applicantRows : List Csv.Row) (sort : DrawSort) (config : DrawConfig) (t : Tables) : Prop :=
  ∃ codes applicants r metrics, Document.readHuntCodes (codeRows.map Csv.Row.fields) = .ok codes ∧
    Document.readApplicants (applicantRows.map Csv.Row.fields) = .ok applicants ∧
    run codes applicants (some sort) (some config) 1 = .ok r ∧ r.metrics = .ok metrics ∧ t = tablesOf r metrics

end Draw
end HuntDraw
