import HuntDraw.Csv.Cell
import HuntDraw.Draw.Run

/-! The figures that sum a draw up. Only valid codes in the draw count; those of this draw only where
they took part in it. -/

namespace HuntDraw

inductive Metric where
  | quota
  | drawQuota
  | awarded
  | drawAwarded
  | balance
  | nextBalance
  | nonResidents
  | drawNonResidents
  | nonResidentShare
  | drawNonResidentShare
  | residents
  | drawResidents
  | residentShare
  | drawResidentShare
  deriving DecidableEq, Repr

/-- A share of nothing is the plain count zero. -/
inductive MetricValue where
  | count (n : Int)
  | percent (x : Binary64)
  deriving DecidableEq

namespace Metric

/-- In the order of reports. -/
def all : List Metric :=
  [quota, drawQuota, awarded, drawAwarded, balance, nextBalance, nonResidents, drawNonResidents,
   nonResidentShare, drawNonResidentShare, residents, drawResidents, residentShare, drawResidentShare]

def title : Metric → String
  | quota => "Total Quota"
  | drawQuota => "Total Quota In This Draw"
  | awarded => "Total Quota Awarded"
  | drawAwarded => "Total Quota Awarded In This Draw"
  | balance => "Total Quota Balance"
  | nextBalance => "Total Quota Balance For Next Draw"
  | nonResidents => "Total Non-Residents Awarded"
  | drawNonResidents => "Total Non-Residents Awarded In This Draw"
  | nonResidentShare => "Total Percentage Non-Residents Awarded"
  | drawNonResidentShare => "Total Percentage Non-Residents Awarded In This Draw"
  | residents => "Total Residents Awarded"
  | drawResidents => "Total Residents Awarded In This Draw"
  | residentShare => "Total Percentage Residents Awarded"
  | drawResidentShare => "Total Percentage Residents Awarded In This Draw"

def isShare : Metric → Bool
  | nonResidentShare | drawNonResidentShare | residentShare | drawResidentShare => true
  | _ => false

/-- The percentage that a part is of a total, rounded to two places. -/
def percent (part total : Int) : Except DrawFault MetricValue :=
  if total = 0 then .ok (.count 0)
  else
    match Binary64.ofQuotient? (100 * part) total with
    | some x => .ok (.percent (x.roundPlaces 2))
    | none => .error .shareTooLarge

end Metric

def MetricValue.text : MetricValue → String
  | .count n => toString n
  | .percent x => x.text

namespace DrawResult

def counted (r : DrawResult) : List HuntCode := r.codes.filter fun c => c.isValid && c.isInDraw

def drawn (r : DrawResult) : List HuntCode := r.counted.filter fun c => r.used.contains c.code

def total (codes : List HuntCode) (figure : HuntCode → Int) : Int :=
  codes.foldr (fun c n => figure c + n) 0

/-- The value of a metric that is a sum over codes. -/
def count (r : DrawResult) : Metric → Int
  | .quota => total r.counted fun c => c.quota.getD 0
  | .drawQuota => total r.drawn fun c => c.drawQuota.getD 0
  | .awarded => total r.counted HuntCode.awarded
  | .drawAwarded => total r.drawn HuntCode.drawAwarded
  | .balance => total r.counted fun c => c.startBalance.getD 0
  | .nextBalance => total r.drawn fun c => c.drawBalance.getD 0
  | .nonResidents => total r.counted (·.nonResident.awarded)
  | .drawNonResidents => total r.drawn (·.nonResident.drawAwarded)
  | .residents => total r.counted (·.resident.awarded)
  | .drawResidents => total r.drawn (·.resident.drawAwarded)
  | _ => 0

/-- The part and the total of a share. -/
def metric (r : DrawResult) : Metric → Except DrawFault MetricValue
  | .nonResidentShare => Metric.percent (r.count .nonResidents) (r.count .awarded)
  | .drawNonResidentShare => Metric.percent (r.count .drawNonResidents) (r.count .drawAwarded)
  | .residentShare => Metric.percent (r.count .residents) (r.count .awarded)
  | .drawResidentShare => Metric.percent (r.count .drawResidents) (r.count .drawAwarded)
  | m => .ok (.count (r.count m))

/-- All metrics, in the order of reports. -/
def metrics (r : DrawResult) : Except DrawFault (List (Metric × MetricValue)) :=
  Metric.all.mapM fun m => (m, ·) <$> r.metric m

end DrawResult

def MetricValue.cell : MetricValue → Csv.Cell
  | .count n => .whole n
  | .percent x => .number x

def Metric.header : List String := ["metric", "value"]

def metricTable (metrics : List (Metric × MetricValue)) : String :=
  Csv.cellTable Metric.header (metrics.map fun m => [.text m.1.title, m.2.cell])

end HuntDraw
