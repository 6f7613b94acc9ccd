import HuntDraw.Draw.Journal
import HuntDraw.Draw.Metrics
import HuntDraw.Node.Document

/-! The draw node: draws among the applicants and hunt codes that its sources hold, and makes the
documents with the results. -/

namespace HuntDraw

variable {T : Type}

/-- The configuration of a node and the sort that it names. -/
def Store.drawSettings (s : Store) (node : String) : Except SettingFault (DrawConfig × DrawSort) :=
  match s.getConfig node with
  | none => .error (.noConfig node)
  | some config =>
    match config.sortId with
    | none => .error (.noSort config.id)
    | some id =>
      if id.isEmpty then .error (.noSort config.id)
      else
        match s.getSort id with
        | none => .error (.unknownSort id)
        | some sort => if sort.rules.isEmpty then .error (.noRules sort.id) else .ok (config, sort)

namespace DrawNode

/-- The rows of a source, as fields. -/
def sourceRows (d : NodeData) : Action T (List (Fields Json)) := do
  let key ← Action.look fun b => b.keyOf d.uri
  let content ← Action.look fun b => b.read key
  let rows ← Action.lift .notText content.rows
  return rows.map Csv.Row.fields

def draft (p : Payload) (ending : String) (type : DocumentType) (table : String) : Draft :=
  let name := s!"{p.job}_{p.node}_{ending}"
  { organization := p.organization, name, filename := name ++ ".csv", mime := .csv, type
    content := .ofText table }

/-- Stores the results: hunt codes, applicants, metrics. -/
def publish (p : Payload) (r : DrawResult) (metrics : List (Metric × MetricValue)) :
    Action T (List NodeData) := do
  let codes ← (draft p "hunt_code_results" .huntCodes (Document.huntCodeTable r.codes)).store
  let applicants ← (draft p "applicant_results" .applicants (Document.applicantTable r.applicants)).store
  let figures ← (draft p "draw_metrics" .metrics (metricTable metrics)).store
  [applicants, codes, figures].mapM fun d => d.asData .csv

def awardedCount (r : DrawResult) : Nat := r.applicants.countP fun a => a.codeAwarded.isSome

def run (workers : Int) (bound : Fields Json) (p : Payload) : Action T (List NodeData) := do
  let (config, sort) ← Action.lift .setting ((← get).store.drawSettings p.node)
  let applicantSource ← Action.lift id (p.source .draw DocumentType.applicants.text)
  let codeSource ← Action.lift id (p.source .draw DocumentType.huntCodes.text)
  let applicants ← Action.lift .ofRow (Document.readApplicants (← sourceRows applicantSource))
  let codes ← Action.lift .ofRow (Document.readHuntCodes (← sourceRows codeSource))
  Action.logAll bound (Draw.journal codes applicants (some sort) (some config) workers)
  let result ← Action.lift .draw (Draw.run codes applicants (some sort) (some config) workers)
  let metrics ← Action.lift .draw result.metrics
  let data ← publish p result metrics
  Action.log .info "draw_completed" (bound ++ [
    ("draw_config_id", .text config.id),
    ("awarded", .nat (awardedCount result)),
    ("hunt_codes_in_draw", .nat result.used.length)])
  return data

end DrawNode
end HuntDraw
