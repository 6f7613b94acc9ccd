import HuntDraw.Command.Invocation
import HuntDraw.Command.Session
import HuntDraw.Draw.Document
import HuntDraw.Draw.Metrics

/-! Draws over files: rules, hunt codes and applicants are read from files, and the results are written
as tables into a directory. -/

namespace HuntDraw

/-- Whether a draw was refused, as opposed to broken off. -/
def Failure.refusesDraw (f : Failure) : Bool :=
  f.kind = "RowValidationError" || f.kind = "DrawSemanticError"

namespace DrawOrder

open Session

/-- The rows of a file, as fields. -/
def rows (files : Files) (path : PathName) : Except Failure (List (Fields Json)) := do
  let content ← (files.read path).mapError fun f => .blob (.file f)
  return (← content.fileRows.mapError .notText).map Csv.Row.fields

def result (o : DrawOrder) (files : Files) (sort : DrawSort) (config : DrawConfig) (workers : Int) :
    Except Failure DrawResult := do
  let codes ← (Document.readHuntCodes (← rows files o.codes)).mapError .ofRow
  let applicants ← (Document.readApplicants (← rows files o.applicants)).mapError .ofRow
  (Draw.run codes applicants (some sort) (some config) workers).mapError .draw

def writeTable (directory : List String) (name table : String) : Session Unit := do
  setFiles (← lift (((← files).write directory name (.ofText table)).mapError fun f => .blob (.file f)))

/-- Writes the results as tables and tells the figures. -/
def publish (output : PathName) (r : DrawResult) : Session Unit := do
  let metrics ← lift (r.metrics.mapError .draw)
  let (files, directory) ← lift (((← files).makeDirectory output).mapError fun f => .blob (.file f))
  setFiles files
  writeTable directory "applicant_results.csv" (Document.applicantTable r.applicants)
  writeTable directory "hunt_code_results.csv" (Document.huntCodeTable r.codes)
  writeTable directory "draw_metrics.csv" (metricTable metrics)
  let awarded := r.applicants.countP fun a => a.codeAwarded.isSome
  say s!"Draw complete: {awarded} of {r.applicants.length} applicants awarded"
  metrics.forM fun m => say s!"  {m.1.title}: {m.2.text}"
  say s!"Results written to {output.text}"

/-- The draw once its rules are known. -/
def carryOut (o : DrawOrder) (sort : DrawSort) (config : DrawConfig) (workers : Int) : Session Unit := do
  match o.result (← files) sort config workers with
  | .ok r => publish o.output r
  | .error f => if f.refusesDraw then quit s!"Draw failed: {f.message}" else throw (.failed f)

def perform (o : DrawOrder) (s : Settings) : Session Unit := do
  let sort ← checked s!"Invalid DrawSort in {o.sort.text}:" DrawSort.check (← value o.sort)
  let config ← checked s!"Invalid DrawConfig in {o.config.text}:" DrawConfig.check (← value o.config)
  o.carryOut sort config (o.workers.getD s.draw.workers)

end DrawOrder
end HuntDraw
