import HuntDraw.Engine.Execution
import HuntDraw.Node.Draw
import HuntDraw.Node.Export
import HuntDraw.Settings.Basic

/-! Handlers: nodes as the engine runs them. A failure is recorded for the author where it is for the
author to know, results are stored, and the next task gets what the node made. -/

namespace HuntDraw

variable {T : Type}

/-- What a node does: the fields that its log entries carry, and its payload. -/
abbrev NodeWork (T : Type) := Fields Json → Payload → Action T (List NodeData)

/-- Hands on what the previous node made. -/
def passOn (_ : Fields Json) (p : Payload) : Action T (List NodeData) :=
  return (p.previous.map p.resultsOf).getD []

/-- What the nodes of each type do. A commit hands results on. -/
def TaskType.work (draw : DrawSettings) : TaskType → NodeWork T
  | .draw => DrawNode.run draw.workers
  | .export => ExportNode.run
  | .noop | .commit => passOn

/-- Records a failure of a node in the log of its job, where it is for the author to know. -/
def recordNodeFailure (p : Payload) (f : Failure) : Action T Unit :=
  match f.report? with
  | none => pure ()
  | some (key, params) => do
    let id ← Action.newId
    Action.alter fun s => s.appendLog
      { id, jobId := p.job, level := .error, key, params, nodeId := some p.node }

/-- Does the work of a node; a failure is told of, recorded and passed on as that of the node. -/
def attempt (work : NodeWork T) (bound : Fields Json) (p : Payload) : Action T (List NodeData) := do
  match ← Action.outcome (work bound p) with
  | .ok results => return results
  | .error f =>
    Action.log .error "node_failed" (bound ++ [("error", .text f.shown), ("error_type", .text f.kind)])
    recordNodeFailure p f
    throw (.node p.node (some f))

/-- The handler of a node. -/
def handler (work : NodeWork T) : Handler T := fun event => do
  let p ← Action.lift id (Payload.read event)
  let bound : Fields Json := [("workflow_job_id", .text p.job), ("node_id", .text p.node)]
  Action.log .info "node_started" (bound ++ [("previous_node_id", Json.ofText? p.previous)])
  let results ← attempt work bound p
  let id ← Action.newId
  Action.alter fun s => s.createResult { id, jobId := p.job, nodeId := p.node, results }
  Action.log .info "node_completed" (bound ++ [("results", .nat results.length)])
  return (p.after results).toJson

/-- The resource that is given to two types of tasks, if there is one. -/
def Resources.shared? (r : Resources) : Option Failure :=
  go [] r
where
  go (seen : Resources) : Resources → Option Failure
    | [] => none
    | (type, resource) :: rest =>
      match seen.find? (·.2 = resource) with
      | some first => some (.sharedResource resource first.1 type)
      | none => go (seen ++ [(type, resource)]) rest

/-- The handler of every resource; no two types of tasks may share one. -/
def Resources.handlers (r : Resources) (draw : DrawSettings) : Except Failure (Fields (Handler T)) :=
  match r.shared? with
  | some f => .error f
  | none => .ok (r.map fun p => (p.2, handler (p.1.work draw)))

end HuntDraw
