import HuntDraw.Engine.Resource

/-! Executions: the tasks of a chain one after the other, each on the state that the one before left. -/

namespace HuntDraw

variable {T : Type} [Timeline T]

namespace Engine

/-- Runs one task on a state. -/
def runTask (e : Engine T) (t : Task) (state : Json) : Action T Json :=
  match e.handlers.get? t.resource with
  | none => throw (.noKey t.resource)
  | some handler => do
    let parameters ← Action.lift .reference (Reference.parameters state t.parameters)
    handler (.object parameters)

/-- Runs the tasks in turn, up to the first one that fails. -/
def runTasks (e : Engine T) (bound : Fields Json) (c : TaskChain) :
    List String → Json → Action T (Except (String × Failure) Json)
  | [], state => return .ok state
  | id :: rest, state =>
    match c.tasks.get? id with
    | none => return .error (id, .noKey id)
    | some t => do
      Action.log .debug "task_started"
        (bound ++ [("task_id", .text id), ("resource_ref", .text t.resource)])
      match ← Action.outcome (e.runTask t state) with
      | .ok next => e.runTasks bound c rest next
      | .error f => return .error (id, f)

/-- The record of an execution that ended. -/
def record (handle resource : String) : Except (String × Failure) Json → Execution
  | .ok state => { handle, resource, status := .succeeded, output := some state }
  | .error (task, f) =>
    { handle, resource, status := .failed, error := some (f.kind ++ ": " ++ f.shown), failedTask := some task }

def logEnd (bound : Fields Json) : Except (String × Failure) Json → Action T Unit
  | .ok _ => Action.log .info "execution_succeeded" bound
  | .error (task, f) =>
    Action.log .warning "execution_failed"
      (bound ++ [("task_id", .text task), ("error", .text f.shown), ("error_type", .text f.kind)])

/-- Runs the chain of an active resource to its end. A task that fails ends the execution, and the
failure is kept in its record. -/
def start (e : Engine T) (resource : String) (input : Json) : Action T String := do
  if (← describe resource) ≠ .active then throw (.engine (.notActive resource))
  let chain ← definitionOf resource
  let handle := resource ++ "/executions/" ++ (← Action.newId)
  let bound : Fields Json := [("execution_handle", .text handle)]
  Action.log .info "execution_started" (bound ++ [("tasks", .nat chain.tasks.length)])
  let ended ← e.runTasks bound chain chain.ordered input
  logEnd bound ended
  modify fun w => { w with executions := w.executions.put handle (record handle resource ended) }
  return handle

def execution (handle : String) : Action T Execution := do
  match (← get).executions.get? handle with
  | some x => return x
  | none => throw (.engine (.unknownExecution handle))

end Engine
end HuntDraw
