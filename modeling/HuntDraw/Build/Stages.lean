import HuntDraw.Build.Context
import HuntDraw.Data.JsonRead
import HuntDraw.Engine.Execution
import HuntDraw.Settings.Basic

/-! The stages of a build: compiling the graph of an instance, registering the definition with the
engine, waiting until it can be executed, and starting the job. Each stage can be run on its own, and
again. A failure is recorded and passed on. -/

namespace HuntDraw

section Polling

variable {m : Type → Type} [Monad m]

/-- Makes the `number`-th check and at most `more` others. The pause gets the number of the check that
it follows. -/
def poll (check : m Bool) (pause : Nat → m Unit) (number : Nat) : Nat → m Bool
  | 0 => check
  | more + 1 => do
    if ← check then return true
    pause number
    poll check pause (number + 1) more

end Polling

variable {T : Type} [Timeline T]

/-- What builds are made with. -/
structure Builder (T : Type) where
  settings : Settings
  engine : Engine T

namespace Builder

/-- The graph of an instance as it is stored. -/
def graph (id : String) : Action T Graph := do
  let store := (← get).store
  let nodes := store.listNodes id
  Action.lift .graph
    (Graph.ofRecords nodes (store.listEdges id) (store.listDocuments (nodes.map NodeRecord.id)))

/-- The chain of a graph, and a warning about the nodes left out. -/
def compileGraph (b : Builder T) (organization : String) (g : Graph) : Action T Compilation := do
  let blobs := (← get).blobs
  let compiled ← Action.lift .ofCompile
    (g.compile ⟨organization, b.settings.resources, blobs.addressOf⟩)
  Action.logAll [] compiled.journal
  return compiled

/-- Compiles the instance and stores its definition. -/
def compileBody (b : Builder T) (c : BuildContext) : Action T CompileResult := do
  Action.alter fun s => s.updateInstance c.instanceId { status := some .buildStarted }
  let g ← graph c.instanceId
  let compiled ← b.compileGraph c.organization g
  let definition := compiled.chain.toJson
  let problems := b.engine.problems definition
  if !problems.isEmpty then throw (.rejected problems)
  let key := c.definitionKey
  let bytes ← Action.lift .canonical definition.canonicalBytes
  let _ ← Action.write key (.bytes bytes) "application/json"
  Action.alter fun s => s.updateInstance c.instanceId { definitionKey := some key }
  let digest ← Action.lift .canonical definition.digest
  let result : CompileResult := ⟨key, digest, compiled.chain.tasks.length, compiled.warnings⟩
  Action.log .info "task_chain_compiled" ([
    ("definition_key", .text key), ("definition_hash", .text digest),
    ("task_count", .nat result.taskCount)] ++ c.fields)
  return result

/-- Reads a definition. -/
def parseDefinition (content : Content) : Except Failure Json := do
  let bytes ← match content with
    | .bytes bs => .ok bs
    | .archive _ => .error (.notText Content.archiveFault)
  let text ← (Text.decodeDocument bytes).mapError .notText
  (Json.read text).mapError fun f => .notJson (f.message text)

/-- The stored definition of an instance. -/
def loadDefinition (c : BuildContext) : Action T Json := do
  let i ← Action.ask fun s => s.getInstance c.instanceId
  match i.definitionKey with
  | none => throw (.noDefinition c.instanceId)
  | some key =>
    if ← Action.look fun b => b.holds key then
      Action.lift id (parseDefinition (← Action.look fun b => b.read key))
    else throw (.noDefinition c.instanceId)

/-- Makes the resource of the instance, or brings the one it has up to date. -/
def registerBody (b : Builder T) (c : BuildContext) : Action T String := do
  let definition ← loadDefinition c
  let i ← Action.ask fun s => s.getInstance c.instanceId
  match i.executionHandle with
  | none => do
    let handle ← b.engine.create c.instanceId definition
    Action.alter fun s => s.updateInstance c.instanceId { executionHandle := some handle }
    Action.log .info "execution_resource_created" (("resource_handle", .text handle) :: c.fields)
    return handle
  | some handle => do
    b.engine.update handle definition
    Action.log .info "execution_resource_updated" (("resource_handle", .text handle) :: c.fields)
    return handle

/-- How often readiness is asked for: once, and once more for every interval in the time given. -/
def attempts (s : BuildSettings) : Except WholeFault Int :=
  (· + 1) <$> Timeline.quotient (Timeline.ofNumber s.timeout : T) (Timeline.ofNumber s.poll)

end Builder

/-- What waiting is done with: someone who tells what becomes of a resource, and a way to let time pass. -/
structure Waiter (T : Type) where
  describe : String → Action T ResourceStatus
  sleep : T → Action T Unit

namespace Waiter

/-- Asks the engine of this world and sleeps by its clock. -/
def here : Waiter T := ⟨Engine.describe, Action.sleep⟩

def isActive (x : Waiter T) (handle : String) : Action T Bool := do return (← x.describe handle) == .active

/-- Lets an interval pass between two checks. -/
def pause (x : Waiter T) (s : BuildSettings) (c : BuildContext) (handle : String) (number : Nat) :
    Action T Unit := do
  Action.log .debug "execution_resource_not_ready"
    ([("resource_handle", .text handle), ("attempt", .nat number)] ++ c.fields)
  x.sleep (Timeline.ofNumber s.poll)

/-- Waits until the resource of the instance is active. -/
def wait (x : Waiter T) (s : BuildSettings) (c : BuildContext) : Action T Unit := do
  let i ← Action.ask fun s => s.getInstance c.instanceId
  match i.executionHandle with
  | none => throw (.engine (.unregistered c.instanceId))
  | some handle => do
    let count ← Action.lift .attempts (Builder.attempts (T := T) s)
    if ← poll (x.isActive handle) (x.pause s c handle) 1 (count - 1).toNat then
      Action.alter fun s => s.updateInstance c.instanceId { status := some .ready }
    else throw (.lateResource handle s.timeout.text)

end Waiter

namespace Builder

def awaitBody (b : Builder T) (c : BuildContext) : Action T Unit := Waiter.here.wait b.settings.build c

/-- The state that an execution starts with. -/
def startState (c : BuildContext) (job : String) : Json :=
  .object [("context", .object [
    ("organization_id", .text c.organization), ("workflow_job_id", .text job)])]

/-- Starts an execution and notes its handle down in the job. -/
def startJob (b : Builder T) (c : BuildContext) (job resource : String) : Action T String := do
  let handle ← b.engine.start resource (startState c job)
  Action.alter fun s => s.updateJob job { executionHandle := some handle }
  return handle

/-- Starts the job, if there is one. -/
def triggerBody (b : Builder T) (c : BuildContext) : Action T (Option String) := do
  match c.job with
  | none => do
    Action.log .info "trigger_skipped_no_job" c.fields
    return none
  | some job => do
    let i ← Action.ask fun s => s.getInstance c.instanceId
    match i.status, i.executionHandle with
    | .ready, some resource =>
      match ← Action.outcome (b.startJob c job resource) with
      | .ok handle => return some handle
      | .error f => throw (.trigger s!"Failed to start execution for job {job}" (some f))
    | status, _ => throw (.notReady c.instanceId status.text)

/-- Records the failure of a stage: in the instance when it is one of the build, and in the job. -/
def recordFailure (stage : BuildStage) (c : BuildContext) (f : Failure) : Action T Unit := do
  if stage.failsBuild then
    Action.alter fun s => s.updateInstance c.instanceId { status := some .buildFailed }
  match c.job with
  | none => return
  | some job => do
    match f.report? with
    | none => pure ()
    | some (key, params) => do
      let id ← Action.newId
      Action.alter fun s => s.appendLog { id, jobId := job, level := .error, key, params }
    Action.alter fun s => s.updateJob job { failedBefore := some true }

/-- Runs the body of a stage; its failure is recorded before it is passed on. -/
def stage {α : Type} (stage : BuildStage) (c : BuildContext) (body : Action T α) : Action T α := do
  let bound := ("stage", Json.text stage.text) :: c.fields
  Action.log .info "build_stage_started" bound
  match ← Action.outcome body with
  | .ok a => do
    Action.log .info "build_stage_completed" bound
    return a
  | .error f => do
    Action.log .error "build_stage_failed"
      (bound ++ [("error", .text f.shown), ("error_type", .text f.kind)])
    recordFailure stage c f
    throw f

def compile (b : Builder T) (c : BuildContext) : Action T CompileResult := stage .compile c (b.compileBody c)

def register (b : Builder T) (c : BuildContext) : Action T String := stage .register c (b.registerBody c)

def awaitReady (b : Builder T) (c : BuildContext) : Action T Unit := stage .awaitReady c (b.awaitBody c)

def trigger (b : Builder T) (c : BuildContext) : Action T (Option String) :=
  stage .trigger c (b.triggerBody c)

/-- All stages in turn. -/
def run (b : Builder T) (c : BuildContext) : Action T BuildResult := do
  let compiled ← b.compile c
  let resource ← b.register c
  b.awaitReady c
  let execution ← b.trigger c
  return ⟨compiled, resource, execution⟩

end Builder
end HuntDraw
