import HuntDraw.Command.Session
import HuntDraw.Workflow.Import

/-! Stored instances of workflows: loading them from a file, compiling them and building them. Failures
that a user can mend are told in a line; all others end the session as they are. -/

namespace HuntDraw

namespace Failure

/-- Whether a build is known to fail in this way. -/
def failsBuild (f : Failure) : Bool :=
  f.kind = "InfrastructureError" || f.bases.contains "InfrastructureError" || match f with
    | notReady .. | trigger .. => true
    | _ => false

/-- The line that tells of a failure which is for the author of the workflow to know. -/
def reportLine (f : Failure) (key : MessageKey) (params : List (String × String)) : String :=
  let shown := ", ".intercalate (params.map fun p => p.1 ++ "=" ++ p.2)
  s!"Workflow error [{key.text}]: {f.message}" ++ if params.isEmpty then "" else s!" ({shown})"

end Failure

namespace Session

/-- Stores the workflow of a file; the files of its documents are looked for beside it. -/
def loadFile (s : Settings) (path : PathName) : Session Unit := do
  let w ← checked s!"Invalid workflow file {path.text}:" WorkflowFile.check (← value path)
  let files ← files
  let i ← lift (← withServices s fun _ => w.store fun p => files.read (path.parent.under p))
  say s!"Loaded workflow instance {i.id} ({w.nodes.length} nodes, {w.edges.length} edges)"

def compiledInstance (id : String) (b : Builder Binary64) : Action Binary64 Compilation := do
  let i ← Action.ask fun s => s.getInstance id
  b.compileGraph i.organization (← Builder.graph id)

/-- Tells the definition that a stored instance compiles to. -/
def tellDefinition (s : Settings) (id : String) : Session Unit := do
  match ← withServices s (compiledInstance id) with
  | .ok c => do
    if !c.skipped.isEmpty then
      warn (s!"Warning: {Compilation.skippedMessage}: " ++ ", ".intercalate c.skipped)
    say c.chain.toJson.indented
  | .error f =>
    match f, f.report? with
    | .store (.notFound ..), _ => quit s!"Error: {f.message}"
    | _, some (key, params) => quit (f.reportLine key params)
    | _, none => throw (.failed f)

/-- What was built, and the job with its execution. -/
structure Built where
  result : BuildResult
  started : Option (String × Execution)

def createJob (i : Instance) : Action Binary64 String := do
  let id ← Action.newId
  Action.alter fun s => s.createJob { id, organization := i.organization, instanceId := i.id }
  return id

/-- Builds an instance, with a new job where one is to be started. -/
def builtInstance (id : String) (isTriggered : Bool) (b : Builder Binary64) : Action Binary64 Built := do
  let i ← Action.ask fun s => s.getInstance id
  let job ← if isTriggered then some <$> createJob i else pure none
  let result ← b.run ⟨i.organization, i.workflow, i.id, job⟩
  match job, result.execution with
  | some job, some handle => return ⟨result, some (job, ← Engine.execution handle)⟩
  | _, _ => return ⟨result, none⟩

/-- Tells of an execution; one that failed ends the session. -/
def tellExecution (job : String) (e : Execution) : Session Unit := do
  say s!"Job {job}: execution {e.status.text}"
  if e.status = .failed then
    quit ("  Failed at task " ++ e.failedTask.getD "None" ++ ": " ++ e.error.getD "None")

def buildInstance (s : Settings) (id : String) (isTriggered : Bool) : Session Unit := do
  match ← withServices s (builtInstance id isTriggered) with
  | .ok b => do
    let compiled := b.result.compiled
    say s!"Instance {id} ready ({compiled.taskCount} tasks, definition {compiled.key})"
    match b.started with
    | some (job, e) => tellExecution job e
    | none => pure ()
  | .error f =>
    match f.report? with
    | some (key, params) => quit (f.reportLine key params)
    | none => if f.failsBuild then quit s!"Build failed: {f.message}" else throw (.failed f)

end Session
end HuntDraw
