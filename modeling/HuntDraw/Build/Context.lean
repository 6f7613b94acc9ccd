import HuntDraw.Data.Json
import HuntDraw.Graph.Compile

/-! What is built: an instance of a workflow, with or without a job to start; and what the stages of a
build result in. -/

namespace HuntDraw

structure BuildContext where
  organization : String
  workflow : String
  instanceId : String
  job : Option String := none
  deriving DecidableEq, Repr

namespace BuildContext

/-- What log entries about the build carry. -/
def fields (c : BuildContext) : Fields Json :=
  [("organization_id", .text c.organization), ("workflow_id", .text c.workflow),
   ("workflow_instance_id", .text c.instanceId)]
  ++ (c.job.map fun j => ("workflow_job_id", Json.text j)).toList

/-- Where the definition of an instance is kept. -/
def definitionKey (c : BuildContext) : String :=
  s!"{c.organization}/{c.workflow}/{c.instanceId}/task-chain.json"

end BuildContext

inductive BuildStage where
  | compile
  | register
  | awaitReady
  | trigger
  deriving DecidableEq, Repr

namespace BuildStage

def all : List BuildStage := [.compile, .register, .awaitReady, .trigger]

def text : BuildStage → String
  | .compile => "compile"
  | .register => "register"
  | .awaitReady => "await_ready"
  | .trigger => "trigger"

/-- Whether a failure of the stage is one of the build. -/
def failsBuild : BuildStage → Bool
  | .trigger => false
  | _ => true

end BuildStage

structure CompileResult where
  key : String
  digest : String
  taskCount : Nat
  warnings : List Json

namespace CompileResult

def toJson (r : CompileResult) : Json :=
  .object [
    ("definition_key", .text r.key),
    ("definition_hash", .text r.digest),
    ("task_count", .nat r.taskCount),
    ("warnings", .list r.warnings)]

end CompileResult

/-- Without a job there is no execution. -/
structure BuildResult where
  compiled : CompileResult
  resource : String
  execution : Option String

namespace BuildResult

def toJson (r : BuildResult) : Json :=
  .object [
    ("compile", r.compiled.toJson),
    ("resource_handle", .text r.resource),
    ("execution_handle", Json.ofText? r.execution)]

end BuildResult
end HuntDraw
