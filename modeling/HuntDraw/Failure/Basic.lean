import HuntDraw.Blob.Address
import HuntDraw.Data.Canonical
import HuntDraw.Draw.Document
import HuntDraw.Draw.Fault
import HuntDraw.Graph.Compile
import HuntDraw.Graph.Fault
import HuntDraw.Graph.Reference
import HuntDraw.Schema.Checked
import HuntDraw.Store.Basic

/-! Failures: everything that can stop an operation on a workflow, each with the cause it has. A failure
that the author of the workflow can mend carries a message key for the log of the job. -/

namespace HuntDraw

/-- What the execution engine refuses. -/
inductive EngineFault where
  | unknownResource (handle : String)
  | resourceExists (name : String)
  | notActive (handle : String)
  | unknownExecution (handle : String)
  /-- An instance without a resource of its own. -/
  | unregistered (id : String)
  | stated (message : String)
  deriving DecidableEq, Repr

def EngineFault.message : EngineFault → String
  | .unknownResource handle => s!"Unknown resource {handle}"
  | .resourceExists name => s!"Resource {name} already exists"
  | .notActive handle => s!"Resource {handle} is not active"
  | .unknownExecution handle => s!"Unknown execution {handle}"
  | .unregistered id => s!"Workflow instance {id} has no registered resource"
  | .stated message => message

/-- Why a draw node has no settings to draw by. -/
inductive SettingFault where
  | noConfig (node : String)
  | noSort (config : String)
  | unknownSort (sort : String)
  | noRules (sort : String)
  deriving DecidableEq, Repr

def SettingFault.message : SettingFault → String
  | .noConfig node => s!"Draw configuration not found for workflow node {node}"
  | .noSort config => s!"Draw configuration {config} does not have a sort defined"
  | .unknownSort sort => s!"Draw sort {sort} not found"
  | .noRules sort => s!"Draw sort {sort} has no rules; at least one sort rule is required"

/-- The kinds of failures that are recorded for the author without being told apart further. -/
inductive ReportKind where
  | any
  | structural
  | resolution
  deriving DecidableEq, Repr

def ReportKind.text : ReportKind → String
  | .any => "LoggableWorkflowError"
  | .structural => "StructuralGraphError"
  | .resolution => "DataResolutionError"

inductive Failure where
  | graph (fault : GraphFault)
  /-- A resource that did not become active in the time given to it. -/
  | lateResource (handle seconds : String)
  | reported (kind : ReportKind) (message : String) (key : MessageKey) (params : List (String × String))
  | draw (fault : DrawFault)
  | setting (fault : SettingFault)
  | inconsistent (message : String)
  | row (record : String) (errors : List String)
  | infrastructure (message : String)
  | engine (fault : EngineFault)
  | store (fault : StoreFault)
  /-- A definition that the engine does not take. -/
  | rejected (reasons : List String)
  | noDefinition (id : String)
  | notReady (id status : String)
  | trigger (message : String) (cause : Option Failure)
  | node (node : String) (cause : Option Failure)
  | noSource (node domain model : String)
  | reference (fault : ReferenceFault)
  | blob (fault : BlobFault)
  | notText (fault : Text.Utf8Fault)
  | notJson (message : String)
  | canonical (fault : CanonicalFault)
  | invalid (faults : List Fault)
  | noKey (key : String)
  | noMember (message : String)
  | negativeDelay (seconds : String)
  | negativeAdvance (seconds : String)
  | sharedResource (resource : String) (first second : TaskType)
  | attempts (fault : WholeFault)
  /-- A step of a chain that failed with a message of its own. -/
  | step (message : String)
  /-- A value of one kind where another is needed. -/
  | mistyped (kind message : String)

namespace Failure

/-- The kind of error a failure is reported as. -/
def kind : Failure → String
  | graph f => f.kind
  | lateResource .. => "BuildTimeoutError"
  | reported k .. => k.text
  | draw f => f.kind
  | setting _ | inconsistent _ => "DrawSemanticError"
  | row .. => "RowValidationError"
  | infrastructure _ => "InfrastructureError"
  | engine _ => "ExecutionEngineError"
  | store f => f.kind
  | rejected _ => "DefinitionRejectedError"
  | noDefinition _ => "MissingDefinitionError"
  | notReady .. => "InstanceNotReadyError"
  | trigger .. => "TriggerError"
  | node .. => "NodeExecutionError"
  | noSource .. => "DataSourceNotFoundError"
  | reference f => f.kind
  | blob f => f.kind
  | notText _ => "UnicodeDecodeError"
  | notJson _ => "JSONDecodeError"
  | canonical (.nonFinite _) => "ValueError"
  | canonical (.unsafeInteger _) => "IntegerDomainError"
  | invalid _ => "ValidationError"
  | noKey _ => "KeyError"
  | noMember _ | negativeDelay _ | negativeAdvance _ | sharedResource .. => "ValueError"
  | attempts f => f.kind
  | step _ => "RuntimeError"
  | mistyped k _ => k

def message : Failure → String
  | graph f => f.message
  | lateResource handle seconds => s!"Resource {handle} not ready after {seconds}s"
  | reported _ m _ _ => m
  | draw f => f.message
  | setting f => f.message
  | inconsistent m => m
  | row record errors => s!"Record {record} has the following errors: " ++ "; ".intercalate errors
  | infrastructure m => m
  | engine f => f.message
  | store f => f.message
  | rejected reasons => "Task-chain definition is invalid: " ++ "; ".intercalate reasons
  | noDefinition id => s!"Workflow instance {id} has no stored definition"
  | notReady id status => s!"Workflow instance {id} is not ready (status={status})"
  | trigger m _ => m
  | node id _ => s!"Error in workflow node handler {id}"
  | noSource id domain model => s!"No {domain}/{model} data source available for node {id}"
  | reference f => f.message
  | blob f => f.message
  | notText f => f.message
  | notJson m => m
  | canonical f => f.message
  | invalid faults => "; ".intercalate (faults.map fun f => f.place ++ ": " ++ f.complaint.message)
  | noKey key => key
  | noMember m => m
  | negativeDelay seconds => s!"activation_delay must be non-negative, got {seconds}"
  | negativeAdvance seconds => s!"MockClock cannot advance by a negative amount: {seconds}"
  | sharedResource resource first second =>
    s!"Resource {resource} is assigned to both {first.text} and {second.text}"
  | attempts f => f.message
  | step m => m
  | mistyped _ m => m

/-- The message in a record or a report: a missing key is quoted, and a broken constraint names where it
was found. -/
def shown (f : Failure) : String :=
  match f with
  | store (.notFound ..) => f.message
  | store _ => s!"(sqlite3.{f.kind}) " ++ f.message
  | _ => if f.kind = "KeyError" then Text.quoted f.message else f.message

/-- What is recorded for the author of the workflow, if it is for the author to know. -/
def report? : Failure → Option (MessageKey × List (String × String))
  | graph f => some (f.key, f.params)
  | lateResource handle seconds =>
    some (.readyTimeout, [("resourceHandle", handle), ("timeoutSeconds", seconds)])
  | reported _ _ key params => some (key, params)
  | _ => none

def isReported (f : Failure) : Bool := f.report?.isSome

/-- The failures that are for the author to know: those of the graph, a resource that is late, and those that were made
to be recorded. -/
inductive Loggable : Failure → MessageKey → List (String × String) → Prop
  | graph (fault : GraphFault) : Loggable (graph fault) fault.key fault.params
  | lateResource (handle seconds : String) : Loggable (lateResource handle seconds) .readyTimeout
      [("resourceHandle", handle), ("timeoutSeconds", seconds)]
  | reported (kind : ReportKind) (message : String) (key : MessageKey) (params : List (String × String)) :
      Loggable (reported kind message key params) key params

theorem report?_eq_some {f : Failure} {key : MessageKey} {params : List (String × String)} :
    f.report? = some (key, params) ↔ f.Loggable key params := by
  constructor
  · intro h
    cases f with
    | graph fault =>
      obtain ⟨rfl, rfl⟩ := Prod.mk.inj (Option.some.inj h)
      exact .graph fault
    | lateResource handle seconds =>
      obtain ⟨rfl, rfl⟩ := Prod.mk.inj (Option.some.inj h)
      exact .lateResource handle seconds
    | reported kind message =>
      obtain ⟨rfl, rfl⟩ := Prod.mk.inj (Option.some.inj h)
      exact .reported kind message _ _
    | _ => cases h
  · rintro ⟨⟩ <;> rfl

def cause? : Failure → Option Failure
  | trigger _ c => c
  | node _ c => c
  | _ => none

/-- The wider kinds of errors that a failure belongs to, the nearest one first. -/
def bases : Failure → List String
  | graph f =>
    [(if f.isStructural then ReportKind.structural else .resolution).text, ReportKind.any.text]
  | lateResource .. => [ReportKind.any.text]
  | reported .any .. => []
  | reported .. => [ReportKind.any.text]
  | engine _ | rejected _ | noDefinition _ | store (.notFound ..) => ["InfrastructureError"]
  | _ => []

/-- What is for the author to know is of one kind of errors, or of a kind below it. -/
theorem loggable_iff_bases {f : Failure} : (∃ key params, f.Loggable key params) ↔
    (∃ message key params, f = reported .any message key params) ∨ ReportKind.any.text ∈ f.bases := by
  constructor
  · rintro ⟨_, _, h⟩
    cases h with
    | graph fault => exact .inr (List.mem_cons_of_mem _ List.mem_cons_self)
    | lateResource => exact .inr List.mem_cons_self
    | reported kind message =>
      cases kind with
      | any => exact .inl ⟨message, _, _, rfl⟩
      | structural | resolution => exact .inr List.mem_cons_self
  · rintro (⟨message, key, params, hf⟩ | h)
    · exact ⟨key, params, hf ▸ .reported ..⟩
    · cases f with
      | graph fault => exact ⟨_, _, .graph fault⟩
      | lateResource => exact ⟨_, _, .lateResource ..⟩
      | reported => exact ⟨_, _, .reported ..⟩
      | store fault => cases fault <;> simp [bases, ReportKind.text] at h
      | _ => simp [bases, ReportKind.text] at h

def isFile : Failure → Bool
  | blob (.file f) => f ≠ .nullCharacter
  | _ => false

def paramsJson (params : List (String × String)) : Json :=
  .list (params.map fun p => .list [.text p.1, .text p.2])

def faultJson (f : Fault) : Json := .list [.text f.place, .text f.complaint.message]

/-- What a failure is told with, besides its kind. -/
def details (f : Failure) : Fields Json :=
  match f with
  | invalid faults => [("errors", .list (faults.map faultJson))]
  | row record errors =>
    [("message", .text f.message), ("record", .text record), ("errors", Json.ofTexts errors)]
  | rejected reasons => [("message", .text f.message), ("reasons", Json.ofTexts reasons)]
  | _ =>
    if f.isFile then []
    else
      ("message", .text f.message) ::
        match f.report? with
        | some (key, params) => [("message_key", .text key.text), ("message_params", paramsJson params)]
        | none => []

/-- The failure as a record, with its causes. -/
def toJson : Failure → Json
  | trigger m (some c) =>
    .object (("error", .text "TriggerError") :: (details (trigger m (some c)) ++ [("cause", c.toJson)]))
  | node id (some c) =>
    .object (("error", .text "NodeExecutionError") :: (details (node id (some c)) ++ [("cause", c.toJson)]))
  | f => .object (("error", .text f.kind) :: f.details)

def ofRow (f : RowFault) : Failure := row f.record f.errors

def ofCompile : CompileFault → Failure
  | .graph f => graph f
  | .blob f => blob f

end Failure
end HuntDraw
