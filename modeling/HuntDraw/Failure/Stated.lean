import HuntDraw.Data.Datum
import HuntDraw.Failure.Basic

/-! Failures stated by their kind and what they are made from. -/

namespace HuntDraw

namespace Datum

/-- The values that a value is made of: the characters of a text, the keys of a mapping. -/
def parts : Datum → List Datum
  | .list items => items
  | .tuple items => items
  | .mapping entries => entries.map (·.1)
  | .text s => s.toList.map fun c => .text (String.ofList [c])
  | _ => []

def partTexts (v : Datum) : List String := v.parts.map asText

/-- A value that stands for a pair of texts. -/
def pairTexts (v : Datum) : String × String :=
  match v.partTexts with
  | [a, b] => (a, b)
  | _ => ("", "")

end Datum

namespace Failure

/-- The message of values: one is its own text, more are shown together. -/
def messageOf : List Datum → String
  | [] => ""
  | [v] => v.asText
  | more => (Datum.tuple more).shown

def keyOf (v : Datum) : MessageKey := (Worded.ofText? v.asText).getD .unknown

/-- A failure that is only recorded: its message, its key, and what fills the message. -/
def reportedOf? (kind : ReportKind) : List Datum → Option Failure
  | [message, key] => some (reported kind message.asText (keyOf key) [])
  | [message, key, params] =>
    some (reported kind message.asText (keyOf key) (params.parts.map Datum.pairTexts))
  | _ => none

/-- The failure of a kind, made from the values that it takes. -/
def stated? (kind : String) (args : List Datum) : Option Failure :=
  match kind, args with
  | "LoggableWorkflowError", args => reportedOf? .any args
  | "StructuralGraphError", args => reportedOf? .structural args
  | "DataResolutionError", args => reportedOf? .resolution args
  | "NoStartNodeFoundError", [] => some (graph .noStart)
  | "MultipleStartNodesFoundError", [nodes] => some (graph (.manyStarts nodes.partTexts))
  | "MultipleEndNodesFoundError", [nodes] => some (graph (.manyEnds nodes.partTexts))
  | "ParallelNodesNotSupportedError", [id] => some (graph (.parallel id.asText))
  | "CycleDetectedError", [id] => some (graph (.cycle id.asText))
  | "EdgeHasInvalidSourceError", [edge, id] => some (graph (.unknownSource edge.asText id.asText))
  | "EdgeHasInvalidTargetError", [edge, id] => some (graph (.unknownTarget edge.asText id.asText))
  | "InvalidNodeTypeError", [id, type] => some (graph (.unknownType id.asText type.asText))
  | "DataNodeHasNoDocumentError", [id] => some (graph (.noDocument id.asText))
  | "InvalidMimeTypeError", [id, mime] => some (graph (.unsupportedMime id.asText mime.asText))
  | "NoResourceFoundError", [id, type] => some (graph (.noResource id.asText type.asText))
  | "BuildTimeoutError", [handle, seconds] => some (lateResource handle.asText seconds.asText)
  | "DrawSemanticError", args => some (inconsistent (messageOf args))
  | "RowValidationError", [record, errors] => some (row record.asText errors.partTexts)
  | "InfrastructureError", args => some (infrastructure (messageOf args))
  | "EntityNotFoundError", [entity, id] => some (store (.notFound entity.asText id.asText))
  | "DefinitionRejectedError", [reasons] => some (rejected reasons.partTexts)
  | "MissingDefinitionError", [id] => some (noDefinition id.asText)
  | "ExecutionEngineError", args => some (engine (.stated (messageOf args)))
  | "InstanceNotReadyError", [id, status] => some (notReady id.asText status.asText)
  | "TriggerError", args => some (trigger (messageOf args) none)
  | "NodeExecutionError", [id] => some (Failure.node id.asText none)
  | "DataSourceNotFoundError", [id, domain, model] =>
    some (noSource id.asText domain.asText model.asText)
  | _, _ => none

end Failure
end HuntDraw
