import HuntDraw.Data.JsonRead
import HuntDraw.Data.JsonText
import HuntDraw.Draw.Config
import HuntDraw.Workflow.Records

/-! Records as rows of a database: the columns of the row that keeps a record, and the record that a row stands for.
Lists in a record are kept in one column, as JSON text. -/

namespace HuntDraw

/-- What a column of a row holds. -/
inductive RowValue where
  | null
  | flag (b : Bool)
  | text (s : String)
  deriving DecidableEq, Repr

abbrev Row := Fields RowValue

/-- A column that does not hold what it is to hold. -/
structure Unreadable where
  column : String
  deriving DecidableEq, Repr

namespace RowValue

def ofText? : Option String → RowValue
  | none => .null
  | some s => .text s

/-- A value on one line of JSON text. -/
def ofJson (v : Json) : RowValue := .text v.line

def text? : RowValue → Option String
  | .text s => some s
  | _ => none

def flag? : RowValue → Option Bool
  | .flag b => some b
  | _ => none

def nullable? : RowValue → Option (Option String)
  | .null => some none
  | .text s => some (some s)
  | .flag _ => none

def member? (α : Type) [Worded α] (v : RowValue) : Option α := v.text?.bind Worded.ofText?

/-- What JSON text stands for, if it passes the check. -/
def json? {α : Type} (check : Check α) (v : RowValue) : Option α := do
  let value ← (Json.read (← v.text?).toList).toOption
  (check value).toExcept.toOption

end RowValue

/-- What a column of a row holds. -/
def Row.read {α : Type} (row : Row) (column : String) (reading : RowValue → Option α) : Except Unreadable α :=
  match (row.get? column).bind reading with
  | some a => .ok a
  | none => .error ⟨column⟩

open RowValue

namespace Mime

def check : Check Mime := fun v =>
  (Check.record "Mime" v).andThen fun fs =>
    Mime.mk <$> Check.required fs "type" (Check.member MimeType) <*> Check.required fs "domain" (Check.member Domain)
      <*> Check.required fs "domain_model" Check.text

end Mime

namespace NodeData

def check : Check NodeData := fun v =>
  (Check.record "NodeData" v).andThen fun fs =>
    NodeData.mk <$> Check.required fs "uri" Check.text <*> Check.required fs "mime" Mime.check

end NodeData

namespace Instance

def row (i : Instance) : Row := [
  ("instance_id", .text i.id),
  ("organization_id", .text i.organization),
  ("workflow_id", .text i.workflow),
  ("status", .text i.status.text),
  ("definition_key", ofText? i.definitionKey),
  ("execution_handle", ofText? i.executionHandle)]

def ofRow (row : Row) : Except Unreadable Instance := do
  return {
    id := ← row.read "instance_id" text?
    organization := ← row.read "organization_id" text?
    workflow := ← row.read "workflow_id" text?
    status := ← row.read "status" (member? InstanceStatus)
    definitionKey := ← row.read "definition_key" nullable?
    executionHandle := ← row.read "execution_handle" nullable? }

end Instance

namespace Job

def row (j : Job) : Row := [
  ("job_id", .text j.id),
  ("organization_id", .text j.organization),
  ("instance_id", .text j.instanceId),
  ("execution_handle", ofText? j.executionHandle),
  ("pre_execution_failure", .flag j.failedBefore)]

def ofRow (row : Row) : Except Unreadable Job := do
  return {
    id := ← row.read "job_id" text?
    organization := ← row.read "organization_id" text?
    instanceId := ← row.read "instance_id" text?
    executionHandle := ← row.read "execution_handle" nullable?
    failedBefore := ← row.read "pre_execution_failure" flag? }

end Job

namespace JobLog

/-- The parameters of a message as a list of pairs, so that a key may stand in it more than once. -/
def paramsJson (params : List (String × String)) : Json :=
  .list (params.map fun p => .object [("key", .text p.1), ("value", .text p.2)])

def checkParam : Check (String × String) := fun v =>
  (Check.record "MessageParam" v).andThen fun fs =>
    Prod.mk <$> Check.required fs "key" Check.text <*> Check.required fs "value" Check.text

def row (l : JobLog) : Row := [
  ("log_id", .text l.id),
  ("job_id", .text l.jobId),
  ("node_id", ofText? l.nodeId),
  ("level", .text l.level.text),
  ("message_key", .text l.key.text),
  ("message_params_json", ofJson (paramsJson l.params))]

def ofRow (row : Row) : Except Unreadable JobLog := do
  return {
    params := ← row.read "message_params_json" (json? (Check.sequence checkParam))
    id := ← row.read "log_id" text?
    jobId := ← row.read "job_id" text?
    level := ← row.read "level" (member? JobLogLevel)
    key := ← row.read "message_key" (member? MessageKey)
    nodeId := ← row.read "node_id" nullable? }

end JobLog

namespace NodeRecord

def row (n : NodeRecord) : Row := [
  ("node_id", .text n.id),
  ("instance_id", .text n.instanceId),
  ("node_type", .text n.type),
  ("name", ofText? n.name)]

def ofRow (row : Row) : Except Unreadable NodeRecord := do
  return {
    id := ← row.read "node_id" text?
    instanceId := ← row.read "instance_id" text?
    type := ← row.read "node_type" text?
    name := ← row.read "name" nullable? }

end NodeRecord

namespace EdgeRecord

def row (e : EdgeRecord) : Row := [
  ("edge_id", .text e.id),
  ("instance_id", .text e.instanceId),
  ("source_node_id", .text e.source),
  ("target_node_id", .text e.target)]

def ofRow (row : Row) : Except Unreadable EdgeRecord := do
  return {
    id := ← row.read "edge_id" text?
    instanceId := ← row.read "instance_id" text?
    source := ← row.read "source_node_id" text?
    target := ← row.read "target_node_id" text? }

end EdgeRecord

namespace DocumentRecord

def row (d : DocumentRecord) : Row := [
  ("document_id", .text d.id),
  ("organization_id", .text d.organization),
  ("name", .text d.name),
  ("filename", .text d.filename),
  ("content_type", .text d.contentType),
  ("blob_key", .text d.blobKey),
  ("document_type", .text d.type.text),
  ("processing_status", .text d.processing.text),
  ("node_id", ofText? d.nodeId)]

def ofRow (row : Row) : Except Unreadable DocumentRecord := do
  return {
    id := ← row.read "document_id" text?
    organization := ← row.read "organization_id" text?
    name := ← row.read "name" text?
    filename := ← row.read "filename" text?
    contentType := ← row.read "content_type" text?
    blobKey := ← row.read "blob_key" text?
    type := ← row.read "document_type" (member? DocumentType)
    processing := ← row.read "processing_status" (member? ProcessingStatus)
    nodeId := ← row.read "node_id" nullable? }

end DocumentRecord

namespace NodeResult

def row (r : NodeResult) : Row := [
  ("result_id", .text r.id),
  ("job_id", .text r.jobId),
  ("node_id", .text r.nodeId),
  ("results_json", ofJson (.list (r.results.map NodeData.toJson)))]

def ofRow (row : Row) : Except Unreadable NodeResult := do
  return {
    id := ← row.read "result_id" text?
    jobId := ← row.read "job_id" text?
    nodeId := ← row.read "node_id" text?
    results := ← row.read "results_json" (json? (Check.sequence NodeData.check)) }

end NodeResult

namespace DrawSort

/-- The columns of a sort beside its id. -/
def columns (s : DrawSort) : Row := [
  ("name", .text s.name),
  ("rules_json", ofJson (.list (s.rules.map SortRule.toJson)))]

def row (s : DrawSort) : Row := ("sort_id", .text s.id) :: s.columns

def ofRow (row : Row) : Except Unreadable DrawSort := do
  return {
    id := ← row.read "sort_id" text?
    name := ← row.read "name" text?
    rules := ← row.read "rules_json" (json? (Check.sequence SortRule.check)) }

end DrawSort

namespace DrawConfig

/-- The columns of a configuration beside its node. -/
def columns (c : DrawConfig) : Row := [
  ("config_id", .text c.id),
  ("name", .text c.name),
  ("use_points", .flag c.usePoints),
  ("sort_id", ofText? c.sortId),
  ("quota_rule_flags_json", ofJson (Json.ofTexts (c.rules.map QuotaRule.text))),
  ("applicants_json", ofJson (Json.ofTexts c.applicants))]

/-- The row of a node and its configuration. -/
def row (p : String × DrawConfig) : Row := ("node_id", .text p.1) :: p.2.columns

def ofRow (row : Row) : Except Unreadable DrawConfig := do
  return {
    id := ← row.read "config_id" text?
    name := ← row.read "name" text?
    usePoints := ← row.read "use_points" flag?
    sortId := ← row.read "sort_id" nullable?
    rules := ← row.read "quota_rule_flags_json" (json? checkRules)
    applicants := ← row.read "applicants_json" (json? checkApplicants) }

end DrawConfig
end HuntDraw
