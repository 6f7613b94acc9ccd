import HuntDraw.Data.Json
import HuntDraw.Workflow.Vocabulary

/-! The records of workflows: instances and their graphs, documents, jobs with their logs, and the data
that nodes hand to each other. -/

namespace HuntDraw

structure Instance where
  id : String
  organization : String
  workflow : String
  status : InstanceStatus := .buildNeeded
  definitionKey : Option String := none
  executionHandle : Option String := none
  deriving DecidableEq, Repr

/-- One run of a built instance. -/
structure Job where
  id : String
  organization : String
  instanceId : String
  executionHandle : Option String := none
  failedBefore : Bool := false
  deriving DecidableEq, Repr

structure JobLog where
  id : String
  jobId : String
  level : JobLogLevel
  key : MessageKey
  params : List (String × String) := []
  nodeId : Option String := none
  deriving DecidableEq, Repr

/-- A node as its author wrote it: the type is any text. -/
structure NodeRecord where
  id : String
  instanceId : String
  type : String
  name : Option String := none
  deriving DecidableEq, Repr

structure EdgeRecord where
  id : String
  instanceId : String
  source : String
  target : String
  deriving DecidableEq, Repr

/-- A stored document, and the data node that supplies it. -/
structure DocumentRecord where
  id : String
  organization : String
  name : String
  filename : String
  contentType : String
  blobKey : String
  type : DocumentType
  processing : ProcessingStatus := .pending
  nodeId : Option String := none
  deriving DecidableEq, Repr

structure Mime where
  type : MimeType
  domain : Domain
  model : String
  deriving DecidableEq, Repr

/-- Data that a node takes or makes. -/
structure NodeData where
  uri : String
  mime : Mime
  deriving DecidableEq, Repr

structure NodeResult where
  id : String
  jobId : String
  nodeId : String
  results : List NodeData := []
  deriving DecidableEq, Repr

namespace Instance

def toJson (i : Instance) : Json :=
  .object [
    ("id", .text i.id),
    ("organization_id", .text i.organization),
    ("workflow_id", .text i.workflow),
    ("status", .text i.status.text),
    ("definition_key", Json.ofText? i.definitionKey),
    ("execution_handle", Json.ofText? i.executionHandle)]

end Instance

namespace Job

def toJson (j : Job) : Json :=
  .object [
    ("id", .text j.id),
    ("organization_id", .text j.organization),
    ("workflow_instance_id", .text j.instanceId),
    ("execution_handle", Json.ofText? j.executionHandle),
    ("pre_execution_failure", .bool j.failedBefore)]

end Job

namespace JobLog

def toJson (l : JobLog) : Json :=
  .object [
    ("id", .text l.id),
    ("workflow_job_id", .text l.jobId),
    ("level", .text l.level.text),
    ("message_key", .text l.key.text),
    ("message_params", .list (l.params.map fun p => .list [.text p.1, .text p.2])),
    ("workflow_node_id", Json.ofText? l.nodeId)]

end JobLog

namespace NodeRecord

def toJson (n : NodeRecord) : Json :=
  .object [
    ("id", .text n.id),
    ("workflow_instance_id", .text n.instanceId),
    ("node_type", .text n.type),
    ("name", Json.ofText? n.name)]

end NodeRecord

namespace EdgeRecord

def toJson (e : EdgeRecord) : Json :=
  .object [
    ("id", .text e.id),
    ("workflow_instance_id", .text e.instanceId),
    ("source_node_id", .text e.source),
    ("target_node_id", .text e.target)]

end EdgeRecord

namespace DocumentRecord

def toJson (d : DocumentRecord) : Json :=
  .object [
    ("id", .text d.id),
    ("organization_id", .text d.organization),
    ("name", .text d.name),
    ("filename", .text d.filename),
    ("content_type", .text d.contentType),
    ("blob_key", .text d.blobKey),
    ("document_type", .text d.type.text),
    ("processing_status", .text d.processing.text),
    ("workflow_node_id", Json.ofText? d.nodeId)]

end DocumentRecord

namespace NodeData

def toJson (d : NodeData) : Json :=
  .object [
    ("uri", .text d.uri),
    ("mime", .object [
      ("type", .text d.mime.type.text),
      ("domain", .text d.mime.domain.text),
      ("domain_model", .text d.mime.model)])]

end NodeData

namespace NodeResult

def toJson (r : NodeResult) : Json :=
  .object [
    ("id", .text r.id),
    ("workflow_job_id", .text r.jobId),
    ("node_id", .text r.nodeId),
    ("results", .list (r.results.map NodeData.toJson))]

end NodeResult
end HuntDraw
