import HuntDraw.Data.Worded

/-! The closed sets of words that records, definitions and job logs are written in. -/

namespace HuntDraw

inductive InstanceStatus where
  | buildNeeded
  | buildStarted
  | buildFailed
  | ready
  deriving DecidableEq, Repr

def InstanceStatus.text : InstanceStatus → String
  | .buildNeeded => "BUILD_NEEDED"
  | .buildStarted => "BUILD_STARTED"
  | .buildFailed => "BUILD_FAILED"
  | .ready => "READY"

instance : Worded InstanceStatus where
  kind := "WorkflowInstanceStatus"
  all := [.buildNeeded, .buildStarted, .buildFailed, .ready]
  name := InstanceStatus.text
  text := InstanceStatus.text

/-- The nodes that do work: each becomes one task of a chain. -/
inductive TaskType where
  | draw
  | export
  | noop
  | commit
  deriving DecidableEq, Repr

def TaskType.text : TaskType → String
  | .draw => "WorkflowDrawNode"
  | .export => "WorkflowExportNode"
  | .noop => "WorkflowNoopNode"
  | .commit => "WorkflowCommitNode"

instance : Worded TaskType where
  kind := "WorkflowNodeType"
  all := [.draw, .export, .noop, .commit]
  name
    | .draw => "DRAW"
    | .export => "EXPORT"
    | .noop => "NOOP"
    | .commit => "COMMIT"
  text := TaskType.text

/-- The nodes that hold data: one that leads to a task node supplies an input of it. -/
inductive DataType where
  | applicants
  | huntCodes
  | null
  deriving DecidableEq, Repr

def DataType.text : DataType → String
  | .applicants => "WorkflowDrawApplicantDataNode"
  | .huntCodes => "WorkflowDrawDataNode"
  | .null => "WorkflowNullDataNode"

instance : Worded DataType where
  kind := "WorkflowDataNodeType"
  all := [.applicants, .huntCodes, .null]
  name
    | .applicants => "DRAW_APPLICANT_DATA"
    | .huntCodes => "DRAW_DATA"
    | .null => "NULL_DATA"
  text := DataType.text

inductive MimeType where
  | any
  | csv
  | json
  | zip
  deriving DecidableEq, Repr

def MimeType.text : MimeType → String
  | .any => "*/*"
  | .csv => "text/csv"
  | .json => "application/json"
  | .zip => "application/zip"

instance : Worded MimeType where
  kind := "WorkflowMimeDataType"
  all := [.any, .csv, .json, .zip]
  name
    | .any => "ANY"
    | .csv => "CSV"
    | .json => "JSON"
    | .zip => "ZIP"
  text := MimeType.text

inductive Domain where
  | draw
  deriving DecidableEq, Repr

def Domain.text : Domain → String
  | .draw => "DRAW"

instance : Worded Domain where
  kind := "WorkflowDomain"
  all := [.draw]
  name := Domain.text
  text := Domain.text

inductive DocumentType where
  | applicants
  | huntCodes
  | metrics
  | export
  deriving DecidableEq, Repr

def DocumentType.text : DocumentType → String
  | .applicants => "APPLICANTS"
  | .huntCodes => "HUNT_CODES"
  | .metrics => "DRAW_METRICS"
  | .export => "DrawResultExport"

instance : Worded DocumentType where
  kind := "DrawDocumentType"
  all := [.applicants, .huntCodes, .metrics, .export]
  name
    | .export => "RESULT_EXPORT"
    | t => t.text
  text := DocumentType.text

inductive ProcessingStatus where
  | pending
  | started
  | failed
  | finished
  deriving DecidableEq, Repr

def ProcessingStatus.text : ProcessingStatus → String
  | .pending => "PENDING"
  | .started => "VALIDATION_STARTED"
  | .failed => "VALIDATION_FAILED"
  | .finished => "VALIDATION_FINISHED"

instance : Worded ProcessingStatus where
  kind := "ProcessingStatus"
  all := [.pending, .started, .failed, .finished]
  name := ProcessingStatus.text
  text := ProcessingStatus.text

/-- How much an entry of a job log matters. -/
inductive JobLogLevel where
  | info
  | warn
  | error
  deriving DecidableEq, Repr

def JobLogLevel.text : JobLogLevel → String
  | .info => "INFO"
  | .warn => "WARN"
  | .error => "ERROR"

instance : Worded JobLogLevel where
  kind := "WorkflowLogLevel"
  all := [.info, .warn, .error]
  name := JobLogLevel.text
  text := JobLogLevel.text

/-- What an entry of a job log says; clients word it. -/
inductive MessageKey where
  | cycle
  | noDocument
  | invalidSource
  | invalidTarget
  | invalidMime
  | invalidNodeType
  | multipleEnds
  | multipleStarts
  | noResource
  | noStart
  | parallel
  | readyTimeout
  | unknown
  deriving DecidableEq, Repr

def MessageKey.text : MessageKey → String
  | .cycle => "CycleDetected"
  | .noDocument => "DataNodeHasNoDocument"
  | .invalidSource => "EdgeHasInvalidSource"
  | .invalidTarget => "EdgeHasInvalidTarget"
  | .invalidMime => "InvalidMimeType"
  | .invalidNodeType => "InvalidNodeType"
  | .multipleEnds => "MultipleEndNodesFound"
  | .multipleStarts => "MultipleStartNodesFound"
  | .noResource => "NoResourceFound"
  | .noStart => "NoStartNodeFound"
  | .parallel => "ParallelNodesNotSupported"
  | .readyTimeout => "ReadyTimeout"
  | .unknown => "UnknownError"

instance : Worded MessageKey where
  kind := "WorkflowMessageKey"
  all := [.cycle, .noDocument, .invalidSource, .invalidTarget, .invalidMime, .invalidNodeType,
    .multipleEnds, .multipleStarts, .noResource, .noStart, .parallel, .readyTimeout, .unknown]
  name
    | .cycle => "CYCLE_DETECTED"
    | .noDocument => "DATA_NODE_HAS_NO_DOCUMENT"
    | .invalidSource => "EDGE_HAS_INVALID_SOURCE"
    | .invalidTarget => "EDGE_HAS_INVALID_TARGET"
    | .invalidMime => "INVALID_MIME_TYPE"
    | .invalidNodeType => "INVALID_NODE_TYPE"
    | .multipleEnds => "MULTIPLE_END_NODES_FOUND"
    | .multipleStarts => "MULTIPLE_START_NODES_FOUND"
    | .noResource => "NO_RESOURCE_FOUND"
    | .noStart => "NO_START_NODE_FOUND"
    | .parallel => "PARALLEL_NODES_NOT_SUPPORTED"
    | .readyTimeout => "READY_TIMEOUT"
    | .unknown => "UNKNOWN_ERROR"
  text := MessageKey.text

inductive ResourceStatus where
  | creating
  | active
  | deleting
  deriving DecidableEq, Repr

def ResourceStatus.text : ResourceStatus → String
  | .creating => "CREATING"
  | .active => "ACTIVE"
  | .deleting => "DELETING"

instance : Worded ResourceStatus where
  kind := "ResourceStatus"
  all := [.creating, .active, .deleting]
  name := ResourceStatus.text
  text := ResourceStatus.text

inductive ExecutionStatus where
  | running
  | succeeded
  | failed
  deriving DecidableEq, Repr

def ExecutionStatus.text : ExecutionStatus → String
  | .running => "RUNNING"
  | .succeeded => "SUCCEEDED"
  | .failed => "FAILED"

instance : Worded ExecutionStatus where
  kind := "ExecutionStatus"
  all := [.running, .succeeded, .failed]
  name := ExecutionStatus.text
  text := ExecutionStatus.text

/-- Flow edges leave task nodes and order them; override edges leave data nodes and feed them. -/
inductive EdgeKind where
  | flow
  | override
  deriving DecidableEq, Repr

def EdgeKind.text : EdgeKind → String
  | .flow => "flow"
  | .override => "override"

instance : Worded EdgeKind where
  kind := "EdgeKind"
  all := [.flow, .override]
  name
    | .flow => "FLOW"
    | .override => "OVERRIDE"
  text := EdgeKind.text

end HuntDraw
