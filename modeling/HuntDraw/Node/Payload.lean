import HuntDraw.Failure.Basic

/-! What a node is started with: whose work it is, the data supplied to nodes, and the results of the
nodes that ran before it. -/

namespace HuntDraw

/-- Data by the node that it is for or from. -/
abbrev NodeTable := Fields (List NodeData)

structure Payload where
  organization : String
  job : String
  node : String
  previous : Option String := none
  overrides : NodeTable := []
  results : NodeTable := []
  deriving DecidableEq, Repr

/-- The member of a closed set that a value names. -/
def Worded.read (α : Type) [Worded α] (v : Json) : Except Failure α :=
  match v with
  | .text s =>
    match ofText? s with
    | some a => .ok a
    | none => .error (.noMember (refusal α v.shown))
  | _ => .error (.noMember (refusal α v.shown))

namespace Payload

/-- The field of a value that has to have it. -/
def field (v : Json) (key : String) : Except Failure Json :=
  match v with
  | .object fields =>
    match Fields.get? fields key with
    | some w => .ok w
    | none => .error (.noKey key)
  | .text _ => .error (.mistyped "TypeError" "string indices must be integers, not 'str'")
  | .list _ => .error (.mistyped "TypeError" "list indices must be integers or slices, not str")
  | _ => .error (.mistyped "TypeError" s!"'{v.kind}' object is not subscriptable")

/-- The entries of a value that has to be a mapping. -/
def entries : Json → Except Failure (Fields Json)
  | .object fields => .ok fields
  | v => .error (.mistyped "AttributeError" s!"'{v.kind}' object has no attribute 'items'")

/-- The items of a value that can be gone through. -/
def items : Json → Except Failure (List Json)
  | .list vs => .ok vs
  | .object fields => .ok (fields.map fun p => .text p.1)
  | .text s => .ok (s.toList.map fun c => .text (String.ofList [c]))
  | v => .error (.mistyped "TypeError" s!"'{v.kind}' object is not iterable")

def readData (v : Json) : Except Failure NodeData := do
  let mime ← field v "mime"
  let uri ← field v "uri"
  let type ← Worded.read MimeType (← field mime "type")
  let domain ← Worded.read Domain (← field mime "domain")
  let model ← field mime "domain_model"
  return ⟨uri.asText, ⟨type, domain, model.asText⟩⟩

def readTable (v : Json) (key : String) : Except Failure NodeTable :=
  match v.get? key with
  | none => .ok []
  | some table => do
    (← entries table).mapM fun p => do return (p.1, ← (← items p.2).mapM readData)

def previousOf (context : Json) : Option String :=
  match context.get? "previous_node_id" with
  | some .null | none => none
  | some v => some v.asText

/-- The payload that a state holds. -/
def read (v : Json) : Except Failure Payload := do
  let context ← field v "context"
  let organization ← field context "organization_id"
  let job ← field context "workflow_job_id"
  let node ← field context "node_id"
  let overrides ← readTable v "node_override_data"
  let results ← readTable v "node_result_data"
  return {
    organization := organization.asText, job := job.asText, node := node.asText
    previous := previousOf context, overrides, results }

def tableJson (t : NodeTable) : Json := .object (t.map fun p => (p.1, .list (p.2.map NodeData.toJson)))

/-- The state that holds the payload. -/
def toJson (p : Payload) : Json :=
  let context : Fields Json := [
    ("organization_id", .text p.organization),
    ("workflow_job_id", .text p.job),
    ("node_id", .text p.node)]
  .object [
    ("context", .object (context ++ (p.previous.map fun n => ("previous_node_id", Json.text n)).toList)),
    ("node_override_data", tableJson p.overrides),
    ("node_result_data", tableJson p.results)]

/-- The payload after its node made results. -/
def after (p : Payload) (results : List NodeData) : Payload :=
  { p with previous := some p.node, results := p.results.put p.node results }

/-- The results of a node, none when it did not run. -/
def resultsOf (p : Payload) (node : String) : List NodeData := (p.results.get? node).getD []

/-- The data supplied to the node itself. -/
def supplied (p : Payload) : List NodeData := (p.overrides.get? p.node).getD []

def NodeData.isOf (domain : Domain) (model : String) (d : NodeData) : Bool :=
  d.mime.domain = domain && d.mime.model = model

/-- The data of a kind: what is supplied to the node goes before what the previous node made. -/
def source (p : Payload) (domain : Domain) (model : String) : Except Failure NodeData :=
  let previous := (p.previous.map p.resultsOf).getD []
  match (p.supplied ++ previous).find? (NodeData.isOf domain model) with
  | some d => .ok d
  | none => .error (.noSource p.node domain.text model)

/-- Everything in blobs that was made so far or is supplied to the node. -/
def collected (p : Payload) : List NodeData :=
  (p.results.flatMap (·.2) ++ p.supplied).filter fun d => Blob.isAddress d.uri

end Payload
end HuntDraw
