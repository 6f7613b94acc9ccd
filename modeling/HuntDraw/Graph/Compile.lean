import HuntDraw.Blob.Address
import HuntDraw.Graph.Basic
import HuntDraw.Graph.Chain
import HuntDraw.Log.Event

/-! Compiling a graph to a task chain: the walk along the flow edges from the start node, each node on
it becoming one task. -/

namespace HuntDraw

/-- Where tasks of each type are executed. -/
abbrev Resources := List (TaskType × String)

namespace Resources

def get? (r : Resources) (t : TaskType) : Option String := (r.find? (·.1 = t)).map (·.2)

/-- The resource of a node; data nodes have none. -/
def resolve (r : Resources) (n : GraphNode) : Except GraphFault String :=
  let found := match n.type with
    | .task t => r.get? t
    | .data _ => none
  match found with
  | some resource => if resource.isEmpty then .error (.noResource n.id n.type.text) else .ok resource
  | none => .error (.noResource n.id n.type.text)

end Resources

inductive CompileFault where
  | graph (fault : GraphFault)
  | blob (fault : BlobFault)
  deriving DecidableEq, Repr

/-- A compiled chain, and the task nodes that the walk did not come to. -/
structure Compilation where
  chain : TaskChain
  skipped : List String

namespace Compilation

/-- What is said of the nodes left out. -/
def skippedMessage : String := "Functional nodes not reachable from the start node were not compiled"

/-- The warnings about what was compiled. -/
def warnings (c : Compilation) : List Json :=
  if c.skipped.isEmpty then []
  else [.object [
    ("code", .text "UNREACHABLE_NODES"),
    ("message", .text skippedMessage),
    ("node_ids", Json.ofTexts c.skipped)]]

/-- What is logged about the nodes left out. -/
def journal (c : Compilation) : List LogEvent :=
  if c.skipped.isEmpty then []
  else [⟨.warning, "unreachable_nodes_skipped", [("node_ids", Json.ofTexts c.skipped)]⟩]

end Compilation

namespace Graph

/-- How documents are addressed, and for whom and on what the tasks run. -/
structure Target where
  organization : String
  resources : Resources
  address : String → Except BlobFault String

/-- The data that a data node supplies; one of the null type supplies none. -/
def suppliedBy (t : Target) (n : GraphNode) : Except CompileFault (Option NodeData) :=
  if n.type = .data .null then .ok none
  else
    match n.document with
    | none => .error (.graph (.noDocument n.id))
    | some d =>
      match Worded.ofText? (α := MimeType) d.contentType with
      | none => .error (.graph (.unsupportedMime n.id d.contentType))
      | some mime =>
        match t.address d.blobKey with
        | .error f => .error (.blob f)
        | .ok uri => .ok (some ⟨uri, ⟨mime, .draw, d.type.text⟩⟩)

/-- The data supplied to a node by the data nodes that feed it. -/
def supplied (g : Graph) (t : Target) (id : String) : Except CompileFault (List NodeData) :=
  List.reduceOption <$> ((g.overrides id).filterMap g.node?).mapM (suppliedBy t)

/-- What the task of a node is started with. The first task starts without results; the others take
over what the state holds. -/
def parameters (t : Target) (first : Bool) (id : String) (supplied : List NodeData) : Fields Json :=
  let state : List (String × Json) := [
    ("organization_id", .text t.organization),
    ("workflow_job_id.$", .text "$.context.workflow_job_id"),
    ("node_id", .text id)]
  let overrides := if supplied.isEmpty then [] else [(id, Json.list (supplied.map NodeData.toJson))]
  if first then
    [("context", .object state), ("node_result_data", .object []), ("node_override_data", .object overrides)]
  else
    [("context", .object (state ++ [("previous_node_id.$", .text "$.context.previous_node_id")])),
     ("node_result_data.$", .text "$.node_result_data"),
     ("node_override_data", .object overrides)]

/-- The task of a node. -/
def task (g : Graph) (t : Target) (first : Bool) (n : GraphNode) (next : Option String) :
    Except CompileFault Task := do
  let resource ← (t.resources.resolve n).mapError .graph
  let supplied ← g.supplied t n.id
  return { resource, comment := n.type.text, parameters := parameters t first n.id supplied
           next, terminal := next.isNone }

/-- Walks on from a node, among the nodes in `left`: its tasks in walking order, and the nodes not come
to. A node that is no longer left was walked through before. -/
def walk (g : Graph) (t : Target) (first : Bool) (left : List String) (id : String) :
    Except CompileFault (Fields Task × List String) :=
  match g.node? id with
  | none => .error (.graph (.cycle id))
  | some n =>
    if _h : id ∈ left then
      match g.targets id with
      | [] => do
        let task ← g.task t first n none
        return ([(id, task)], left.erase id)
      | [next] => do
        let task ← g.task t first n (some next)
        let (tasks, rest) ← g.walk t false (left.erase id) next
        return ((id, task) :: tasks, rest)
      | _ => .error (.graph (.parallel id))
    else .error (.graph (.cycle id))
  termination_by left.length
  decreasing_by
    have := List.length_erase_of_mem _h
    have := List.length_pos_of_mem _h
    omega

/-- The chain that starts at the start node. -/
def compile (g : Graph) (t : Target) : Except CompileFault Compilation := do
  let start ← g.start.mapError .graph
  let (tasks, rest) ← g.walk t true g.ids start
  return ⟨⟨start, tasks⟩, rest.filter g.isTask⟩

end Graph
end HuntDraw
