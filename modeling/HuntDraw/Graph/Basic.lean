import HuntDraw.Graph.Fault
import HuntDraw.Workflow.Records

/-! The graph of a workflow: typed nodes, and edges whose kind is settled by their source when they
are added. Two nodes may be joined by many edges. -/

namespace HuntDraw

inductive NodeType where
  | task (type : TaskType)
  | data (type : DataType)
  deriving DecidableEq, Repr

namespace NodeType

def text : NodeType → String
  | .task t => t.text
  | .data t => t.text

def isTask : NodeType → Bool
  | .task _ => true
  | .data _ => false

/-- The type that a text names. -/
def ofText? (s : String) : Option NodeType :=
  ((Worded.ofText? s).map task).or ((Worded.ofText? s).map data)

/-- The type of a node as it is stored. -/
def read (node type : String) : Except GraphFault NodeType :=
  match ofText? type with
  | some t => .ok t
  | none => .error (.unknownType node type)

end NodeType

structure GraphNode where
  id : String
  type : NodeType
  document : Option DocumentRecord := none
  deriving DecidableEq, Repr

structure GraphEdge where
  id : String
  source : String
  target : String
  kind : EdgeKind
  deriving DecidableEq, Repr

/-- Nodes and edges stand in the order in which they were first added. -/
structure Graph where
  nodes : List GraphNode := []
  edges : List GraphEdge := []
  deriving DecidableEq, Repr

/-- Brings elements with one key together, in the order in which the keys first appear. -/
def grouped {α : Type} (key : α → String) (xs : List α) : List α :=
  (xs.map key).eraseDups.flatMap fun k => xs.filter (key · = k)

namespace Graph

def node? (g : Graph) (id : String) : Option GraphNode := g.nodes.find? (·.id = id)

def has (g : Graph) (id : String) : Bool := g.nodes.any (·.id = id)

def ids (g : Graph) : List String := g.nodes.map GraphNode.id

def isTask (g : Graph) (id : String) : Bool := (g.node? id).any (·.type.isTask)

/-- The nodes that do work. -/
def tasks (g : Graph) : List String := (g.nodes.filter (·.type.isTask)).map GraphNode.id

def putNode (n : GraphNode) : List GraphNode → List GraphNode
  | [] => [n]
  | m :: rest => if m.id = n.id then n :: rest else m :: putNode n rest

/-- Adds a node; one of the same id is replaced in its place, and its edges stay. -/
def addNode (g : Graph) (n : GraphNode) : Graph := { g with nodes := putNode n g.nodes }

/-- Gives a node its document. -/
def attach (g : Graph) (id : String) (document : DocumentRecord) : Graph :=
  { g with nodes := g.nodes.map fun n => if n.id = id then { n with document := some document } else n }

def GraphEdge.same (e f : GraphEdge) : Bool := e.id = f.id && e.source = f.source && e.target = f.target

def putEdge (e : GraphEdge) : List GraphEdge → List GraphEdge
  | [] => [e]
  | f :: rest => if GraphEdge.same f e then e :: rest else f :: putEdge e rest

/-- Flow edges leave task nodes, override edges leave data nodes. -/
def kindFrom (g : Graph) (source : String) : EdgeKind := if g.isTask source then .flow else .override

/-- Adds an edge between two nodes that are there. -/
def addEdge (g : Graph) (id source target : String) : Except GraphFault (Graph × EdgeKind) :=
  if !g.has source then .error (.unknownSource id source)
  else if !g.has target then .error (.unknownTarget id target)
  else
    let kind := g.kindFrom source
    .ok ({ g with edges := putEdge ⟨id, source, target, kind⟩ g.edges }, kind)

/-- The edges that leave a node, those to one target together. -/
def outEdges (g : Graph) (id : String) : List GraphEdge :=
  grouped GraphEdge.target (g.edges.filter (·.source = id))

/-- The edges that enter a node, those from one source together. -/
def inEdges (g : Graph) (id : String) : List GraphEdge :=
  grouped GraphEdge.source (g.edges.filter (·.target = id))

/-- The nodes that follow, one for every flow edge. -/
def targets (g : Graph) (id : String) : List String :=
  ((g.outEdges id).filter (·.kind = .flow)).map GraphEdge.target

/-- The nodes that come before, one for every flow edge. -/
def sources (g : Graph) (id : String) : List String :=
  ((g.inEdges id).filter (·.kind = .flow)).map GraphEdge.source

/-- The data nodes that feed a node, one for every edge. -/
def overrides (g : Graph) (id : String) : List String :=
  ((g.inEdges id).filter (·.kind = .override)).map GraphEdge.source

def addRecord (g : Graph) (r : NodeRecord) : Except GraphFault Graph := do
  let type ← NodeType.read r.id r.type
  return g.addNode { id := r.id, type }

def attachRecord (g : Graph) (d : DocumentRecord) : Graph :=
  match d.nodeId with
  | some id => g.attach id d
  | none => g

/-- The graph of stored records. A document of a node that is not there is ignored. -/
def ofRecords (nodes : List NodeRecord) (edges : List EdgeRecord) (documents : List DocumentRecord) :
    Except GraphFault Graph := do
  let g ← nodes.foldlM addRecord {}
  let g ← edges.foldlM (fun g e => (·.1) <$> g.addEdge e.id e.source e.target) g
  return documents.foldl attachRecord g

/-- The only task node that nothing leads to, once there is only one that leads nowhere. -/
def start (g : Graph) : Except GraphFault String :=
  let starts := g.tasks.filter fun n => (g.sources n).isEmpty
  let ends := g.tasks.filter fun n => (g.targets n).isEmpty
  match starts with
  | [] => .error .noStart
  | [s] => if 1 < ends.length then .error (.manyEnds ends) else .ok s
  | more => .error (.manyStarts more)

end Graph
end HuntDraw
