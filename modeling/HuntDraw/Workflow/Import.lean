import HuntDraw.Engine.World
import HuntDraw.Node.Document
import HuntDraw.Workflow.File

/-! Importing a workflow file: its instance, sorts, nodes, draw configurations, documents and edges are
stored in turn. What was stored before a failure stays. -/

namespace HuntDraw

variable {T : Type}

/-- How the files of documents are read. -/
abbrev FileReader := PathName → Except FileFault Content

namespace DocumentEntry

def record (d : DocumentEntry) (organization node id : String) : DocumentRecord :=
  let name := match d.name with
    | some name => if name.isEmpty then d.path.stem else name
    | none => d.path.stem
  { id, organization, name, filename := d.path.name, contentType := d.mime.text
    blobKey := Draft.key organization id d.path.name, type := d.type, nodeId := some node }

/-- Stores the file of a document under a new id. -/
def store (d : DocumentEntry) (read : FileReader) (organization node : String) : Action T Unit := do
  let record := d.record organization node (← Action.newId)
  let content ← Action.lift (fun f => .blob (.file f)) (read d.path)
  let _ ← Action.write record.blobKey content d.mime.text
  Action.alter fun s => s.createDocument record

end DocumentEntry

namespace NodeEntry

def record (n : NodeEntry) (instanceId : String) : NodeRecord :=
  { id := n.id, instanceId, type := n.type, name := n.name }

def store (n : NodeEntry) (read : FileReader) (organization instanceId : String) : Action T Unit := do
  Action.alter fun s => s.addNode (n.record instanceId)
  match n.config with
  | some c => Action.alter fun s => s.putConfig n.id c
  | none => pure ()
  match n.document with
  | some d => d.store read organization n.id
  | none => pure ()

end NodeEntry

namespace WorkflowFile

def toInstance (w : WorkflowFile) : Instance :=
  { id := w.instanceId, organization := w.organization, workflow := w.workflow }

def storeEdge (instanceId : String) (e : String × String) : Action T Unit := do
  let id ← Action.newId
  Action.alter fun s => s.addEdge { id, instanceId, source := e.1, target := e.2 }

/-- Stores a workflow and gives its instance. -/
def store (w : WorkflowFile) (read : FileReader) : Action T Instance := do
  Action.alter fun s => s.createInstance w.toInstance
  w.sorts.forM fun sort => Action.alter fun s => .ok (s.putSort sort)
  w.nodes.forM fun n => n.store read w.organization w.instanceId
  w.edges.forM (storeEdge w.instanceId)
  return w.toInstance

end WorkflowFile
end HuntDraw
