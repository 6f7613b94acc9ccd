import HuntDraw.Draw.Config
import HuntDraw.Settings.Basic
import HuntDraw.Workflow.Records

/-! Workflow files: one instance with its nodes, edges, documents and draw settings, as its author
writes it. Nothing but the known fields may be written. -/

namespace HuntDraw

structure DocumentEntry where
  path : PathName
  type : DocumentType
  mime : MimeType := .csv
  name : Option String := none
  deriving DecidableEq, Repr

structure NodeEntry where
  id : String
  type : String
  name : Option String := none
  document : Option DocumentEntry := none
  config : Option DrawConfig := none
  deriving DecidableEq, Repr

structure WorkflowFile where
  organization : String
  workflow : String
  instanceId : String
  sorts : List DrawSort := []
  nodes : List NodeEntry := []
  edges : List (String × String) := []
  deriving DecidableEq, Repr

open Check

/-- The value of the known fields, with complaints of the others. -/
def closed {α : Type} (names : List String) (fs : Fields Json) (c : Checked α) : Checked α :=
  (fun a _ => a) <$> c <*> onlyFields names fs

namespace DocumentEntry

def check : Check DocumentEntry := fun v =>
  (record "DocumentEntry" v).andThen fun fs =>
    closed ["path", "type", "content_type", "name"] fs <|
      DocumentEntry.mk <$> required fs "path" Check.path <*> required fs "type" (member DocumentType)
        <*> optional fs "content_type" .csv (member MimeType)
        <*> optional fs "name" none (nullable text)

def toJson (d : DocumentEntry) : Json :=
  .object [
    ("path", .text d.path.text),
    ("type", .text d.type.text),
    ("content_type", .text d.mime.text),
    ("name", Json.ofText? d.name)]

end DocumentEntry

namespace NodeEntry

def check : Check NodeEntry := fun v =>
  (record "NodeEntry" v).andThen fun fs =>
    closed ["id", "type", "name", "document", "draw_config"] fs <|
      NodeEntry.mk <$> required fs "id" filledText <*> required fs "type" filledText
        <*> optional fs "name" none (nullable text)
        <*> optional fs "document" none (nullable DocumentEntry.check)
        <*> optional fs "draw_config" none (nullable DrawConfig.check)

def toJson (n : NodeEntry) : Json :=
  .object [
    ("id", .text n.id),
    ("type", .text n.type),
    ("name", Json.ofText? n.name),
    ("document", Json.ofOption DocumentEntry.toJson n.document),
    ("draw_config", Json.ofOption DrawConfig.toJson n.config)]

end NodeEntry

namespace WorkflowFile

def check : Check WorkflowFile := fun v =>
  (record "WorkflowFile" v).andThen fun fs =>
    closed ["organization_id", "workflow_id", "instance_id", "sorts", "nodes", "edges"] fs <|
      WorkflowFile.mk <$> required fs "organization_id" filledText
        <*> required fs "workflow_id" filledText
        <*> required fs "instance_id" filledText
        <*> optional fs "sorts" [] (sequence DrawSort.check)
        <*> optional fs "nodes" [] (sequence NodeEntry.check)
        <*> optional fs "edges" [] (sequence (pair text))

def toJson (w : WorkflowFile) : Json :=
  .object [
    ("organization_id", .text w.organization),
    ("workflow_id", .text w.workflow),
    ("instance_id", .text w.instanceId),
    ("sorts", .list (w.sorts.map DrawSort.toJson)),
    ("nodes", .list (w.nodes.map NodeEntry.toJson)),
    ("edges", .list (w.edges.map fun e => .list [.text e.1, .text e.2]))]

end WorkflowFile
end HuntDraw
