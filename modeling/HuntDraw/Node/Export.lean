import HuntDraw.Node.Document
import HuntDraw.Text.Case

/-! The export node: one archive of everything that was made so far or is supplied to it. -/

namespace HuntDraw

variable {T : Type}

def MimeType.ending : MimeType → String
  | .any => ""
  | .csv => ".csv"
  | .json => ".json"
  | .zip => ".zip"

namespace NodeData

/-- What data is called in an archive, by its place there. -/
def memberName (d : NodeData) (place : Int) : String :=
  s!"{Text.lower d.mime.domain.text}_{Text.lower d.mime.model}_{place}" ++ d.mime.type.ending

end NodeData

namespace ExportNode

/-- A member of an archive: its name ends where a null character would stand. -/
def member (d : NodeData) (place : Nat) : Action T (String × Content) := do
  let key ← Action.look fun b => b.keyOf d.uri
  let content ← Action.look fun b => b.read key
  return (String.ofList ((d.memberName place).toList.takeWhile (· ≠ '\x00')), content)

def run (bound : Fields Json) (p : Payload) : Action T (List NodeData) := do
  let sources := p.collected
  if sources.isEmpty then
    Action.log .info "export_skipped_no_inputs" bound
    return []
  let members ← sources.zipIdx.mapM fun s => member s.1 s.2
  let name := s!"{p.job}_{p.node}_draw_results"
  let draft : Draft := {
    organization := p.organization, name, filename := name ++ ".zip", mime := .zip, type := .export
    content := .archive members }
  let record ← draft.store
  Action.log .info "export_archive_written"
    (bound ++ [("files", .nat sources.length), ("document_id", .text record.id)])
  return [← record.asData .zip]

end ExportNode
end HuntDraw
