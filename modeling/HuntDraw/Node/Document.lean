import HuntDraw.Engine.World
import HuntDraw.Node.Payload

/-! Documents that nodes make: a blob, and a record that tells where it is. -/

namespace HuntDraw

variable {T : Type}

/-- What a new document is to be. -/
structure Draft where
  organization : String
  name : String
  filename : String
  mime : MimeType
  type : DocumentType
  content : Content

namespace Draft

/-- Where a document is kept. -/
def key (organization id filename : String) : String := s!"{organization}/documents/{id}/{filename}"

def record (d : Draft) (id : String) : DocumentRecord :=
  { id, organization := d.organization, name := d.name, filename := d.filename, contentType := d.mime.text
    blobKey := key d.organization id d.filename, type := d.type, processing := .finished }

/-- Writes the content and registers the document under a new id. -/
def store (d : Draft) : Action T DocumentRecord := do
  let record := d.record (← Action.newId)
  let _ ← Action.write record.blobKey d.content d.mime.text
  Action.alter fun s => s.createDocument record
  Action.log .debug "document_stored" [
    ("document_id", .text record.id),
    ("blob_key", .text record.blobKey),
    ("size", Json.ofOption Json.nat d.content.size?)]
  return record

end Draft

/-- A stored document as data for other nodes. -/
def DocumentRecord.asData (d : DocumentRecord) (mime : MimeType) : Action T NodeData := do
  let uri ← Action.look fun b => b.addressOf d.blobKey
  return ⟨uri, ⟨mime, .draw, d.type.text⟩⟩

end HuntDraw
