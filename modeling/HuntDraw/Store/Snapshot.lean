import HuntDraw.Store.Database
import HuntDraw.Text.Utf8

/-! Snapshots of the store: the rows of its tables as one JSON text, from which they are read back. -/

namespace HuntDraw

namespace RowValue

def toJson : RowValue → Json
  | .null => .null
  | .flag b => .bool b
  | .text s => .text s

def check : Check RowValue
  | .null => .valid .null
  | .bool b => .valid (.flag b)
  | v => text <$> Check.text v

end RowValue

namespace Database

def toJson (db : Database) : Json :=
  .object (Table.all.map fun t =>
    (t.name, .list ((db t).map fun row => .object (row.map fun p => (p.1, p.2.toJson)))))

def checkRows : Check (Fields (List Row)) :=
  Check.mapping Check.text (Check.sequence (Check.mapping Check.text RowValue.check))

/-- The database that a value tells of, if it tells of every table. -/
def ofJson? (v : Json) : Option Database := do
  let tables ← (checkRows v).toExcept.toOption
  if Table.all.all fun t => tables.has t.name then
    some fun t => (tables.get? t.name).getD []
  else none

end Database

namespace Store

/-- The bytes that a store is kept as. -/
def snapshot (s : Store) : Bytes := Text.utf8 s.tables.toJson.line

/-- The store that bytes keep; no bytes at all keep an empty one. -/
def ofSnapshot? (bs : Bytes) : Option Store :=
  if bs.isEmpty then some {}
  else do
    let cs ← (Text.decodeUtf8 bs).toOption
    let db ← Database.ofJson? (← (Json.read cs).toOption)
    db.store.toOption

end Store
end HuntDraw
