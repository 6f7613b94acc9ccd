import HuntDraw.Graph.Compile
import HuntDraw.Text.PathName

/-! Settings: where records and blobs are kept, how long a build may take, how draws run, what is
logged, and where each type of task is executed. -/

namespace HuntDraw

structure DatabaseSettings where
  url : String := "sqlite:///./drawflow.db"
  echo : Bool := false
  deriving DecidableEq, Repr

structure BlobSettings where
  base : PathName := ⟨"", ["blobs"]⟩
  bucket : String := "drawflow"
  deriving DecidableEq, Repr

/-- Readiness is asked for at intervals of `poll` seconds, for `timeout` seconds. -/
structure BuildSettings where
  poll : Binary64 := Binary64.ofNat 1
  timeout : Binary64 := Binary64.ofNat 300
  deriving DecidableEq

structure DrawSettings where
  workers : Int := 1
  deriving DecidableEq, Repr

structure LogSettings where
  level : String := "INFO"
  json : Bool := false
  deriving DecidableEq, Repr

/-- Every type of task is executed locally unless the settings say where. -/
def Resources.local : Resources := Worded.all.map fun t => (t, "local:" ++ TaskType.text t)

structure Settings where
  database : DatabaseSettings := {}
  blobs : BlobSettings := {}
  build : BuildSettings := {}
  draw : DrawSettings := {}
  logging : LogSettings := {}
  resources : Resources := .local
  deriving DecidableEq

def Check.path : Check PathName
  | .text s => .valid (PathName.ofText s)
  | _ => Checked.complain .notPath

open Check

namespace DatabaseSettings

def check : Check DatabaseSettings := fun v =>
  (record "DatabaseSettings" v).andThen fun fs =>
    DatabaseSettings.mk <$> optional fs "url" ({} : DatabaseSettings).url text
      <*> optional fs "echo" false flag

def toJson (s : DatabaseSettings) : Json := .object [("url", .text s.url), ("echo", .bool s.echo)]

end DatabaseSettings

namespace BlobSettings

def check : Check BlobSettings := fun v =>
  (record "BlobStoreSettings" v).andThen fun fs =>
    BlobSettings.mk <$> optional fs "base_path" ({} : BlobSettings).base path
      <*> optional fs "bucket" ({} : BlobSettings).bucket filledText

def toJson (s : BlobSettings) : Json :=
  .object [("base_path", .text s.base.text), ("bucket", .text s.bucket)]

end BlobSettings

namespace BuildSettings

def check : Check BuildSettings := fun v =>
  (record "BuildSettings" v).andThen fun fs =>
    BuildSettings.mk <$> optional fs "poll_interval_seconds" ({} : BuildSettings).poll (numberAbove 0)
      <*> optional fs "ready_timeout_seconds" ({} : BuildSettings).timeout (numberAbove 0)

def toJson (s : BuildSettings) : Json :=
  .object [("poll_interval_seconds", .float s.poll), ("ready_timeout_seconds", .float s.timeout)]

end BuildSettings

namespace DrawSettings

def check : Check DrawSettings := fun v =>
  (record "DrawSettings" v).andThen fun fs =>
    DrawSettings.mk <$> optional fs "bucket_workers" 1 (wholeFrom 1)

def toJson (s : DrawSettings) : Json := .object [("bucket_workers", .int s.workers)]

end DrawSettings

namespace LogSettings

def levels : List String := ["DEBUG", "INFO", "WARNING", "ERROR"]

def check : Check LogSettings := fun v =>
  (record "LoggingSettings" v).andThen fun fs =>
    LogSettings.mk <$> optional fs "level" ({} : LogSettings).level (oneOf levels)
      <*> optional fs "json_output" false flag

def toJson (s : LogSettings) : Json := .object [("level", .text s.level), ("json_output", .bool s.json)]

end LogSettings

namespace Resources

/-- The types without a reference, in the order of their names. -/
def blank (r : Resources) : List String :=
  Text.sorted ((r.filter fun p => (Text.strip p.2).isEmpty).map fun p => p.1.text)

def check : Check Resources := fun v =>
  (mapping (member TaskType) text v).andThen fun r =>
    if (blank r).isEmpty then .valid r
    else Checked.complain (.refused ("resource references must be non-empty: " ++ ", ".intercalate (blank r)))

def toJson (r : Resources) : Json := .object (r.map fun p => (p.1.text, .text p.2))

end Resources

namespace Settings

def check : Check Settings := fun v =>
  (record "DrawflowSettings" v).andThen fun fs =>
    Settings.mk <$> optional fs "database" {} DatabaseSettings.check
      <*> optional fs "blob_store" {} BlobSettings.check
      <*> optional fs "build" {} BuildSettings.check
      <*> optional fs "draw" {} DrawSettings.check
      <*> optional fs "logging" {} LogSettings.check
      <*> optional fs "resources" .local Resources.check

def toJson (s : Settings) : Json :=
  .object [
    ("database", s.database.toJson),
    ("blob_store", s.blobs.toJson),
    ("build", s.build.toJson),
    ("draw", s.draw.toJson),
    ("logging", s.logging.toJson),
    ("resources", s.resources.toJson)]

end Settings
end HuntDraw
