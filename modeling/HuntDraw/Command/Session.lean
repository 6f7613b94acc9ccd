import HuntDraw.Build.Stages
import HuntDraw.Blob.Files
import HuntDraw.Node.Handler
import HuntDraw.Settings.Load
import HuntDraw.Store.Snapshot

/-! Sessions of commands: they work on files, write to the two streams of a console, and end early when
there is nothing more to do. What was done until then stays. -/

namespace HuntDraw

/-- Where commands work: files, the store kept in one of them, and how many ids were given out. -/
structure Workplace where
  files : Files := {}
  ids : Nat := 0

/-- How a session ends before its end. -/
inductive Ending where
  | exit (code : Nat)
  | failed (failure : Failure)

structure Console where
  place : Workplace
  out : String := ""
  err : String := ""

abbrev Session := ExceptT Ending (StateM Console)

/-- What a command leaves on its console, its exit code, and the failure that it did not expect. -/
structure Report where
  code : Nat := 0
  out : String := ""
  err : String := ""
  failure : Option Failure := none

namespace Session

variable {α : Type}

/-- Writes a line. -/
def say (s : String) : Session Unit := modify fun c => { c with out := c.out ++ s ++ "\n" }

/-- Writes a line to the stream for errors. -/
def warn (s : String) : Session Unit := modify fun c => { c with err := c.err ++ s ++ "\n" }

def exit (code : Nat) : Session α := throw (.exit code)

def quit (s : String) : Session α := do
  warn s
  exit 1

def lift (r : Except Failure α) : Session α :=
  match r with
  | .ok a => pure a
  | .error f => throw (.failed f)

def files : Session Files := do return (← get).place.files

def setFiles (files : Files) : Session Unit :=
  modify fun c => { c with place := { c.place with files } }

/-- Ends with a heading and all faults under it. -/
def refuse (heading : String) (faults : List Fault) : Session α := do
  warn heading
  faults.forM fun f => warn s!"  - {f.place}: {f.complaint.message}"
  exit 1

/-- The checked value, or the end. -/
def checked (heading : String) (check : Check α) (v : Json) : Session α :=
  match check v with
  | .valid a => pure a
  | .faulty faults => refuse heading faults

/-- The settings that a file and variables give. -/
def settings (path : Option PathName) (env : Environment) : Session Settings := do
  match Settings.load (← files) path env with
  | .ok s => return s
  | .error (.blob (.file _)) => quit ("Error: Settings file not found: " ++ (path.map PathName.text).getD "None")
  | .error (.invalid faults) => refuse "Configuration errors:" faults
  | .error f => throw (.failed f)

/-- The value that a file holds. -/
def value (path : PathName) : Session Json := do
  let content ← lift (((← files).read path).mapError fun f => .blob (.file f))
  let text ← lift (content.text.mapError .notText)
  match Yaml.read? .document (Text.unifyLines text) with
  | some v => return v
  | none => quit s!"Syntax error in {path.text}: no value can be read"

/-- Where the address of a store points: nowhere for one that is in memory only. -/
def storePath? (url : String) : Except StoreFault (Option PathName) :=
  let mark := "sqlite://"
  if !Text.startsWith url mark then .error .unreachable
  else
    match (url.toList.drop mark.length).takeWhile (· ≠ '?') with
    | [] | ['/'] => .ok none
    | '/' :: path => if path = ":memory:".toList then .ok none else .ok (some (PathName.ofText (String.ofList path)))
    | _ => .error .unreachable

/-- The steps to the file that keeps a store, and the store. -/
def keptStore (files : Files) (path : PathName) : Except StoreFault (List String × Store) :=
  match files.locate path with
  | .error _ => .error .unreachable
  | .ok steps =>
    if files.isDirectory steps then .error .unreachable
    else
      match files.files.get? (Files.joined steps) with
      | none => .ok (steps, {})
      | some content =>
        match content.bytes?.bind Store.ofSnapshot? with
        | some store => .ok (steps, store)
        | none => .error .notStore

/-- What the records, blobs and handlers that settings name are. -/
structure Services where
  builder : Builder Binary64
  world : World Binary64
  /-- The file that keeps the store, unless it is in memory only. -/
  kept : Option (List String)
  /-- The directory of the blobs. -/
  base : List String

/-- The files with everything put back where it is kept. -/
def Services.save (s : Services) (world : World Binary64) (files : Files) : Files :=
  let files := files.writeAll s.base (world.blobs.blobs.map fun p => (p.1, p.2.content))
  match s.kept with
  | none => files
  | some steps => files.put steps (.bytes world.store.snapshot)

def services (s : Settings) : Session Services := do
  let place := (← get).place
  let (kept, store) ← lift <| Except.mapError Failure.store do
    match ← storePath? s.database.url with
    | none => return (none, {})
    | some path =>
      let (steps, store) ← keptStore place.files path
      return (some steps, store)
  match kept with
  | none => pure ()
  | some steps => setFiles (place.files.put steps (.bytes store.snapshot))
  let (files, base) ← lift (((← files).makeDirectory s.blobs.base).mapError fun f => .blob (.file f))
  setFiles files
  let handlers ← lift (s.resources.handlers s.draw)
  let blobs : Fields Blob := (files.under base).map fun p => (p.1, ⟨p.2, ""⟩)
  let world : World Binary64 :=
    { store, blobs := ⟨s.blobs.bucket, .files, blobs⟩, clock := { now := .zero false }, ids := place.ids }
  return { builder := ⟨s, handlers, .zero false⟩, world, kept, base }

/-- The outcome of an action with the services that settings name. -/
def withServices (s : Settings) (body : Builder Binary64 → Action Binary64 α) : Session (Except Failure α) := do
  let services ← services s
  let (outcome, world) := (body services.builder).runIn services.world
  modify fun c =>
    { c with place := { files := services.save world c.place.files, ids := world.ids } }
  return outcome

/-- The report of a session at a workplace, and the workplace after it. -/
def report (session : Session Unit) (place : Workplace) : Report × Workplace :=
  let (ended, c) := session.run.run { place }
  let told : Report := { out := c.out, err := c.err }
  (match ended with
    | .ok () => told
    | .error (.exit code) => { told with code }
    | .error (.failed f) => { told with code := 1, failure := some f }, c.place)

end Session
end HuntDraw
