import HuntDraw.Blob.Store
import HuntDraw.Engine.Clock
import HuntDraw.Failure.Basic
import HuntDraw.Log.Event

/-! The world that workflows run in: records and blobs, the clock, the resources and executions of the
engine, the ids given out, and what was logged. An action may fail, and what it did until then stays. -/

namespace HuntDraw

/-- A chain that can be executed, from the time on at which it is active. -/
structure Resource (T : Type) where
  name : String
  chain : TaskChain
  activeAt : T

/-- The outcome of one execution: the last state, or the task that failed and why. -/
structure Execution where
  handle : String
  resource : String
  status : ExecutionStatus
  output : Option Json := none
  error : Option String := none
  failedTask : Option String := none

def Execution.toJson (e : Execution) : Json :=
  .object [
    ("handle", .text e.handle),
    ("resource_handle", .text e.resource),
    ("status", .text e.status.text),
    ("output", Json.ofOption id e.output),
    ("error", Json.ofText? e.error),
    ("failed_task", Json.ofText? e.failedTask)]

structure World (T : Type) where
  store : Store := {}
  blobs : BlobStore
  clock : Clock T
  resources : Fields (Resource T) := []
  executions : Fields Execution := []
  /-- How many ids were given out. -/
  ids : Nat := 0
  journal : List LogEvent := []

abbrev Action (T : Type) := ExceptT Failure (StateM (World T))

namespace Action

variable {T α : Type}

def lift {ε : Type} (wrap : ε → Failure) (r : Except ε α) : Action T α :=
  match r with
  | .ok a => pure a
  | .error e => throw (wrap e)

def store (r : Except StoreFault α) : Action T α := lift .store r

def blob (r : Except BlobFault α) : Action T α := lift .blob r

/-- Reads the records. -/
def ask (f : Store → Except StoreFault α) : Action T α := do store (f (← get).store)

/-- Changes the records, unless the change is refused. -/
def alter (f : Store → Except StoreFault Store) : Action T Unit := do
  let s ← ask f
  modify fun w => { w with store := s }

/-- Reads the blobs. -/
def look (f : BlobStore → Except BlobFault α) : Action T α := do blob (f (← get).blobs)

/-- Writes a blob and gives its address. -/
def write (key : String) (content : Content) (type : String) : Action T String := do
  let (blobs, uri) ← look fun b => b.write key content type
  modify fun w => { w with blobs }
  return uri

/-- The text of the n-th id: 32 hexadecimal digits. -/
def idText (n : Nat) : String :=
  let ds := Nat.toDigits 16 n
  String.ofList (List.replicate (32 - ds.length) '0' ++ ds)

/-- An id that was not given out before. -/
def newId : Action T String := do
  modify fun w => { w with ids := w.ids + 1 }
  return idText (← get).ids

def log (level : LogLevel) (name : String) (fields : Fields Json) : Action T Unit :=
  modify fun w => { w with journal := w.journal ++ [⟨level, name, fields⟩] }

/-- Logs events with the fields of their surroundings. -/
def logAll (bound : Fields Json) (events : List LogEvent) : Action T Unit :=
  modify fun w => { w with journal := w.journal ++ events.map (LogEvent.within bound) }

/-- Sleeps through a span by the clock. -/
def sleep [Timeline T] (span : T) : Action T Unit := do
  modify fun w => { w with clock := (w.clock.note span) }
  match (← get).clock.advance span with
  | some clock => modify fun w => { w with clock }
  | none => throw (.negativeAdvance (Timeline.text span))

/-- The outcome of an action as a value. -/
def outcome (a : Action T α) : Action T (Except Failure α) := ExceptT.mk (Except.ok <$> a.run)

/-- The outcome of an action in a world, and the world after it. -/
def runIn (w : World T) (a : Action T α) : Except Failure α × World T := a.run.run w

end Action
end HuntDraw
