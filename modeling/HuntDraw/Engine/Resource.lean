import HuntDraw.Engine.World

/-! Resources of the engine: chains that were found to be executable, each under a handle of its own. -/

namespace HuntDraw

variable {T : Type} [Timeline T]

/-- Takes the parameters of a task and gives the next state. -/
abbrev Handler (T : Type) := Json → Action T Json

/-- What an engine executes tasks with, and how long a resource takes to become active. -/
structure Engine (T : Type) where
  handlers : Fields (Handler T)
  delay : T

namespace TaskChain

/-- What is wrong with one task of a chain. -/
def taskProblems (c : TaskChain) (resources : List String) (id : String) (t : Task) : List String :=
  (if resources.contains t.resource then []
    else [s!"Task {id} references unknown resource {t.resource}"])
  ++ (if t.terminal ∧ t.next.isSome then [s!"Terminal task {id} must not have a next task"] else [])
  ++ (if !t.terminal ∧ t.next.isNone then [s!"Task {id} has no next task and is not terminal"] else [])
  ++ match t.next with
    | some next =>
      if c.tasks.has next then [] else [s!"Task {id} continues to undefined task {next}"]
    | none => []

/-- What is wrong with the parts of a chain. -/
def partProblems (c : TaskChain) (resources : List String) : List String :=
  (if c.tasks.has c.start then [] else [s!"Start task {c.start} is not defined"])
  ++ c.tasks.flatMap fun p => c.taskProblems resources p.1 p.2

/-- What is wrong with a chain whose parts are sound: it has to end, and to come to every task. -/
def orderProblems (c : TaskChain) : List String :=
  match c.ordered.getLast?.bind c.tasks.get? with
  | none => []
  | some last =>
    if !last.terminal then ["Task chain loops back to " ++ last.next.getD "None"]
    else if c.ordered.length = c.tasks.length then []
    else
      let missed := c.tasks.keys.filter (· ∉ c.ordered)
      ["Tasks not reachable from the start: " ++ ", ".intercalate (Text.sorted missed)]

def problems (c : TaskChain) (resources : List String) : List String :=
  let parts := c.partProblems resources
  if parts.isEmpty then c.orderProblems else parts

end TaskChain

namespace Engine

/-- A fault in the shape of a definition, as a problem of it. -/
def shapeProblem (f : Fault) : String :=
  (if f.place.isEmpty then "definition" else f.place) ++ ": " ++ f.complaint.message

/-- Everything that keeps a definition from being executed. -/
def problems (e : Engine T) (definition : Json) : List String :=
  match TaskChain.check definition with
  | .faulty faults => faults.map shapeProblem
  | .valid c => c.problems e.handlers.keys

/-- The chain of a definition that can be executed. -/
def accept (e : Engine T) (definition : Json) : Except Failure TaskChain :=
  match TaskChain.check definition with
  | .faulty faults => .error (.rejected (faults.map shapeProblem))
  | .valid c =>
    let found := c.problems e.handlers.keys
    if found.isEmpty then .ok c else .error (.rejected found)

def handleStart : String := "local://resources/"

def handleOf (name : String) : String := handleStart ++ name

def put (e : Engine T) (handle name : String) (chain : TaskChain) : Action T Unit :=
  modify fun w =>
    { w with resources := w.resources.put handle ⟨name, chain, Timeline.add w.clock.now e.delay⟩ }

def logPut (event handle : String) (chain : TaskChain) : Action T Unit :=
  Action.log .info event [("resource_handle", .text handle), ("tasks", .nat chain.tasks.length)]

/-- Makes a resource of a name that no other one has. -/
def create (e : Engine T) (name : String) (definition : Json) : Action T String := do
  let chain ← Action.lift id (e.accept definition)
  let handle := handleOf name
  if (← get).resources.has handle then throw (.engine (.resourceExists name))
  e.put handle name chain
  logPut "resource_created" handle chain
  return handle

/-- The name that a handle is made of. -/
def nameOf? (handle : String) : Option String :=
  if Text.startsWith handle handleStart ∧ handle ≠ handleStart then
    some (handle.drop handleStart.length).toString
  else none

/-- Replaces the chain of a resource. A handle of this engine that it does not know is taken up again. -/
def update (e : Engine T) (handle : String) (definition : Json) : Action T Unit := do
  let chain ← Action.lift id (e.accept definition)
  match nameOf? handle with
  | none => throw (.engine (.unknownResource handle))
  | some name =>
    e.put handle name chain
    logPut "resource_updated" handle chain

def resource (handle : String) : Action T (Resource T) := do
  match (← get).resources.get? handle with
  | some r => return r
  | none => throw (.engine (.unknownResource handle))

/-- A resource is active from its time on. -/
def describe (handle : String) : Action T ResourceStatus := do
  let r ← resource handle
  return if Timeline.le r.activeAt (← get).clock.now then .active else .creating

def definitionOf (handle : String) : Action T TaskChain := do return (← resource handle).chain

end Engine
end HuntDraw
