import HuntDraw.Blob.Files
import HuntDraw.Command.Arguments
import HuntDraw.Number.Numeral

/-! What a command line asks for. Options before the command are for all commands, and settings can be
named for each. Files to be read have to be there. -/

namespace HuntDraw

inductive CommandName where
  | draw
  | load
  | compile
  | build
  deriving DecidableEq, Repr

def CommandName.ofText? : String → Option CommandName
  | "draw" => some .draw
  | "load" => some .load
  | "compile" => some .compile
  | "build" => some .build
  | _ => none

/-- Where variables come from, besides those that are set: a file, unless files are left alone. -/
structure VariableSource where
  alone : Bool := false
  file : Option PathName := none
  deriving DecidableEq, Repr

/-- What the arguments up to the command ask for. -/
inductive Request where
  | help
  | version
  | command (source : VariableSource) (name : CommandName) (arguments : List String)
  deriving DecidableEq, Repr

/-- A draw over files. -/
structure DrawOrder where
  codes : PathName
  applicants : PathName
  sort : PathName
  config : PathName
  output : PathName
  workers : Option Int := none
  deriving DecidableEq, Repr

inductive Command where
  | help
  | draw (order : DrawOrder)
  | load (file : PathName)
  | compile (instanceId : String)
  | build (instanceId : String) (trigger : Bool)
  deriving DecidableEq, Repr

/-- A command and the file with its settings. -/
structure Invocation where
  command : Command
  settings : Option PathName := none
  deriving DecidableEq, Repr

def helpOption : OptionSpec := { long := "--help" }

namespace Request

def options : List OptionSpec := [
  { long := "--version", letter := some 'V' },
  { long := "--no-dotenv" },
  { long := "--env-file", takesValue := true },
  { long := "--verbose", letter := some 'v' },
  { long := "--json-logs" },
  helpOption]

/-- Help or the version, whichever is asked for first, goes before everything else. -/
def ofArguments? (args : List String) : Option Request := do
  let a ← Arguments.parse options false args
  match (a.options.map (·.1)).find? (["--help", "--version"].contains ·) with
  | some "--help" => return .help
  | some _ => return .version
  | none =>
    match a.words with
    | [] => none
    | name :: rest =>
      let name ← CommandName.ofText? name
      return .command ⟨a.has "--no-dotenv", (a.value? "--env-file").map PathName.ofText⟩ name rest

end Request

namespace Invocation

def settingsOption : OptionSpec := { long := "--settings", letter := some 's', takesValue := true }

def options : CommandName → List OptionSpec
  | .draw => [
    { long := "--hunt-codes", takesValue := true },
    { long := "--applicants", takesValue := true },
    { long := "--sort", takesValue := true },
    { long := "--config", takesValue := true },
    { long := "--output-dir", letter := some 'o', takesValue := true },
    { long := "--workers", takesValue := true },
    settingsOption, helpOption]
  | .load | .compile => [settingsOption, helpOption]
  | .build => [{ long := "--trigger", letter := some 't' }, settingsOption, helpOption]

/-- The path of a file that is there. A path that ends as a directory does is none of a file. -/
def file? (files : Files) (s : String) : Option PathName :=
  if Text.endsWith s "/" ∨ Text.endsWith s "/." then none
  else
    let p := PathName.ofText s
    match files.read p with
    | .ok _ => some p
    | .error _ => none

/-- The number of workers, if one is given; there has to be at least one. -/
def workers? (a : Arguments) : Option (Option Int) :=
  match a.value? "--workers" with
  | none => some none
  | some s => (Numeral.documentWhole? s).bind fun n => if 1 ≤ n then some (some n) else none

def drawOrder? (files : Files) (a : Arguments) : Option DrawOrder := do
  return {
    codes := ← (a.value? "--hunt-codes").bind (file? files)
    applicants := ← (a.value? "--applicants").bind (file? files)
    sort := ← (a.value? "--sort").bind (file? files)
    config := ← (a.value? "--config").bind (file? files)
    output := PathName.ofText ((a.value? "--output-dir").getD "draw-results")
    workers := ← workers? a }

def command? (files : Files) (name : CommandName) (a : Arguments) : Option Command :=
  match name, a.words with
  | .draw, [] => Command.draw <$> drawOrder? files a
  | .load, [s] => Command.load <$> file? files s
  | .compile, [id] => some (.compile id)
  | .build, [id] => some (.build id (a.has "--trigger"))
  | _, _ => none

/-- The invocation that the arguments of a command stand for. -/
def ofArguments? (files : Files) (name : CommandName) (args : List String) : Option Invocation := do
  let a ← Arguments.parse (options name) true args
  let settings := (a.value? "--settings").map PathName.ofText
  if a.has "--help" then return { command := .help, settings }
  return { command := ← command? files name a, settings }

end Invocation
end HuntDraw
