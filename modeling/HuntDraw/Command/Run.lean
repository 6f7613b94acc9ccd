import HuntDraw.Command.Draw
import HuntDraw.Command.Stored
import HuntDraw.Settings.VariableFile

/-! Running a command line: the variables, the settings and the command that it names. -/

namespace HuntDraw.Command

open Session

/-- The variables that are set, and those of a file where one is given. -/
def extended (env : Environment) (source : VariableSource) : Session Environment := do
  match source.alone, source.file with
  | _, none => return env
  | true, some _ => do
    warn "Warning: --env-file ignored because --no-dotenv is set."
    return env
  | false, some path =>
    let files ← files
    if !files.present path then quit s!"Error: .env file not found: {path.text}"
    match files.read path with
    | .error _ => return env
    | .ok content =>
      let text ← lift (content.text.mapError .notText)
      return VariableFile.extend env (Text.unifyLines text)

def version : String := "drawflow version 0.3.0"

def usage : String := "Usage: drawflow [OPTIONS] COMMAND [ARGS]..."

/-- Says how commands are written and ends. -/
def misused : Session Unit := do
  warn usage
  exit 2

def perform (i : Invocation) (env : Environment) : Session Unit := do
  match i.command with
  | .help => say usage
  | .draw order => order.perform (← settings i.settings env)
  | .load path => do loadFile (← settings i.settings env) path
  | .compile id => do tellDefinition (← settings i.settings env) id
  | .build id isTriggered => do buildInstance (← settings i.settings env) id isTriggered

def session (env : Environment) (args : List String) : Session Unit := do
  match Request.ofArguments? args with
  | none => misused
  | some .help => say usage
  | some .version => say version
  | some (.command source name args) =>
    let env ← extended env source
    match Invocation.ofArguments? (← files) name args with
    | none => misused
    | some i => perform i env

/-- Runs a command line at a workplace. -/
def run (env : Environment) (args : List String) (place : Workplace) : Report × Workplace :=
  (session env args).report place

end HuntDraw.Command
