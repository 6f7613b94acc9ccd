import HuntDraw.Data.Json
import HuntDraw.Text.Order

/-! References into the state of an execution: paths that start at the state itself. -/

namespace HuntDraw

inductive ReferenceFault where
  /-- The path does not start at the state. -/
  | malformed (path : String)
  | absent (path : String)
  /-- A value of another kind stands where a path should. -/
  | notAPath (kind : String)
  deriving DecidableEq, Repr

def ReferenceFault.message : ReferenceFault → String
  | .malformed path => s!"Reference path must start with '$.': {Text.quoted path}"
  | .absent path => s!"Reference path {Text.quoted path} not found in execution state"
  | .notAPath kind => s!"'{kind}' object has no attribute 'startswith'"

def ReferenceFault.kind : ReferenceFault → String
  | .notAPath _ => "AttributeError"
  | _ => "KeyError"

namespace Reference

/-- The mark that ends the key of a reference. -/
def mark : String := ".$"

/-- Goes down one field after the other. -/
def descend : Json → List String → Option Json
  | v, [] => some v
  | v, step :: rest => (v.get? step).bind fun inner => descend inner rest

/-- The value at a path in a state. -/
def resolve (state : Json) (path : String) : Except ReferenceFault Json :=
  if path = "$" then .ok state
  else if !Text.startsWith path "$." then .error (.malformed path)
  else
    match descend state (Text.split '.' (path.drop 2).toString) with
    | some v => .ok v
    | none => .error (.absent path)

/-- The value that a reference stands for. -/
def lookUp (state : Json) : Json → Except ReferenceFault Json
  | .text path => resolve state path
  | v => .error (.notAPath v.kind)

def isMarked (key : String) : Bool := Text.endsWith key mark

/-- The key without the mark. -/
def unmarked (key : String) : String := (key.dropEnd mark.length).toString

mutual

/-- The parameters with every reference replaced, set in turn behind those that are done. Lists are left
as they are. -/
def resolveFields (state : Json) (done : Fields Json) :
    List (String × Json) → Except ReferenceFault (Fields Json)
  | [] => .ok done
  | (key, v) :: rest =>
    if isMarked key then
      match lookUp state v with
      | .error f => .error f
      | .ok found => resolveFields state (done.put (unmarked key) found) rest
    else
      match resolveValue state v with
      | .error f => .error f
      | .ok w => resolveFields state (done.put key w) rest

def resolveValue (state : Json) : Json → Except ReferenceFault Json
  | .object fields => Json.object <$> resolveFields state [] fields
  | v => .ok v

end

/-- What a task is started with. -/
def parameters (state : Json) (fields : Fields Json) : Except ReferenceFault (Fields Json) :=
  resolveFields state [] fields

end Reference
end HuntDraw
