import HuntDraw.Blob.Files
import HuntDraw.Data.JsonRead
import HuntDraw.Failure.Basic
import HuntDraw.Settings.Basic
import HuntDraw.Settings.Variables
import HuntDraw.Text.Case
import HuntDraw.Text.Stream
import HuntDraw.Yaml.Value

/-! Loading settings: from a file, and from variables, which win. Keys may be written in letters of either
case. References to variables in texts are replaced once file and variables are put together. -/

namespace HuntDraw

/-- The formats that settings are written in, known by the ending of the file's name. -/
inductive SettingsFormat where
  | yaml
  | json
  deriving DecidableEq, Repr

def SettingsFormat.ofName? (name : String) : Option SettingsFormat :=
  if Text.endsWith name ".yaml" ∨ Text.endsWith name ".yml" then some .yaml
  else if Text.endsWith name ".json" then some .json
  else none

namespace Json

mutual

/-- The value with the keys of all its mappings in lower case; of two keys that become one the later
value stays. -/
def lowerKeys : Json → Json
  | .list items => .list (lowerItems items)
  | .object fields => .object (Fields.ofPairs (lowerFields fields))
  | .null => .null
  | .bool b => .bool b
  | .int i => .int i
  | .float x => .float x
  | .text s => .text s

def lowerItems : List Json → List Json
  | [] => []
  | v :: rest => lowerKeys v :: lowerItems rest

def lowerFields : List (String × Json) → List (String × Json)
  | [] => []
  | (k, v) :: rest => (Text.lower k, lowerKeys v) :: lowerFields rest

end

mutual

/-- Puts a value over another. Of two mappings all fields stay, the newer ones first. -/
def layOver (old : Json) : Json → Json
  | .object fields =>
    match old with
    | .object below => .object (layFields below fields ++ below.filter fun p => !Fields.has fields p.1)
    | _ => .object fields
  | v => v

def layFields (below : Fields Json) : List (String × Json) → List (String × Json)
  | [] => []
  | (k, v) :: rest => (k, layOver ((below.get? k).getD .null) v) :: layFields below rest

end

/-- A mapping with a field set anew. -/
def withField (v : Json) (key : String) (w : Json) : Json :=
  match v with
  | .object fields => .object (Fields.put fields key w)
  | v => v

/-- A value at a path of keys. -/
def nested (v : Json) : List String → Json
  | [] => v
  | k :: path => .object [(k, nested v path)]

end Json

namespace Settings

/-- What the names of the variables for settings start with. -/
def variableMark : String := "DRAWFLOW_"

/-- The keys that a name goes through: underscores in pairs, and points, part them. -/
def pathOf (name : List Char) : List String := (go [] name).map fun cs => Text.lower (String.ofList cs)
where
  go (piece : List Char) : List Char → List (List Char)
    | [] => [piece.reverse]
    | '_' :: '_' :: rest => piece.reverse :: go [] rest
    | '.' :: rest => piece.reverse :: go [] rest
    | c :: rest => go (c :: piece) rest

/-- Sets a value at the path of a name. -/
def set (tree : Json) (name : List Char) (v : Json) : Json := tree.layOver (v.nested (pathOf name))

/-- The value of a variable: one that can be read as such, else its text. -/
def variableValue (s : String) : Json := (Toml.read? s).getD (.text s)

def withVariable (tree : Json) (name value : String) : Json :=
  if Text.startsWith name variableMark then
    set tree (name.toList.drop variableMark.length) (variableValue value).lowerKeys
  else tree

/-- A mapping where another value was written. -/
def noMapping (v : Json) : Failure := .mistyped "AttributeError" s!"'{v.kind}' object has no attribute 'items'"

/-- Whether there is nothing in a value. -/
def isBlank : Json → Bool
  | .null | .bool false | .int 0 | .text "" | .list [] | .object [] => true
  | _ => false

/-- The settings of a file. -/
def ofFile (v : Json) : Except Failure Json :=
  match v with
  | .object fields => .ok (fields.foldl (fun tree p => set tree p.1.toList p.2.lowerKeys) (.object []))
  | v => if isBlank v then .ok (.object []) else .error (noMapping v)

def parse (format : SettingsFormat) (cs : List Char) : Except Failure Json :=
  match format with
  | .yaml => match Yaml.read? .setting cs with
    | some v => .ok v
    | none => .error (.mistyped "YAMLError" "")
  | .json => (Json.read cs).mapError fun f => .notJson (f.message cs)

/-- Types of tasks have their proper names again. -/
def properResource (key : String) : String :=
  match (Worded.texts TaskType).find? fun t => Text.lower t = Text.lower key with
  | some t => t
  | none => key

def properResources : Json → Except Failure Json
  | .object fields => .ok (.object (Fields.ofPairs (fields.map fun p => (properResource p.1, p.2))))
  | v => .error (noMapping v)

/-- The settings that a file and variables give. -/
def assemble (file : Json) (env : Environment) : Except Failure Settings := do
  let tree := env.foldl (fun tree p => withVariable tree p.1 p.2) (← ofFile file)
  let tree := env.expand tree
  let tree ← match tree.get? "resources" with
    | some r => tree.withField "resources" <$> properResources r
    | none => .ok tree
  (check tree).toExcept.mapError .invalid

/-- The value of a file with settings. A file in no known format says nothing, and neither does a
directory; one that cannot be reached is missing. -/
def readFile (files : Files) (path : PathName) : Except Failure Json :=
  match files.read path with
  | .ok content =>
    match SettingsFormat.ofName? path.name with
    | none => .ok (.object [])
    | some format => do parse format (Text.unifyLines (← content.text.mapError .notText))
  | .error .isDirectory => .ok (.object [])
  | .error _ => .error (.blob (.file .missing))

/-- Loads settings from a file, if one is given, and from variables. -/
def load (files : Files) (path : Option PathName) (env : Environment) : Except Failure Settings := do
  let v ← match path with
    | none => .ok (Json.object [])
    | some path => readFile files path
  assemble v env

end Settings
end HuntDraw
