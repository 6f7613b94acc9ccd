import HuntDraw.Number.Decimal
import HuntDraw.Text.Quoted

/-! Structured values: what documents, settings, task parameters and execution states are made of.
Objects keep their fields in the order in which they were written. -/

namespace HuntDraw

inductive Json where
  | null
  | bool (b : Bool)
  | int (i : Int)
  | float (x : Binary64)
  | text (s : String)
  | list (items : List Json)
  | object (fields : List (String × Json))
  deriving Inhabited

/-- A mapping from texts in the order of first insertion. -/
abbrev Fields (α : Type) := List (String × α)

namespace Fields

variable {α : Type}

def get? (m : Fields α) (key : String) : Option α := (m.find? (·.1 = key)).map (·.2)

def has (m : Fields α) (key : String) : Bool := m.any (·.1 = key)

def keys (m : Fields α) : List String := m.map (·.1)

/-- Sets a key: in its old place when it is there, at the end otherwise. -/
def put : Fields α → String → α → Fields α
  | [], key, value => [(key, value)]
  | (k, v) :: rest, key, value => if k = key then (k, value) :: rest else (k, v) :: put rest key value

/-- The mapping that results from setting the pairs in turn. -/
def ofPairs (pairs : List (String × α)) : Fields α := pairs.foldl (fun m p => put m p.1 p.2) []

end Fields

namespace Json

def ofOption {α : Type} (f : α → Json) : Option α → Json
  | none => .null
  | some a => f a

def ofText? (s : Option String) : Json := ofOption .text s

def ofInt? (i : Option Int) : Json := ofOption .int i

def ofTexts (xs : List String) : Json := .list (xs.map .text)

def nat (n : Nat) : Json := .int n

def get? (v : Json) (key : String) : Option Json :=
  match v with
  | .object fields => Fields.get? fields key
  | _ => none

/-- What kind of value it is, as messages name it. -/
def kind : Json → String
  | .null => "NoneType"
  | .bool _ => "bool"
  | .int _ => "int"
  | .float _ => "float"
  | .text _ => "str"
  | .list _ => "list"
  | .object _ => "dict"

private def boolText (b : Bool) : String := if b then "True" else "False"

mutual

/-- The value as messages show it, texts in quotes. -/
def shown : Json → String
  | .null => "None"
  | .bool b => boolText b
  | .int i => toString i
  | .float x => x.text
  | .text s => Text.quoted s
  | .list items => "[" ++ ", ".intercalate (shownItems items) ++ "]"
  | .object fields => "\x7b" ++ ", ".intercalate (shownFields fields) ++ "\x7d"

def shownItems : List Json → List String
  | [] => []
  | v :: rest => shown v :: shownItems rest

def shownFields : List (String × Json) → List String
  | [] => []
  | (k, v) :: rest => (Text.quoted k ++ ": " ++ shown v) :: shownFields rest

end

/-- The value as a text of its own: a text stands for itself. -/
def asText : Json → String
  | .text s => s
  | v => shown v

end Json
end HuntDraw
