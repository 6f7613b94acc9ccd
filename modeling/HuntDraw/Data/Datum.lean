import HuntDraw.Csv.Cell
import HuntDraw.Data.Canonical

/-! Values as a program holds them before they are written: beside what documents know there are
members of closed sets, sequences of fixed length, and mappings whose keys are any values. A member
stands for a text, or for another value that documents know. -/

namespace HuntDraw

inductive Datum where
  | null
  | bool (b : Bool)
  | int (i : Int)
  | float (x : Binary64)
  | text (s : String)
  | member (set name word : String)
  | constant (set name : String) (value : Json)
  | list (items : List Datum)
  | tuple (items : List Datum)
  | mapping (entries : List (Datum × Datum))
  deriving Inhabited

namespace Datum

mutual

/-- The value as messages show it. -/
def shown : Datum → String
  | .null => "None"
  | .bool b => if b then "True" else "False"
  | .int i => toString i
  | .float x => x.text
  | .text s => Text.quoted s
  | .member set name word => s!"<{set}.{name}: {Text.quoted word}>"
  | .constant set name value => s!"<{set}.{name}: {value.shown}>"
  | .list items => "[" ++ ", ".intercalate (shownItems items) ++ "]"
  | .tuple items =>
    match shownItems items with
    | [one] => "(" ++ one ++ ",)"
    | more => "(" ++ ", ".intercalate more ++ ")"
  | .mapping entries => "\x7b" ++ ", ".intercalate (shownEntries entries) ++ "\x7d"

def shownItems : List Datum → List String
  | [] => []
  | v :: rest => shown v :: shownItems rest

def shownEntries : List (Datum × Datum) → List String
  | [] => []
  | (k, v) :: rest => (shown k ++ ": " ++ shown v) :: shownEntries rest

end

/-- The value as a text of its own: texts and members that are texts stand for themselves, other members for their
names. -/
def asText : Datum → String
  | .text s => s
  | .member _ _ s => s
  | .constant set name _ => s!"{set}.{name}"
  | v => v.shown

/-- The whole number that a value counts as when it is compared. -/
def whole? : Datum → Option Int
  | .bool b => some (if b then 1 else 0)
  | .int i => some i
  | .float x =>
    match x.isInteger, x.truncate with
    | true, .ok i => some i
    | _, _ => none
  | _ => none

def word? : Datum → Option String
  | .text s => some s
  | .member _ _ s => some s
  | _ => none

mutual

/-- Whether two values are one key of a mapping: numbers count by value, members by their text or their name. -/
def sameKey : Datum → Datum → Bool
  | .null, .null => true
  | .constant set name _, .constant set' name' _ => set = set' && name = name'
  | .tuple xs, .tuple ys => sameKeys xs ys
  | .float x, .float y => x.same y
  | a, b =>
    match a.whole?, b.whole? with
    | some i, some j => i = j
    | _, _ =>
      match a.word?, b.word? with
      | some s, some t => s = t
      | _, _ => false

def sameKeys : List Datum → List Datum → Bool
  | [], [] => true
  | x :: xs, y :: ys => sameKey x y && sameKeys xs ys
  | _, _ => false

end

/-- Sets a key: the key that came first stays, with the value that came last. -/
def putEntry : List (Datum × Datum) → Datum → Datum → List (Datum × Datum)
  | [], k, v => [(k, v)]
  | (k, v) :: rest, key, value =>
    if sameKey k key then (k, value) :: rest else (k, v) :: putEntry rest key value

/-- The mapping that results from setting the pairs in turn. -/
def ofPairs (pairs : List (Datum × Datum)) : Datum :=
  .mapping (pairs.foldl (fun m p => putEntry m p.1 p.2) [])

mutual

/-- The first number in writing order that is not finite. -/
def nonFinite? : Datum → Option Binary64
  | .float x => if x.isFinite then none else some x
  | .list items => nonFiniteItem? items
  | .tuple items => nonFiniteItem? items
  | .mapping entries => nonFinitePair? entries
  | _ => none

def nonFiniteItem? : List Datum → Option Binary64
  | [] => none
  | v :: rest => (nonFinite? v).or (nonFiniteItem? rest)

def nonFinitePair? : List (Datum × Datum) → Option Binary64
  | [] => none
  | (_, v) :: rest => (nonFinite? v).or (nonFinitePair? rest)

end

mutual

/-- The value as documents hold it: members become texts, tuples lists, and keys their texts; of keys
with one text the last entry counts. -/
def toJson : Datum → Json
  | .null => .null
  | .bool b => .bool b
  | .int i => .int i
  | .float x => .float x
  | .text s => .text s
  | .member _ _ s => .text s
  | .constant _ _ value => value
  | .list items => .list (jsonItems items)
  | .tuple items => .list (jsonItems items)
  | .mapping entries => .object (Fields.ofPairs (jsonEntries entries))

def jsonItems : List Datum → List Json
  | [] => []
  | v :: rest => toJson v :: jsonItems rest

def jsonEntries : List (Datum × Datum) → List (String × Json)
  | [] => []
  | (k, v) :: rest => (k.asText, toJson v) :: jsonEntries rest

end

def canonical (v : Datum) : Except CanonicalFault (List Char) :=
  match v.nonFinite? with
  | some x => .error (.nonFinite x)
  | none => Json.serialize (Json.sortFields v.toJson)

def canonicalBytes (v : Datum) : Except CanonicalFault Bytes := Text.encodeUtf8 <$> v.canonical

/-- The text of a cell that holds the value. -/
def cellText : Datum → String
  | .null => ""
  | .bool b => Csv.Cell.render (.flag b)
  | .float x => Csv.Cell.numberText x
  | v => v.asText

end Datum
end HuntDraw
