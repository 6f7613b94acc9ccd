import HuntDraw.Data.Json
import HuntDraw.Text.Order
import HuntDraw.Text.Utf8

/-! Canonical JSON text: fields sorted by the 16-bit units of their keys, the shortest numbers, no
spaces. Equal values have one canonical text. -/

namespace HuntDraw

inductive CanonicalFault where
  | nonFinite (x : Binary64)
  | unsafeInteger (i : Int)
  deriving DecidableEq

def CanonicalFault.message : CanonicalFault → String
  | .nonFinite x => s!"Cannot canonicalize non-finite float: {x.text}"
  | .unsafeInteger i => s!"{i} exceeds safe integer domain for JSON floats"

namespace Json

private def hexDigit (n : Nat) : Char := Nat.digitChar (n % 16)

/-- One character of a canonical text value. -/
def canonicalChar (c : Char) : List Char :=
  if c = '"' then ['\\', '"']
  else if c = '\\' then ['\\', '\\']
  else if c.toNat = 8 then ['\\', 'b']
  else if c.toNat = 9 then ['\\', 't']
  else if c.toNat = 10 then ['\\', 'n']
  else if c.toNat = 12 then ['\\', 'f']
  else if c.toNat = 13 then ['\\', 'r']
  else if c.toNat < 32 then ['\\', 'u', '0', '0', hexDigit (c.toNat / 16), hexDigit c.toNat]
  else [c]

def canonicalText (s : String) : List Char := '"' :: (s.toList.flatMap canonicalChar ++ ['"'])

/-- The largest whole number that a canonical document may hold. -/
def safeLimit : Nat := 9007199254740991

def isSafe (i : Int) : Bool := i.natAbs ≤ safeLimit

mutual

/-- The first number in writing order that is not finite. -/
def nonFinite? : Json → Option Binary64
  | .float x => if x.isFinite then none else some x
  | .list items => nonFiniteItem? items
  | .object fields => nonFiniteField? fields
  | _ => none

def nonFiniteItem? : List Json → Option Binary64
  | [] => none
  | v :: rest => (nonFinite? v).or (nonFiniteItem? rest)

def nonFiniteField? : List (String × Json) → Option Binary64
  | [] => none
  | (_, v) :: rest => (nonFinite? v).or (nonFiniteField? rest)

end

mutual

/-- The value with the fields of every object sorted. -/
def sortFields : Json → Json
  | .list items => .list (sortItems items)
  | .object fields =>
    .object ((sortEach fields).mergeSort fun a b => (Text.order16 a.1.toList b.1.toList).isLE)
  | v => v

def sortItems : List Json → List Json
  | [] => []
  | v :: rest => sortFields v :: sortItems rest

def sortEach : List (String × Json) → List (String × Json)
  | [] => []
  | (k, v) :: rest => (k, sortFields v) :: sortEach rest

end

mutual

/-- Text of a value in the order in which it stands. -/
def serialize : Json → Except CanonicalFault (List Char)
  | .null => .ok "null".toList
  | .bool b => .ok (if b then "true".toList else "false".toList)
  | .int i => if isSafe i then .ok (toString i).toList else .error (.unsafeInteger i)
  | .float x => if x.isFinite then .ok (FloatNotation.canonical.render x) else .error (.nonFinite x)
  | .text s => .ok (canonicalText s)
  | .list [] => .ok ['[', ']']
  | .list (v :: rest) => do
    let first ← serialize v
    let more ← serializeItems rest
    .ok ('[' :: (first ++ more ++ [']']))
  | .object [] => .ok ['\x7b', '\x7d']
  | .object ((k, v) :: rest) => do
    let first ← serialize v
    let more ← serializeFields rest
    .ok ('\x7b' :: (canonicalText k ++ ':' :: (first ++ more ++ ['\x7d'])))

def serializeItems : List Json → Except CanonicalFault (List Char)
  | [] => .ok []
  | v :: rest => do
    let first ← serialize v
    let more ← serializeItems rest
    .ok (',' :: (first ++ more))

def serializeFields : List (String × Json) → Except CanonicalFault (List Char)
  | [] => .ok []
  | (k, v) :: rest => do
    let first ← serialize v
    let more ← serializeFields rest
    .ok (',' :: (canonicalText k ++ ':' :: (first ++ more)))

end

/-- The canonical text; a number that is not finite is refused before anything else. -/
def canonical (v : Json) : Except CanonicalFault (List Char) :=
  match nonFinite? v with
  | some x => .error (.nonFinite x)
  | none => serialize (sortFields v)

def canonicalBytes (v : Json) : Except CanonicalFault Bytes := Text.encodeUtf8 <$> canonical v

end Json
end HuntDraw
