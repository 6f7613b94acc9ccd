import HuntDraw.Data.Json
import HuntDraw.Data.Worded
import HuntDraw.Number.Numeral
import HuntDraw.Schema.Checked

/-! Checks of structured values: texts, numbers, flags, members of closed sets, sequences, mappings
and records. Numbers and flags may be written as text. -/

namespace HuntDraw

abbrev Check (α : Type) := Json → Checked α

namespace Check

open Checked

def any : Check Json := .valid

def text : Check String
  | .text s => .valid s
  | _ => complain .notText

def filledText : Check String := fun v =>
  (text v).andThen fun s => if s.isEmpty then complain .emptyText else .valid s

private def wholeLimit : Nat := 0x8000000000000000

/-- A whole number in a text takes at most this many bytes. -/
def wholeBytes : Nat := 4300

private def wholeOfFloat (x : Binary64) : Checked Int :=
  match x.truncate with
  | .error _ => complain .notFinite
  | .ok i =>
    if !x.isInteger then complain .fractional
    else if i.natAbs < wholeLimit then .valid i
    else complain .wholeTooLarge

def whole : Check Int
  | .bool b => .valid (if b then 1 else 0)
  | .int i => .valid i
  | .float x => wholeOfFloat x
  | .text s =>
    if wholeBytes < (String.ofList (Text.trimChars Text.isWhite s.toList)).utf8ByteSize then complain .wholeTooLarge
    else match Numeral.whole? s with
      | some i => .valid i
      | none => complain .wholeSyntax
  | _ => complain .notWhole

def number : Check Binary64
  | .bool b => .valid (Binary64.ofNat (if b then 1 else 0))
  | .int i => match Binary64.ofInt? i with
    | some x => .valid x
    | none => complain .notNumber
  | .float x => .valid x
  | .text s => match Numeral.setting? s with
    | some x => .valid x
    | none => complain .numberSyntax
  | _ => complain .notNumber

def wholeFrom (least : Nat) : Check Int := fun v =>
  (whole v).andThen fun i => if (least : Int) ≤ i then .valid i else complain (.below least)

def numberFrom (least : Nat) : Check Binary64 := fun v =>
  (number v).andThen fun x => if (Binary64.ofNat least).le x then .valid x else complain (.below least)

def numberAbove (bound : Nat) : Check Binary64 := fun v =>
  (number v).andThen fun x => if (Binary64.ofNat bound).lt x then .valid x else complain (.notAbove bound)

private def setWords : List String := ["1", "on", "t", "true", "y", "yes"]
private def unsetWords : List String := ["0", "off", "f", "false", "n", "no"]

private def flagOfInt (i : Int) : Checked Bool :=
  if i = 0 then .valid false else if i = 1 then .valid true else complain .boolSyntax

def flag : Check Bool
  | .bool b => .valid b
  | .int i => flagOfInt i
  | .float x =>
    match x.truncate with
    | .ok i => if x.isInteger then flagOfInt i else complain .notBool
    | .error _ => complain .notBool
  | .text s =>
    let word := String.ofList (s.toList.map Char.toLower)
    if setWords.contains word then .valid true
    else if unsetWords.contains word then .valid false
    else complain .boolSyntax
  | _ => complain .notBool

/-- One of the given texts. -/
def oneOf (texts : List String) : Check String
  | .text s => if texts.contains s then .valid s else complain (.notMember texts)
  | _ => complain (.notMember texts)

/-- A member of a closed set, by its text. -/
def member (α : Type) [Worded α] : Check α
  | .text s => match Worded.ofText? s with
    | some a => .valid a
    | none => complain (.notMember (Worded.texts α))
  | _ => complain (.notMember (Worded.texts α))

def nullable {α : Type} (check : Check α) : Check (Option α)
  | .null => .valid none
  | v => (check v).map some

/-- Every item at its place, counted from `i`. -/
def items {α : Type} (check : Check α) (i : Nat) : List Json → Checked (List α)
  | [] => .valid []
  | v :: rest => List.cons <$> (check v).within (toString i) <*> items check (i + 1) rest

def sequence {α : Type} (check : Check α) : Check (List α)
  | .list vs => items check 0 vs
  | _ => complain .notTuple

def pair {α : Type} (check : Check α) : Check (α × α)
  | .list [a, b] => Prod.mk <$> (check a).within "0" <*> (check b).within "1"
  | .list [a] => Prod.mk <$> (check a).within "0" <*> (complain .missing).within "1"
  | .list [] => Prod.mk <$> (complain .missing).within "0" <*> (complain .missing).within "1"
  | .list vs => complain (.tooManyItems 2 vs.length)
  | _ => complain .notTuple

/-- Every entry, its key first. -/
def entries {α β : Type} (key : Check α) (value : Check β) : List (String × Json) → Checked (List (α × β))
  | [] => .valid []
  | (k, v) :: rest =>
    List.cons <$> (Prod.mk <$> ((key (.text k)).within "[key]").within k <*> (value v).within k)
      <*> entries key value rest

def mapping {α β : Type} (key : Check α) (value : Check β) : Check (List (α × β))
  | .object fields => entries key value fields
  | _ => complain .notMapping

/-- The fields of a record of the given name. -/
def record (name : String) : Check (Fields Json)
  | .object fields => .valid fields
  | _ => complain (.notRecord name)

/-- A field that has to be there. -/
def required {α : Type} (fields : Fields Json) (name : String) (check : Check α) : Checked α :=
  match fields.get? name with
  | some v => (check v).within name
  | none => (complain .missing).within name

/-- A field with a value for when it is not there. -/
def optional {α : Type} (fields : Fields Json) (name : String) (absent : α) (check : Check α) : Checked α :=
  match fields.get? name with
  | some v => (check v).within name
  | none => .valid absent

/-- Complains of every field without one of the given names. -/
def onlyFields (names : List String) : Fields Json → Checked Unit
  | [] => .valid ()
  | (k, _) :: rest =>
    let more := onlyFields names rest
    if names.contains k then more else (fun _ _ => ()) <$> (complain (α := Unit) .extra).within k <*> more

end Check
end HuntDraw
