import HuntDraw.Data.Toml
import HuntDraw.Text.Order
import HuntDraw.Yaml.Node

/-! The value of a YAML text. What a plain word stands for is a matter of the dialect: documents know more
flags and ways to write numbers than settings do. -/

namespace HuntDraw.Yaml

/-- The plain words of a dialect that stand for flags, and its numbers. -/
structure Dialect where
  set : List String
  unset : List String
  whole? : List Char → Option Int
  number? : List Char → Option Binary64

def isDigitOrLine (c : Char) : Bool := c.isDigit || c = '_'

def withoutLines (cs : List Char) : List Char := cs.filter (· ≠ '_')

/-- The digits of a base and underscores, as a number. -/
def rowIn? (base : Nat) (isDigit : Char → Bool) (cs : List Char) : Option Nat :=
  let ds := withoutLines cs
  if ds.isEmpty ∨ !ds.all isDigit then none else some (Toml.valueIn base ds)

def negated (sign : List Char) (n : Nat) : Int := if sign = ['-'] then -(n : Int) else n

def isOctal (c : Char) : Bool := '0' ≤ c && c ≤ '7'

def isBinary (c : Char) : Bool := c = '0' || c = '1'

/-- The parts of a number in base sixty behind its first one: one or two digits each, below sixty. -/
def sixtieths? (n : Nat) : List (List Char) → Option Nat
  | [] => some n
  | part :: rest =>
    if part.all Char.isDigit ∧ (part.length = 1 ∨ (part.length = 2 ∧ Toml.valueIn 10 part < 60)) then
      sixtieths? (60 * n + Toml.valueIn 10 part) rest
    else none

/-- A number in base sixty, its parts parted by colons. -/
def sexagesimal? (cs : List Char) : Option Nat :=
  match Text.splitChars ':' cs with
  | first :: second :: rest =>
    if first.head?.any Char.isDigit ∧ first.all isDigitOrLine then
      sixtieths? (Toml.valueIn 10 (withoutLines first)) (second :: rest)
    else none
  | _ => none

/-- The value of a number in base sixty with a fraction in its last part, summed up from there. -/
def sexagesimalNumber? (sign : List Char) (body : List Char) : Option Binary64 :=
  let whole := body.takeWhile (· ≠ '.')
  let fraction := (body.dropWhile (· ≠ '.')).drop 1
  if !fraction.all isDigitOrLine ∨ (sexagesimal? whole).isNone then none
  else do
    let parts ← (Text.splitChars ':' (withoutLines body)).mapM Numeral.plain?
    let (sum, _) := parts.reverse.foldl
      (fun p x => (p.1.add (x.mul (Binary64.ofNat p.2)), 60 * p.2)) (Binary64.zero false, 1)
    return if sign = ['-'] then sum.neg else sum

/-- The names of the infinities and of what is not a number. -/
def special? (cs : List Char) : Option Binary64 :=
  let (sign, body) := Toml.sign cs
  if [".inf", ".Inf", ".INF"].contains (String.ofList body) then some (.infinite (sign = ['-']))
  else if [".nan", ".NaN", ".NAN"].contains (String.ofList cs) then some .nan
  else none

namespace Dialect

def documentWhole? (cs : List Char) : Option Int :=
  let (sign, body) := Toml.sign cs
  (match body with
    | ['0'] => some 0
    | '0' :: 'b' :: ds => rowIn? 2 isBinary ds
    | '0' :: 'x' :: ds => rowIn? 16 Toml.isHex ds
    | '0' :: ds =>
      if ds.all fun c => isOctal c || c = '_' then some (Toml.valueIn 8 (withoutLines ds)) else none
    | '_' :: _ => none
    | ds => (rowIn? 10 Char.isDigit ds).or (sexagesimal? ds)).map (negated sign)

/-- A number with a point; its exponent has a sign. -/
def documentNumber? (cs : List Char) : Option Binary64 :=
  let (sign, body) := Toml.sign cs
  let whole := body.takeWhile isDigitOrLine
  match body.dropWhile isDigitOrLine with
  | '.' :: rest =>
    let fraction := rest.takeWhile isDigitOrLine
    let exponent := rest.dropWhile isDigitOrLine
    let isSigned := match exponent with
      | [] => true
      | e :: s :: ds => (e = 'e' || e = 'E') && (s = '+' || s = '-') && !ds.isEmpty && ds.all Char.isDigit
      | _ => false
    let begins := whole.head?.any Char.isDigit ||
      (whole.isEmpty && sign.isEmpty && fraction.head?.any Char.isDigit)
    if isSigned && begins then Numeral.plain? (sign ++ withoutLines whole ++ '.' :: (withoutLines fraction ++ exponent))
    else special? cs
  | ':' :: _ => if body.contains '.' then sexagesimalNumber? sign body else none
  | _ => special? cs

/-- Documents. -/
def document : Dialect :=
  { set := ["yes", "Yes", "YES", "true", "True", "TRUE", "on", "On", "ON"]
    unset := ["no", "No", "NO", "false", "False", "FALSE", "off", "Off", "OFF"]
    whole? := documentWhole?
    number? := documentNumber? }

def settingWhole? (cs : List Char) : Option Int :=
  let (sign, body) := Toml.sign cs
  (match body with
    | '0' :: 'b' :: ds => rowIn? 2 isBinary ds
    | '0' :: 'x' :: ds => rowIn? 16 Toml.isHex ds
    | '0' :: 'o' :: ds => rowIn? 8 isOctal ds
    | '_' :: _ => none
    | ds => rowIn? 10 Char.isDigit ds).map (negated sign)

/-- A number with a point or an exponent. -/
def settingNumber? (cs : List Char) : Option Binary64 :=
  let (sign, body) := Toml.sign cs
  let whole := body.takeWhile isDigitOrLine
  if whole.head? = some '_' ∨ !(body.any fun c => c = '.' || c = 'e' || c = 'E') then special? cs
  else if body.head?.any Char.isAlpha then none
  else (Numeral.plain? (sign ++ withoutLines body)).or (special? cs)

/-- Settings: only true and false are flags, and there is no base sixty. -/
def setting : Dialect :=
  { set := ["true", "True", "TRUE"]
    unset := ["false", "False", "FALSE"]
    whole? := settingWhole?
    number? := settingNumber? }

def nothing : List String := ["", "~", "null", "Null", "NULL"]

/-- Up to `most` digits at the start of a text, at least `least` of them; what follows. -/
def dropDigits? (least most : Nat) (cs : List Char) : Option (List Char) :=
  let n := min most (cs.takeWhile Char.isDigit).length
  if n < least then none else some (cs.drop n)

def dropChar? (x : Char) : List Char → Option (List Char)
  | c :: rest => if c = x then some rest else none
  | [] => none

/-- What may stand behind the time of day: nothing, or how far its zone is off. -/
def isZone (cs : List Char) : Bool :=
  match cs.dropWhile Yaml.isSpace with
  | [] => cs.isEmpty
  | ['Z'] => true
  | s :: rest =>
    (s = '+' || s = '-') && match dropDigits? 1 2 rest with
      | some [] => true
      | some (':' :: ds) => ds.length = 2 && ds.all Char.isDigit
      | _ => false

def isTimeOfDay (cs : List Char) : Bool :=
  ((do
    let cs ← dropChar? ':' (← dropDigits? 1 2 cs)
    let cs ← dropChar? ':' (← dropDigits? 2 2 cs)
    dropDigits? 2 2 cs) : Option (List Char)).any fun
      | '.' :: cs => isZone (cs.dropWhile Char.isDigit)
      | cs => isZone cs

/-- A date, or a date with a time of day. -/
def isMoment (cs : List Char) : Bool :=
  (cs.length = 10 && Toml.matchesPattern "0000-00-00".toList cs) ||
    ((do
      let cs ← dropChar? '-' (← dropDigits? 4 4 cs)
      let cs ← dropChar? '-' (← dropDigits? 1 2 cs)
      dropDigits? 1 2 cs) : Option (List Char)).any fun
        | 'T' :: cs | 't' :: cs => isTimeOfDay cs
        | c :: cs => isSpace c && isTimeOfDay (cs.dropWhile isSpace)
        | [] => false

/-- What a plain word stands for; a lone equals sign stands for nothing at all. -/
def plain (d : Dialect) (s : String) : Option Json :=
  let cs := s.toList
  if d.set.contains s then some (.bool true)
  else if d.unset.contains s then some (.bool false)
  else if nothing.contains s then some .null
  else if s = "=" ∨ s = "<<" then none
  else match d.number? cs with
    | some x => some (.float x)
    | none => match d.whole? cs with
      | some i => some (.int i)
      | none => some (if isMoment cs then Json.moment else .text s)

/-- A scalar under a tag. -/
def tagged (d : Dialect) (tag : Option String) (isPlain : Bool) (s : String) : Option Json :=
  match tag with
  | none => if isPlain then d.plain s else some (.text s)
  | some "!" | some "!!str" => some (.text s)
  | some "!!null" => some .null
  | some "!!bool" => match d.plain s with
    | some (.bool b) => some (.bool b)
    | _ => none
  | some "!!int" => (d.whole? s.toList).map .int
  | some "!!float" => ((d.number? s.toList).or ((d.whole? s.toList).bind Binary64.ofInt?)).map .float
  | some _ => none

end Dialect

/-- The text of a key. A sequence or a mapping is none. -/
def keyText? : Json → Option String
  | .list (_ :: _) | .object _ => none
  | v => some v.asText

/-- The fields that a mapping takes over from others: those of the first win. -/
def inherited? : Json → Option (Fields Json)
  | .object fields => some fields
  | .list items => (items.reverse.mapM fun
      | Json.object fields => some fields
      | _ => none).map List.flatten
  | _ => none

namespace Node

def isMerge : Node → Bool
  | .scalar true "<<" => true
  | _ => false

/-- A node as a key: a lone equals sign is a text there. -/
def isEquals : Node → Bool
  | .scalar true "=" => true
  | _ => false

mutual

/-- The value of a node, and the values that anchors name so far. -/
def value (d : Dialect) (tag : Option String) (named : Fields Json) : Node → Option (Json × Fields Json)
  | .scalar isPlain s => (d.tagged tag isPlain s).map (·, named)
  | .alias name => (named.get? name).map (·, named)
  | .marked tag anchor inner => do
    let (v, named) ← value d tag named inner
    match anchor with
    | none => return (v, named)
    | some a => if named.has a then none else return (v, named.put a v)
  | .list items =>
    if tag.all ["!", "!!seq"].contains then (itemValues d named items).map fun p => (.list p.1, p.2) else none
  | .mapping entries =>
    if tag.all ["!", "!!map"].contains then do
      let (merged, own, named) ← entryValues d named entries
      return (.object (Fields.ofPairs (merged ++ own)), named)
    else none

def itemValues (d : Dialect) (named : Fields Json) : List Node → Option (List Json × Fields Json)
  | [] => some ([], named)
  | n :: rest => do
    let (v, named) ← value d none named n
    let (vs, named) ← itemValues d named rest
    return (v :: vs, named)

/-- What a mapping takes over, and its own fields. -/
def entryValues (d : Dialect) (named : Fields Json) :
    List (Node × Node) → Option (Fields Json × Fields Json × Fields Json)
  | [] => some ([], [], named)
  | (k, n) :: rest => do
    let (key, named) ← if k.isMerge ∨ k.isEquals then some (.text "=", named) else value d none named k
    let (v, named) ← value d none named n
    let (merged, own, named) ← entryValues d named rest
    if k.isMerge then return ((← inherited? v) ++ merged, own, named)
    else return (merged, (← keyText? key, v) :: own, named)

end

end Node

/-- The value of a text; an empty text is nothing. A text that is not one of YAML has none. -/
def read? (d : Dialect) (cs : List Char) : Option Json := do
  match ← Node.ofText? cs with
  | none => some .null
  | some n => (n.value d none []).map (·.1)

end HuntDraw.Yaml
