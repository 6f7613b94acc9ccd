import HuntDraw.Data.Json
import HuntDraw.Number.Layout

/-! Messages made from a template and arguments. A percent sign starts a directive: flags, a least width,
a precision and a letter that says what kind of argument it takes. Arguments are taken in turn, or by
key from a mapping. -/

namespace HuntDraw

/-- How the text of an argument is laid out. -/
structure Directive where
  left : Bool := false
  plus : Bool := false
  space : Bool := false
  alternate : Bool := false
  zero : Bool := false
  width : Nat := 0
  precision : Option Nat := none
  deriving DecidableEq, Repr

namespace Directive

/-- Fills up to the least width; zeros go between the sign and the digits. -/
def fill (d : Directive) (numeric : Bool) (sign body : List Char) : List Char :=
  let missing := d.width - (sign.length + body.length)
  if d.left then sign ++ body ++ List.replicate missing ' '
  else if d.zero && numeric then sign ++ List.replicate missing '0' ++ body
  else List.replicate missing ' ' ++ sign ++ body

/-- A text; a precision limits its length. -/
def text (d : Directive) (s : String) : List Char :=
  d.fill false [] (match d.precision with
    | some p => s.toList.take p
    | none => s.toList)

def character (d : Directive) (c : Char) : List Char := d.fill false [] [c]

def signOf (d : Directive) (negative : Bool) : List Char :=
  if negative then ['-'] else if d.plus then ['+'] else if d.space then [' '] else []

/-- A whole number in a base, at least as many digits as the precision says. -/
def whole (d : Directive) (base : Nat) (mark : List Char) (i : Int) : List Char :=
  let ds := Nat.toDigits base i.natAbs
  let ds := List.replicate (d.precision.getD 0 - ds.length) '0' ++ ds
  d.fill true (d.signOf (i < 0) ++ if d.alternate then mark else []) ds

def flag (d : Directive) : Char → Option Directive
  | '-' => some { d with left := true }
  | '+' => some { d with plus := true }
  | ' ' => some { d with space := true }
  | '#' => some { d with alternate := true }
  | '0' => some { d with zero := true }
  | _ => none

def flags (d : Directive) : List Char → Directive × List Char
  | [] => (d, [])
  | c :: rest =>
    match d.flag c with
    | some d => flags d rest
    | none => (d, c :: rest)

end Directive

/-- What is left to be put into a message. -/
inductive Supply where
  | items (rest : List Json)
  | keyed (fields : Fields Json)

namespace Supply

/-- The arguments of a message: a mapping that stands alone is taken by key. -/
def ofArguments : List Json → Supply
  | [.object (f :: fields)] => .keyed (f :: fields)
  | args => .items args

/-- The next argument. Without a key a mapping is an argument itself. -/
def next (key : Option String) : Supply → Option (Json × Supply)
  | items rest =>
    match key, rest with
    | none, v :: rest => some (v, items rest)
    | _, _ => none
  | keyed fields =>
    match key with
    | some k => (Fields.get? fields k).map fun v => (v, keyed fields)
    | none => some (.object fields, items [])

/-- Every argument has to be used, unless they go by key. -/
def isSpent : Supply → Bool
  | items rest => rest.isEmpty
  | keyed _ => true

end Supply

namespace Message

def wholeOf? : Json → Option Int
  | .int i => some i
  | .bool b => some (if b then 1 else 0)
  | _ => none

/-- The whole part of a number. -/
def truncated? : Json → Option Int
  | .float x => x.truncate.toOption
  | v => wholeOf? v

def number? : Json → Option Binary64
  | .float x => some x
  | v => (wholeOf? v).bind Binary64.ofInt?

/-- A character that is not ASCII as an escape. -/
def escape (c : Char) : List Char :=
  let n := c.toNat
  let hex (width : Nat) : List Char :=
    let ds := Nat.toDigits 16 n
    List.replicate (width - ds.length) '0' ++ ds
  if n < 128 then [c]
  else if n < 0x100 then '\\' :: 'x' :: hex 2
  else if n < 0x10000 then '\\' :: 'u' :: hex 4
  else '\\' :: 'U' :: hex 8

def upperCase (big : Bool) (cs : List Char) : List Char := if big then cs.map Char.toUpper else cs

/-- A number in one of the three styles of floating point numbers. -/
def floating (d : Directive) (style : Char) (x : Binary64) : List Char :=
  let small := style.toLower
  let places := d.precision.getD 6
  let mark := if style = small then 'e' else 'E'
  match x with
  | .nan => { d with zero := false }.fill true (d.signOf false) (upperCase (style ≠ small) "nan".toList)
  | .infinite s => { d with zero := false }.fill true (d.signOf s) (upperCase (style ≠ small) "inf".toList)
  | .finite s m e _ =>
    let n := Binary64.scaleNum m e
    let den := Binary64.scaleDen e
    let body :=
      if small = 'f' then Layout.fixed d.alternate places n den
      else if small = 'e' then Layout.scientific d.alternate mark places n den
      else Layout.general d.alternate mark places n den
    d.fill true (d.signOf s) body

/-- An argument as a directive lays it out, unless it is not of the kind the letter asks for. -/
def place? (d : Directive) (letter : Char) (v : Json) : Option (List Char) :=
  match letter with
  | 's' => some (d.text v.asText)
  | 'r' => some (d.text v.shown)
  | 'a' => some (d.text (String.ofList (v.shown.toList.flatMap escape)))
  | 'd' | 'i' | 'u' => (truncated? v).map (d.whole 10 [])
  | 'o' => (wholeOf? v).map (d.whole 8 ['0', 'o'])
  | 'x' => (wholeOf? v).map (d.whole 16 ['0', 'x'])
  | 'X' => (wholeOf? v).map fun i => upperCase true (d.whole 16 ['0', 'x'] i)
  | 'e' | 'E' | 'f' | 'F' | 'g' | 'G' => (number? v).map (floating d letter)
  | 'c' =>
    match v with
    | .text s => match s.toList with
      | [c] => some (d.character c)
      | _ => none
    | v => (wholeOf? v).bind fun i =>
      if 0 ≤ i ∧ i.toNat.isValidChar then some (d.character (Char.ofNat i.toNat)) else none
  | _ => none

/-- Widths and precisions stay below this. -/
def amountLimit : Nat := 0x80000000

def limited? (i : Int) : Option Int := if i.natAbs < amountLimit then some i else none

/-- A number in a directive: digits, or a star for the next argument. -/
def amount? (supply : Supply) : List Char → Option (Option Int × Supply × List Char)
  | '*' :: rest => do
    let (v, supply) ← supply.next none
    return (some (← (wholeOf? v).bind limited?), supply, rest)
  | cs =>
    let ds := cs.takeWhile Char.isDigit
    if ds.isEmpty then some (none, supply, cs)
    else
      (limited? (ds.foldl (fun n c => 10 * n + (c.toNat - 48)) 0)).map fun n =>
        (some n, supply, cs.dropWhile Char.isDigit)

/-- The key of a directive, in parentheses. -/
def key? : List Char → Option (Option String × List Char)
  | '(' :: rest => go 1 [] rest
  | cs => some (none, cs)
where
  go (depth : Nat) (seen : List Char) : List Char → Option (Option String × List Char)
    | [] => none
    | c :: rest =>
      if c = ')' ∧ depth = 1 then some (some (String.ofList seen.reverse), rest)
      else go (if c = '(' then depth + 1 else if c = ')' then depth - 1 else depth) (c :: seen) rest

/-- One directive that takes an argument, behind its percent sign: its text, the arguments left and the
rest of the template. -/
def argument? (supply : Supply) (cs : List Char) : Option (List Char × Supply × List Char) := do
  let (key, cs) ← key? cs
  let (d, cs) := Directive.flags {} cs
  let (width, supply, cs) ← amount? supply cs
  let width := width.getD 0
  let d := { d with width := width.natAbs, left := d.left || decide (width < 0) }
  let (precision, supply, cs) ← match cs with
    | '.' :: cs => (amount? supply cs).map fun p => (some (p.1.getD 0).toNat, p.2)
    | cs => some (none, supply, cs)
  let d := { d with precision }
  let cs := match cs with
    | c :: rest => if c = 'h' ∨ c = 'l' ∨ c = 'L' then rest else c :: rest
    | [] => []
  match cs with
  | [] => none
  | letter :: rest =>
    let (v, supply) ← supply.next key
    return (← place? d letter v, supply, rest)

/-- What follows a percent sign: another one, which stands for itself, or a directive. -/
def directive? (supply : Supply) : List Char → Option (List Char × Supply × List Char)
  | '%' :: rest => some (['%'], supply, rest)
  | cs => argument? supply cs

/-- Fills a template in at most `fuel` steps. -/
def fillFrom : Nat → Supply → List Char → Option (List Char)
  | 0, _, _ => none
  | _ + 1, supply, [] => if supply.isSpent then some [] else none
  | fuel + 1, supply, '%' :: rest => do
    let (text, supply, rest) ← directive? supply rest
    return text ++ (← fillFrom fuel supply rest)
  | fuel + 1, supply, c :: rest => (c :: ·) <$> fillFrom fuel supply rest

/-- The message of a template; without arguments a template is a message already. A template that its
arguments do not fit makes none. -/
def fill? (template : String) (args : List Json) : Option String :=
  if args.isEmpty then some template
  else String.ofList <$> fillFrom (template.length + 1) (.ofArguments args) template.toList

end Message
end HuntDraw
