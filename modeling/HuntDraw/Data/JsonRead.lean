import HuntDraw.Data.Json
import HuntDraw.Number.Numeral

/-! Reading JSON text. A fault names what was expected and the place where it was missing. -/

namespace HuntDraw

inductive JsonFault.Kind where
  | value
  | property
  | colon
  | comma
  | extra
  | unterminated
  | control
  | escape
  | unicodeEscape
  deriving DecidableEq, Repr

/-- `rest` counts the characters from the place of the fault to the end. -/
structure JsonFault where
  kind : JsonFault.Kind
  rest : Nat
  deriving DecidableEq, Repr

def JsonFault.Kind.text : JsonFault.Kind → String
  | .value => "Expecting value"
  | .property => "Expecting property name enclosed in double quotes"
  | .colon => "Expecting ':' delimiter"
  | .comma => "Expecting ',' delimiter"
  | .extra => "Extra data"
  | .unterminated => "Unterminated string starting at"
  | .control => "Invalid control character at"
  | .escape => "Invalid \\escape"
  | .unicodeEscape => "Invalid \\uXXXX escape"

/-- The message of a fault in the text `cs`. -/
def JsonFault.message (f : JsonFault) (cs : List Char) : String :=
  let pos := cs.length - f.rest
  let before := cs.take pos
  let line := before.count '\n' + 1
  let column := (before.reverse.takeWhile (· ≠ '\n')).length + 1
  s!"{f.kind.text}: line {line} column {column} (char {pos})"

namespace Json

def skipSpace : List Char → List Char
  | c :: rest => if c = ' ' ∨ c = '\t' ∨ c = '\n' ∨ c = '\r' then skipSpace rest else c :: rest
  | [] => []

def hexValue? (c : Char) : Option Nat :=
  if '0' ≤ c ∧ c ≤ '9' then some (c.toNat - 48)
  else if 'a' ≤ c ∧ c ≤ 'f' then some (c.toNat - 87)
  else if 'A' ≤ c ∧ c ≤ 'F' then some (c.toNat - 55)
  else none

/-- Four hexadecimal digits that are not the end of the text, and what follows them. -/
def readHex4? : List Char → Option (Nat × List Char)
  | a :: b :: c :: d :: e :: rest => do
    let a ← hexValue? a
    let b ← hexValue? b
    let c ← hexValue? c
    let d ← hexValue? d
    some (((a * 16 + b) * 16 + c) * 16 + d, e :: rest)
  | _ => none

/-- The character that a backslash and a letter stand for. -/
def escaped? : Char → Option Char
  | '"' => some '"'
  | '\\' => some '\\'
  | '/' => some '/'
  | 'b' => some (Char.ofNat 8)
  | 'f' => some (Char.ofNat 12)
  | 'n' => some '\n'
  | 'r' => some '\r'
  | 't' => some '\t'
  | _ => none

def isHigh (n : Nat) : Bool := 0xD800 ≤ n && n < 0xDC00
def isLow (n : Nat) : Bool := 0xDC00 ≤ n && n < 0xE000

/-- One unit of an escape, with the low half of a pair when one follows. -/
def pairWith (n : Nat) (low : Nat) : Char := Char.ofNat (0x10000 + (n - 0xD800) * 0x400 + (low - 0xDC00))

/-- The unit that stands for half a pair on its own. -/
def unitChar (n : Nat) : Char := if isHigh n || isLow n then Char.ofNat 0xFFFD else Char.ofNat n

/-- The characters of a text value up to its closing quote. -/
def readChars : List Char → Except JsonFault (List Char × List Char)
  | [] => .error ⟨.unterminated, 0⟩
  | '"' :: rest => .ok ([], rest)
  | '\\' :: 'u' :: a :: b :: c :: d :: rest =>
    match readHex4? (a :: b :: c :: d :: rest) with
    | none => .error ⟨.unicodeEscape, rest.length + 5⟩
    | some (n, _) =>
      match rest with
      | '\\' :: 'u' :: e :: f :: g :: h :: more =>
        if isHigh n ∧ more ≠ [] then
          match readHex4? (e :: f :: g :: h :: more) with
          | none => .error ⟨.unicodeEscape, more.length + 5⟩
          | some (low, _) =>
            if isLow low then (fun p => (pairWith n low :: p.1, p.2)) <$> readChars more
            else (fun p => (unitChar n :: p.1, p.2)) <$> readChars ('\\' :: 'u' :: e :: f :: g :: h :: more)
        else (fun p => (unitChar n :: p.1, p.2)) <$> readChars ('\\' :: 'u' :: e :: f :: g :: h :: more)
      | rest => (fun p => (unitChar n :: p.1, p.2)) <$> readChars rest
  | '\\' :: rest =>
    match rest with
    | [] => .error ⟨.unterminated, 0⟩
    | 'u' :: more => .error ⟨.unicodeEscape, more.length + 1⟩
    | e :: more =>
      match escaped? e with
      | none => .error ⟨.escape, more.length + 2⟩
      | some x => (fun p => (x :: p.1, p.2)) <$> readChars more
  | c :: rest =>
    if c.toNat < 32 then .error ⟨.control, rest.length + 1⟩
    else (fun p => (c :: p.1, p.2)) <$> readChars rest
  termination_by cs => cs.length
  decreasing_by all_goals simp_wf <;> omega

/-- The minus sign of a number, if there is one. -/
def signPart : List Char → List Char
  | '-' :: _ => ['-']
  | _ => []

/-- The digits in front of a point: a zero stands alone. -/
def wholePart : List Char → List Char
  | '0' :: _ => ['0']
  | cs => cs.takeWhile Numeral.isAsciiDigit

/-- A point and the digits behind it. -/
def fractionPart : List Char → List Char
  | '.' :: rest => let ds := rest.takeWhile Numeral.isAsciiDigit; if ds.isEmpty then [] else '.' :: ds
  | _ => []

/-- The mark of an exponent, its sign and its digits. -/
def exponentPart : List Char → List Char
  | c :: rest =>
    if c = 'e' ∨ c = 'E' then
      let sign := match rest with
        | s :: _ => if s = '+' ∨ s = '-' then [s] else []
        | [] => []
      let ds := (rest.drop sign.length).takeWhile Numeral.isAsciiDigit
      if ds.isEmpty then [] else c :: (sign ++ ds)
    else []
  | [] => []

/-- A number: whole unless it has a fraction or an exponent. -/
def readNumber? (cs : List Char) : Option (Json × List Char) :=
  let sign := signPart cs
  let body := cs.drop sign.length
  let whole := wholePart body
  if whole.isEmpty then none
  else
    let rest := body.drop whole.length
    let fraction := fractionPart rest
    let rest := rest.drop fraction.length
    let exponent := exponentPart rest
    let rest := rest.drop exponent.length
    if fraction.isEmpty ∧ exponent.isEmpty then
      let n : Int := Numeral.digitsValue whole
      some (.int (if sign.isEmpty then n else -n), rest)
    else (Numeral.plain? (sign ++ whole ++ fraction ++ exponent)).map fun x => (.float x, rest)

def literals : List (List Char × Json) :=
  [("null".toList, .null), ("true".toList, .bool true), ("false".toList, .bool false),
   ("NaN".toList, .float .nan), ("Infinity".toList, .float (.infinite false)),
   ("-Infinity".toList, .float (.infinite true))]

/-- A literal or a number. -/
def readScalar (cs : List Char) : Except JsonFault (Json × List Char) :=
  match literals.find? fun l => l.1.isPrefixOf cs with
  | some l => .ok (l.2, cs.drop l.1.length)
  | none =>
    match readNumber? cs with
    | some r => .ok r
    | none => .error ⟨.value, cs.length⟩

/-- A quoted key or text, behind its opening quote; one without an end is a fault of its start. -/
def readQuoted (cs : List Char) : Except JsonFault (String × List Char) :=
  match readChars cs with
  | .ok p => .ok (String.ofList p.1, p.2)
  | .error ⟨.unterminated, _⟩ => .error ⟨.unterminated, cs.length + 1⟩
  | .error f => .error f

mutual

/-- One value at the start of the text, with at most `fuel` steps. -/
def readValue : Nat → List Char → Except JsonFault (Json × List Char)
  | 0, cs => .error ⟨.value, cs.length⟩
  | fuel + 1, cs =>
    match cs with
    | '"' :: rest => (fun p => (.text p.1, p.2)) <$> readQuoted rest
    | '[' :: rest =>
      match skipSpace rest with
      | ']' :: rest => .ok (.list [], rest)
      | rest => (fun p => (.list p.1, p.2)) <$> readItems fuel rest
    | '\x7b' :: rest =>
      match skipSpace rest with
      | '\x7d' :: rest => .ok (.object [], rest)
      | rest => (fun p => (.object (Fields.ofPairs p.1), p.2)) <$> readPairs fuel rest
    | cs => readScalar cs

def readItems : Nat → List Char → Except JsonFault (List Json × List Char)
  | 0, cs => .error ⟨.value, cs.length⟩
  | fuel + 1, cs => do
    let (v, rest) ← readValue fuel cs
    match skipSpace rest with
    | ']' :: rest => .ok ([v], rest)
    | ',' :: rest =>
      let (vs, rest) ← readItems fuel (skipSpace rest)
      .ok (v :: vs, rest)
    | rest => .error ⟨.comma, rest.length⟩

def readPairs : Nat → List Char → Except JsonFault (List (String × Json) × List Char)
  | 0, cs => .error ⟨.property, cs.length⟩
  | fuel + 1, cs => do
    match cs with
    | '"' :: rest =>
      let (k, rest) ← readQuoted rest
      match skipSpace rest with
      | ':' :: rest =>
        let (v, rest) ← readValue fuel (skipSpace rest)
        match skipSpace rest with
        | '\x7d' :: rest => .ok ([(k, v)], rest)
        | ',' :: rest =>
          let (more, rest) ← readPairs fuel (skipSpace rest)
          .ok ((k, v) :: more, rest)
        | rest => .error ⟨.comma, rest.length⟩
      | rest => .error ⟨.colon, rest.length⟩
    | cs => .error ⟨.property, cs.length⟩

end

/-- The value that the whole text stands for. -/
def read (cs : List Char) : Except JsonFault Json := do
  let (v, rest) ← readValue (2 * cs.length + 2) (skipSpace cs)
  match skipSpace rest with
  | [] => .ok v
  | rest => .error ⟨.extra, rest.length⟩

end Json
end HuntDraw
