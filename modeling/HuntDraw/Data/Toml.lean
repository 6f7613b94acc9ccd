import HuntDraw.Data.Json
import HuntDraw.Number.Numeral

/-! Single values in TOML: numbers, flags, quoted texts, dates, arrays and inline tables, on one line. -/

namespace HuntDraw

/-- Stands for a date or a time: it is no text, no number and no mapping. -/
def Json.moment : Json := .list []

namespace Toml

def isSpace (c : Char) : Bool := c = ' ' || c = '\t'

def skipSpace (cs : List Char) : List Char := cs.dropWhile isSpace

def isHex (c : Char) : Bool := c.isDigit || ('a' ≤ c && c ≤ 'f') || ('A' ≤ c && c ≤ 'F')

def hexValue (c : Char) : Nat :=
  if c.isDigit then c.toNat - 48 else if 'a' ≤ c then c.toNat - 87 else c.toNat - 55

/-- A row of digits that starts the text, with single underscores between them, and what follows. -/
def digitRow (isDigit : Char → Bool) : List Char → List Char × List Char
  | '_' :: rest => ([], '_' :: rest)
  | cs => go cs
where
  go : List Char → List Char × List Char
    | [] => ([], [])
    | c :: rest =>
      if isDigit c then
        match rest with
        | '_' :: d :: more =>
          if isDigit d then let (ds, rest) := go (d :: more); (c :: ds, rest) else ([c], rest)
        | rest => let (ds, rest) := go rest; (c :: ds, rest)
      else ([], c :: rest)

def valueIn (base : Nat) (ds : List Char) : Nat := ds.foldl (fun n c => base * n + hexValue c) 0

/-- A whole number in base 16, 8 or 2. -/
def based? : List Char → Option (Json × List Char)
  | '0' :: mark :: rest =>
    let read (base : Nat) (isDigit : Char → Bool) :=
      let (ds, rest) := digitRow isDigit rest
      if ds.isEmpty then none else some (Json.int (valueIn base ds : Nat), rest)
    if mark = 'x' then read 16 isHex
    else if mark = 'o' then read 8 fun c => '0' ≤ c && c ≤ '7'
    else if mark = 'b' then read 2 fun c => c = '0' || c = '1'
    else none
  | _ => none

def sign : List Char → List Char × List Char
  | '-' :: rest => (['-'], rest)
  | '+' :: rest => (['+'], rest)
  | cs => ([], cs)

/-- The digits behind a point. -/
def fraction : List Char → List Char × List Char
  | '.' :: rest =>
    let (ds, more) := digitRow Char.isDigit rest
    if ds.isEmpty then ([], '.' :: rest) else ('.' :: ds, more)
  | cs => ([], cs)

def exponent : List Char → List Char × List Char
  | c :: rest =>
    if c = 'e' ∨ c = 'E' then
      let (s, body) := sign rest
      let (ds, more) := digitRow Char.isDigit body
      if ds.isEmpty then ([], c :: rest) else ('e' :: (s ++ ds), more)
    else ([], c :: rest)
  | [] => ([], [])

/-- A decimal number, without leading zeros. -/
def decimal? (cs : List Char) : Option (Json × List Char) :=
  let (s, body) := sign cs
  let (whole, rest) := match body with
    | '0' :: rest => (['0'], rest)
    | body => digitRow Char.isDigit body
  if whole.isEmpty then none
  else
    let (f, rest) := fraction rest
    let (x, rest) := exponent rest
    if f.isEmpty ∧ x.isEmpty then
      let n : Int := valueIn 10 whole
      some (.int (if s = ['-'] then -n else n), rest)
    else (Numeral.plain? (s ++ whole ++ f ++ x)).map fun v => (.float v, rest)

def words : List (String × Json) :=
  [("true", .bool true), ("false", .bool false), ("inf", .float (.infinite false)),
   ("+inf", .float (.infinite false)), ("-inf", .float (.infinite true)), ("nan", .float .nan),
   ("+nan", .float .nan), ("-nan", .float .nan)]

def word? (cs : List Char) : Option (Json × List Char) :=
  (words.find? fun w => w.1.toList.isPrefixOf cs).map fun w => (w.2, cs.drop w.1.length)

/-- Whether a text has digits where the pattern has `0`, and the characters of the pattern elsewhere. -/
def matchesPattern : List Char → List Char → Bool
  | [], _ => true
  | '0' :: p, c :: cs => c.isDigit && matchesPattern p cs
  | a :: p, c :: cs => a = c && matchesPattern p cs
  | _, [] => false

def isMomentChar (c : Char) : Bool := c.isDigit || "-:.TtZz+ ".toList.contains c

/-- A date, a time, or both. -/
def moment? (cs : List Char) : Option (Json × List Char) :=
  if matchesPattern "0000-00-00".toList cs || matchesPattern "00:00:00".toList cs then
    some (Json.moment, cs.dropWhile isMomentChar)
  else none

/-- The characters of a quoted text with escapes, up to its closing quote. -/
def basicChars : List Char → Option (List Char × List Char)
  | [] => none
  | '"' :: rest => some ([], rest)
  | '\\' :: 'b' :: rest => add (Char.ofNat 8) (basicChars rest)
  | '\\' :: 't' :: rest => add '\t' (basicChars rest)
  | '\\' :: 'n' :: rest => add '\n' (basicChars rest)
  | '\\' :: 'f' :: rest => add (Char.ofNat 12) (basicChars rest)
  | '\\' :: 'r' :: rest => add '\r' (basicChars rest)
  | '\\' :: '"' :: rest => add '"' (basicChars rest)
  | '\\' :: '\\' :: rest => add '\\' (basicChars rest)
  | '\\' :: 'u' :: a :: b :: c :: d :: rest =>
    let n := valueIn 16 [a, b, c, d]
    if [a, b, c, d].all isHex ∧ n.isValidChar then add (Char.ofNat n) (basicChars rest) else none
  | '\\' :: 'U' :: a :: b :: c :: d :: e :: f :: g :: h :: rest =>
    let n := valueIn 16 [a, b, c, d, e, f, g, h]
    if [a, b, c, d, e, f, g, h].all isHex ∧ n.isValidChar then add (Char.ofNat n) (basicChars rest) else none
  | c :: rest => if c = '\\' ∨ (c.toNat < 32 ∧ c ≠ '\t') ∨ c.toNat = 127 then none else add c (basicChars rest)
where
  add (c : Char) (r : Option (List Char × List Char)) : Option (List Char × List Char) :=
    r.map fun p => (c :: p.1, p.2)

/-- A quoted text with escapes, or one in single quotes without. -/
def quoted? : List Char → Option (String × List Char)
  | '"' :: rest => (basicChars rest).map fun p => (String.ofList p.1, p.2)
  | '\'' :: rest =>
    let cs := rest.takeWhile (· ≠ '\'')
    if cs.any (fun c => c.toNat < 32 ∧ c ≠ '\t') then none
    else match rest.dropWhile (· ≠ '\'') with
      | [] => none
      | _ :: rest => some (String.ofList cs, rest)
  | _ => none

def scalar? (cs : List Char) : Option (Json × List Char) :=
  ((((quoted? cs).map fun p => (Json.text p.1, p.2)).or (word? cs)).or (moment? cs)).or
    ((based? cs).or (decimal? cs))

def isBare (c : Char) : Bool := c.isAlphanum || c = '_' || c = '-'

def key? (cs : List Char) : Option (String × List Char) :=
  match quoted? cs with
  | some r => some r
  | none =>
    let ks := cs.takeWhile isBare
    if ks.isEmpty then none else some (String.ofList ks, cs.dropWhile isBare)

mutual

/-- One value at the start of the text, in at most `fuel` steps. -/
def value? : Nat → List Char → Option (Json × List Char)
  | 0, _ => none
  | fuel + 1, cs =>
    match cs with
    | '[' :: rest => (items? fuel (skipSpace rest)).map fun p => (.list p.1, p.2)
    | '\x7b' :: rest =>
      match skipSpace rest with
      | '\x7d' :: rest => some (.object [], rest)
      | rest => (pairs? fuel rest).map fun p => (.object p.1, p.2)
    | cs => scalar? cs

def items? : Nat → List Char → Option (List Json × List Char)
  | 0, _ => none
  | _ + 1, ']' :: rest => some ([], rest)
  | fuel + 1, cs => do
    let (v, rest) ← value? fuel cs
    match skipSpace rest with
    | ',' :: rest =>
      let (vs, rest) ← items? fuel (skipSpace rest)
      return (v :: vs, rest)
    | ']' :: rest => return ([v], rest)
    | _ => none

def pairs? : Nat → List Char → Option (List (String × Json) × List Char)
  | 0, _ => none
  | fuel + 1, cs => do
    let (k, rest) ← key? cs
    match skipSpace rest with
    | '=' :: rest =>
      let (v, rest) ← value? fuel (skipSpace rest)
      match skipSpace rest with
      | ',' :: rest =>
        let (more, rest) ← pairs? fuel (skipSpace rest)
        if more.any (·.1 = k) then none else return ((k, v) :: more, rest)
      | '\x7d' :: rest => return ([(k, v)], rest)
      | _ => none
    | _ => none

end

/-- The value that a whole text stands for, a comment behind it apart. -/
def read? (s : String) : Option Json := do
  let cs := skipSpace s.toList
  let (v, rest) ← value? (2 * cs.length + 2) cs
  match skipSpace rest with
  | [] => some v
  | '#' :: comment => if comment.contains '\n' then none else some v
  | _ => none

end Toml
end HuntDraw
