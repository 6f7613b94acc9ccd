import HuntDraw.Data.Json

/-! JSON text in plain ASCII, on one line or indented. -/

namespace HuntDraw.Json

/-- The escape of a unit of 16 bits, in four digits. -/
def hex4 (n : Nat) : List Char :=
  '\\' :: 'u' :: [n / 4096 % 16, n / 256 % 16, n / 16 % 16, n % 16].map Nat.digitChar

/-- One character of a text value in ASCII. -/
def asciiChar (c : Char) : List Char :=
  let n := c.toNat
  if c = '"' then ['\\', '"']
  else if c = '\\' then ['\\', '\\']
  else if n = 8 then ['\\', 'b']
  else if n = 9 then ['\\', 't']
  else if n = 10 then ['\\', 'n']
  else if n = 12 then ['\\', 'f']
  else if n = 13 then ['\\', 'r']
  else if 32 ≤ n ∧ n < 127 then [c]
  else if n < 0x10000 then hex4 n
  else hex4 (0xD800 + (n - 0x10000) / 0x400) ++ hex4 (0xDC00 + (n - 0x10000) % 0x400)

def asciiText (s : String) : String := String.ofList ('"' :: (s.toList.flatMap asciiChar ++ ['"']))

private def numberText (x : Binary64) : String :=
  match x with
  | .nan => "NaN"
  | .infinite s => if s then "-Infinity" else "Infinity"
  | x => x.text

/-- A line break and indentation, or nothing when everything stands on one line. -/
def breakLine (depth : Option Nat) : String :=
  match depth with
  | none => ""
  | some n => String.ofList ('\n' :: List.replicate (2 * n) ' ')

/-- Parts with commas between them. -/
def bracket (left right : String) (depth : Option Nat) (parts : List String) : String :=
  if parts.isEmpty then left ++ right
  else
    let inner := depth.map (· + 1)
    let sep := if depth.isSome then "," ++ breakLine inner else ", "
    left ++ breakLine inner ++ sep.intercalate parts ++ breakLine depth ++ right

mutual

/-- The text of a value nested `depth` levels deep, or on one line without a depth. -/
def renderAt (depth : Option Nat) : Json → String
  | .null => "null"
  | .bool b => if b then "true" else "false"
  | .int i => toString i
  | .float x => numberText x
  | .text s => asciiText s
  | .list items => bracket "[" "]" depth (renderItems (depth.map (· + 1)) items)
  | .object fields => bracket "\x7b" "\x7d" depth (renderFields (depth.map (· + 1)) fields)

def renderItems (depth : Option Nat) : List Json → List String
  | [] => []
  | v :: rest => renderAt depth v :: renderItems depth rest

def renderFields (depth : Option Nat) : List (String × Json) → List String
  | [] => []
  | (k, v) :: rest => (asciiText k ++ ": " ++ renderAt depth v) :: renderFields depth rest

end

/-- On one line. -/
def line (v : Json) : String := renderAt none v

/-- Two spaces for every level. -/
def indented (v : Json) : String := renderAt (some 0) v

end HuntDraw.Json
