import HuntDraw.Text.Blank

/-! Places in a YAML text: what is left of it, and how far into its line the place is. -/

namespace HuntDraw.Yaml

def isBreak (c : Char) : Bool :=
  c = '\n' || c = '\r' || c = '\u0085' || c = '\u2028' || c = '\u2029'

def isSpace (c : Char) : Bool := c = ' ' || c = '\t'

/-- Blanks and breaks part words from each other. -/
def isGap (c : Char) : Bool := isSpace c || isBreak c

/-- The characters that a text may hold at all. -/
def printableRanges : List (Nat × Nat) :=
  [(0x9, 0xA), (0xD, 0xD), (0x20, 0x7E), (0x85, 0x85), (0xA0, 0xD7FF), (0xE000, 0xFFFD), (0x10000, 0x10FFFF)]

def isPrintable (c : Char) : Bool := Text.inRanges printableRanges c

def byteOrderMark : Char := Char.ofNat 0xFEFF

structure Cursor where
  rest : List Char
  index : Nat := 0
  line : Nat := 0
  column : Nat := 0

namespace Cursor

/-- Goes one character on. A carriage return and the line feed behind it end one line. -/
def step (c : Cursor) : Cursor :=
  match c.rest with
  | [] => c
  | x :: rest =>
    if isBreak x ∧ ¬ (x = '\r' ∧ rest.head? = some '\n') then ⟨rest, c.index + 1, c.line + 1, 0⟩
    else ⟨rest, c.index + 1, c.line, if x = byteOrderMark then c.column else c.column + 1⟩

def advance : Nat → Cursor → Cursor
  | 0, c => c
  | n + 1, c => advance n c.step

def peek (c : Cursor) (n : Nat) : Option Char := c.rest[n]?

/-- Whether the character at a distance is the given one. -/
def isAt (c : Cursor) (n : Nat) (x : Char) : Bool := c.peek n == some x

/-- Whether there is a gap at a distance, or the end of the text. -/
def gapAt (c : Cursor) (n : Nat) : Bool := (c.peek n).all isGap

def endsLine (c : Cursor) : Bool := (c.peek 0).all isBreak

def skipWhile (p : Char → Bool) (c : Cursor) : Cursor := c.advance (c.rest.takeWhile p).length

def skipSpaces (c : Cursor) : Cursor := c.skipWhile (· = ' ')

/-- A line break, as it is kept, and the place behind it. -/
def lineBreak? (c : Cursor) : Option (Char × Cursor) :=
  match c.rest with
  | '\r' :: '\n' :: _ => some ('\n', c.advance 2)
  | x :: _ =>
    if x = '\u2028' ∨ x = '\u2029' then some (x, c.step)
    else if isBreak x then some ('\n', c.step)
    else none
  | [] => none

/-- Whether three characters and a gap stand here. -/
def marksDocument (c : Cursor) : Bool :=
  (['-', '-', '-'].isPrefixOf c.rest || ['.', '.', '.'].isPrefixOf c.rest) && c.gapAt 3

end Cursor
end HuntDraw.Yaml
