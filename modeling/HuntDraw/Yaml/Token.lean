import HuntDraw.Yaml.Scalar

/-! Tokens of a YAML text. Collections in blocks open and close by indentation. That a scalar is a key is
seen only at the colon behind it, so its place is kept for as long as it may still be one. -/

namespace HuntDraw.Yaml

inductive Token where
  | directive
  | documentStart
  | documentEnd
  | blockSequence
  | blockMapping
  | blockEnd
  | flowSequence
  | flowSequenceEnd
  | flowMapping
  | flowMappingEnd
  | blockEntry
  | flowEntry
  | key
  | value
  | alias (name : String)
  | anchor (name : String)
  | tag (name : String)
  | scalar (plain : Bool) (text : String)
  deriving DecidableEq, Repr

/-- Where a key may have started: its place among the tokens and in the text. -/
structure KeyPlace where
  token : Nat
  required : Bool
  index : Nat
  line : Nat
  column : Nat

structure Scan where
  cursor : Cursor
  tokens : Array Token := #[]
  /-- The depth of the innermost block, and of those around it. -/
  indent : Int := -1
  indents : List Int := []
  /-- How many flow collections are open. -/
  flow : Nat := 0
  keyAllowed : Bool := true
  /-- Where a key may have started, by the depth in flow collections. -/
  keys : List (Nat × KeyPlace) := []

namespace Scan

def push (s : Scan) (t : Token) : Scan := { s with tokens := s.tokens.push t }

def advance (n : Nat) (s : Scan) : Scan := { s with cursor := s.cursor.advance n }

/-- Skips blanks, comments and line ends; behind a line end a key may start. -/
def skipGaps : Nat → Scan → Scan
  | 0, s => s
  | fuel + 1, s =>
    let c := s.cursor.skipSpaces
    let c := if c.isAt 0 '#' then c.skipWhile (fun x => !isBreak x) else c
    match c.lineBreak? with
    | none => { s with cursor := c }
    | some (_, c) => skipGaps fuel { s with cursor := c, keyAllowed := s.keyAllowed || s.flow = 0 }

/-- A key has to be on one line and not too long. -/
def isStale (c : Cursor) (k : KeyPlace) : Bool := k.line ≠ c.line || 1024 < c.index - k.index

/-- Gives up the keys that cannot be any more. -/
def dropStale (s : Scan) : Option Scan :=
  let (stale, fresh) := s.keys.partition fun k => isStale s.cursor k.2
  if stale.any (·.2.required) then none else some { s with keys := fresh }

/-- Closes the blocks that are deeper than a column. -/
def unwind (column : Int) (s : Scan) : Scan := if s.flow ≠ 0 then s else go s.indent s.indents s.tokens
where
  go (indent : Int) (indents : List Int) (tokens : Array Token) : Scan :=
    match indents with
    | [] => { s with indent, indents, tokens }
    | outer :: more =>
      if column < indent then go outer more (tokens.push .blockEnd) else { s with indent, indents, tokens }

/-- Opens a block at a column, unless one is open there. -/
def openBlock (column : Nat) (token : Token) (place : Nat) (s : Scan) : Scan :=
  if s.indent < column then
    { s with indent := column, indents := s.indent :: s.indents, tokens := s.tokens.insertIdxIfInBounds place token }
  else s

/-- Gives up the key that may have started at this depth. -/
def dropKey (s : Scan) : Option Scan :=
  match s.keys.find? (·.1 = s.flow) with
  | none => some s
  | some k => if k.2.required then none else some { s with keys := s.keys.filter (·.1 ≠ s.flow) }

/-- Notes down that a key may start here. -/
def saveKey (s : Scan) : Option Scan :=
  if !s.keyAllowed then some s
  else do
    let s ← s.dropKey
    let c := s.cursor
    let required := s.flow = 0 && s.indent = (c.column : Int)
    return { s with keys := (s.flow, ⟨s.tokens.size, required, c.index, c.line, c.column⟩) :: s.keys }

def allowKey (b : Bool) (s : Scan) : Scan := { s with keyAllowed := b }

/-- Something that may be a key, read by `f`. -/
def fetchNode (f : Cursor → Option (Token × Cursor)) (s : Scan) : Option Scan := do
  let s ← s.saveKey
  let (t, c) ← f s.cursor
  return { s.push t with keyAllowed := false, cursor := c }

def fetchFlowStart (t : Token) (s : Scan) : Option Scan := do
  let s ← s.saveKey
  return ({ s with flow := s.flow + 1, keyAllowed := true }.push t).advance 1

def fetchFlowEnd (t : Token) (s : Scan) : Option Scan := do
  let s ← s.dropKey
  return ({ s with flow := s.flow - 1, keyAllowed := false }.push t).advance 1

/-- The line of a directive, or a mark of a document. -/
def fetchBoundary (t : Token) (s : Scan) : Option Scan := do
  let s ← (s.unwind (-1)).dropKey
  let c := if t = .directive then s.cursor.skipWhile (fun x => !isBreak x) else s.cursor.advance 3
  return { s.push t with keyAllowed := false, cursor := c }

def fetchFlowEntry (s : Scan) : Option Scan := do
  let s ← (s.allowKey true).dropKey
  return (s.push .flowEntry).advance 1

def fetchBlockEntry (s : Scan) : Option Scan := do
  if s.flow = 0 ∧ !s.keyAllowed then none
  else
    let s := if s.flow = 0 then s.openBlock s.cursor.column .blockSequence s.tokens.size else s
    let s ← (s.allowKey true).dropKey
    return (s.push .blockEntry).advance 1

def fetchKey (s : Scan) : Option Scan := do
  if s.flow = 0 ∧ !s.keyAllowed then none
  else
    let s := if s.flow = 0 then s.openBlock s.cursor.column .blockMapping s.tokens.size else s
    let s ← (s.allowKey (s.flow = 0)).dropKey
    return (s.push .key).advance 1

/-- A colon: what a key may have started with is one now. -/
def fetchValue (s : Scan) : Option Scan := do
  let s ← match s.keys.find? (·.1 = s.flow) with
    | some (_, k) => do
      let s := { s with keys := s.keys.filter (·.1 ≠ s.flow), tokens := s.tokens.insertIdxIfInBounds k.token .key }
      let s := if s.flow = 0 then s.openBlock k.column .blockMapping k.token else s
      some (s.allowKey false)
    | none =>
      if s.flow = 0 ∧ !s.keyAllowed then none
      else
        let s := if s.flow = 0 then s.openBlock s.cursor.column .blockMapping s.tokens.size else s
        (s.allowKey (s.flow = 0)).dropKey
  return (s.push .value).advance 1

def isNameChar (c : Char) : Bool := c.isAlphanum || c = '-' || c = '_'

/-- An anchor or an alias: a name behind its mark. -/
def scanName (wrap : String → Token) (c : Cursor) : Option (Token × Cursor) :=
  let name := c.step.rest.takeWhile isNameChar
  let c := c.advance (name.length + 1)
  if name.isEmpty ∨ !(c.gapAt 0 || (c.peek 0).any "?:,]\x7d%@\u0060".toList.contains) then none
  else some (wrap (String.ofList name), c)

def scanTag (c : Cursor) : Option (Token × Cursor) :=
  let name := c.rest.takeWhile fun x => !isGap x
  some (.tag (String.ofList name), c.advance name.length)

def scanQuoted (quote : Char) (c : Cursor) : Option (Token × Cursor) :=
  (Quoted.scan quote (2 * c.rest.length + 2) c.step).map fun p => (.scalar false (String.ofList p.1), p.2)

def fetchBlockText (folded : Bool) (s : Scan) : Option Scan := do
  let s ← (s.allowKey true).dropKey
  let (text, c) ← Block.scan folded s.indent s.cursor.step
  return { s.push (.scalar false (String.ofList text)) with cursor := c }

def fetchPlain (s : Scan) : Option Scan := do
  let s ← s.saveKey
  let c := s.cursor
  let (text, ended, c) := Plain.scan (s.flow ≠ 0) (s.indent + 1) (c.rest.length + 1) c
  return { s.push (.scalar true (String.ofList text)) with keyAllowed := ended, cursor := c }

/-- The marks that no plain scalar starts with; some of them may, before a character that is no gap. -/
def startsPlain (flow : Bool) (c : Cursor) : Bool :=
  match c.peek 0 with
  | none => false
  | some x =>
    if x = '-' then !c.gapAt 1
    else if x = '?' ∨ x = ':' then !flow && !c.gapAt 1
    else !isGap x && !(",[]\x7b\x7d#&*!|>'\"%@\u0060".toList.contains x)

/-- The next token, in front of which there is no gap any more. -/
def fetchAt (x : Char) (s : Scan) : Option Scan :=
  let c := s.cursor
  let inFlow := s.flow ≠ 0
  if x = '%' ∧ c.column = 0 then s.fetchBoundary .directive
  else if x = '-' ∧ c.column = 0 ∧ c.marksDocument then s.fetchBoundary .documentStart
  else if x = '.' ∧ c.column = 0 ∧ c.marksDocument then s.fetchBoundary .documentEnd
  else if x = '[' then s.fetchFlowStart .flowSequence
  else if x = '\x7b' then s.fetchFlowStart .flowMapping
  else if x = ']' then s.fetchFlowEnd .flowSequenceEnd
  else if x = '\x7d' then s.fetchFlowEnd .flowMappingEnd
  else if x = ',' then s.fetchFlowEntry
  else if x = '-' ∧ c.gapAt 1 then s.fetchBlockEntry
  else if x = '?' ∧ (inFlow ∨ c.gapAt 1) then s.fetchKey
  else if x = ':' ∧ (inFlow ∨ c.gapAt 1) then s.fetchValue
  else if x = '*' then s.fetchNode (scanName .alias)
  else if x = '&' then s.fetchNode (scanName .anchor)
  else if x = '!' then s.fetchNode scanTag
  else if (x = '|' ∨ x = '>') ∧ !inFlow then s.fetchBlockText (x = '>')
  else if x = '\'' ∨ x = '"' then s.fetchNode (scanQuoted x)
  else if startsPlain inFlow c then s.fetchPlain
  else none

/-- The end of the text closes all blocks. -/
def finish (s : Scan) : Option (Array Token) := do
  let s ← (s.unwind (-1)).dropKey
  return s.tokens

def run : Nat → Scan → Option (Array Token)
  | 0, _ => none
  | fuel + 1, s => do
    let s ← (s.skipGaps (s.cursor.rest.length + 1)).dropStale
    let s := s.unwind s.cursor.column
    match s.cursor.peek 0 with
    | none => s.finish
    | some x => run fuel (← s.fetchAt x)

end Scan

/-- The tokens of a text, unless it is not one of YAML. -/
def tokens? (cs : List Char) : Option (List Token) :=
  if !cs.all isPrintable then none
  else
    let c : Cursor := ⟨cs, 0, 0, 0⟩
    let c := if c.isAt 0 byteOrderMark then c.step else c
    (Scan.run (cs.length + 2) { cursor := c }).map Array.toList

end HuntDraw.Yaml
