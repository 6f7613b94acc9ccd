import HuntDraw.Yaml.Cursor

/-! Scalars as they stand in a YAML text: plain words, quoted texts and block texts. Lines that belong to
one scalar are folded, except in literal blocks. -/

namespace HuntDraw.Yaml

/-- A row of line breaks stands for itself but for the first one; one alone is a blank. -/
def fold (first : Char) (more : List Char) : List Char :=
  if first ≠ '\n' then first :: more else if more.isEmpty then [' '] else more

namespace Plain

def flowMark (c : Char) : Bool := ",[]\x7b\x7d".toList.contains c

/-- The length of the word that starts a text. A colon ends it only before a gap. -/
def wordLength (flow : Bool) : List Char → Nat
  | [] => 0
  | c :: rest =>
    let ends := isGap c || (c = ':' && (rest.head?.all fun d => isGap d || (flow && flowMark d)))
      || (flow && (flowMark c || c = '?'))
    if ends then 0 else wordLength flow rest + 1

/-- The breaks and spaces after a first break, and whether a mark of a document ends them. -/
def breaks : Nat → Cursor → List Char × Bool × Cursor
  | 0, c => ([], false, c)
  | fuel + 1, c =>
    if c.isAt 0 ' ' then breaks fuel c.step
    else
      match c.lineBreak? with
      | none => ([], false, c)
      | some (x, c) =>
        if c.marksDocument then ([x], true, c)
        else
          let (more, marked, c) := breaks fuel c
          (x :: more, marked, c)

/-- What joins two words, nothing where the scalar ends; and whether a line ended. -/
def gap (c : Cursor) : List Char × Bool × Cursor :=
  let spaces := c.rest.takeWhile (· = ' ')
  let c := c.skipSpaces
  match c.lineBreak? with
  | none => (spaces, false, c)
  | some (x, c) =>
    if c.marksDocument then ([], true, c)
    else
      let (more, marked, c) := breaks (c.rest.length + 1) c
      (if marked then [] else fold x more, true, c)

/-- The words of a plain scalar from here on, whether a line ended behind the last one, and the place. -/
def scan (flow : Bool) (indent : Int) : Nat → Cursor → List Char × Bool × Cursor
  | 0, c => ([], false, c)
  | fuel + 1, c =>
    let n := if c.isAt 0 '#' then 0 else wordLength flow c.rest
    if n = 0 then ([], false, c)
    else
      let word := c.rest.take n
      let (joint, ended, next) := gap (c.advance n)
      if joint.isEmpty ∨ next.isAt 0 '#' ∨ (!flow ∧ (next.column : Int) < indent) then (word, ended, next)
      else
        let (more, endedLater, last) := scan flow indent fuel next
        if more.isEmpty then (word, ended, next) else (word ++ joint ++ more, endedLater, last)

end Plain

namespace Quoted

/-- What single characters behind a backslash stand for. -/
def escapes : List (Char × Nat) :=
  [('0', 0), ('a', 7), ('b', 8), ('t', 9), ('\t', 9), ('n', 10), ('v', 11), ('f', 12), ('r', 13), ('e', 27),
   (' ', 32), ('"', 34), ('\\', 92), ('/', 47), ('N', 0x85), ('_', 0xA0), ('L', 0x2028), ('P', 0x2029)]

/-- How many hexadecimal digits follow a letter. -/
def codeLengths : List (Char × Nat) := [('x', 2), ('u', 4), ('U', 8)]

def isHex (c : Char) : Bool := c.isDigit || ('a' ≤ c && c ≤ 'f') || ('A' ≤ c && c ≤ 'F')

def hexValue (cs : List Char) : Nat :=
  cs.foldl (fun n c => 16 * n + (if c.isDigit then c.toNat - 48 else c.toLower.toNat - 87)) 0

/-- The breaks at the start of the lines of a quoted text. No mark of a document may stand there. -/
def breaks : Nat → Cursor → Option (List Char × Cursor)
  | 0, _ => none
  | fuel + 1, c =>
    if c.marksDocument then none
    else
      let c := c.skipWhile isSpace
      match c.lineBreak? with
      | none => some ([], c)
      | some (x, c) => (breaks fuel c).map fun p => (x :: p.1, p.2)

/-- What a gap in a quoted text stands for. -/
def gap (c : Cursor) : Option (List Char × Cursor) :=
  let spaces := c.rest.takeWhile isSpace
  let c := c.skipWhile isSpace
  match c.lineBreak? with
  | none => if c.rest.isEmpty then none else some (spaces, c)
  | some (x, c) => (breaks (c.rest.length + 1) c).map fun p => (fold x p.1, p.2)

/-- What stands behind a backslash. -/
def escape (c : Cursor) : Option (List Char × Cursor) := do
  let x ← c.peek 0
  match escapes.find? (·.1 = x) with
  | some e => return ([Char.ofNat e.2], c.step)
  | none =>
    match codeLengths.find? (·.1 = x) with
    | some e =>
      let ds := c.step.rest.take e.2
      if ds.length = e.2 ∧ ds.all isHex ∧ hexValue ds < 0x110000 then
        return ([Char.ofNat (hexValue ds)], c.advance (e.2 + 1))
      else none
    | none =>
      let (_, c) ← c.lineBreak?
      breaks (c.rest.length + 1) c

/-- The characters of a quoted text up to its closing quote. A quote written twice is one in a text in
single quotes; a backslash escapes in double quotes. -/
def scan (quote : Char) : Nat → Cursor → Option (List Char × Cursor)
  | 0, _ => none
  | fuel + 1, c => do
    let x ← c.peek 0
    if x = quote then
      if quote = '\'' ∧ c.isAt 1 '\'' then
        (scan quote fuel (c.advance 2)).map fun p => ('\'' :: p.1, p.2)
      else return ([], c.step)
    else
      let (cs, c) ←
        if quote = '"' ∧ x = '\\' then escape c.step
        else if isGap x then gap c
        else some ([x], c.step)
      (scan quote fuel c).map fun p => (cs ++ p.1, p.2)

end Quoted

namespace Block

/-- What a block does with the breaks that end it: it keeps one, all or none of them. -/
inductive Chomping where
  | clip
  | keep
  | strip
  deriving DecidableEq, Repr

def chomping? : Char → Option Chomping
  | '+' => some .keep
  | '-' => some .strip
  | _ => none

def increment? (c : Char) : Option Nat := if '1' ≤ c ∧ c ≤ '9' then some (c.toNat - 48) else none

/-- How a block ends and how deep it is, each once and in either order. -/
def header (c : Cursor) : Option (Chomping × Option Nat × Cursor) :=
  let chomped (c : Cursor) := ((c.peek 0).bind chomping?).map fun x => (x, c.step)
  let deep (c : Cursor) := ((c.peek 0).bind increment?).map fun x => (x, c.step)
  let (how, depth, c) := match chomped c, deep c with
    | some (how, c), _ =>
      match deep c with
      | some (n, c) => (how, some n, c)
      | none => (how, none, c)
    | none, some (n, c) =>
      match chomped c with
      | some (how, c) => (how, some n, c)
      | none => (.clip, some n, c)
    | none, none => (Chomping.clip, none, c)
  if c.gapAt 0 then some (how, depth, c) else none

/-- The rest of the line of a header holds nothing but a comment. -/
def ignoredLine (c : Cursor) : Option Cursor :=
  let c := c.skipSpaces
  let c := if c.isAt 0 '#' then c.skipWhile (fun x => !isBreak x) else c
  if c.rest.isEmpty then some c else c.lineBreak?.map (·.2)

/-- The breaks before the first line of a block, and the greatest depth up to it. -/
def depth : Nat → Nat → Cursor → List Char × Nat × Cursor
  | 0, deepest, c => ([], deepest, c)
  | fuel + 1, deepest, c =>
    if c.isAt 0 ' ' then depth fuel (max deepest c.step.column) c.step
    else
      match c.lineBreak? with
      | none => ([], deepest, c)
      | some (x, c) =>
        let (more, deepest, c) := depth fuel deepest c
        (x :: more, deepest, c)

/-- Skips the indentation of a line. -/
def skipIndent (indent : Nat) (c : Cursor) : Cursor :=
  c.advance (min (indent - c.column) (c.rest.takeWhile (· = ' ')).length)

/-- The breaks between two lines of a block. -/
def breaks (indent : Nat) : Nat → Cursor → List Char × Cursor
  | 0, c => ([], c)
  | fuel + 1, c =>
    let c := skipIndent indent c
    match c.lineBreak? with
    | none => ([], c)
    | some (x, c) =>
      let (more, c) := breaks indent fuel c
      (x :: more, c)

def goesOn (indent : Nat) (c : Cursor) : Bool := c.column = indent && !c.rest.isEmpty

/-- The lines of a block: their text, the break that ends the last one, and the breaks behind it. -/
def lines (folded : Bool) (indent : Nat) (before : List Char) : Nat → Cursor → List Char × List Char × List Char × Cursor
  | 0, c => ([], [], before, c)
  | fuel + 1, c =>
    if goesOn indent c then
      let leading := !(c.peek 0).any isSpace
      let text := c.rest.takeWhile fun x => !isBreak x
      let c := c.advance text.length
      let (ending, c) := match c.lineBreak? with
        | some (x, c) => ([x], c)
        | none => ([], c)
      let (more, c) := breaks indent (c.rest.length + 1) c
      if goesOn indent c then
        let joint :=
          if folded ∧ ending = ['\n'] ∧ leading ∧ !(c.peek 0).any isSpace then (if more.isEmpty then [' '] else [])
          else ending
        let (rest, last, behind, c) := lines folded indent more fuel c
        (before ++ text ++ joint ++ rest, last, behind, c)
      else (before ++ text, ending, more, c)
    else ([], [], before, c)

/-- A block text behind its mark, inside a collection that is `parent` deep. -/
def scan (folded : Bool) (parent : Int) (c : Cursor) : Option (List Char × Cursor) := do
  let (how, increment, c) ← header c
  let c ← ignoredLine c
  let least := (max (parent + 1) 1).toNat
  let (indent, before, c) := match increment with
    | none =>
      let (before, deepest, c) := depth (c.rest.length + 1) 0 c
      (max least deepest, before, c)
    | some n =>
      let (before, c) := breaks (least + n - 1) (c.rest.length + 1) c
      (least + n - 1, before, c)
  let (text, last, behind, c) := lines folded indent before (c.rest.length + 1) c
  return (text ++ (if how = .strip then [] else last) ++ (if how = .keep then behind else []), c)

end Block
end HuntDraw.Yaml
