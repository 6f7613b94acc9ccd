import HuntDraw.Yaml.Token

/-! The tree that the tokens of a YAML text make: scalars, sequences and mappings, with tags, anchors and
aliases where they are written. A text holds one document at most. -/

namespace HuntDraw.Yaml

inductive Node where
  | scalar (plain : Bool) (text : String)
  | list (items : List Node)
  | mapping (entries : List (Node × Node))
  | alias (name : String)
  | marked (tag anchor : Option String) (inner : Node)
  deriving Inhabited

namespace Node

/-- What stands where nothing is written. -/
def absent : Node := .scalar true ""

/-- A tag and an anchor, each at most once and in either order. -/
def marks : List Token → Option String × Option String × List Token
  | .tag t :: .anchor a :: rest => (some t, some a, rest)
  | .anchor a :: .tag t :: rest => (some t, some a, rest)
  | .tag t :: rest => (some t, none, rest)
  | .anchor a :: rest => (none, some a, rest)
  | rest => (none, none, rest)

/-- Whether one of the given tokens is next. -/
def nextIs (ts : List Token) (stops : List Token) : Bool := ts.head?.any stops.contains

def withMarks (tag anchor : Option String) (n : Node) : Node :=
  if tag.isSome ∨ anchor.isSome then .marked tag anchor n else n

mutual

/-- One node at the start of the tokens, in at most `fuel` steps. -/
def read (block bare : Bool) : Nat → List Token → Option (Node × List Token)
  | 0, _ => none
  | fuel + 1, ts =>
    match ts with
    | .alias name :: rest => some (.alias name, rest)
    | ts => do
      let (tag, anchor, ts) := marks ts
      let (n, ts) ← readBody block bare (tag.isSome || anchor.isSome) fuel ts
      return (withMarks tag anchor n, ts)

/-- A node behind its marks. A sequence that is a value may stand as deep as its key. -/
def readBody (block bare isMarked : Bool) : Nat → List Token → Option (Node × List Token)
  | 0, _ => none
  | fuel + 1, ts =>
    match ts with
    | .scalar plain text :: rest => some (.scalar plain text, rest)
    | .flowSequence :: rest => (readFlowItems true fuel rest).map fun p => (.list p.1, p.2)
    | .flowMapping :: rest => (readFlowEntries true fuel rest).map fun p => (.mapping p.1, p.2)
    | .blockEntry :: rest =>
      if bare then (readBareItems fuel (.blockEntry :: rest)).map fun p => (.list p.1, p.2)
      else if isMarked then some (absent, .blockEntry :: rest)
      else none
    | .blockSequence :: rest =>
      if block then (readItems fuel rest).map fun p => (.list p.1, p.2)
      else if isMarked then some (absent, .blockSequence :: rest)
      else none
    | .blockMapping :: rest =>
      if block then (readEntries fuel rest).map fun p => (.mapping p.1, p.2)
      else if isMarked then some (absent, .blockMapping :: rest)
      else none
    | ts => if isMarked then some (absent, ts) else none

/-- A node, or nothing where one of the given tokens follows. -/
def readUnless (stops : List Token) (block bare : Bool) : Nat → List Token → Option (Node × List Token)
  | 0, _ => none
  | fuel + 1, ts => if nextIs ts stops then some (absent, ts) else read block bare fuel ts

def readItems : Nat → List Token → Option (List Node × List Token)
  | 0, _ => none
  | fuel + 1, ts =>
    match ts with
    | .blockEntry :: rest => do
      let (n, rest) ← readUnless [.blockEntry, .blockEnd] true false fuel rest
      let (more, rest) ← readItems fuel rest
      return (n :: more, rest)
    | .blockEnd :: rest => some ([], rest)
    | _ => none

/-- A sequence that no indentation of its own closes. -/
def readBareItems : Nat → List Token → Option (List Node × List Token)
  | 0, _ => none
  | fuel + 1, ts =>
    match ts with
    | .blockEntry :: rest => do
      let (n, rest) ← readUnless [.blockEntry, .key, .value, .blockEnd] true false fuel rest
      let (more, rest) ← readBareItems fuel rest
      return (n :: more, rest)
    | ts => some ([], ts)

def readEntries : Nat → List Token → Option (List (Node × Node) × List Token)
  | 0, _ => none
  | fuel + 1, ts =>
    match ts with
    | .blockEnd :: rest => some ([], rest)
    | .key :: rest => do
      let (k, rest) ← readUnless [.key, .value, .blockEnd] true true fuel rest
      let (v, rest) ← readValue fuel rest
      let (more, rest) ← readEntries fuel rest
      return ((k, v) :: more, rest)
    | _ => none

/-- The value behind a key in a block. -/
def readValue : Nat → List Token → Option (Node × List Token)
  | 0, _ => none
  | fuel + 1, ts =>
    match ts with
    | .value :: rest => readUnless [.key, .value, .blockEnd] true true fuel rest
    | ts => some (absent, ts)

/-- The items of a sequence in brackets; a key among them is a mapping of its own. -/
def readFlowItems (first : Bool) : Nat → List Token → Option (List Node × List Token)
  | 0, _ => none
  | fuel + 1, ts =>
    match ts with
    | .flowSequenceEnd :: rest => some ([], rest)
    | ts => do
      let ts ← if first then some ts else match ts with
        | .flowEntry :: rest => some rest
        | _ => none
      match ts with
      | .flowSequenceEnd :: rest => return ([], rest)
      | .key :: rest =>
        let (k, rest) ← readUnless [.value, .flowEntry, .flowSequenceEnd] false false fuel rest
        let (v, rest) ← readFlowValue [.flowEntry, .flowSequenceEnd] fuel rest
        let (more, rest) ← readFlowItems false fuel rest
        return (.mapping [(k, v)] :: more, rest)
      | ts =>
        let (n, rest) ← read false false fuel ts
        let (more, rest) ← readFlowItems false fuel rest
        return (n :: more, rest)

def readFlowEntries (first : Bool) : Nat → List Token → Option (List (Node × Node) × List Token)
  | 0, _ => none
  | fuel + 1, ts =>
    match ts with
    | .flowMappingEnd :: rest => some ([], rest)
    | ts => do
      let ts ← if first then some ts else match ts with
        | .flowEntry :: rest => some rest
        | _ => none
      match ts with
      | .flowMappingEnd :: rest => return ([], rest)
      | .key :: rest =>
        let (k, rest) ← readUnless [.value, .flowEntry, .flowMappingEnd] false false fuel rest
        let (v, rest) ← readFlowValue [.flowEntry, .flowMappingEnd] fuel rest
        let (more, rest) ← readFlowEntries false fuel rest
        return ((k, v) :: more, rest)
      | ts =>
        let (k, rest) ← read false false fuel ts
        let (more, rest) ← readFlowEntries false fuel rest
        return ((k, absent) :: more, rest)

def readFlowValue (stops : List Token) : Nat → List Token → Option (Node × List Token)
  | 0, _ => none
  | fuel + 1, ts =>
    match ts with
    | .value :: rest => readUnless stops false false fuel rest
    | ts => some (absent, ts)

end

/-- The document at the start of the tokens, if there is one. -/
def readDocument (ts : List Token) : Option (Option Node × List Token) :=
  let node (ts : List Token) : Option (Option Node × List Token) :=
    (read true false (3 * ts.length + 3) ts).map fun p => (some p.1, p.2)
  match ts with
  | [] => some (none, [])
  | .directive :: _ | .documentStart :: _ =>
    match ts.dropWhile (· = .directive) with
    | .documentStart :: rest =>
      if rest.isEmpty ∨ nextIs rest [.directive, .documentStart, .documentEnd] then some (some absent, rest)
      else node rest
    | _ => none
  | ts => node ts

/-- The only document of a text; a text may hold none. -/
def ofText? (cs : List Char) : Option (Option Node) := do
  let (n, rest) ← readDocument (← tokens? cs)
  if rest.all (· = .documentEnd) then return n else none

end Node
end HuntDraw.Yaml
