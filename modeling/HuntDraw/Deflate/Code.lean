/-! Codes of variable length: the rarer a symbol, the longer its code. Codes longer than a limit are
shortened at the cost of others. -/

namespace HuntDraw.Deflate

/-- A tree of symbols, its weight, and how deep it is. -/
inductive Tree where
  | leaf (symbol weight : Nat)
  | fork (weight depth : Nat) (left right : Tree)
  deriving Inhabited

namespace Tree

def weight : Tree → Nat
  | leaf _ w => w
  | fork w _ _ _ => w

def depth : Tree → Nat
  | leaf _ _ => 0
  | fork _ d _ _ => d

def join (a b : Tree) : Tree := fork (a.weight + b.weight) (max a.depth b.depth + 1) a b

/-- Whether one tree goes before another: the lighter, then the shallower; of two equal ones the first. -/
def before (a b : Tree) : Bool := a.weight < b.weight || (a.weight = b.weight && a.depth ≤ b.depth)

/-- The symbols of a tree with their depths. -/
def depths (d : Nat) : Tree → List (Nat × Nat)
  | leaf s _ => [(s, d)]
  | fork _ _ a b => depths (d + 1) a ++ depths (d + 1) b

/-- How many trees within a tree are deeper than a limit. -/
def deeper (limit d : Nat) : Tree → Nat
  | leaf _ _ => if limit < d then 1 else 0
  | fork _ _ a b => (if limit < d then 1 else 0) + deeper limit (d + 1) a + deeper limit (d + 1) b

end Tree

/-- A heap: no tree goes before the one at half its place, counted from one. -/
abbrev Heap := Array Tree

namespace Heap

def at1 (h : Heap) (k : Nat) : Tree := h[k - 1]?.getD default

/-- Moves a tree down from place `k` until it goes before those below it, in at most `fuel` steps. -/
def sink (v : Tree) : Nat → Nat → Heap → Heap
  | 0, k, h => h.setIfInBounds (k - 1) v
  | fuel + 1, k, h =>
    let j := 2 * k
    if h.size < j then h.setIfInBounds (k - 1) v
    else
      let j := if j < h.size ∧ (h.at1 (j + 1)).before (h.at1 j) then j + 1 else j
      if v.before (h.at1 j) then h.setIfInBounds (k - 1) v
      else sink v fuel j (h.setIfInBounds (k - 1) (h.at1 j))

def sinkAt (h : Heap) (k : Nat) : Heap := sink (h.at1 k) h.size k h

def ofTrees (ts : List Tree) : Heap :=
  let h := ts.toArray
  (List.range (h.size / 2)).foldl (fun h i => sinkAt h (h.size / 2 - i)) h

/-- The first tree, and the heap without it. -/
def take (h : Heap) : Tree × Heap :=
  let last := h.at1 h.size
  (h.at1 1, sinkAt (h.pop.setIfInBounds 0 last) 1)

/-- Joins the first two trees until one is left: that tree, and all symbols in the order in which their
leaves were joined. -/
def joinAll : Nat → List Tree → Heap → Tree × List Tree
  | 0, joined, h => (h.at1 1, joined.reverse)
  | fuel + 1, joined, h =>
    if h.size < 2 then (h.at1 1, joined.reverse)
    else
      let (a, h) := h.take
      let b := h.at1 1
      joinAll fuel (b :: a :: joined) (sinkAt (h.setIfInBounds 0 (a.join b)) 1)

end Heap

/-- How many symbols have a code of each length. -/
abbrev Counts := Array Nat

namespace Counts

def of (counts : Counts) (n : Nat) : Nat := counts[n]?.getD 0

/-- Makes room for two codes that are too long: the longest code that is short enough becomes two. -/
def makeRoom (limit : Nat) (c : Counts) : Counts :=
  match ((List.range limit).reverse.find? fun n => c.of n ≠ 0) with
  | none => c
  | some n => ((c.modify n (· - 1)).modify (n + 1) (· + 2)).modify limit (· - 1)

def makeRooms (limit : Nat) : Nat → Counts → Counts
  | 0, c => c
  | n + 1, c => makeRooms limit n (c.makeRoom limit)

/-- The lengths in use, the greatest first. -/
def lengths (limit : Nat) (c : Counts) : List Nat :=
  ((List.range (limit + 1)).reverse.filter (0 < ·)).flatMap fun n => List.replicate (c.of n) n

end Counts

/-- The symbols that get a code: those in use, and others where there are less than two. -/
def coded (weights : Array Nat) : List (Nat × Nat) :=
  let used := (List.range weights.size).filterMap fun s =>
    let w := weights[s]?.getD 0
    if w = 0 then none else some (s, w)
  match used with
  | [] => [(0, 1), (1, 1)]
  | [(s, w)] => if s < 2 then [(s, w), (s + 1, 1)] else [(s, w), (0, 1)]
  | used => used

/-- The length of the code of each symbol; symbols without a code have none. -/
def codeLengths (limit : Nat) (weights : Array Nat) : Array Nat :=
  let leaves := (coded weights).map fun p => Tree.leaf p.1 p.2
  let (root, joined) := Heap.joinAll leaves.length [] (Heap.ofTrees leaves)
  let depths := root.depths 0
  let none := Array.replicate weights.size 0
  let excess := root.deeper limit 0
  if excess = 0 then depths.foldl (fun a p => a.setIfInBounds p.1 p.2) none
  else
    let counts := depths.foldl (fun c p => c.modify (min p.2 limit) (· + 1)) (Array.replicate (limit + 2) 0)
    let lengths := Counts.lengths limit (Counts.makeRooms limit ((excess + 1) / 2) counts)
    let symbols := joined.filterMap fun
      | .leaf s _ => some s
      | .fork .. => Option.none
    (symbols.zip lengths).foldl (fun a p => a.setIfInBounds p.1 p.2) none

end HuntDraw.Deflate
