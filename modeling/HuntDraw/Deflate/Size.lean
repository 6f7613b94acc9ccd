import HuntDraw.Deflate.Code
import HuntDraw.Deflate.Token

/-! How many bytes a row of bytes is compressed to. The tokens are written in blocks, each in whichever
form is the shortest: as it is, with the codes that are agreed upon, or with codes of its own, which
are written before it. -/

namespace HuntDraw.Deflate

/-- The symbols of lengths and distances: each starts a range whose offset takes some bits of its own. -/
def ranges (first : Nat) (bits : List Nat) : List (Nat × Nat) :=
  (bits.foldl (fun (acc : List (Nat × Nat) × Nat) b => ((acc.2, b) :: acc.1, acc.2 + Nat.pow 2 b)) ([], first)).1.reverse

def lengthRanges : Array (Nat × Nat) :=
  ((ranges 3 [0, 0, 0, 0, 0, 0, 0, 0, 1, 1, 1, 1, 2, 2, 2, 2, 3, 3, 3, 3, 4, 4, 4, 4, 5, 5, 5, 5]).toArray).push
    (258, 0)

def distanceRanges : Array (Nat × Nat) :=
  (ranges 1 [0, 0, 0, 0, 1, 1, 2, 2, 3, 3, 4, 4, 5, 5, 6, 6, 7, 7, 8, 8, 9, 9, 10, 10, 11, 11, 12, 12, 13, 13]).toArray

/-- The range that a value is in: the last one that starts at it or before. -/
def rangeOf (rs : Array (Nat × Nat)) (n : Nat) : Nat :=
  (rs.toList.takeWhile fun r => r.1 ≤ n).length - 1

def extraBits (rs : Array (Nat × Nat)) (k : Nat) : Nat := (rs[k]?.map (·.2)).getD 0

def endSymbol : Nat := 256
def firstLength : Nat := 257

/-- How often each symbol is used. -/
structure Usage where
  /-- Bytes, the end of the block, and lengths. -/
  symbols : Array Nat := (Array.replicate 286 0).setIfInBounds endSymbol 1
  distances : Array Nat := Array.replicate 30 0
  /-- The bits of the offsets within ranges. -/
  extra : Nat := 0

namespace Usage

def add (u : Usage) : Token → Usage
  | .literal b => { u with symbols := u.symbols.modify b.toNat (· + 1) }
  | .copy n d =>
    let k := rangeOf lengthRanges n
    let j := rangeOf distanceRanges d
    { symbols := u.symbols.modify (firstLength + k) (· + 1), distances := u.distances.modify j (· + 1)
      extra := u.extra + extraBits lengthRanges k + extraBits distanceRanges j }

end Usage

/-- The bits of symbols that are used so often, under codes of the given lengths. -/
def codeBits (lengths uses : Array Nat) : Nat := (lengths.zip uses).foldl (fun n p => n + p.1 * p.2) 0

/-- The lengths of the codes that are agreed upon. -/
def agreedLengths : Array Nat :=
  ((List.range 286).map fun s => if s < 144 then 8 else if s < 256 then 9 else if s < 280 then 7 else 8).toArray

def agreedBits (u : Usage) : Nat := codeBits agreedLengths u.symbols + 5 * u.distances.foldl (· + ·) 0 + u.extra

/-- The runs of equal lengths in a row. -/
def runs : List Nat → List (Nat × Nat)
  | [] => []
  | n :: rest =>
    match runs rest with
    | (m, count) :: more => if n = m then (m, count + 1) :: more else (n, 1) :: (m, count) :: more
    | [] => [(n, 1)]

/-- How a run of lengths is written, as symbols: 16 repeats the length before three to six times, 17 and 18
stand for three to ten and for eleven to 138 zeros. -/
def runSymbols (n : Nat) : Nat → Nat → List Nat
  | 0, _ => []
  | _, 0 => []
  | fuel + 1, count =>
    if n = 0 then
      let k := min count 138
      (if k < 3 then List.replicate k 0 else if k ≤ 10 then [17] else [18]) ++ runSymbols n fuel (count - k)
    else
      let k := min count 6
      (if k < 3 then List.replicate k n else [16]) ++ runSymbols n fuel (count - k)

/-- A run of one length other than none starts with that length; up to four of it may stand alone. -/
def wholeRun (n count : Nat) : List Nat :=
  if n = 0 then runSymbols 0 count count
  else if count < 4 then List.replicate count n
  else n :: runSymbols n count (count - 1)

def rowSymbols (lengths : List Nat) : List Nat := (runs lengths).flatMap fun r => wholeRun r.1 r.2

/-- The lengths up to the last one that is not none. -/
def trimmed (lengths : Array Nat) : List Nat := (lengths.toList.reverse.dropWhile (· = 0)).reverse

/-- The order in which the lengths of the codes for lengths are written. -/
def lengthOrder : List Nat := [16, 17, 18, 0, 8, 7, 9, 6, 10, 5, 11, 4, 12, 3, 13, 2, 14, 1, 15]

/-- The bits behind a symbol for lengths. -/
def repeatBits (s : Nat) : Nat := if s = 16 then 2 else if s = 17 then 3 else if s = 18 then 7 else 0

/-- The bits of the codes themselves, in front of a block with codes of its own. -/
def headerBits (symbols distances : Array Nat) : Nat :=
  let row := rowSymbols (trimmed symbols) ++ rowSymbols (trimmed distances)
  let uses := row.foldl (fun a s => a.modify s (· + 1)) (Array.replicate 19 0)
  let lengths := codeLengths 7 uses
  let last := (lengthOrder.reverse.dropWhile fun s => lengths[s]?.getD 0 = 0).length
  14 + 3 * max last 4 + codeBits lengths uses + row.foldl (fun n s => n + repeatBits s) 0

def ownBits (u : Usage) : Nat :=
  let symbols := codeLengths 15 u.symbols
  let distances := codeLengths 15 u.distances
  headerBits symbols distances + codeBits symbols u.symbols + codeBits distances u.distances + u.extra

/-- How far the bits are when a block is written behind `bits` others. -/
def blockEnd (bits : Nat) (block : List Token) : Nat :=
  let u := block.foldl Usage.add {}
  let plain := block.foldl (fun n t => n + t.span) 0
  let own := ownBits u
  let agreed := agreedBits u
  let least := min ((own + 10) / 8) ((agreed + 10) / 8)
  if plain + 4 ≤ least then (bits + 3 + 7) / 8 * 8 + 8 * (4 + plain)
  else if (agreed + 10) / 8 ≤ (own + 10) / 8 then bits + 3 + agreed
  else bits + 3 + own

/-- How many tokens a block holds. -/
def blockSize : Nat := 16383

/-- How far the bits are behind all blocks; the last one is not full. -/
def blocksEnd : Nat → Nat → List Token → Nat
  | 0, bits, _ => bits
  | fuel + 1, bits, ts =>
    if ts.length < blockSize then blockEnd bits ts
    else blocksEnd fuel (blockEnd bits (ts.take blockSize)) (ts.drop blockSize)

/-- The number of bytes that a row of bytes is compressed to. -/
def size (bs : Bytes) : Nat :=
  let ts := tokens bs.toArray
  (blocksEnd (ts.length + 1) 0 ts + 7) / 8

end HuntDraw.Deflate
