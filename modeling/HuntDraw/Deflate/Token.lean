import HuntDraw.Text.Utf8

/-! Compression by repetition: a byte row as literal bytes and as copies of what came before. A copy is
put off by one byte as long as the next place has a longer one. -/

namespace HuntDraw.Deflate

inductive Token where
  | literal (b : UInt8)
  | copy (length distance : Nat)
  deriving DecidableEq, Repr

def leastLength : Nat := 3
def mostLength : Nat := 258

/-- How far back a copy may reach. -/
def mostDistance : Nat := 32506

/-- How far back a copy of the least length is worth it. -/
def shortReach : Nat := 4096

/-- How many earlier places are tried, and how many when there is a good copy to put off already. -/
def mostTries : Nat := 4096
def fewTries : Nat := 1024
def goodLength : Nat := 32

/-- A copy from an earlier place. -/
structure Copy where
  length : Nat
  source : Nat
  deriving DecidableEq, Repr

def Copy.none : Copy := ⟨leastLength - 1, 0⟩

/-- Places by the hash of the three bytes there, the latest first. -/
abbrev Chains := Array (List Nat)

def Chains.empty : Chains := Array.replicate 32768 []

def byteAt (data : Array UInt8) (i : Nat) : Nat := (data[i]?.getD 0).toNat

/-- The hash of three bytes. -/
def hashAt (data : Array UInt8) (i : Nat) : Nat :=
  ((byteAt data i <<< 10) ^^^ (byteAt data (i + 1) <<< 5) ^^^ byteAt data (i + 2)) % 32768

/-- Notes a place down; the last two bytes start nothing. -/
def Chains.note (data : Array UInt8) (chains : Chains) (i : Nat) : Chains :=
  if i + leastLength ≤ data.size then chains.modify (hashAt data i) (i :: ·) else chains

/-- The earlier places with the hash of a place. -/
def Chains.places (data : Array UInt8) (chains : Chains) (i : Nat) : List Nat :=
  if i + leastLength ≤ data.size then chains[hashAt data i]?.getD [] else []

/-- How many bytes are equal from two places on, at most `most`. -/
def commonLength (data : Array UInt8) (i j : Nat) : Nat → Nat
  | 0 => 0
  | most + 1 => if data[i]? = data[j]? then commonLength data (i + 1) (j + 1) most + 1 else 0

/-- The best copy for a place among the candidates: the first that is longer than all before it, and that
ends the search where it is long enough. -/
def bestCopy (data : Array UInt8) (i enough : Nat) (best : Copy) : List Nat → Copy
  | [] => best
  | p :: rest =>
    let n := commonLength data p i enough
    if best.length < n then
      if enough ≤ n then ⟨n, p⟩ else bestCopy data i enough ⟨n, p⟩ rest
    else bestCopy data i enough best rest

/-- The candidates of a place that are near enough. The first place of all is none, and only the latest
candidate may be as far away as can be. -/
def candidates (i : Nat) : List Nat → List Nat
  | [] => []
  | p :: rest =>
    if p = 0 ∨ mostDistance < i - p then [] else p :: rest.takeWhile fun q => i - mostDistance < q

/-- The copy that a place starts, given the one that was put off. -/
def copyAt (data : Array UInt8) (places : List Nat) (i : Nat) (before : Copy) : Copy :=
  let found := candidates i places
  if found.isEmpty ∨ mostLength ≤ before.length then Copy.none
  else
    let ahead := data.size - i
    let tries := if goodLength ≤ before.length then fewTries else mostTries
    let best := bestCopy data i (min mostLength ahead) before (found.take tries)
    let best : Copy := ⟨min best.length ahead, best.source⟩
    if best.length = leastLength ∧ shortReach < i - best.source then Copy.none else best

/-- The tokens from a place on: `before` is the copy that was put off, and `waiting` tells whether the
byte before the place has no token yet. At most `fuel` steps. -/
def tokensFrom (data : Array UInt8) : Nat → Nat → Chains → Copy → Bool → List Token
  | 0, _, _, _, _ => []
  | fuel + 1, i, chains, before, waiting =>
    let last := Token.literal (data[i - 1]?.getD 0)
    if data.size ≤ i then (if waiting then [last] else [])
    else
      let here := copyAt data (chains.places data i) i before
      let chains := chains.note data i
      if leastLength ≤ before.length ∧ here.length ≤ before.length then
        let chains := (List.range (before.length - 2)).foldl (fun c k => c.note data (i + 1 + k)) chains
        .copy before.length (i - 1 - before.source)
          :: tokensFrom data fuel (i - 1 + before.length) chains Copy.none false
      else if waiting then last :: tokensFrom data fuel (i + 1) chains here true
      else tokensFrom data fuel (i + 1) chains here true

def tokens (data : Array UInt8) : List Token := tokensFrom data (data.size + 1) 0 Chains.empty Copy.none false

/-- The bytes that a token stands for. -/
def Token.span : Token → Nat
  | literal _ => 1
  | copy n _ => n

end HuntDraw.Deflate
