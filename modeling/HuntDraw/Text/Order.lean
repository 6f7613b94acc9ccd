/-! The order of texts by code point, and by the 16-bit units that canonical documents sort by. -/

namespace HuntDraw.Text

/-- Lexicographic order of lists of numbers; a proper beginning comes first. -/
def orderNats : List Nat → List Nat → Ordering
  | [], [] => .eq
  | [], _ :: _ => .lt
  | _ :: _, [] => .gt
  | a :: as, b :: bs => (compare a b).then (orderNats as bs)

def codePoints (s : String) : List Nat := s.toList.map Char.toNat

/-- Order by code point. -/
def order (a b : String) : Ordering := orderNats (codePoints a) (codePoints b)

def le (a b : String) : Bool := (order a b).isLE

/-- The 16-bit units of one character: a pair beyond the basic plane. -/
def charUnits16 (c : Char) : List Nat :=
  let n := c.toNat
  if n < 0x10000 then [n] else [0xD800 + (n - 0x10000) / 0x400, 0xDC00 + (n - 0x10000) % 0x400]

def units16 (cs : List Char) : List Nat := cs.flatMap charUnits16

/-- Order by 16-bit units. -/
def order16 (a b : List Char) : Ordering := orderNats (units16 a) (units16 b)

/-- The texts sorted by code point. -/
def sorted (xs : List String) : List String := xs.mergeSort le

/-- The pieces between occurrences of a separator character. -/
def splitChars (sep : Char) : List Char → List (List Char)
  | [] => [[]]
  | c :: rest =>
    match splitChars sep rest with
    | [] => [[c]]
    | piece :: pieces => if c = sep then [] :: piece :: pieces else (c :: piece) :: pieces

def split (sep : Char) (s : String) : List String := (splitChars sep s.toList).map String.ofList

def startsWith (s start : String) : Bool := start.toList.isPrefixOf s.toList

def endsWith (s ending : String) : Bool := ending.toList.isSuffixOf s.toList

def join (sep : String) (parts : List String) : String := sep.intercalate parts

end HuntDraw.Text
