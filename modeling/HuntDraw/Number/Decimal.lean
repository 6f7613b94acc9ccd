import HuntDraw.Number.Binary64

/-! Decimal numerals: the number nearest to one, the shortest one that reads back as a given number,
and the two ways such a numeral is laid out. -/

namespace HuntDraw

/-- The value `digits * 10 ^ exponent`. -/
structure Decimal where
  digits : Nat
  exponent : Int
  deriving DecidableEq, Repr

/-- How many decimal digits a number is written with. -/
def digitCount (n : Nat) : Nat := (Nat.toDigits 10 n).length

namespace Decimal

/-- The number nearest to the numeral. Numerals beyond the range on either side are settled by
their digit count, so that the powers of ten stay small. -/
def toBinary64 (negative : Bool) (d : Decimal) : Binary64 :=
  let top := d.exponent + digitCount d.digits
  if d.digits = 0 then .zero negative
  else if 400 < top then .infinite negative
  else if top < -400 then .zero negative
  else .ofRatio negative (d.digits * Nat.pow 10 d.exponent.toNat) (Nat.pow 10 (-d.exponent).toNat)

/-- Drops trailing zeros of the digits, at most `fuel` of them. -/
def trim : Nat → Decimal → Decimal
  | 0, d => d
  | fuel + 1, d =>
    if d.digits ≠ 0 ∧ d.digits % 10 = 0 then trim fuel ⟨d.digits / 10, d.exponent + 1⟩ else d

/-- The exponent of the leading decimal digit of `n / d`, for positive `n` and `d`. -/
def leading (n d : Nat) : Int :=
  if d ≤ n then digitCount (n / d) - 1
  else
    let k := digitCount (d / n)
    if d ≤ n * Nat.pow 10 (k - 1) then 1 - (k : Int) else -(k : Int)

/-- The exact value of `m * 2 ^ e`. -/
def exact (m : Nat) (e : Int) : Decimal :=
  if 0 ≤ e then ⟨m * Nat.pow 2 e.toNat, 0⟩ else ⟨m * Nat.pow 5 (-e).toNat, e⟩

/-- The two neighbours of `n / d` among the multiples of `10 ^ unit`, the nearer one first; at equal
distance the one with the even last digit. -/
def neighbours (n d : Nat) (unit : Int) : List Decimal :=
  let num := n * Nat.pow 10 (-unit).toNat
  let den := d * Nat.pow 10 unit.toNat
  let low : Decimal := ⟨num / den, unit⟩
  let high : Decimal := ⟨num / den + 1, unit⟩
  if num % den = 0 then [low]
  else if divHalfEven num den = num / den then [low, high] else [high, low]

/-- The numeral with the fewest digits that reads back as `m * 2 ^ e`, and of those the nearest;
seventeen digits are always enough. -/
def shortest (m : Nat) (e : Int) : Decimal :=
  let n := Binary64.scaleNum m e
  let d := Binary64.scaleDen e
  let top := leading n d
  let back (c : Decimal) : Bool := c.toBinary64 false = Binary64.ofRatio false n d
  let found := (List.range 17).findSome? fun (k : Nat) => (neighbours n d (top - (k : Int))).find? back
  let best := found.getD (exact m e)
  best.trim (digitCount best.digits)

end Decimal

/-- Where positional notation ends, and how the pieces are spelt. -/
structure FloatNotation where
  /-- The least exponent of the leading digit that is written positionally. -/
  least : Int
  /-- The first exponent of the leading digit that is written with an exponent. -/
  bound : Int
  /-- Whole values end in a point and a zero. -/
  pointZero : Bool
  /-- The least number of exponent digits. -/
  exponentWidth : Nat
  /-- A negative zero keeps its sign. -/
  signedZero : Bool
  deriving DecidableEq, Repr

namespace FloatNotation

/-- Numbers in records, cells and messages: positional from 0.0001 to below 10^16, and a whole value
ends in `.0`. -/
def plain : FloatNotation := ⟨-4, 16, true, 2, true⟩

/-- Numbers in canonical JSON: positional from 0.000001 to below 10^21, without a needless point or
zero. -/
def canonical : FloatNotation := ⟨-6, 21, false, 1, false⟩

def padLeft (width : Nat) (cs : List Char) : List Char :=
  List.replicate (width - cs.length) '0' ++ cs

def exponentMark (f : FloatNotation) (x : Int) : List Char :=
  ['e', if x < 0 then '-' else '+'] ++ padLeft f.exponentWidth (Nat.toDigits 10 x.natAbs)

/-- Lays out the digits of a positive numeral. -/
def layout (f : FloatNotation) (d : Decimal) : List Char :=
  let ds := Nat.toDigits 10 d.digits
  let lead : Int := d.exponent + ds.length - 1
  if lead < f.least ∨ f.bound ≤ lead then
    let point := if ds.length = 1 then [] else '.' :: ds.drop 1
    ds.take 1 ++ point ++ exponentMark f lead
  else if lead < 0 then
    '0' :: '.' :: (List.replicate (-lead - 1).toNat '0' ++ ds)
  else if 0 ≤ d.exponent then
    ds ++ List.replicate d.exponent.toNat '0' ++ (if f.pointZero then ['.', '0'] else [])
  else
    let whole := (lead + 1).toNat
    ds.take whole ++ '.' :: ds.drop whole

def render (f : FloatNotation) : Binary64 → List Char
  | .nan => "nan".toList
  | .infinite s => (if s then ['-'] else []) ++ "inf".toList
  | .finite s m e _ =>
    let sign := if s ∧ (m ≠ 0 ∨ f.signedZero) then ['-'] else []
    sign ++ (if m = 0 then (if f.pointZero then ['0', '.', '0'] else ['0']) else f.layout (Decimal.shortest m e))

end FloatNotation

/-- The plain text of a number. -/
def Binary64.text (x : Binary64) : String := String.ofList (FloatNotation.plain.render x)

end HuntDraw
