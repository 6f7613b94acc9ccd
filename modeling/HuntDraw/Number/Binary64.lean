/-! Binary floating point numbers with 53 significant bits, as exact values. Every operation takes
the exact result and rounds it once, to the nearest number, a tie going to the even mantissa. -/

namespace HuntDraw

/-- Mantissas have at most 53 bits, so they stay below this. -/
abbrev mantissaLimit : Nat := 0x20000000000000

/-- Mantissas from this on have all bits. -/
abbrev fullMantissa : Nat := 0x10000000000000

/-- Each finite value has one mantissa and exponent: the mantissa is full unless the exponent is
already the least. -/
def Canonical (m : Nat) (e : Int) : Prop :=
  m < mantissaLimit ∧ -1074 ≤ e ∧ e ≤ 971 ∧ (e = -1074 ∨ fullMantissa ≤ m)

instance (m : Nat) (e : Int) : Decidable (Canonical m e) := by
  unfold Canonical
  infer_instance

/-- A finite number stands for `mantissa * 2 ^ exponent`, negated when `negative` is set. -/
inductive Binary64 where
  | nan
  | infinite (negative : Bool)
  | finite (negative : Bool) (mantissa : Nat) (exponent : Int) (canonical : Canonical mantissa exponent)
  deriving DecidableEq

/-- Why a number has no whole part. -/
inductive WholeFault where
  | infinite
  | nan
  deriving DecidableEq, Repr

/-- The quotient rounded to the nearest whole number, a half going to the even neighbour. -/
def divHalfEven (n d : Nat) : Nat :=
  let q := n / d
  let twice := 2 * (n % d)
  if twice < d then q else if d < twice then q + 1 else if q % 2 = 0 then q else q + 1

/-- The exponent of the leading binary digit of `n / d`, for positive `n` and `d`. -/
def leadingBit (n d : Nat) : Int :=
  let k : Int := (n.log2 : Int) - d.log2
  if d * Nat.pow 2 k.toNat ≤ n * Nat.pow 2 (-k).toNat then k else k - 1

namespace Binary64

def zero (negative : Bool) : Binary64 :=
  .finite negative 0 (-1074) ⟨by decide, by decide, by decide, .inl rfl⟩

/-- The number nearest to `n / d`. -/
def ofRatio (negative : Bool) (n d : Nat) : Binary64 :=
  if n = 0 then zero negative
  else
    let e := max (leadingBit n d - 52) (-1074)
    let m := divHalfEven (n * Nat.pow 2 (-e).toNat) (d * Nat.pow 2 e.toNat)
    let c := if m = mantissaLimit then (fullMantissa, e + 1) else (m, e)
    if h : Canonical c.1 c.2 then .finite negative c.1 c.2 h else .infinite negative

/-- Numerator of the magnitude of `m * 2 ^ e`. -/
def scaleNum (m : Nat) (e : Int) : Nat := m * Nat.pow 2 e.toNat

/-- Denominator of the magnitude of `m * 2 ^ e`. -/
def scaleDen (e : Int) : Nat := Nat.pow 2 (-e).toNat

/-- The signed multiple of `2 ^ unit` that `m * 2 ^ e` is, for `unit ≤ e`. -/
def multiple (negative : Bool) (m : Nat) (e unit : Int) : Int :=
  let n : Int := (m * Nat.pow 2 (e - unit).toNat : Nat)
  if negative then -n else n

def isNaN : Binary64 → Bool
  | .nan => true
  | _ => false

def isFinite : Binary64 → Bool
  | .finite .. => true
  | _ => false

def neg : Binary64 → Binary64
  | .nan => .nan
  | .infinite s => .infinite (!s)
  | .finite s m e h => .finite (!s) m e h

/-- Infinities of both signs have no sum; an exact zero is negative only as the sum of two negative
zeros. -/
def add : Binary64 → Binary64 → Binary64
  | .nan, _ | _, .nan => .nan
  | .infinite s, .infinite t => if s = t then .infinite s else .nan
  | .infinite s, _ => .infinite s
  | _, .infinite t => .infinite t
  | .finite s m e _, .finite t n f _ =>
    let unit := min e f
    let total := multiple s m e unit + multiple t n f unit
    if total = 0 then zero (s && t)
    else ofRatio (total < 0) (scaleNum total.natAbs unit) (scaleDen unit)

def sub (x y : Binary64) : Binary64 := add x (neg y)

def mul : Binary64 → Binary64 → Binary64
  | .nan, _ | _, .nan => .nan
  | .infinite s, .infinite t => .infinite (s != t)
  | .infinite s, .finite t n _ _ => if n = 0 then .nan else .infinite (s != t)
  | .finite s m _ _, .infinite t => if m = 0 then .nan else .infinite (s != t)
  | .finite s m e _, .finite t n f _ => ofRatio (s != t) (scaleNum (m * n) (e + f)) (scaleDen (e + f))

def div : Binary64 → Binary64 → Binary64
  | .nan, _ | _, .nan => .nan
  | .infinite _, .infinite _ => .nan
  | .infinite s, .finite t _ _ _ => .infinite (s != t)
  | .finite s _ _ _, .infinite t => zero (s != t)
  | .finite s m e _, .finite t n f _ =>
    if n = 0 then (if m = 0 then .nan else .infinite (s != t))
    else ofRatio (s != t) (scaleNum m e * scaleDen f) (scaleDen e * scaleNum n f)

/-- The exact remainder of the truncated quotient, with the sign of the dividend. -/
def remainder : Binary64 → Binary64 → Binary64
  | .finite s m e _, .finite _ n f _ =>
    if n = 0 then .nan
    else
      let unit := min e f
      let r := m * Nat.pow 2 (e - unit).toNat % (n * Nat.pow 2 (f - unit).toNat)
      if r = 0 then zero s else ofRatio s (scaleNum r unit) (scaleDen unit)
  | .finite s m e h, .infinite _ => .finite s m e h
  | _, _ => .nan

/-- The order of two numbers; a number that is not one is not ordered. Both zeros are equal. -/
def order? : Binary64 → Binary64 → Option Ordering
  | .nan, _ | _, .nan => none
  | .infinite s, .infinite t => some (compare (!s) (!t))
  | .infinite s, _ => some (if s then .lt else .gt)
  | _, .infinite t => some (if t then .gt else .lt)
  | .finite s m e _, .finite t n f _ =>
    let unit := min e f
    some (compare (multiple s m e unit) (multiple t n f unit))

def lt (x y : Binary64) : Bool := order? x y == some .lt

def le (x y : Binary64) : Bool := order? x y == some .lt || order? x y == some .eq

/-- Equality of values: the zeros are equal, and nothing equals what is not a number. -/
def same (x y : Binary64) : Bool := order? x y == some .eq

def isInteger : Binary64 → Bool
  | .finite _ m e _ => scaleNum m e % scaleDen e = 0
  | _ => false

/-- The greatest whole number that is not above. -/
def floor : Binary64 → Except WholeFault Int
  | .nan => .error .nan
  | .infinite _ => .error .infinite
  | .finite s m e _ =>
    let n : Int := (scaleNum m e : Nat)
    .ok ((if s then -n else n).fdiv (scaleDen e : Nat))

/-- The whole part, towards zero. -/
def truncate : Binary64 → Except WholeFault Int
  | .nan => .error .nan
  | .infinite _ => .error .infinite
  | .finite s m e _ =>
    let n : Int := (scaleNum m e / scaleDen e : Nat)
    .ok (if s then -n else n)

/-- The number nearest to a whole number, unless that is beyond the largest finite one. -/
def ofInt? (i : Int) : Option Binary64 :=
  match ofRatio (i < 0) i.natAbs 1 with
  | .infinite _ => none
  | x => some x

def ofNat (n : Nat) : Binary64 := ofRatio false n 1

/-- The number nearest to the quotient of two whole numbers, unless that is beyond the largest. -/
def ofQuotient? (a b : Int) : Option Binary64 :=
  match ofRatio (decide (a < 0) != decide (b < 0)) a.natAbs b.natAbs with
  | .infinite _ => none
  | x => some x

/-- The number nearest to the value rounded to `places` decimal places. -/
def roundPlaces (places : Nat) : Binary64 → Binary64
  | .finite s m e _ => ofRatio s (divHalfEven (scaleNum m e * Nat.pow 10 places) (scaleDen e)) (Nat.pow 10 places)
  | x => x

private def half : Binary64 := ofRatio false 1 2

/-- How many whole times a positive `y` goes into a positive `x`: the exact remainder is taken off,
and the rounded quotient of the rest is a whole number or within rounding of one. -/
def quotientFloor (x y : Binary64) : Binary64 :=
  let q := div (sub x (remainder x y)) y
  match floor q with
  | .error _ => q
  | .ok w =>
    let low := ofRatio (w < 0) w.natAbs 1
    if lt half (sub q low) then add low (ofNat 1) else low

end Binary64
end HuntDraw
