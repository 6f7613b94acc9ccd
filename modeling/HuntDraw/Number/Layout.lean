import HuntDraw.Number.Decimal

/-! Numbers with a given number of digits: behind the point, or of the mantissa. The exact value is
rounded, a half going to the even neighbour. -/

namespace HuntDraw.Layout

/-- The digits of a number, at least `width` of them. -/
def digits (width n : Nat) : List Char :=
  let ds := Nat.toDigits 10 n
  List.replicate (width - ds.length) '0' ++ ds

/-- A point before the digits, unless there are none and none is asked for. -/
def pointed (always : Bool) (ds : List Char) : List Char := if ds.isEmpty && !always then [] else '.' :: ds

/-- `n / d` with `places` digits behind the point. -/
def fixed (always : Bool) (places n d : Nat) : List Char :=
  let ds := digits (places + 1) (divHalfEven (n * Nat.pow 10 places) d)
  ds.take (ds.length - places) ++ pointed always (ds.drop (ds.length - places))

/-- The mantissa of `n / d` with `places` digits behind its leading one, and the exponent. -/
def mantissa (places n d : Nat) : Nat × Int :=
  if n = 0 then (0, 0)
  else
    let top := Decimal.leading n d
    let unit := top - places
    let m := divHalfEven (n * Nat.pow 10 (-unit).toNat) (d * Nat.pow 10 unit.toNat)
    if m = Nat.pow 10 (places + 1) then (m / 10, top + 1) else (m, top)

def exponentText (mark : Char) (x : Int) : List Char :=
  mark :: (if x < 0 then '-' else '+') :: digits 2 x.natAbs

/-- `n / d` with one digit before the point, `places` behind it, and an exponent. -/
def scientific (always : Bool) (mark : Char) (places n d : Nat) : List Char :=
  let (m, x) := mantissa places n d
  let ds := digits (places + 1) m
  ds.take 1 ++ pointed always (ds.drop 1) ++ exponentText mark x

/-- Without the zeros that end a fraction. -/
def trimFraction (cs : List Char) : List Char :=
  if cs.contains '.' then
    match cs.reverse.dropWhile (· = '0') with
    | '.' :: rest => rest.reverse
    | rest => rest.reverse
  else cs

/-- `n / d` with `significant` digits: positional from 0.0001 on, as long as the whole part has no more
digits than that. -/
def general (always : Bool) (mark : Char) (significant n d : Nat) : List Char :=
  let p := max significant 1
  let x := (mantissa (p - 1) n d).2
  if -4 ≤ x ∧ x < p then
    let cs := fixed always (p - 1 - x).toNat n d
    if always then cs else trimFraction cs
  else
    let cs := scientific always mark (p - 1) n d
    if always then cs
    else trimFraction (cs.takeWhile (· ≠ mark)) ++ cs.dropWhile (· ≠ mark)

end HuntDraw.Layout
