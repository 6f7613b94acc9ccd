import HuntDraw.Number.Decimal

/-! Time: points and spans of it, and a clock that is moved by hand. -/

namespace HuntDraw

/-- What points in time and the spans between them can do. -/
class Timeline (T : Type) where
  ofNumber : Binary64 → T
  add : T → T → T
  le : T → T → Bool
  lt : T → T → Bool
  /-- How many times a span goes into another one. -/
  quotient : T → T → Except WholeFault Int
  text : T → String

instance : Timeline Binary64 where
  ofNumber x := x
  add := Binary64.add
  le := Binary64.le
  lt := Binary64.lt
  quotient x y := (x.quotientFloor y).truncate
  text := Binary64.text

/-- A clock, with the spans that were slept through. -/
structure Clock (T : Type) where
  now : T
  sleeps : List T := []

namespace Clock

variable {T : Type} [Timeline T]

def isNegative (span : T) : Bool := Timeline.lt span (Timeline.ofNumber (.zero false))

/-- Moves the clock on; time does not run backwards. -/
def advance (c : Clock T) (span : T) : Option (Clock T) :=
  if isNegative span then none else some { c with now := Timeline.add c.now span }

/-- Notes down a span that is slept through. -/
def note (c : Clock T) (span : T) : Clock T := { c with sleeps := c.sleeps ++ [span] }

end Clock
end HuntDraw
