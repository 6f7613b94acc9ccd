import HuntDraw.Draw.Fault
import HuntDraw.Text.Case
import HuntDraw.Text.Order

/-! The order of texts in a draw: by their case foldings, with ties broken by the texts themselves.
A digit-aware key orders runs of digits by value, so that "HC9" comes before "HC10". -/

namespace HuntDraw

inductive KeyPart where
  | number (n : Nat)
  | text (s : String)
  deriving DecidableEq, Repr

/-- Numbers come before texts. -/
def KeyPart.order : KeyPart → KeyPart → Ordering
  | .number m, .number n => compare m n
  | .number _, .text _ => .lt
  | .text _, .number _ => .gt
  | .text s, .text t => Text.order s t

structure CollationKey where
  parts : List KeyPart
  raw : String
  deriving DecidableEq, Repr

namespace CollationKey

def orderParts : List KeyPart → List KeyPart → Ordering
  | [], [] => .eq
  | [], _ :: _ => .lt
  | _ :: _, [] => .gt
  | p :: ps, q :: qs => (p.order q).then (orderParts ps qs)

def order (a b : CollationKey) : Ordering := (orderParts a.parts b.parts).then (Text.order a.raw b.raw)

/-- The text cut into its longest runs of decimal digits and of other characters. -/
def digitRuns : List Char → List (List Char)
  | [] => []
  | c :: rest =>
    match digitRuns rest with
    | (d :: ds) :: runs =>
      if Text.isDecimal c = Text.isDecimal d then (c :: d :: ds) :: runs else [c] :: (d :: ds) :: runs
    | runs => [c] :: runs

/-- A run of digits is read by value; digits that no numeral is made of cannot be, nor can too many of them. -/
def partOf (run : List Char) : Except DrawFault KeyPart :=
  if run.all Text.isDigit then KeyPart.number <$> (Text.parseNumeral run).mapError .numeral
  else .ok (.text (String.ofList run))

def plain (s : String) : CollationKey := ⟨[.text (String.ofList (Text.foldCase s.toList))], s⟩

def ofText (s : String) (numeric : Bool) : Except DrawFault CollationKey :=
  if numeric then
    (fun parts => ⟨parts, s⟩) <$> (digitRuns (Text.foldCase s.toList)).mapM partOf
  else .ok (plain s)

end CollationKey
end HuntDraw
