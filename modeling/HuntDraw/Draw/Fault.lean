import HuntDraw.Draw.Applicant
import HuntDraw.Draw.Config

/-! Why a draw cannot be made: its inputs are inconsistent, or a number in them is out of reach. -/

namespace HuntDraw

inductive DrawFault where
  | configRequired
  | sortRequired
  | noRules
  | repeatedField (fields : List SortField)
  | capMissing (code : String)
  | reservedCapMissing (code : String)
  | unknownResidency (residency : Residency) (number : Int)
  | diverged (code : String)
  | balanceTooLarge
  | poolSize (fault : WholeFault)
  | shareTooLarge
  | numeral (fault : Text.NumeralFault)
  | noSuchChoice
  deriving DecidableEq, Repr

def WholeFault.message : WholeFault → String
  | .infinite => "cannot convert float infinity to integer"
  | .nan => "cannot convert float NaN to integer"

/-- The kind of error a number without a whole part is reported as. -/
def WholeFault.kind : WholeFault → String
  | .infinite => "OverflowError"
  | .nan => "ValueError"

namespace DrawFault

def message : DrawFault → String
  | configRequired => "Draw configuration is required"
  | sortRequired => "Draw sort is required"
  | noRules => "At least one sort rule is required"
  | repeatedField fields =>
    "Sort rules must not repeat a field: " ++ ", ".intercalate (fields.map SortField.text)
  | capMissing code => s!"Non-resident cap percent is missing for {code}"
  | reservedCapMissing code => s!"Reserved pool cap percent is missing for {code}"
  | unknownResidency r n => s!"Unhandled residency {Text.quoted r.text} for applicant {n}"
  | diverged code => s!"Reserved balance and draw balance diverged for {code}"
  | balanceTooLarge => "int too large to convert to float"
  | poolSize f => f.message
  | shareTooLarge => "integer division result too large for a float"
  | numeral f => f.message
  | noSuchChoice => "tuple index out of range"

def kind : DrawFault → String
  | balanceTooLarge | shareTooLarge => "OverflowError"
  | poolSize f => f.kind
  | numeral _ => "ValueError"
  | noSuchChoice => "IndexError"
  | _ => "DrawSemanticError"

end DrawFault
end HuntDraw
