import HuntDraw.Draw.Fault
import HuntDraw.Draw.HuntCode

/-! Who and what enters a draw: the hunt codes with quota to give, their counters reset and their
pools sized, and the applicants who may still be awarded. -/

namespace HuntDraw

namespace HuntCode

def isDrawable (c : HuntCode) : Bool := c.isValid && c.isInDraw && c.quota.isSome

/-- Starts the counters of the draw at the balance that is left, and forgets the pools of earlier
draws. -/
def reset (c : HuntCode) : HuntCode :=
  let start := c.startBalance
  { c with
    drawQuota := start
    previousBalance := start
    balance := start
    drawBalance := start
    drawAwarded := 0
    nonResident := { c.nonResident with quota := none, balance := none, drawAwarded := 0 }
    resident := { c.resident with drawAwarded := 0 }
    reserved := { c.reserved with quota := none, balance := none } }

/-- Whether a code takes part under the rules: the reserved draw needs a reserved pool. -/
def takesPart (c : HuntCode) (config : DrawConfig) : Bool :=
  c.isDrawable && (!config.has .reserved || c.reserved.enabled)

/-- A percentage of the balance, rounded down. -/
def poolSize (percent : Binary64) (balance : Int) : Except DrawFault Int :=
  match Binary64.ofInt? balance with
  | none => .error .balanceTooLarge
  | some b =>
    match ((percent.mul b).div (Binary64.ofNat 100)).floor with
    | .ok n => .ok n
    | .error f => .error (.poolSize f)

/-- The non-resident pool at its share of the balance, where the cap is enforced and hard. -/
def sizeNonResident (c : HuntCode) (config : DrawConfig) : Except DrawFault NonResidentPool :=
  if config.has .nonResidentCap ∧ c.nonResident.hardCap then
    match c.nonResident.capPercent with
    | none => .error (.capMissing c.code)
    | some p => do
      let size ← poolSize p (c.balance.getD 0)
      return { c.nonResident with quota := some size, balance := some size }
  else .ok c.nonResident

/-- The reserved pool at its share of the balance, where it is what the draw hands out. -/
def sizeReserved (c : HuntCode) (config : DrawConfig) : Except DrawFault (Option ReservedPool) :=
  if config.has .reserved ∧ c.reserved.enabled then
    match c.reserved.capPercent with
    | none => .error (.reservedCapMissing c.code)
    | some p => do
      let size ← poolSize p (c.balance.getD 0)
      return some { c.reserved with quota := some size, balance := some size }
  else .ok none

/-- Sizes both pools. An active reserved pool limits the whole draw for the code. -/
def sizePools (c : HuntCode) (config : DrawConfig) : Except DrawFault HuntCode := do
  let nonResident ← c.sizeNonResident config
  match ← c.sizeReserved config with
  | some reserved =>
    return { c with nonResident, reserved, drawQuota := reserved.quota, drawBalance := reserved.quota }
  | none => return { c with nonResident, drawBalance := c.drawQuota }

end HuntCode

namespace Entry

/-- The codes that take part, reset. -/
def codes (codes : List HuntCode) (config : DrawConfig) : List HuntCode :=
  (codes.filter (·.takesPart config)).map HuntCode.reset

/-- Whether an applicant may still be awarded, and is on the list where there is one. -/
def isEligible (config : DrawConfig) (a : Applicant) : Bool :=
  a.outcome ≠ some .awarded && (config.applicants.isEmpty || config.applicants.contains (toString a.number))

/-- The applicants that may be awarded, with earlier outcomes cleared. -/
def applicants (applicants : List Applicant) (config : DrawConfig) : List Applicant :=
  (applicants.filter (isEligible config)).map Applicant.clear

end Entry
end HuntDraw
