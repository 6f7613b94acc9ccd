import HuntDraw.Draw.Entry
import HuntDraw.Draw.Ranking

/-! Buckets: the applicants who name the same code in one round, and the awards made among them. -/

namespace HuntDraw

structure Bucket where
  code : String
  ordinal : Int
  applicants : List Applicant := []
  deriving DecidableEq

/-- How many awards a bucket made. -/
structure Delta where
  residents : Int := 0
  nonResidents : Int := 0
  reserved : Int := 0
  deriving DecidableEq

def Delta.total (d : Delta) : Int := d.residents + d.nonResidents

structure BucketResult where
  code : String
  awarded : List Applicant := []
  delta : Delta := {}
  deriving DecidableEq

namespace Applicant

/-- The choice at an ordinal counted from one; ordinals below one count from the end. -/
def choice? (a : Applicant) (ordinal : Int) : Except DrawFault (Option String) :=
  if (a.choices.length : Int) < ordinal then .ok none
  else
    let i := if 1 ≤ ordinal then ordinal - 1 else a.choices.length + ordinal - 1
    if i < 0 then .error .noSuchChoice else .ok a.choices[i.toNat]?

end Applicant

namespace Bucket

/-- Adds an applicant to the bucket of a code, behind the others; a new bucket goes last. -/
def add (ordinal : Int) (code : String) (a : Applicant) : List Bucket → List Bucket
  | [] => [⟨code, ordinal, [a]⟩]
  | b :: rest =>
    if b.code = code then { b with applicants := b.applicants ++ [a] } :: rest
    else b :: add ordinal code a rest

/-- Blank choices and codes that are not drawn place nobody. -/
def placeStep (codes : List String) (ordinal : Int) (buckets : List Bucket)
    (p : Applicant × Option String) : List Bucket :=
  match p.2 with
  | some code => if code ≠ "" ∧ code ∈ codes then add ordinal code p.1 buckets else buckets
  | none => buckets

/-- The applicants grouped by their choice at an ordinal, in the order in which codes first appear. -/
def group (codes : List String) (applicants : List Applicant) (ordinal : Int) :
    Except DrawFault (List Bucket) := do
  let placed ← applicants.mapM fun a => (a, ·) <$> a.choice? ordinal
  return placed.foldl (placeStep codes ordinal) []

/-- The balances of a bucket while its ranked applicants are gone through. -/
structure Scan where
  total : Int
  nonResident : Option Int
  reserved : Option Int
  delta : Delta := {}
  winners : List Applicant := []
  deriving DecidableEq

def isOpen (balance : Option Int) : Bool := balance.isSome && balance ≠ some 0

/-- Whether the pools are open to an applicant. -/
def admits (config : DrawConfig) (c : HuntCode) (s : Scan) (a : Applicant) : Bool :=
  if config.has .reserved then a.isResident && isOpen s.reserved
  else if config.has .nonResidentCap then
    a.isResident || !c.nonResident.hardCap || isOpen s.nonResident
  else true

/-- The balances after an award to an applicant. -/
def charge (config : DrawConfig) (s : Scan) (a : Applicant) : Except DrawFault Scan :=
  match a.residency with
  | .nonResident =>
    .ok { s with
      total := s.total - 1
      nonResident := s.nonResident.map (· - 1)
      delta := { s.delta with nonResidents := s.delta.nonResidents + 1 } }
  | .resident =>
    let d := { s.delta with residents := s.delta.residents + 1 }
    .ok { s with
      total := s.total - 1
      reserved := if config.has .reserved then s.reserved.map (· - 1) else s.reserved
      delta := if config.has .reserved ∧ s.reserved.isSome then { d with reserved := d.reserved + 1 } else d }
  | .other _ => .error (.unknownResidency a.residency a.number)

/-- Goes on to one ranked applicant; nothing is left to give once the total is used up. -/
def scanStep (config : DrawConfig) (c : HuntCode) (ordinal : Int) (awarded : List Int) (s : Scan)
    (a : Applicant) : Except DrawFault Scan :=
  if s.total = 0 ∨ a.number ∈ awarded ∨ !admits config c s a then .ok s
  else (fun t => { t with winners := t.winners ++ [a.award c.code ordinal] }) <$> charge config s a

def startScan (c : HuntCode) : Scan :=
  { total := c.drawBalance.getD 0, nonResident := c.nonResident.balance, reserved := c.reserved.balance }

/-- Awards the code to the best ranked applicants that its pools are open to. -/
def process (b : Bucket) (c : HuntCode) (rules : List SortRule) (config : DrawConfig)
    (awarded : List Int) : Except DrawFault BucketResult :=
  if c.balance = some 0 then .ok { code := b.code }
  else do
    let ranked ← Ranking.sort rules b.applicants
    let s ← ranked.foldlM (scanStep config c b.ordinal awarded) (startScan c)
    return ⟨b.code, s.winners, s.delta⟩

end Bucket

/-- The code with the awards of one bucket counted. -/
def HuntCode.applyDelta (c : HuntCode) (d : Delta) (config : DrawConfig) : HuntCode :=
  { c with
    awarded := c.awarded + d.total
    drawAwarded := c.drawAwarded + d.total
    balance := some (c.balance.getD 0 - d.total)
    drawBalance := some (c.drawBalance.getD 0 - d.total)
    nonResident := { c.nonResident with
      drawAwarded := c.nonResident.drawAwarded + d.nonResidents
      awarded := c.nonResident.awarded + d.nonResidents
      balance := if config.has .nonResidentCap then c.nonResident.balance.map (· - d.nonResidents)
        else c.nonResident.balance }
    resident := {
      drawAwarded := c.resident.drawAwarded + d.residents
      awarded := c.resident.awarded + d.residents }
    reserved := { c.reserved with
      balance := if config.has .reserved then c.reserved.balance.map (· - d.residents)
        else c.reserved.balance } }

end HuntDraw
