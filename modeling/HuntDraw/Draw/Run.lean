import HuntDraw.Draw.Bucket

/-! A whole draw: four rounds of buckets over the codes that take part, each round seeing the complete
outcome of the one before, and the results put back among all rows. -/

namespace HuntDraw

structure DrawResult where
  codes : List HuntCode
  applicants : List Applicant
  /-- The codes that took part, in the order in which they were met. -/
  used : List String
  deriving DecidableEq

namespace Draw

/-- The codes of a running draw, one entry for each code text, in order of first appearance. -/
abbrev Codes := Fields HuntCode

/-- What the rounds have done so far. -/
structure Progress where
  codes : Codes
  awarded : List Int := []
  winners : List Applicant := []
  deriving DecidableEq

/-- What a round is reported with. -/
structure RoundSummary where
  ordinal : Nat
  buckets : Nat
  awarded : Nat
  deriving DecidableEq, Repr

/-- The bucket of a code that is not drawn is left alone. -/
def runBucket (codes : Codes) (rules : List SortRule) (config : DrawConfig) (awarded : List Int)
    (b : Bucket) : Except DrawFault BucketResult :=
  match codes.get? b.code with
  | some c => b.process c rules config awarded
  | none => .ok { code := b.code }

/-- One bucket after the other; the first fault ends the round. -/
def runInTurn (codes : Codes) (rules : List SortRule) (config : DrawConfig) (awarded : List Int)
    (buckets : List Bucket) : Except DrawFault (List BucketResult) :=
  buckets.mapM (runBucket codes rules config awarded)

/-- The outcomes of buckets that all ran, gathered in the order in which they were handed out. -/
def gather : List (Except DrawFault BucketResult) → Except DrawFault (List BucketResult)
  | [] => .ok []
  | outcome :: rest => do
    let r ← outcome
    let rs ← gather rest
    return r :: rs

/-- Every bucket on a worker of its own, all from the state at the start of the round. -/
def runSideBySide (codes : Codes) (rules : List SortRule) (config : DrawConfig) (awarded : List Int)
    (buckets : List Bucket) : Except DrawFault (List BucketResult) :=
  gather (buckets.map (runBucket codes rules config awarded))

def runBuckets (codes : Codes) (rules : List SortRule) (config : DrawConfig) (awarded : List Int)
    (workers : Int) (buckets : List Bucket) : Except DrawFault (List BucketResult) :=
  if workers ≤ 1 ∨ buckets.length ≤ 1 then runInTurn codes rules config awarded buckets
  else runSideBySide codes rules config awarded buckets

/-- Counts the awards of one bucket. -/
def foldResult (config : DrawConfig) (p : Progress) (r : BucketResult) : Progress :=
  { codes := match p.codes.get? r.code with
      | some c => p.codes.put r.code (c.applyDelta r.delta config)
      | none => p.codes
    awarded := p.awarded ++ r.awarded.map Applicant.number
    winners := p.winners ++ r.awarded }

def pending (eligible : List Applicant) (awarded : List Int) : List Applicant :=
  eligible.filter fun a => a.number ∉ awarded

/-- Runs the round of one choice ordinal. -/
def round (rules : List SortRule) (config : DrawConfig) (workers : Int) (eligible : List Applicant)
    (p : Progress) (ordinal : Nat) : Except DrawFault (Progress × RoundSummary) := do
  let buckets ← Bucket.group p.codes.keys (pending eligible p.awarded) ordinal
  let results ← runBuckets p.codes rules config p.awarded workers buckets
  return (results.foldl (foldResult config) p,
    ⟨ordinal, buckets.length, (results.flatMap (·.awarded)).length⟩)

/-- The codes that take part, their pools sized; a repeated code keeps its place and its last row. -/
def enterCodes (codes : List HuntCode) (config : DrawConfig) : Except DrawFault Codes := do
  let sized ← (Entry.codes codes config).mapM fun c => c.sizePools config
  return Fields.ofPairs (sized.map fun c => (c.code, c))

def ordinals : List Nat := List.range' 1 Applicant.rounds

def rounds (rules : List SortRule) (config : DrawConfig) (workers : Int) (eligible : List Applicant)
    (codes : Codes) : Except DrawFault Progress :=
  ordinals.foldlM (fun p k => (·.1) <$> round rules config workers eligible p k) { codes }

/-- Drops what is left of a reserved pool. -/
def dropReserve (c : HuntCode) : Except DrawFault HuntCode :=
  if !c.reserved.enabled then .ok c
  else if c.reserved.balance ≠ c.drawBalance then .error (.diverged c.code)
  else .ok { c with
    balance := some (c.balance.getD 0 - c.reserved.balance.getD 0)
    drawBalance := some 0 }

/-- Unused reserved quota is dropped unless it may flow to the next draw. -/
def reconcile (codes : List HuntCode) (config : DrawConfig) : Except DrawFault (List HuntCode) :=
  if !config.has .reserved ∨ config.has .flow then .ok codes else codes.mapM dropReserve

/-- Every row, in its drawn state where its code took part, ordered by code. -/
def merge (rows drawn : List HuntCode) : List HuntCode :=
  let byCode := Fields.ofPairs (drawn.map fun c => (c.code, c))
  (rows.map fun c => (byCode.get? c.code).getD c).mergeSort fun a b => Text.le a.code b.code

/-- The result rows: the winners, and the eligible applicants whose numbers were not awarded. -/
def results (eligible : List Applicant) (p : Progress) : List Applicant :=
  p.winners ++ (pending eligible p.awarded).map Applicant.refuse

/-- The sort and the configuration, once both are there and the rules can rank. -/
def settings (sort : Option DrawSort) (config : Option DrawConfig) :
    Except DrawFault (List SortRule × DrawConfig) := do
  let some config := config | .error .configRequired
  let some sort := sort | .error .sortRequired
  Ranking.validate sort.rules
  return (sort.rules, config)

def run (codes : List HuntCode) (applicants : List Applicant) (sort : Option DrawSort)
    (config : Option DrawConfig) (workers : Int) : Except DrawFault DrawResult := do
  let (rules, config) ← settings sort config
  let entered ← enterCodes codes config
  let eligible := Entry.applicants applicants config
  let p ← rounds rules config workers eligible entered
  let ranked ← Ranking.sort rules (results eligible p)
  let drawn ← reconcile (p.codes.map (·.2)) config
  return ⟨merge codes drawn, ranked, p.codes.keys⟩

end Draw
end HuntDraw
