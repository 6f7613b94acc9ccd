import HuntDraw.Proofs.Draw.Result
import Mathlib.Logic.Relation

/-! Rounds in any order. The buckets of a round end in whatever order, each run against the state at the
start of the round; once all have ended their outcomes are asked for in the order in which the buckets were
handed out, and the results are counted in whatever order. Whichever orders the rounds take, they come to
the same codes, numbers and winners as one bucket after the other, or to the same fault. -/

namespace HuntDraw.Draw

open Attempt Relation

/-- The buckets of a round that have ended, in the order in which they did, and what came of each. -/
abbrev Ended := List (Bucket × Except DrawFault BucketResult)

/-- A round under way: what the draw has come to, the buckets that have not ended, those that have, and,
once the outcomes were asked for, the results that are still to be counted. -/
structure Desk where
  progress : Progress
  waiting : List Bucket
  ended : Ended := []
  uncounted : Option (List BucketResult) := none

def collect (buckets : List Bucket) (ended : Ended) : Except DrawFault (List BucketResult) :=
  gather (buckets.filterMap fun b => (ended.find? (·.1 = b)).map (·.2))

inductive Desk.Step (rules : List SortRule) (config : DrawConfig) (buckets : List Bucket) : Desk → Desk → Prop
  /-- Any bucket that waits may be the next to end. -/
  | finish (p : Progress) (before : List Bucket) (b : Bucket) (after : List Bucket) (ended : Ended) :
    Step rules config buckets ⟨p, before ++ b :: after, ended, none⟩
      ⟨p, before ++ after, ended ++ [(b, runBucket p.codes rules config p.awarded b)], none⟩
  /-- When none waits, the outcomes are asked for. -/
  | collect (p : Progress) (ended : Ended) (results : List BucketResult)
    (h : collect buckets ended = .ok results) :
    Step rules config buckets ⟨p, [], ended, none⟩ ⟨p, [], ended, some results⟩
  /-- Any result may be the next to be counted. -/
  | count (p : Progress) (ended : Ended) (before : List BucketResult) (r : BucketResult)
    (after : List BucketResult) :
    Step rules config buckets ⟨p, [], ended, some (before ++ r :: after)⟩
      ⟨foldResult config p r, [], ended, some (before ++ after)⟩

/-- How a round may end: with all results counted, or with the first fault that is met when the outcomes
are asked for. -/
inductive RoundEnds (rules : List SortRule) (config : DrawConfig) (eligible : List Applicant) (p : Progress)
    (k : Nat) : Except DrawFault Progress → Prop
  | counted {buckets : List Bucket} {ended : Ended} {q : Progress}
    (hgroup : Bucket.group p.codes.keys (pending eligible p.awarded) k = .ok buckets)
    (hsteps : ReflTransGen (Desk.Step rules config buckets) ⟨p, buckets, [], none⟩ ⟨q, [], ended, some []⟩) :
    RoundEnds rules config eligible p k (.ok q)
  | failed {buckets : List Bucket} {ended : Ended} {q : Progress} {f : DrawFault}
    (hgroup : Bucket.group p.codes.keys (pending eligible p.awarded) k = .ok buckets)
    (hsteps : ReflTransGen (Desk.Step rules config buckets) ⟨p, buckets, [], none⟩ ⟨q, [], ended, none⟩)
    (hfault : collect buckets ended = .error f) :
    RoundEnds rules config eligible p k (.error f)

/-- What so many rounds may come to, each of them in any order. A fault ends the draw. -/
inductive InAnyOrder (rules : List SortRule) (config : DrawConfig) (eligible : List Applicant) (codes : Codes) :
    Nat → Except DrawFault Progress → Prop
  | start : InAnyOrder rules config eligible codes 0 (.ok { codes })
  | round {k : Nat} {p : Progress} {outcome : Except DrawFault Progress}
    (h : InAnyOrder rules config eligible codes k (.ok p))
    (hround : RoundEnds rules config eligible p (k + 1) outcome) :
    InAnyOrder rules config eligible codes (k + 1) outcome
  | stopped {k : Nat} {f : DrawFault} (h : InAnyOrder rules config eligible codes k (.error f)) :
    InAnyOrder rules config eligible codes (k + 1) (.error f)

def inTurn (rules : List SortRule) (config : DrawConfig) (eligible : List Applicant) (codes : Codes) (k : Nat) :
    Except DrawFault Progress :=
  (List.range' 1 k).foldlM (fun p j => Prod.fst <$> round rules config 1 eligible p j) { codes }

structure Progress.Agrees (q p : Progress) : Prop where
  codes : q.codes = p.codes
  awarded : ∀ n, n ∈ q.awarded ↔ n ∈ p.awarded
  winners : q.winners.Perm p.winners

def Agree : Except DrawFault Progress → Except DrawFault Progress → Prop
  | .ok q, .ok p => q.Agrees p
  | .error f, .error g => f = g
  | _, _ => False

variable {rules : List SortRule} {config : DrawConfig} {workers : Int} {eligible : List Applicant}
  {codes : Codes} {p q : Progress} {k : Nat} {results counted : List BucketResult} {buckets : List Bucket}
  {ended : Ended} {outcome : Except DrawFault Progress} {d e : Desk}

theorem runBucket_code {awarded : List Int} {b : Bucket} {r : BucketResult}
    (h : runBucket codes rules config awarded b = .ok r) : r.code = b.code := by
  rw [runBucket] at h
  split at h
  · obtain ⟨ws, hproc⟩ := Bucket.process_processed h
    exact hproc.code
  · rw [← Except.ok.inj h]

namespace Agree

variable {x y z : Except DrawFault Progress}

theorem of_ok (h : Agree (.ok q) x) : ∃ p, x = .ok p ∧ q.Agrees p := by
  cases x with
  | error f => exact h.elim
  | ok p => exact ⟨p, rfl, h⟩

theorem of_error {f : DrawFault} (h : Agree (.error f) x) : x = .error f := by
  cases x with
  | error g => exact congrArg _ (Eq.symm h)
  | ok p => exact h.elim

theorem trans (hxy : Agree x y) (hyz : Agree y z) : Agree x z := by
  cases x with
  | error f => rwa [hxy.of_error] at hyz
  | ok q =>
    obtain ⟨p, rfl, hqp⟩ := hxy.of_ok
    obtain ⟨o, rfl, hpo⟩ := hyz.of_ok
    exact ⟨hqp.codes.trans hpo.codes, fun n => (hqp.awarded n).trans (hpo.awarded n),
      hqp.winners.trans hpo.winners⟩

end Agree

theorem Progress.Agrees.refl (p : Progress) : p.Agrees p := ⟨rfl, fun _ => Iff.rfl, .refl _⟩

theorem Progress.Agrees.runBucket_eq (h : q.Agrees p) :
    runBucket q.codes rules config q.awarded = runBucket p.codes rules config p.awarded := by
  funext b
  rw [runBucket, runBucket, h.codes]
  cases p.codes.get? b.code with
  | none => rfl
  | some c => exact Bucket.process_congr rfl rfl rfl h.awarded

theorem Progress.Agrees.pending_eq (h : q.Agrees p) : pending eligible q.awarded = pending eligible p.awarded :=
  List.filter_congr fun a _ => by simp only [h.awarded]

/-- A code is billed with its own result, whichever results are counted before it. -/
theorem foldl_bill_perm (hnodup : (results.map BucketResult.code).Nodup) (hperm : counted.Perm results)
    (c : String) (h : HuntCode) : counted.foldl (bill config c) h = results.foldl (bill config c) h := by
  have hnodup' : (counted.map BucketResult.code).Nodup := (hperm.map _).nodup_iff.2 hnodup
  by_cases hc : c ∈ results.map BucketResult.code
  · obtain ⟨r, hr, rfl⟩ := List.mem_map.1 hc
    rw [foldl_bill_of_mem h hnodup hr, foldl_bill_of_mem h hnodup' (hperm.mem_iff.2 hr)]
  · have hc' : c ∉ counted.map BucketResult.code := fun hmem => hc ((hperm.map _).mem_iff.1 hmem)
    rw [foldl_bill_of_notMem h hc, foldl_bill_of_notMem h hc']

theorem Progress.Agrees.foldl_foldResult (h : q.Agrees p) (hp : p.codes.keys.Nodup)
    (hnodup : (results.map BucketResult.code).Nodup) (hperm : counted.Perm results) :
    (counted.foldl (foldResult config) q).Agrees (results.foldl (foldResult config) p) := by
  obtain ⟨hwinners, hawarded⟩ := foldl_foldResult_winners config p results
  obtain ⟨hwinners', hawarded'⟩ := foldl_foldResult_winners config q counted
  have hawards : (counted.flatMap (·.awarded)).Perm (results.flatMap (·.awarded)) := hperm.flatMap_right _
  refine ⟨?_, fun n => ?_, ?_⟩
  · rw [foldl_foldResult_codes hp, foldl_foldResult_codes (h.codes ▸ hp), h.codes]
    exact List.map_congr_left fun e _ => Prod.ext rfl (foldl_bill_perm hnodup hperm e.1 e.2)
  · rw [hawarded, hawarded', List.mem_append, List.mem_append, h.awarded, (hawards.map _).mem_iff]
  · rw [hwinners, hwinners']
    exact h.winners.append hawards

theorem round_fst (hk : 1 ≤ k) : Prod.fst <$> round rules config workers eligible p k =
    (List.foldl (foldResult config) p) <$> (Bucket.ofRound p.codes.keys k (pending eligible p.awarded)).mapM
      (runBucket p.codes rules config p.awarded) := by
  rw [round, Bucket.group_eq _ _ hk]
  simp only [runBuckets_eq]
  change Prod.fst <$> ((Bucket.ofRound p.codes.keys k (pending eligible p.awarded)).mapM
    (runBucket p.codes rules config p.awarded) >>= _) = _
  cases (Bucket.ofRound p.codes.keys k (pending eligible p.awarded)).mapM
    (runBucket p.codes rules config p.awarded) <;> rfl

theorem inTurn_succ (rules : List SortRule) (config : DrawConfig) (eligible : List Applicant) (codes : Codes)
    (k : Nat) : inTurn rules config eligible codes (k + 1) =
      inTurn rules config eligible codes k >>= fun p => Prod.fst <$> round rules config 1 eligible p (k + 1) := by
  rw [inTurn, List.range'_1_concat, List.foldlM_append, Nat.add_comm 1 k]
  simp only [List.foldlM_cons, List.foldlM_nil, bind_pure]
  rfl

theorem nodup_codes {awarded : List Int} {keys : List String} {xs : List Applicant}
    (h : (Bucket.ofRound keys k xs).mapM (runBucket codes rules config awarded) = .ok results) :
    (results.map BucketResult.code).Nodup := by
  rw [mapM_map_eq h fun b _ r hr => runBucket_code hr]
  exact nodup_ofRound _ _ _

/-- What is known of a round under way that began at `p`: until the outcomes are asked for nothing is counted,
and every bucket that ended did so as it does at the start of the round; after that, what was counted is a
part of the results. -/
structure Desk.Sound (rules : List SortRule) (config : DrawConfig) (buckets : List Bucket) (p : Progress)
    (d : Desk) : Prop where
  running : d.uncounted = none → d.progress = p ∧ (d.ended.map Prod.fst ++ d.waiting).Perm buckets ∧
    ∀ e ∈ d.ended, e.2 = runBucket p.codes rules config p.awarded e.1
  counting : ∀ rest, d.uncounted = some rest → ∃ counted results,
    buckets.mapM (runBucket p.codes rules config p.awarded) = .ok results ∧
    (counted ++ rest).Perm results ∧ d.progress = counted.foldl (foldResult config) p

/-- Once all buckets have ended, their outcomes are those of one after the other. -/
theorem collect_eq (hperm : (ended.map Prod.fst).Perm buckets)
    (hended : ∀ e ∈ ended, e.2 = runBucket p.codes rules config p.awarded e.1) :
    collect buckets ended = buckets.mapM (runBucket p.codes rules config p.awarded) := by
  have hfound : ∀ b ∈ buckets, (ended.find? (·.1 = b)).map (·.2) =
      some (runBucket p.codes rules config p.awarded b) := by
    intro b hb
    obtain ⟨e, he, rfl⟩ := List.mem_map.1 (hperm.mem_iff.2 hb)
    obtain ⟨e', hfind⟩ : ∃ e', ended.find? (·.1 = e.1) = some e' := by
      rw [← Option.isSome_iff_exists, List.find?_isSome]
      exact ⟨e, he, decide_eq_true rfl⟩
    have hsame : e'.1 = e.1 := by simpa using List.find?_some hfind
    rw [hfind, Option.map_some, hended e' (List.mem_of_find?_eq_some hfind), hsame]
  rw [collect, List.filterMap_congr hfound, ← gather_eq]
  exact congrArg gather (congrFun List.filterMap_eq_map' buckets)

theorem Desk.Step.sound (h : Desk.Step rules config buckets d e) (hd : d.Sound rules config buckets p) :
    e.Sound rules config buckets p := by
  cases h with
  | finish q before b after ended =>
    obtain ⟨hq, hperm, hended⟩ := hd.running rfl
    obtain rfl : q = p := hq
    refine ⟨fun _ => ⟨rfl, ?_, fun e he => ?_⟩, fun _ hrest => (nomatch hrest)⟩
    · have hmiddle : (b :: (before ++ after)).Perm (before ++ b :: after) := List.perm_middle.symm
      rw [List.map_append, List.append_assoc]
      exact (hmiddle.append_left _).trans hperm
    · rcases List.mem_append.1 he with he | he
      · exact hended e he
      · rw [List.mem_singleton.1 he]
  | collect q ended results hcollect =>
    obtain ⟨hq, hperm, hended⟩ := hd.running rfl
    refine ⟨(nomatch ·), fun rest hrest => ⟨[], results, ?_, ?_, hq⟩⟩
    · rw [← hcollect, collect_eq (by simpa using hperm) hended]
    · rw [← Option.some.inj hrest]
      exact .refl _
  | count q ended before r after =>
    obtain ⟨counted, results, hresults, hperm, hq⟩ := hd.counting _ rfl
    refine ⟨(nomatch ·), fun rest hrest => ⟨counted ++ [r], results, hresults, ?_, ?_⟩⟩
    · have hmiddle : (r :: (before ++ after)).Perm (before ++ r :: after) := List.perm_middle.symm
      rw [← Option.some.inj hrest, List.append_assoc]
      exact (hmiddle.append_left _).trans hperm
    · rw [List.foldl_concat, ← hq]

theorem steps_sound (h : ReflTransGen (Desk.Step rules config buckets) ⟨p, buckets, [], none⟩ d) :
    d.Sound rules config buckets p := by
  induction h with
  | refl => exact ⟨fun _ => ⟨rfl, .refl _, by simp⟩, fun _ hrest => (nomatch hrest)⟩
  | tail _ hstep ih => exact hstep.sound ih

theorem RoundEnds.agree (hk : 1 ≤ k) (hp : p.codes.keys.Nodup)
    (h : RoundEnds rules config eligible p k outcome) :
    Agree outcome (Prod.fst <$> Draw.round rules config 1 eligible p k) := by
  rw [round_fst hk]
  cases h with
  | counted hgroup hsteps =>
    rw [Bucket.group_eq _ _ hk, Except.ok.injEq] at hgroup
    subst hgroup
    obtain ⟨counted, results, hresults, hperm, rfl⟩ := (steps_sound hsteps).counting [] rfl
    rw [hresults]
    exact (Progress.Agrees.refl p).foldl_foldResult hp (nodup_codes hresults) (by simpa using hperm)
  | failed hgroup hsteps hfault =>
    rw [Bucket.group_eq _ _ hk, Except.ok.injEq] at hgroup
    subst hgroup
    obtain ⟨-, hperm, hended⟩ := (steps_sound hsteps).running rfl
    rw [collect_eq (by simpa using hperm) hended] at hfault
    rw [hfault]
    exact rfl

theorem Progress.Agrees.round (h : q.Agrees p) (hp : p.codes.keys.Nodup) (hk : 1 ≤ k) :
    Agree (Prod.fst <$> Draw.round rules config 1 eligible q k)
      (Prod.fst <$> Draw.round rules config 1 eligible p k) := by
  rw [round_fst hk, round_fst hk, h.runBucket_eq, h.pending_eq, h.codes]
  cases hresults : (Bucket.ofRound p.codes.keys k (pending eligible p.awarded)).mapM
    (runBucket p.codes rules config p.awarded) with
  | error f => exact rfl
  | ok results => exact h.foldl_foldResult hp (nodup_codes hresults) (.refl _)

theorem InAnyOrder.keys (hcodes : codes.keys.Nodup) (h : InAnyOrder rules config eligible codes k (.ok p)) :
    p.codes.keys = codes.keys := by
  -- rounds are added to outcomes, so that the one in the statement has to be any of them
  generalize hp : (.ok p : Except DrawFault Progress) = outcome at h
  induction h generalizing p with
  | start => rw [Except.ok.inj hp]
  | stopped => exact nomatch hp
  | @round k q outcome _ hround ih =>
    subst hp
    have hq := ih rfl
    cases hround with
    | counted hgroup hsteps =>
      obtain ⟨counted, -, -, -, rfl⟩ := (steps_sound hsteps).counting [] rfl
      rw [foldl_foldResult_keys (hq ▸ hcodes), hq]

theorem InAnyOrder.agree (hcodes : codes.keys.Nodup) (h : InAnyOrder rules config eligible codes k outcome) :
    Agree outcome (inTurn rules config eligible codes k) := by
  induction h with
  | start => exact Progress.Agrees.refl _
  | stopped _ ih =>
    rw [inTurn_succ, ih.of_error]
    exact rfl
  | round h hround ih =>
    obtain ⟨p, hp, hqp⟩ := ih.of_ok
    have hkeys := h.keys hcodes ▸ hcodes
    rw [inTurn_succ, hp]
    -- from where this run stands the round is as good as in turn, and in turn both stand alike
    exact (hround.agree (by omega) hkeys).trans (hqp.round (hqp.codes ▸ hkeys) (by omega))

theorem exists_ended (rules : List SortRule) (config : DrawConfig) (buckets : List Bucket) (p : Progress)
    (waiting : List Bucket) (ended : Ended) : ∃ ended',
      ReflTransGen (Desk.Step rules config buckets) ⟨p, waiting, ended, none⟩ ⟨p, [], ended', none⟩ := by
  induction waiting generalizing ended with
  | nil => exact ⟨ended, .refl⟩
  | cons b waiting ih =>
    obtain ⟨ended', hrest⟩ := ih (ended ++ [(b, runBucket p.codes rules config p.awarded b)])
    exact ⟨ended', .head (.finish p [] b waiting ended) hrest⟩

theorem exists_counted (rules : List SortRule) (config : DrawConfig) (buckets : List Bucket) (p : Progress)
    (ended : Ended) (results : List BucketResult) : ∃ q,
      ReflTransGen (Desk.Step rules config buckets) ⟨p, [], ended, some results⟩ ⟨q, [], ended, some []⟩ := by
  induction results generalizing p with
  | nil => exact ⟨p, .refl⟩
  | cons r results ih =>
    obtain ⟨q, hrest⟩ := ih (foldResult config p r)
    exact ⟨q, .head (.count p ended [] r results) hrest⟩

theorem exists_roundEnds (rules : List SortRule) (config : DrawConfig) (eligible : List Applicant) (p : Progress)
    (hk : 1 ≤ k) : ∃ outcome, RoundEnds rules config eligible p k outcome := by
  have hgroup := Bucket.group_eq p.codes.keys (pending eligible p.awarded) hk
  obtain ⟨ended, hended⟩ := exists_ended rules config _ p _ []
  cases hcollect : collect _ ended with
  | error f => exact ⟨_, .failed hgroup hended hcollect⟩
  | ok results =>
    obtain ⟨q, hcounted⟩ := exists_counted rules config _ p ended results
    exact ⟨_, .counted hgroup ((hended.tail (.collect p ended results hcollect)).trans hcounted)⟩

theorem exists_inAnyOrder (rules : List SortRule) (config : DrawConfig) (eligible : List Applicant) (codes : Codes)
    (k : Nat) : ∃ outcome, InAnyOrder rules config eligible codes k outcome := by
  induction k with
  | zero => exact ⟨_, .start⟩
  | succ k ih =>
    obtain ⟨outcome, h⟩ := ih
    cases outcome with
    | error f => exact ⟨_, .stopped h⟩
    | ok p =>
      obtain ⟨outcome, hround⟩ := exists_roundEnds rules config eligible p (k := k + 1) (by omega)
      exact ⟨outcome, .round h hround⟩

/-- The rounds of a draw are those in turn, whatever the number of workers. -/
theorem rounds_eq_inTurn (rules : List SortRule) (config : DrawConfig) (workers : Int) (eligible : List Applicant)
    (codes : Codes) :
    rounds rules config workers eligible codes = inTurn rules config eligible codes Applicant.rounds := by
  have hworkers : round rules config workers eligible = round rules config 1 eligible := by
    funext p k
    simp only [round, runBuckets_eq]
  rw [rounds, hworkers]
  rfl

/-- Whichever orders its rounds take, a draw comes to an end after each of them, and to the same codes, numbers
and winners, or to the same fault, as with one bucket after the other and as with any number of workers. -/
theorem rounds_in_any_order (hcodes : codes.keys.Nodup) :
    (∀ k, (∃ outcome, InAnyOrder rules config eligible codes k outcome) ∧
      ∀ outcome, InAnyOrder rules config eligible codes k outcome →
        Agree outcome (inTurn rules config eligible codes k)) ∧
    ∀ workers, rounds rules config workers eligible codes = inTurn rules config eligible codes Applicant.rounds :=
  ⟨fun k => ⟨exists_inAnyOrder rules config eligible codes k, fun _ h => h.agree hcodes⟩,
    fun workers => rounds_eq_inTurn rules config workers eligible codes⟩

def singleCode (code : String) : HuntCode :=
  { code, isValid := true, isInDraw := true, quota := some 1, balance := some 1, drawBalance := some 1 }

/-- Two buckets stand in the first round and one in the second; whichever ends first, 1 and 2 win. -/
theorem rounds_in_any_order_twin :
    let codes := [("HC1", singleCode "HC1"), ("HC2", singleCode "HC2")]
    let first := sampleApplicant 1 .resident 4 ["HC1"]
    let second := sampleApplicant 2 .nonResident 3 ["HC2"]
    let third := sampleApplicant 3 .resident 1 ["HC1", "HC2"]
    (Fields.keys codes).Nodup ∧ ∀ outcome,
      InAnyOrder sampleSort.rules sampleConfig [third, second, first] codes 4 outcome →
        ∃ q, outcome = .ok q ∧ q.winners.Perm [first.award "HC1" 1, second.award "HC2" 1] := by
  intro codes first second third
  have hcodes : (Fields.keys codes).Nodup := by decide
  have hturn : Progress.winners <$> inTurn sampleSort.rules sampleConfig [third, second, first] codes 4 =
      .ok [first.award "HC1" 1, second.award "HC2" 1] := by decide +kernel
  refine ⟨hcodes, fun outcome h => ?_⟩
  obtain ⟨p, hp, hwinners⟩ := map_eq_ok.1 hturn
  have hagree := ((rounds_in_any_order hcodes).1 4).2 outcome h
  rw [hp] at hagree
  cases outcome with
  | error f => exact hagree.elim
  | ok q => exact ⟨q, rfl, hwinners ▸ hagree.winners⟩

end HuntDraw.Draw
