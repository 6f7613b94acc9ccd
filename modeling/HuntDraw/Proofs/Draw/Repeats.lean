import HuntDraw.Proofs.Draw.Document
import HuntDraw.Proofs.Draw.OverAward

/-! Repeated numbers. A number that is awarded in one round is out of the later ones, but within a round
every row is looked at by itself; so no number is awarded twice, whatever is drawn, exactly when no two
rows that still wait for an award have the same number. -/

namespace HuntDraw.Draw

open Attempt

variable {rules : List SortRule} {config : DrawConfig} {workers : Int} {applicants eligible : List Applicant}
  {codes : List HuntCode} {entered : Codes} {p q : Progress} {sort : DrawSort} {result : DrawResult}
  {results : List BucketResult} {a b : Applicant} {u v : String} {k : Nat}

def SameRound (a b : Applicant) : Prop := a.number = b.number → a.ordinalAwarded = b.ordinalAwarded

theorem Ran.sameRound (hran : Ran rules config eligible p k results) (hready : Ready p.codes)
    (hawarded : p.awarded = p.winners.map Applicant.number) (hp : p.winners.Pairwise SameRound) :
    (results.foldl (foldResult config) p).winners.Pairwise SameRound := by
  rw [(foldl_foldResult_winners _ _ results).1, List.pairwise_append]
  have hordinal : ∀ w ∈ results.flatMap (·.awarded), w.ordinalAwarded = some (k : Int) := by
    intro w hw
    obtain ⟨r, hr, hw⟩ := List.mem_flatMap.1 hw
    obtain ⟨b, -, -, rfl⟩ := hran.source hready hr hw
    rfl
  refine ⟨hp, List.pairwise_of_forall_mem_list fun a ha b hb _ => ?_, fun a ha b hb hab => ?_⟩
  · rw [hordinal a ha, hordinal b hb]
  · have hnew := hran.new hready (List.mem_map_of_mem hb)
    rw [hawarded, ← hab] at hnew
    exact absurd (List.mem_map_of_mem ha) hnew

theorem rounds_sameRound (hentered : Ready entered)
    (h : rounds rules config workers eligible entered = .ok p) : p.winners.Pairwise SameRound :=
  rounds_invariant (fun p => p.winners.Pairwise SameRound) hentered .nil
    (fun _ _ _ hp hran hsame => hran.sameRound (hp.ready hentered) hp.awarded hsame) h

def waiting (applicants : List Applicant) : List Applicant :=
  applicants.filter fun a => a.outcome ≠ some .awarded

theorem Drawn.distinct (h : Drawn rules config codes applicants result entered p)
    (hwaiting : ((waiting applicants).map Applicant.number).Nodup) :
    (result.awarded.map Applicant.number).Nodup := by
  have heligible : ((Entry.applicants applicants config).map Applicant.number).Sublist
      ((waiting applicants).map Applicant.number) := by
    rw [Entry.applicants, List.map_map]
    refine List.Sublist.map Applicant.number (List.monotone_filter_right applicants fun a ha => ?_)
    simp only [Entry.isEligible, Bool.and_eq_true] at ha
    exact ha.1
  rw [(h.awarded_perm.map _).nodup_iff, ← h.history.awarded]
  exact h.history.distinct (hwaiting.sublist heligible)

def ampleCode (n : Nat) (u : String) : HuntCode :=
  { code := u, isValid := true, isInDraw := true, quota := some n }

def openConfig : DrawConfig := { id := "D", name := "open" }

variable {us : List String} {n : Nat}

theorem exists_entered_ample (n : Nat) (us : List String) :
    ∃ entered, enterCodes (us.map (ampleCode n)) openConfig = .ok entered := by
  obtain ⟨sized, hsized⟩ : ∃ sized, (Entry.codes (us.map (ampleCode n)) openConfig).mapM
      (fun c => c.sizePools openConfig) = .ok sized := by
    apply mapM_total
    intro c hc
    obtain ⟨d, hd, rfl⟩ := List.mem_map.1 hc
    obtain ⟨u, -, rfl⟩ := List.mem_map.1 (List.mem_of_mem_filter hd)
    exact ⟨_, rfl⟩
  exact ⟨_, bind_eq_ok.2 ⟨sized, hsized, rfl⟩⟩

/-- Where there is enough for everybody, everybody in a bucket of the first round wins. -/
theorem ample_serves (hentered : enterCodes (us.map (ampleCode n)) openConfig = .ok entered)
    (hran : Ran rules openConfig eligible { codes := entered } 1 results) (hn : eligible.length ≤ n)
    (hzero : n ≠ 0) {r : BucketResult} (hr : r ∈ results) : (r.awarded.map Applicant.number).Perm
      ((standing eligible { codes := entered } 1 r.code).applicants.map Applicant.number) := by
  obtain ⟨d, ws, hmem, hws, hproc⟩ := hran.awarded (enterCodes_ready hentered) hr
  obtain ⟨c, hc, -, hentrant⟩ := mem_entered hentered hmem
  obtain ⟨u, -, rfl⟩ := List.mem_map.1 hc
  have hdraw : d.drawBalance = some (n : Int) := hentrant.drawBalance.trans (hentrant.unreserved Bool.false_ne_true)
  have hbalance : d.balance ≠ some 0 := by
    rw [hentrant.balance]
    simpa [HuntCode.startBalance, ampleCode] using hzero
  have hlength : (standing eligible { codes := entered } 1 r.code).applicants.length ≤ n :=
    (List.filter_sublist.trans List.filter_sublist).length_le.trans hn
  have hserved := Bucket.process_serves_pool hbalance hdraw (List.Subperm.refl _) (fun _ _ => List.not_mem_nil)
    (Int.ofNat_le.2 hlength) hproc.made fun _ _ _ => rfl
  rw [hws, List.length_map] at hserved
  rw [hws, List.map_map]
  exact (hproc.subperm.perm_of_length_le hserved).map Applicant.number

theorem ample_repeats (hentered : enterCodes (us.map (ampleCode n)) openConfig = .ok entered)
    (hran : Ran rules openConfig eligible { codes := entered } 1 results) (hn : eligible.length ≤ n)
    (hsub : [a, b].Sublist eligible) (hab : a.number = b.number)
    (ha : Bucket.place? entered.keys 1 a = some u) (hb : Bucket.place? entered.keys 1 b = some v) :
    ¬((results.flatMap (·.awarded)).map Applicant.number).Nodup := by
  intro hnodup
  have hzero : n ≠ 0 := by
    have := hsub.length_le
    simp only [List.length_cons, List.length_nil] at this
    omega
  have hpending : pending eligible [] = eligible := by simp [pending]
  have hsub' : [a, b].Sublist (pending eligible []) := by rwa [hpending]
  obtain ⟨r, hr, rfl⟩ := hran.named a (hsub'.subset (by simp)) u ha
  obtain ⟨r', hr', rfl⟩ := hran.named b (hsub'.subset (by simp)) v hb
  by_cases hcode : r.code = r'.code
  · -- both stand in one bucket
    have hbucket : [a, b].Sublist (standing eligible { codes := entered } 1 r.code).applicants := by
      have hplaced : [a, b].filter (Bucket.place? entered.keys 1 · = some r.code) = [a, b] := by
        simp [ha, hb, hcode]
      rw [← hplaced]
      exact hsub'.filter _
    have hawards : (r.awarded.map Applicant.number).Nodup :=
      hnodup.sublist ((List.sublist_flatten_of_mem (List.mem_map_of_mem hr)).map _)
    have hserved := ample_serves hentered hran hn hzero hr
    have hpair := (hserved.nodup_iff.1 hawards).sublist (hbucket.map _)
    simp [hab] at hpair
  · have hwinner : ∀ r ∈ results, ∀ x ∈ (standing eligible { codes := entered } 1 r.code).applicants,
        ∃ w ∈ results.flatMap (·.awarded), w.number = x.number ∧ w.codeAwarded = some r.code := by
      intro r hr x hx
      have hmem := (ample_serves hentered hran hn hzero hr).mem_iff.2 (List.mem_map_of_mem hx)
      obtain ⟨w, hw, hnumber⟩ := List.mem_map.1 hmem
      refine ⟨w, List.mem_flatMap.2 ⟨r, hr, hw⟩, hnumber, ?_⟩
      obtain ⟨y, -, -, rfl⟩ := hran.source (enterCodes_ready hentered) hr hw
      rfl
    obtain ⟨w, hw, hnumber, hwon⟩ := hwinner r hr a (mem_standing.2 ⟨hsub'.subset (by simp), ha⟩)
    obtain ⟨w', hw', hnumber', hwon'⟩ := hwinner r' hr' b (mem_standing.2 ⟨hsub'.subset (by simp), hb⟩)
    have hsame : w = w' := List.inj_on_of_nodup_map hnodup hw hw' (by rw [hnumber, hnumber', hab])
    rw [hsame, hwon', Option.some.injEq] at hwon
    exact hcode hwon.symm

/-- A draw over the first choices of two rows of one number awards the number twice. -/
theorem exists_repeated_award (hknown : ∀ a ∈ applicants, a.residency.IsKnown)
    (hsub : [a, b].Sublist (waiting applicants)) (hab : a.number = b.number)
    (ha : a.choices[0]? = some u) (hb : b.choices[0]? = some v) (hu : u ≠ "") (hv : v ≠ "") :
    ∃ codes result, run codes applicants (some sampleSort) (some openConfig) 1 = .ok result ∧
      ¬(result.awarded.map Applicant.number).Nodup := by
  have hopen : Entry.applicants applicants openConfig = (waiting applicants).map Applicant.clear := by
    rw [Entry.applicants, waiting]
    refine congrArg _ (List.filter_congr fun a _ => ?_)
    simp [Entry.isEligible, openConfig]
  obtain ⟨entered, hentered⟩ := exists_entered_ample (waiting applicants).length [u, v]
  obtain ⟨result, hrun⟩ : ∃ result, run _ applicants (some sampleSort) (some openConfig) 1 = .ok result :=
    run_total (by decide) hentered hknown
  refine ⟨_, result, hrun, fun hnodup => ?_⟩
  obtain ⟨entered', p, hdrawn⟩ := run_drawn hrun
  obtain rfl : entered' = entered := Except.ok.inj (hdrawn.enters.symm.trans hentered)
  obtain ⟨workers, hrounds⟩ := hdrawn.ran
  obtain ⟨q, s, hround, hfirst⟩ := rounds_first hrounds
  obtain ⟨results, hran, rfl⟩ := round_ran le_rfl (enterCodes_ready hentered).nodup hround
  rw [(foldl_foldResult_winners _ _ results).1, List.nil_append] at hfirst
  rw [hopen] at hran
  have hkey : ∀ x ∈ [u, v], x ∈ entered'.keys := fun x hx =>
    keys_entered hentered (List.mem_map_of_mem hx) rfl
  refine ample_repeats hentered hran (by simp) (a := a.clear) (b := b.clear) (hsub.map Applicant.clear) hab
    (Bucket.place?_eq_some.2 ⟨ha, hu, hkey u (by simp)⟩) (Bucket.place?_eq_some.2 ⟨hb, hv, hkey v (by simp)⟩) ?_
  exact ((hdrawn.awarded_perm.map _).nodup_iff.1 hnodup).sublist (hfirst.map _)

/-- A number is awarded in one round only; and no number of a document is awarded twice, whatever is drawn,
exactly when no two rows that wait for an award have the same number. -/
theorem run_awards_distinct_iff {rows : List (Fields Json)}
    (hread : Document.readApplicants rows = .ok applicants) :
    (∀ codes sort config workers result, run codes applicants (some sort) (some config) workers = .ok result →
      result.awarded.Pairwise SameRound) ∧
    ((∀ codes sort config workers result, run codes applicants (some sort) (some config) workers = .ok result →
      (result.awarded.map Applicant.number).Nodup) ↔ ((waiting applicants).map Applicant.number).Nodup) := by
  have hvalid := Document.readApplicants_valid hread
  refine ⟨fun codes sort config workers result h => ?_, fun hall => ?_, fun hwaiting codes sort config workers
    result h => ?_⟩
  · obtain ⟨entered, p, hdrawn⟩ := run_drawn h
    obtain ⟨workers, hrounds⟩ := hdrawn.ran
    have hsame := rounds_sameRound (enterCodes_ready hdrawn.enters) hrounds
    exact (hdrawn.awarded_perm.pairwise_iff fun hab hnumber => (hab hnumber.symm).symm).2 hsame
  · rw [List.Nodup, List.pairwise_map, List.pairwise_iff_forall_sublist]
    intro a b hsub hab
    have hin : ∀ x ∈ [a, b], x ∈ applicants := fun x hx => List.mem_of_mem_filter (hsub.subset hx)
    obtain ⟨-, u, us, hu, hublank⟩ := hvalid a (hin a (by simp))
    obtain ⟨-, v, vs, hv, hvblank⟩ := hvalid b (hin b (by simp))
    obtain ⟨codes, result, hrun, hrepeated⟩ := exists_repeated_award (fun x hx => (hvalid x hx).1) hsub hab
      (by rw [hu]; rfl) (by rw [hv]; rfl) hublank hvblank
    exact hrepeated (hall _ _ _ _ _ hrun)
  · obtain ⟨entered, p, hdrawn⟩ := run_drawn h
    exact hdrawn.distinct hwaiting

def twiceRows : List (Fields Json) :=
  [[("application_number", .text "1"), ("age", .text "40"), ("residency", .text "RESIDENT"),
    ("point_balance", .text "1"), ("choice1", .text "HC1")],
   [("application_number", .text "1"), ("age", .text "40"), ("residency", .text "RESIDENT"),
    ("point_balance", .text "0"), ("choice1", .text "HC1")]]

def twiceApplicants : List Applicant := [sampleApplicant 1 .resident 1 ["HC1"], sampleApplicant 1 .resident 0 ["HC1"]]

theorem readApplicants_twice : Document.readApplicants twiceRows = .ok twiceApplicants := by
  decide +kernel

theorem run_awards_distinct_iff_twice : Document.readApplicants twiceRows = .ok twiceApplicants ∧
    ¬∀ codes sort config workers result,
      run codes twiceApplicants (some sort) (some config) workers = .ok result →
        (result.awarded.map Applicant.number).Nodup :=
  ⟨readApplicants_twice, fun hall => absurd ((run_awards_distinct_iff readApplicants_twice).2.1 hall) (by decide)⟩

def twiceResult : DrawResult where
  codes :=
    [{ ampleCode 2 "HC1" with
       drawQuota := some 2
       previousBalance := some 2
       balance := some 0
       drawBalance := some 0
       awarded := 2
       drawAwarded := 2
       resident := ⟨2, 2⟩ }]
  applicants :=
    [(sampleApplicant 1 .resident 1 ["HC1"]).award "HC1" 1,
     (sampleApplicant 1 .resident 0 ["HC1"]).award "HC1" 1]
  used := ["HC1"]

/-- Two rows of one number win in one bucket. -/
theorem not_run_awards_distinct : ¬∀ (rows : List (Fields Json)) (applicants : List Applicant)
    (codes : List HuntCode) (sort : DrawSort) (config : DrawConfig) (workers : Int) (result : DrawResult),
    Document.readApplicants rows = .ok applicants →
    run codes applicants (some sort) (some config) workers = .ok result →
      (result.awarded.map Applicant.number).Nodup := by
  intro hall
  have hrun : run [ampleCode 2 "HC1"] twiceApplicants (some sampleSort) (some openConfig) 1 = .ok twiceResult := by
    decide +kernel
  exact absurd (hall _ _ _ _ _ _ _ readApplicants_twice hrun) (by decide)

end HuntDraw.Draw
