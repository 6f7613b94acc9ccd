import HuntDraw.Draw.Run
import HuntDraw.Proofs.Data.Fields
import HuntDraw.Proofs.Draw.Grouping
import HuntDraw.Proofs.Draw.Process

/-! One round. Every code that somebody names has one result, made from the state at the start of the
round, and counting the results changes each code by its own result only. -/

namespace HuntDraw.Draw

open Attempt

variable {rules : List SortRule} {config : DrawConfig} {workers : Int} {eligible : List Applicant}
  {codes : Codes} {p q : Progress} {k : Nat} {s : RoundSummary} {results : List BucketResult}

theorem gather_eq {buckets : List Bucket} (f : Bucket → Except DrawFault BucketResult) :
    gather (buckets.map f) = buckets.mapM f := by
  induction buckets with
  | nil => rfl
  | cons b buckets ih =>
    rw [List.map_cons, List.mapM_cons, gather, ih]

/-- The number of workers changes nothing. -/
theorem runBuckets_eq (codes : Codes) (rules : List SortRule) (config : DrawConfig) (awarded : List Int)
    (workers : Int) (buckets : List Bucket) :
    runBuckets codes rules config awarded workers buckets =
      buckets.mapM (runBucket codes rules config awarded) := by
  rw [runBuckets]
  split_ifs
  · rfl
  · exact gather_eq _

def bill (config : DrawConfig) (c : String) (h : HuntCode) (r : BucketResult) : HuntCode :=
  if r.code = c then h.applyDelta r.delta config else h

theorem foldResult_codes (hp : p.codes.keys.Nodup) (r : BucketResult) :
    (foldResult config p r).codes = p.codes.map fun e => (e.1, bill config e.1 e.2 r) := by
  rw [foldResult]
  cases hget : p.codes.get? r.code with
  | none =>
    have hnot : r.code ∉ p.codes.keys := Fields.get?_eq_none.1 hget
    refine ((List.map_congr_left fun e he => ?_).trans (List.map_id _)).symm
    have hne : r.code ≠ e.1 := fun heq => hnot (heq ▸ List.mem_map_of_mem he)
    rw [bill, if_neg hne]
    rfl
  | some h =>
    have hmem : (r.code, h) ∈ p.codes := (Fields.get?_eq_some hp).1 hget
    simp only [Fields.put_eq_map _ hp (Fields.mem_keys.2 ⟨h, hmem⟩)]
    apply List.map_congr_left
    intro e he
    by_cases hcode : e.1 = r.code
    · have heq : e.2 = h := Fields.eq_of_mem hp (hcode ▸ he) hmem
      simp [bill, hcode, heq]
    · simp [bill, hcode, Ne.symm hcode]

theorem foldl_foldResult_codes (hp : p.codes.keys.Nodup) (results : List BucketResult) :
    (results.foldl (foldResult config) p).codes =
      p.codes.map fun e => (e.1, results.foldl (bill config e.1) e.2) := by
  induction results generalizing p with
  | nil => simp
  | cons r results ih =>
    have hcodes : (foldResult config p r).codes = _ := foldResult_codes hp r
    have hkeys : (foldResult config p r).codes.keys.Nodup := by
      rw [hcodes, Fields.keys_map]
      exact hp
    rw [List.foldl_cons, ih hkeys, hcodes, List.map_map]
    rfl

theorem foldl_foldResult_keys (hp : p.codes.keys.Nodup) (results : List BucketResult) :
    (results.foldl (foldResult config) p).codes.keys = p.codes.keys := by
  rw [foldl_foldResult_codes hp, Fields.keys_map]

theorem foldl_foldResult_winners (config : DrawConfig) (p : Progress) (results : List BucketResult) :
    (results.foldl (foldResult config) p).winners = p.winners ++ results.flatMap (·.awarded) ∧
      (results.foldl (foldResult config) p).awarded =
        p.awarded ++ (results.flatMap (·.awarded)).map Applicant.number := by
  induction results generalizing p with
  | nil => simp
  | cons r results ih => simp [ih, foldResult]

theorem round_winners (h : round rules config workers eligible p k = .ok (q, s)) :
    p.winners.Sublist q.winners := by
  simp only [round, bind_eq_ok, pure_eq_ok, Prod.mk.injEq] at h
  obtain ⟨buckets, -, results, -, rfl, -⟩ := h
  rw [(foldl_foldResult_winners _ _ results).1]
  exact List.sublist_append_left _ _

theorem foldl_bill_of_notMem {c : String} (h : HuntCode) (hc : c ∉ results.map BucketResult.code) :
    results.foldl (bill config c) h = h := by
  induction results with
  | nil => rfl
  | cons r results ih =>
    simp only [List.map_cons, List.mem_cons, not_or] at hc
    rw [List.foldl_cons, bill, if_neg (Ne.symm hc.1), ih hc.2]

theorem foldl_bill_of_mem {r : BucketResult} (h : HuntCode) (hnodup : (results.map BucketResult.code).Nodup)
    (hr : r ∈ results) : results.foldl (bill config r.code) h = h.applyDelta r.delta config := by
  induction results with
  | nil => simp at hr
  | cons r' results ih =>
    obtain ⟨hnot, hnodup⟩ := List.nodup_cons.1 hnodup
    rw [List.foldl_cons]
    rcases List.mem_cons.1 hr with rfl | hr
    · rw [bill, if_pos rfl, foldl_bill_of_notMem _ hnot]
    · have hne : r'.code ≠ r.code := fun heq => hnot (heq ▸ List.mem_map_of_mem hr)
      rw [bill, if_neg hne, ih hnodup hr]

def standing (eligible : List Applicant) (p : Progress) (k : Nat) (c : String) : Bucket :=
  ⟨c, k, (pending eligible p.awarded).filter (Bucket.place? p.codes.keys k · = some c)⟩

theorem mem_standing {c : String} {a : Applicant} : a ∈ (standing eligible p k c).applicants ↔
    a ∈ pending eligible p.awarded ∧ Bucket.place? p.codes.keys k a = some c := by
  simp [standing]

/-- What a round does: one result for each code that is named, made among those who name it. -/
structure Ran (rules : List SortRule) (config : DrawConfig) (eligible : List Applicant) (p : Progress)
    (k : Nat) (results : List BucketResult) : Prop where
  nodup : (results.map BucketResult.code).Nodup
  named : ∀ a ∈ pending eligible p.awarded, ∀ c, Bucket.place? p.codes.keys k a = some c →
    ∃ r ∈ results, r.code = c
  processed : ∀ r ∈ results, ∃ h ws, (r.code, h) ∈ p.codes ∧
    Bucket.Processed rules config p.awarded (standing eligible p k r.code) h r ws

theorem mem_ofRound {keys : List String} {xs : List Applicant} {b : Bucket} :
    b ∈ Bucket.ofRound keys k xs ↔
      (∃ a ∈ xs, Bucket.place? keys k a = some b.code) ∧
        b = ⟨b.code, k, xs.filter (Bucket.place? keys k · = some b.code)⟩ := by
  simp only [Bucket.ofRound, List.mem_map, List.mem_eraseDups, List.mem_filterMap]
  constructor
  · rintro ⟨c, hc, rfl⟩
    exact ⟨hc, rfl⟩
  · rintro ⟨hb, heq⟩
    exact ⟨b.code, hb, heq.symm⟩

theorem nodup_ofRound (keys : List String) (k : Nat) (xs : List Applicant) :
    ((Bucket.ofRound keys k xs).map Bucket.code).Nodup := by
  rw [Bucket.ofRound, List.map_map]
  exact (nodup_eraseDups _).map fun _ _ h => h

theorem runBucket_processed {awarded : List Int} {b : Bucket} {r : BucketResult}
    (hcodes : codes.keys.Nodup) (hb : b.code ∈ codes.keys)
    (h : runBucket codes rules config awarded b = .ok r) :
    ∃ c ws, (b.code, c) ∈ codes ∧ Bucket.Processed rules config awarded b c r ws := by
  rw [runBucket] at h
  cases hget : codes.get? b.code with
  | none => exact absurd hb (Fields.get?_eq_none.1 hget)
  | some c =>
    rw [hget] at h
    obtain ⟨ws, hws⟩ := Bucket.process_processed h
    exact ⟨c, ws, (Fields.get?_eq_some hcodes).1 hget, hws⟩

theorem round_ran (hk : 1 ≤ k) (hcodes : p.codes.keys.Nodup)
    (h : round rules config workers eligible p k = .ok (q, s)) :
    ∃ results, Ran rules config eligible p k results ∧ q = results.foldl (foldResult config) p := by
  simp only [round, Bucket.group_eq _ _ hk, runBuckets_eq, bind_eq_ok, pure_eq_ok, Prod.mk.injEq,
    Except.ok.injEq, exists_eq_left'] at h
  obtain ⟨results, hresults, rfl, -⟩ := h
  have hbucket : ∀ b ∈ Bucket.ofRound p.codes.keys k (pending eligible p.awarded), ∀ r,
      runBucket p.codes rules config p.awarded b = .ok r →
      ∃ c ws, (b.code, c) ∈ p.codes ∧ Bucket.Processed rules config p.awarded b c r ws := by
    intro b hb r hr
    obtain ⟨⟨a, -, ha⟩, -⟩ := mem_ofRound.1 hb
    exact runBucket_processed hcodes (Bucket.place?_eq_some.1 ha).2.2 hr
  have hcode : ∀ b ∈ Bucket.ofRound p.codes.keys k (pending eligible p.awarded), ∀ r,
      runBucket p.codes rules config p.awarded b = .ok r → r.code = b.code := by
    intro b hb r hr
    obtain ⟨c, ws, -, hprocessed⟩ := hbucket b hb r hr
    exact hprocessed.code
  refine ⟨results, ⟨?_, ?_, ?_⟩, rfl⟩
  · rw [mapM_map_eq hresults hcode]
    exact nodup_ofRound _ _ _
  · intro a ha c hc
    have hmem : (⟨c, k, (pending eligible p.awarded).filter (Bucket.place? p.codes.keys k · = some c)⟩ :
        Bucket) ∈ Bucket.ofRound p.codes.keys k (pending eligible p.awarded) :=
      mem_ofRound.2 ⟨⟨a, ha, hc⟩, rfl⟩
    obtain ⟨r, hr, hrun⟩ := (mapM_mem hresults).2 _ hmem
    exact ⟨r, hr, hcode _ hmem r hrun⟩
  · intro r hr
    obtain ⟨b, hb, hrun⟩ := (mapM_mem hresults).1 r hr
    obtain ⟨c, ws, hc, hprocessed⟩ := hbucket b hb r hrun
    refine ⟨c, ws, hprocessed.code ▸ hc, ?_⟩
    rw [hprocessed.code, standing, ← (mem_ofRound.1 hb).2]
    exact hprocessed

end HuntDraw.Draw
