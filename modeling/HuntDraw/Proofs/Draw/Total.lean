import HuntDraw.Proofs.Draw.Result

/-! A draw among applicants of known residency returns, once the pools of its codes are sized: no round
fails, the rows can be ranked, and what is left of a reserve is what is left of the pool. -/

namespace HuntDraw.Draw

open Attempt

variable {rules : List SortRule} {config : DrawConfig} {workers : Int}
  {eligible applicants : List Applicant} {codes : List HuntCode} {entered : Codes} {p : Progress} {k : Nat}
  {sort : DrawSort}

theorem runBucket_total {awarded : List Int} {b : Bucket} (h : ∀ a ∈ b.applicants, a.residency.IsKnown) :
    ∃ r, runBucket entered rules config awarded b = .ok r := by
  rw [runBucket]
  split
  · exact Bucket.process_total h
  · exact ⟨_, rfl⟩

theorem round_total (hk : 1 ≤ k) (h : ∀ a ∈ eligible, a.residency.IsKnown) :
    ∃ q, round rules config workers eligible p k = .ok q := by
  obtain ⟨results, hresults⟩ : ∃ results, (Bucket.ofRound p.codes.keys k (pending eligible p.awarded)).mapM
      (runBucket p.codes rules config p.awarded) = .ok results := by
    refine mapM_total fun b hb => runBucket_total fun a ha => h a ?_
    rw [(mem_ofRound.1 hb).2] at ha
    exact List.mem_of_mem_filter (List.mem_of_mem_filter ha)
  exact ⟨_, bind_eq_ok.2 ⟨_, Bucket.group_eq _ _ hk, bind_eq_ok.2 ⟨results, by rwa [runBuckets_eq], rfl⟩⟩⟩

theorem rounds_total (h : ∀ a ∈ eligible, a.residency.IsKnown) :
    ∃ p, rounds rules config workers eligible entered = .ok p := by
  have hstep : ∀ (p : Progress) (k : Nat), k ∈ ordinals → True →
      ∃ q, (·.1) <$> round rules config workers eligible p k = .ok q ∧ True := by
    intro p k hk _
    obtain ⟨q, hq⟩ : ∃ q, round rules config workers eligible p k = .ok q :=
      round_total (List.mem_range'_1.1 hk).1 h
    exact ⟨q.1, map_eq_ok.2 ⟨q, hq, rfl⟩, trivial⟩
  obtain ⟨p, hp, -⟩ := foldlM_total (fun _ => True) (b := { codes := entered }) hstep trivial
  exact ⟨p, hp⟩

/-- In the reserved draw a reserve is left with what its pool is left with. -/
theorem History.reserved_eq (h : History rules config eligible entered k p)
    (hentered : enterCodes codes config = .ok entered) (hreserved : config.has .reserved)
    {e : String × HuntCode} (he : e ∈ p.codes) : e.2.reserved.balance = e.2.drawBalance := by
  rw [h.codes] at he
  obtain ⟨d, hd, rfl⟩ := List.mem_map.1 he
  obtain ⟨c, -, -, hentrant⟩ := mem_entered hentered hd
  obtain ⟨pool, hpool⟩ := Option.isSome_iff_exists.1 (hentrant.sized.drawQuota_isSome hentrant.part)
  have hnone := h.no_nonResidents hreserved d.1
  simp only [HuntCode.applyDelta, hreserved, if_true, (hentrant.reserved hreserved).2.2, hentrant.drawBalance,
    hpool, Option.map_some, Option.getD_some, Delta.total, hnone, Int.add_zero]

theorem reconcile_total (h : History rules config eligible entered k p)
    (hentered : enterCodes codes config = .ok entered) :
    ∃ drawn, reconcile (p.codes.map (·.2)) config = .ok drawn := by
  rw [reconcile]
  split_ifs with hrules
  · exact ⟨_, rfl⟩
  · have hreserved : config.has .reserved := by
      by_contra hnot
      exact hrules (Or.inl (by simpa using hnot))
    apply mapM_total
    intro d hd
    obtain ⟨e, he, rfl⟩ := List.mem_map.1 hd
    rw [dropReserve]
    split_ifs with henabled hdiverged
    · exact ⟨_, rfl⟩
    · exact absurd (h.reserved_eq hentered hreserved he) hdiverged
    · exact ⟨_, rfl⟩

theorem eligible_known (h : ∀ a ∈ applicants, a.residency.IsKnown) :
    ∀ a ∈ Entry.applicants applicants config, a.residency.IsKnown := by
  intro a ha
  obtain ⟨-, x, hx, rfl⟩ := mem_eligible ha
  exact h x hx

theorem run_total (hrules : Ranking.validate sort.rules = .ok ())
    (hentered : enterCodes codes config = .ok entered) (hknown : ∀ a ∈ applicants, a.residency.IsKnown) :
    ∃ result, run codes applicants (some sort) (some config) workers = .ok result := by
  have heligible : ∀ a ∈ Entry.applicants applicants config, a.residency.IsKnown := eligible_known hknown
  obtain ⟨p, hp⟩ : ∃ p, rounds sort.rules config workers (Entry.applicants applicants config) entered = .ok p :=
    rounds_total heligible
  have hhistory := rounds_history (enterCodes_ready hentered) hp
  have hrows : ∀ a ∈ results (Entry.applicants applicants config) p, a.residency.IsKnown := by
    intro a ha
    rcases List.mem_append.1 ha with hw | hr
    · obtain ⟨b, c, m, hwon⟩ := hhistory.won a hw
      rw [hwon.row]
      exact hwon.known
    · obtain ⟨b, hb, rfl⟩ := List.mem_map.1 hr
      exact heligible b (List.mem_of_mem_filter hb)
  obtain ⟨ranked, hranked⟩ : ∃ ranked, Ranking.sort sort.rules _ = .ok ranked := Ranking.sort_total hrows
  obtain ⟨drawn, hdrawn⟩ := reconcile_total hhistory hentered
  exact ⟨_, run_eq_ok.2 ⟨hrules, entered, p, ranked, drawn, hentered, hp, hranked, hdrawn, rfl⟩⟩

end HuntDraw.Draw
