import HuntDraw.Proofs.Draw.Ledger
import HuntDraw.Proofs.Draw.Total
import HuntDraw.Proofs.Number.Range

/-! Over-awards. A draw keeps within the balances that its codes start from exactly when no reserve is sized
beyond the balance it is taken from: awards stop at the pool of the draw, and the balance is only
asked for being used up between rounds. -/

namespace HuntDraw

open Draw Attempt

namespace HuntCode

variable {config : DrawConfig} {c d : HuntCode} {p : Binary64} {b n start : Int}

/-- A share of a balance is not below nothing unless one of them is. -/
theorem poolSize_nonneg (hp : ¬p.Negative) (hb : 0 ≤ b) (h : poolSize p b = .ok n) : 0 ≤ n := by
  rw [poolSize] at h
  split at h
  · simp at h
  · rename_i x hx
    split at h
    · rename_i m hm
      obtain ⟨k, e, hk, hundred, hne, -⟩ := Binary64.hundred_finite
      rw [hundred] at hm
      have hproduct := Binary64.mul_not_negative hp (Binary64.ofInt?_not_negative hb hx)
      rw [← Except.ok.inj h]
      refine Binary64.floor_nonneg ?_ hm
      exact Binary64.div_not_negative hproduct hne
    · simp at h

theorem poolSize_zero (h : poolSize p 0 = .ok n) : n = 0 := by
  have hzero : Binary64.ofInt? 0 = some (.zero false) := by decide +kernel
  obtain ⟨k, e, hk, hundred, hne, -⟩ := Binary64.hundred_finite
  rw [poolSize, hzero, hundred] at h
  simp only at h
  rcases Binary64.mul_zero p false with ⟨s, hs⟩ | hs
  · rw [hs, Binary64.zero_div s hne, Binary64.floor_zero] at h
    exact (Except.ok.inj h).symm
  · simp [hs, Binary64.div, Binary64.floor] at h

theorem startBalance_nonneg (hcounts : ∀ n ∈ c.counts, 0 ≤ n) (h : c.startBalance = some start) :
    0 ≤ start := by
  refine hcounts start ?_
  rw [startBalance, Option.or_eq_some_iff] at h
  rcases h with h | ⟨-, h⟩ <;> simp [counts, h]

theorem remaining_nonneg (hcounts : ∀ n ∈ c.counts, 0 ≤ n) : 0 ≤ c.remaining := by
  rw [remaining]
  cases hstart : c.startBalance with
  | none => exact le_rfl
  | some start => exact startBalance_nonneg hcounts hstart

theorem reserveNonneg_of_counts (hcounts : ∀ n ∈ c.counts, 0 ≤ n)
    (hpercent : ∀ p, c.reserved.capPercent = some p → ¬p.Negative) : c.ReserveNonneg config := by
  intro d q hpart hd hq
  have hsized := sizePools_sized hd
  obtain ⟨start, hstart⟩ := Option.isSome_iff_exists.1 (startBalance_isSome hpart)
  by_cases hon : config.has .reserved ∧ c.reserved.enabled
  · obtain ⟨p, n, hp, hn, hquota, -, -⟩ := hsized.limited hon.1 hon.2
    rw [hquota, Option.some.injEq] at hq
    subst hq
    have hbalance : c.reset.balance = some start := hstart
    rw [hbalance, Option.getD_some] at hn
    exact poolSize_nonneg (hpercent p hp) (startBalance_nonneg hcounts hstart) hn
  · rw [(hsized.unlimited hon).1] at hq
    simp [reset] at hq

end HuntCode

/-- No code that took part was awarded more often than its balance allows, or is left with less than nothing. -/
def DrawResult.WithinBalance (codes : List HuntCode) (result : DrawResult) : Prop :=
  ∀ c ∈ codes, c.code ∈ result.used → ∃ d ∈ result.codes, ∃ start balance drawBalance,
    d.code = c.code ∧ c.startBalance = some start ∧ d.balance = some balance ∧
    d.drawBalance = some drawBalance ∧ (result.awards c.code).length ≤ start ∧ 0 ≤ balance ∧ 0 ≤ drawBalance

namespace Draw

variable {rules : List SortRule} {config : DrawConfig} {workers : Int} {applicants : List Applicant}
  {codes : List HuntCode} {entered : Codes} {p : Progress} {sort : DrawSort} {result : DrawResult}
  {c d : HuntCode} {q start : Int}

theorem Drawn.length_awards (h : Drawn rules config codes applicants result entered p) (u : String) :
    ((result.awards u).length : Int) =
      (tally (result.awards u)).residents + (tally (result.awards u)).nonResidents := by
  apply length_eq_tally
  intro w hw
  obtain ⟨b, c, m, hwon⟩ := h.history.won w (List.mem_of_mem_filter ((h.awards_perm u).mem_iff.1 hw))
  rw [hwon.row]
  exact hwon.known

/-- A code is awarded at most the pool of the draw, and the pool is at most what the code starts from. -/
theorem Drawn.length_awards_le (h : Drawn rules config codes applicants result entered p)
    (hcodes : (codes.map HuntCode.code).Nodup) (hc : c ∈ codes) (hused : c.code ∈ result.used)
    (hstart : c.startBalance = some start) (hzero : 0 ≤ start) (hnonneg : c.ReserveNonneg config)
    (hwithin : c.ReserveWithin config) :
    Ledger config c (outcome config p c) (tally (result.awards c.code)) ∧ ∃ pool,
      (outcome config p c).drawQuota = some pool ∧ (result.awards c.code).length ≤ pool ∧ pool ≤ start := by
  obtain ⟨e, he, hentrant⟩ := h.entrant hcodes hc hused
  have hlast := h.mem_last he
  have hledger : Ledger config c (outcome config p c) (tally (result.awards c.code)) := by
    rw [h.outcome_of_mem hlast]
    exact hentrant.ledger fun hon => h.no_nonResidents hon c.code
  obtain ⟨-, pool, -, hdraw, -⟩ := hledger.balances
  have hquota : e.drawQuota = some pool := by
    rw [h.outcome_of_mem hlast, finish_frame] at hdraw
    exact hdraw
  have hpool : 0 ≤ pool := hentrant.pool_nonneg hnonneg hquota hstart hzero
  have hbounded := h.history.bounded c.code e _ he (by simpa [hentrant.drawBalance, hquota] using hpool) hlast
  simp only [HuntCode.applyDelta, hentrant.drawBalance, hquota, Option.getD_some, Delta.total] at hbounded
  have hlength := h.length_awards c.code
  exact ⟨hledger, pool, hdraw, by omega, hentrant.pool_le hwithin hquota hstart⟩

/-- Reserves between nothing and the balance keep a draw within the balance. -/
theorem Drawn.withinBalance (h : Drawn rules config codes applicants result entered p)
    (hcodes : (codes.map HuntCode.code).Nodup) (hcounts : ∀ c ∈ codes, ∀ n ∈ c.counts, 0 ≤ n)
    (hnonneg : ∀ c ∈ codes, c.ReserveNonneg config) (hwithin : ∀ c ∈ codes, c.ReserveWithin config) :
    result.WithinBalance codes := by
  intro c hc hused
  obtain ⟨e, -, hentrant⟩ := h.entrant hcodes hc hused
  obtain ⟨start, hstart⟩ := Option.isSome_iff_exists.1 (HuntCode.startBalance_isSome hentrant.part)
  have hzero : 0 ≤ start := HuntCode.startBalance_nonneg (hcounts c hc) hstart
  obtain ⟨hledger, pool, hdraw, hawards, hle⟩ :=
    h.length_awards_le hcodes hc hused hstart hzero (hnonneg c hc) (hwithin c hc)
  obtain ⟨start', pool', hstart', hdraw', hkept, hdropped⟩ := hledger.balances
  rw [hstart, Option.some.injEq] at hstart'
  rw [hdraw, Option.some.injEq] at hdraw'
  have hlength := h.length_awards c.code
  have hmem : outcome config p c ∈ result.codes := h.mem_codes.2 ⟨c, hc, rfl⟩
  by_cases hflow : config.has .reserved ∧ ¬config.has .flow
  · obtain ⟨hbalance, hdrawn⟩ := hdropped hflow.1 hflow.2
    exact ⟨_, hmem, start, _, _, h.outcome_code c, hstart, hbalance, hdrawn, by omega, by omega, le_rfl⟩
  · obtain ⟨hbalance, hdrawn⟩ := hkept hflow
    exact ⟨_, hmem, start, _, _, h.outcome_code c, hstart, hbalance, hdrawn, by omega, by omega, by omega⟩

/-- So many residents of one number who all ask for the same code. -/
def crowd (number : Int) (u : String) (n : Nat) : List Applicant :=
  List.replicate n ⟨number, 0, .resident, .zero false, [u], none, none, none⟩

theorem mem_crowd {number : Int} {u : String} {n : Nat} {a : Applicant} (h : a ∈ crowd number u n) :
    a = ⟨number, 0, .resident, .zero false, [u], none, none, none⟩ :=
  List.eq_of_mem_replicate h

theorem exists_eligible_crowd (hallowed : ∀ t ∈ config.applicants, ∃ i : Int, t = toString i) (u : String) :
    ∃ number, ∀ n, Entry.applicants (crowd number u n) config = crowd number u n := by
  obtain ⟨number, hnumber⟩ : ∃ number : Int,
      (config.applicants.isEmpty || config.applicants.contains (toString number)) = true := by
    cases hlist : config.applicants with
    | nil => exact ⟨0, rfl⟩
    | cons t rest =>
      obtain ⟨i, rfl⟩ := hallowed t (by simp [hlist])
      exact ⟨i, by simp⟩
  refine ⟨number, fun n => ?_⟩
  have hall : (crowd number u n).filter (Entry.isEligible config) = crowd number u n := by
    rw [List.filter_eq_self]
    intro a ha
    rw [mem_crowd ha, Entry.isEligible, hnumber]
    rfl
  rw [Entry.applicants, hall, crowd, List.map_replicate]
  rfl

theorem rounds_first {eligible : List Applicant}
    (h : rounds rules config workers eligible entered = .ok p) :
    ∃ q s, round rules config workers eligible { codes := entered } 1 = .ok (q, s) ∧
      q.winners.Sublist p.winners := by
  have hordinals : ordinals = 1 :: List.range' 2 3 := rfl
  rw [rounds, hordinals, List.foldlM_cons, bind_eq_ok] at h
  obtain ⟨q, hq, hrest⟩ := h
  obtain ⟨⟨q, s⟩, hround, rfl⟩ := map_eq_ok.1 hq
  refine ⟨q, s, hround, ?_⟩
  refine foldlM_preserves (fun p => q.winners.Sublist p.winners) (fun p k p' _ hstep hp => ?_) hrest
    (List.Sublist.refl _)
  obtain ⟨⟨p', s'⟩, hround', rfl⟩ := map_eq_ok.1 hstep
  exact hp.trans (round_winners hround')

/-- A reserve beyond the balance serves the whole of a crowd that is no larger than it. -/
theorem round_serves_crowd {number : Int} {n : Nat} {s : RoundSummary} (hready : Ready entered)
    (hmem : (c.code, d) ∈ entered) (hblank : c.code ≠ "") (hreserved : config.has .reserved)
    (hbalance : d.balance ≠ some 0) (hdraw : d.drawBalance = some q) (hreserve : d.reserved.balance = some q)
    (hsize : n ≤ q) (hn : n ≠ 0)
    (h : round rules config workers (crowd number c.code n) { codes := entered } 1 = .ok (p, s)) :
    n ≤ (holders c.code p.winners).length := by
  obtain ⟨results, hran, rfl⟩ := round_ran le_rfl hready.nodup h
  have hplace : ∀ a ∈ crowd number c.code n, Bucket.place? entered.keys 1 a = some c.code := by
    intro a ha
    rw [mem_crowd ha]
    exact Bucket.place?_eq_some.2 ⟨rfl, hblank, Fields.mem_keys.2 ⟨d, hmem⟩⟩
  have hpending : pending (crowd number c.code n) [] = crowd number c.code n := by
    simp [pending]
  have hin : (⟨number, 0, .resident, .zero false, [c.code], none, none, none⟩ : Applicant) ∈
      crowd number c.code n := List.mem_replicate.2 ⟨hn, rfl⟩
  obtain ⟨r, hr, hcode⟩ := hran.named _ (hpending.symm ▸ hin) c.code (hplace _ hin)
  obtain ⟨d', ws, hmem', hws, hproc⟩ := hran.awarded hready hr
  rw [hcode] at hmem'
  have hsame : d' = d := Fields.eq_of_mem hready.nodup hmem' hmem
  subst hsame
  have hbucket : (standing (crowd number c.code n) { codes := entered } 1 r.code).applicants =
      crowd number c.code n := by
    rw [standing, hpending, List.filter_eq_self]
    intro a ha
    simp [hplace a ha, hcode]
  have hserved : r.awarded.length = (crowd number c.code n).length := by
    have hall := Bucket.process_residents hreserved hbalance hdraw hreserve (fun a ha => ?_) ?_ hproc.made
    · rwa [hbucket] at hall
    · rw [hbucket] at ha
      rw [mem_crowd ha]
      exact ⟨rfl, List.not_mem_nil⟩
    · rw [hbucket]
      simpa [crowd] using hsize
  have hholders : r.awarded.Sublist
      (holders c.code (results.foldl (foldResult config) { codes := entered }).winners) := by
    rw [(foldl_foldResult_winners _ _ results).1, List.nil_append]
    have hself : holders c.code r.awarded = r.awarded := by
      rw [holders, List.filter_eq_self]
      intro w hw
      rw [hws] at hw
      obtain ⟨b, -, rfl⟩ := List.mem_map.1 hw
      simp [Applicant.award, hcode]
    rw [← hself]
    exact (List.sublist_flatten_of_mem (List.mem_map_of_mem hr)).filter _
  have hlength := hholders.length_le
  rw [hserved, crowd, List.length_replicate] at hlength
  exact hlength

/-- A pool beyond the balance can only be a reserve, of a balance that is there. -/
theorem Entrant.beyond (h : Entrant config c d) (hquota : d.reserved.quota = some q)
    (hstart : c.startBalance = some start) (hlt : start < q) :
    config.has .reserved ∧ d.balance ≠ some 0 ∧ d.drawBalance = some q ∧ d.reserved.balance = some q := by
  have hon : config.has .reserved ∧ c.reserved.enabled := by
    by_contra hoff
    rw [(h.sized.unlimited hoff).1] at hquota
    simp [HuntCode.reset] at hquota
  obtain ⟨percent, n, -, hn, hsize, hreserve, hdraw⟩ := h.sized.limited hon.1 hon.2
  rw [hsize, Option.some.injEq] at hquota
  subst hquota
  have hbalance : c.reset.balance = some start := hstart
  rw [hbalance, Option.getD_some] at hn
  refine ⟨hon.1, ?_, h.drawBalance.trans hdraw, hreserve⟩
  rw [h.balance, hstart, ne_eq, Option.some.injEq]
  rintro rfl
  have := HuntCode.poolSize_zero hn
  omega

theorem exists_over_award (hcodes : (codes.map HuntCode.code).Nodup) (hc : c ∈ codes) (hblank : c.code ≠ "")
    (hcounts : ∀ n ∈ c.counts, 0 ≤ n) (hrules : Ranking.validate sort.rules = .ok ())
    (hallowed : ∀ t ∈ config.applicants, ∃ i : Int, t = toString i)
    (hentered : enterCodes codes config = .ok entered) (hpart : c.takesPart config)
    (hsized : c.reset.sizePools config = .ok d) (hquota : d.reserved.quota = some q)
    (hstart : c.startBalance = some start) (hlt : start < q) :
    ∃ applicants result, (∀ a ∈ applicants, a.residency.IsKnown) ∧
      run codes applicants (some sort) (some config) 1 = .ok result ∧ c.code ∈ result.used ∧
      start < (result.awards c.code).length := by
  obtain ⟨hreserved, hbalance, hdraw, hreserve⟩ :=
    Entrant.beyond ⟨hpart, hsized⟩ hquota hstart hlt
  have hzero := HuntCode.startBalance_nonneg hcounts hstart
  obtain ⟨e, he⟩ := Fields.mem_keys.1 (keys_entered hentered hc hpart)
  have hmem : (c.code, d) ∈ entered := by
    obtain ⟨c', hc', hcode, hentrant⟩ := mem_entered hentered he
    have hsizes := hentrant.sizes
    rw [List.inj_on_of_nodup_map hcodes hc' hc hcode, hsized, Except.ok.injEq] at hsizes
    exact hsizes ▸ he
  obtain ⟨number, heligible⟩ := exists_eligible_crowd hallowed c.code
  have hknown : ∀ a ∈ crowd number c.code (start.toNat + 1), a.residency.IsKnown := by
    intro a ha
    rw [mem_crowd ha]
    exact Or.inl rfl
  obtain ⟨result, hrun⟩ : ∃ result, run codes (crowd number c.code (start.toNat + 1)) (some sort) (some config)
      1 = .ok result := run_total hrules hentered hknown
  obtain ⟨entered', p, hdrawn⟩ := run_drawn hrun
  obtain rfl : entered' = entered := Except.ok.inj (hdrawn.enters.symm.trans hentered)
  obtain ⟨workers, hrounds⟩ := hdrawn.ran
  rw [heligible] at hrounds
  obtain ⟨p₁, s, hround, hsub⟩ := rounds_first hrounds
  have hserved := round_serves_crowd (enterCodes_ready hentered) hmem hblank hreserved hbalance hdraw hreserve
    (by omega) (by omega) hround
  have hheld := (hsub.filter fun w => decide (w.codeAwarded = some c.code)).length_le
  refine ⟨_, result, hknown, hrun, hdrawn.used ▸ Fields.mem_keys.2 ⟨d, hmem⟩, ?_⟩
  rw [(hdrawn.awards_perm c.code).length_eq]
  simp only [holders] at hserved ⊢
  omega

/-- Draws over some codes keep within their balances exactly when every reserve that is sized does, or
none of them returns because the pools cannot be sized. -/
theorem run_within_balance_iff (hcodes : (codes.map HuntCode.code).Nodup) (hblank : ∀ c ∈ codes, c.code ≠ "")
    (hcounts : ∀ c ∈ codes, ∀ n ∈ c.counts, 0 ≤ n)
    (hpercents : ∀ c ∈ codes, ∀ p, c.reserved.capPercent = some p → ¬p.Negative)
    (hrules : Ranking.validate sort.rules = .ok ())
    (hallowed : ∀ t ∈ config.applicants, ∃ i : Int, t = toString i) :
    (∀ applicants workers result, (∀ a ∈ applicants, a.residency.IsKnown) →
      run codes applicants (some sort) (some config) workers = .ok result → result.WithinBalance codes) ↔
    (∃ f, enterCodes codes config = .error f) ∨ ∀ c ∈ codes, c.ReserveWithin config := by
  constructor
  · intro hall
    cases hentered : enterCodes codes config with
    | error f => exact Or.inl ⟨f, rfl⟩
    | ok entered =>
      right
      intro c hc d q start hpart hsized hquota hstart
      by_contra hlt
      obtain ⟨applicants, result, hknown, hrun, hused, hover⟩ := exists_over_award hcodes hc (hblank c hc)
        (hcounts c hc) hrules hallowed hentered hpart hsized hquota hstart (by omega)
      obtain ⟨_, -, start', -, -, -, hstart', -, -, hlength, -⟩ := hall applicants 1 result hknown hrun c hc hused
      rw [hstart, Option.some.injEq] at hstart'
      omega
  · rintro (⟨f, hf⟩ | hwithin) applicants workers result hknown hrun
    · obtain ⟨entered, p, hdrawn⟩ := run_drawn hrun
      simp [hdrawn.enters] at hf
    · obtain ⟨entered, p, hdrawn⟩ := run_drawn hrun
      exact hdrawn.withinBalance hcodes hcounts
        (fun c hc => HuntCode.reserveNonneg_of_counts (hcounts c hc) (hpercents c hc)) hwithin

def doubleCode : HuntCode :=
  { code := "HC1", isValid := true, isInDraw := true, quota := some 1,
    reserved := { enabled := true, capPercent := some (.ofNat 200) } }

theorem doubleCode_percent : ∀ c ∈ [doubleCode], ∀ p, c.reserved.capPercent = some p → ¬p.Negative := by
  intro c hc p hp
  rw [List.mem_singleton.1 hc] at hp
  rw [← Option.some.inj hp]
  exact Binary64.ofRatio_not_negative _ _

theorem run_within_balance_iff_double : ([doubleCode].map HuntCode.code).Nodup ∧
    (∀ c ∈ [doubleCode], c.code ≠ "") ∧ (∀ c ∈ [doubleCode], ∀ n ∈ c.counts, 0 ≤ n) ∧
    (∀ c ∈ [doubleCode], ∀ p, c.reserved.capPercent = some p → ¬p.Negative) ∧
    Ranking.validate sampleSort.rules = .ok () ∧ (∀ t ∈ flowConfig.applicants, ∃ i : Int, t = toString i) ∧
    ((∀ applicants workers result, (∀ a ∈ applicants, a.residency.IsKnown) →
      run [doubleCode] applicants (some sampleSort) (some flowConfig) workers = .ok result →
        result.WithinBalance [doubleCode]) ↔
      (∃ f, enterCodes [doubleCode] flowConfig = .error f) ∨ ∀ c ∈ [doubleCode], c.ReserveWithin flowConfig) :=
  have hallowed : ∀ t ∈ flowConfig.applicants, ∃ i : Int, t = toString i :=
    fun _ ht => absurd ht List.not_mem_nil
  ⟨by decide, by decide, by decide, doubleCode_percent, by decide, hallowed,
    run_within_balance_iff (by decide) (by decide) (by decide) doubleCode_percent (by decide) hallowed⟩

def doubleResult : DrawResult where
  codes :=
    [{ doubleCode with
       drawQuota := some 2
       previousBalance := some 1
       balance := some (-1)
       drawBalance := some 0
       awarded := 2
       drawAwarded := 2
       resident := ⟨2, 2⟩
       reserved := ⟨true, some (.ofNat 200), some 2, some 0⟩ }]
  applicants :=
    [(sampleApplicant 1 .resident 1 ["HC1"]).award "HC1" 1,
     (sampleApplicant 2 .resident 0 ["HC1"]).award "HC1" 1]
  used := ["HC1"]

/-- Two residents share a quota of one. -/
theorem not_run_within_balance : ¬∀ (codes : List HuntCode) (applicants : List Applicant) (sort : DrawSort)
    (config : DrawConfig) (workers : Int) (result : DrawResult), (codes.map HuntCode.code).Nodup →
    (∀ c ∈ codes, c.code ≠ "") → (∀ c ∈ codes, ∀ n ∈ c.counts, 0 ≤ n) →
    (∀ c ∈ codes, ∀ p, c.reserved.capPercent = some p → ¬p.Negative) →
    (∀ a ∈ applicants, a.residency.IsKnown) →
    run codes applicants (some sort) (some config) workers = .ok result → result.WithinBalance codes := by
  intro hall
  have hrun : run [doubleCode] [sampleApplicant 1 .resident 1 ["HC1"], sampleApplicant 2 .resident 0 ["HC1"]]
      (some sampleSort) (some flowConfig) 1 = .ok doubleResult := by decide +kernel
  have hwithin := hall _ _ _ _ _ _ (by decide) (by decide) (by decide) doubleCode_percent (by decide +kernel) hrun
  obtain ⟨d, -, start, -, -, -, hstart, -, -, hlength, -⟩ := hwithin doubleCode List.mem_cons_self (by decide)
  rw [← Option.some.inj hstart] at hlength
  exact absurd hlength (by decide)

end Draw
end HuntDraw
