import HuntDraw.Proofs.Draw.OverAward

/-! Sub-pools. A bucket keeps balances of its own, and what it gave away is taken from the code behind it;
over all rounds the two stay in step, so that no sub-pool is overdrawn and each is left with its size
less the awards that it is charged with. -/

namespace HuntDraw

open Attempt

namespace Bucket

variable {config : DrawConfig} {c : HuntCode} {ordinal : Int} {awarded : List Int} {a : Applicant}
  {s t : Scan} {b : Bucket} {rules : List SortRule} {r : BucketResult}

theorem isOpen_eq_true {balance : Option Int} : isOpen balance = true ↔ ∃ i, balance = some i ∧ i ≠ 0 := by
  cases balance <;> simp [isOpen]

/-- Under the cap a non-resident is let in while the pool is open, so the pool does not fall below
nothing. -/
theorem Scan.Step.nonResident_nonneg (h : Scan.Step config c ordinal awarded a s t)
    (hcap : config.has .nonResidentCap) (hreserved : ¬config.has .reserved) (hhard : c.nonResident.hardCap)
    (hs : 0 ≤ s.nonResident.getD 0) : 0 ≤ t.nonResident.getD 0 := by
  cases h with
  | pass => exact hs
  | resident => exact hs
  | nonResident ha htotal hnew hadmits =>
    simp only [admits, hcap, hreserved, hhard, Applicant.isResident_nonResident ha, if_true,
      Bool.false_eq_true, if_false, Bool.not_true, Bool.false_or] at hadmits
    obtain ⟨i, hi, hne⟩ := isOpen_eq_true.1 hadmits
    rw [hi, Option.getD_some] at hs
    rw [hi, Option.map_some, Option.getD_some]
    omega

theorem process_nonResident_nonneg (hcap : config.has .nonResidentCap) (hreserved : ¬config.has .reserved)
    (hhard : c.nonResident.hardCap) (hc : 0 ≤ c.nonResident.balance.getD 0)
    (h : b.process c rules config awarded = .ok r) :
    0 ≤ (c.applyDelta r.delta config).nonResident.balance.getD 0 := by
  have hafter : (c.applyDelta r.delta config).nonResident.balance =
      c.nonResident.balance.map (· - r.delta.nonResidents) := if_pos hcap
  rw [hafter]
  rcases process_eq_ok.1 h with ⟨-, rfl⟩ | ⟨-, ranked, s, -, hscan, rfl⟩
  · simpa using hc
  · rw [← (scan_accounted hscan).nonResident]
    exact foldlM_preserves (fun s => 0 ≤ s.nonResident.getD 0)
      (fun _ _ _ _ hstep => (scanStep_step hstep).nonResident_nonneg hcap hreserved hhard) hscan hc

end Bucket

namespace Draw

/-- A pool has the size of its share of the balance that a row starts from, and is left with that less what
was taken from it, which is no more than there was. -/
def Charged (c : HuntCode) (percent : Option Binary64) (quota balance : Option Int) (taken : Int) : Prop :=
  ∃ share start size left, percent = some share ∧ c.startBalance = some start ∧
    HuntCode.poolSize share start = .ok size ∧ quota = some size ∧ balance = some left ∧
    left = size - taken ∧ taken ≤ size ∧ 0 ≤ left

variable {rules : List SortRule} {config : DrawConfig} {workers : Int} {applicants : List Applicant}
  {codes : List HuntCode} {entered : Codes} {p : Progress} {sort : DrawSort} {result : DrawResult}
  {c d e : HuntCode} {n : Delta}

theorem finish_pools (config : DrawConfig) (c : HuntCode) : (finish config c).nonResident = c.nonResident ∧
    (finish config c).reserved = c.reserved := by
  rw [finish_frame]
  exact ⟨rfl, rfl⟩

/-- A share of the balance that a row starts from is not below nothing. -/
theorem Entrant.share (h : Entrant config c e) (hcounts : ∀ n ∈ c.counts, 0 ≤ n) {share : Binary64} {size : Int}
    (hshare : ¬share.Negative) (hsize : HuntCode.poolSize share (c.reset.balance.getD 0) = .ok size) :
    ∃ start, c.startBalance = some start ∧ HuntCode.poolSize share start = .ok size ∧ 0 ≤ size := by
  obtain ⟨start, hstart⟩ := Option.isSome_iff_exists.1 (HuntCode.startBalance_isSome h.part)
  have hbalance : c.reset.balance = some start := hstart
  rw [hbalance, Option.getD_some] at hsize
  exact ⟨start, hstart, hsize,
    HuntCode.poolSize_nonneg hshare (HuntCode.startBalance_nonneg hcounts hstart) hsize⟩

/-- A hard cap is sized as its share of the balance, which is not below nothing. -/
theorem Entrant.capped (h : Entrant config c e) (hcounts : ∀ n ∈ c.counts, 0 ≤ n)
    (hpercent : ∀ p, c.nonResident.capPercent = some p → ¬p.Negative) (hcap : config.has .nonResidentCap)
    (hhard : c.nonResident.hardCap) :
    Charged c c.nonResident.capPercent e.nonResident.quota e.nonResident.balance 0 := by
  obtain ⟨share, size, hshare, hsize, hquota, hbalance⟩ := h.sized.capped hcap hhard
  obtain ⟨start, hstart, hsize, hzero⟩ := h.share hcounts (hpercent share hshare) hsize
  exact ⟨share, start, size, size, hshare, hstart, hsize, hquota, hbalance, by omega, hzero, hzero⟩

theorem Drawn.nonResident_nonneg (h : Drawn rules config codes applicants result entered p)
    (hcounts : ∀ c ∈ codes, ∀ n ∈ c.counts, 0 ≤ n)
    (hpercents : ∀ c ∈ codes, ∀ p, c.nonResident.capPercent = some p → ¬p.Negative)
    (hcap : config.has .nonResidentCap) (hreserved : ¬config.has .reserved) :
    ∀ e ∈ p.codes, e.2.nonResident.hardCap → 0 ≤ e.2.nonResident.balance.getD 0 := by
  obtain ⟨workers, hrounds⟩ := h.ran
  refine rounds_keep (fun d => d.nonResident.hardCap → 0 ≤ d.nonResident.balance.getD 0)
    (enterCodes_ready h.enters) (fun e he hhard => ?_) (fun awarded b d r ws hproc hd hhard => ?_) hrounds
  · obtain ⟨c, hc, -, hentrant⟩ := mem_entered h.enters he
    obtain ⟨-, -, size, left, -, -, -, -, hleft, -, -, hzero⟩ :=
      hentrant.capped (hcounts c hc) (hpercents c hc) hcap (hentrant.hardCap ▸ hhard)
    rw [hleft]
    exact hzero
  · exact Bucket.process_nonResident_nonneg hcap hreserved hhard (hd hhard) hproc.made

/-- The cap: non-residents are awarded no more than their pool, which is charged with their awards. -/
theorem Drawn.capped (h : Drawn rules config codes applicants result entered p)
    (hcounts : ∀ c ∈ codes, ∀ n ∈ c.counts, 0 ≤ n)
    (hpercents : ∀ c ∈ codes, ∀ p, c.nonResident.capPercent = some p → ¬p.Negative) (hc : c ∈ codes)
    (he : (c.code, e) ∈ entered) (hentrant : Entrant config c e) (hcap : config.has .nonResidentCap)
    (hreserved : ¬config.has .reserved) (hhard : c.nonResident.hardCap) :
    Charged c c.nonResident.capPercent (outcome config p c).nonResident.quota
      (outcome config p c).nonResident.balance (tally (result.awards c.code)).nonResidents := by
  have hlast := h.mem_last he
  have hleft := h.nonResident_nonneg hcounts hpercents hcap hreserved _ hlast (hentrant.hardCap.trans hhard)
  obtain ⟨share, start, size, size', hshare, hstart, hsize, hquota, hbalance, hsame, -, -⟩ :=
    hentrant.capped (hcounts c hc) (hpercents c hc) hcap hhard
  have hafter : (e.applyDelta (tally (result.awards c.code)) config).nonResident.balance =
      some (size - (tally (result.awards c.code)).nonResidents) := by
    simp only [HuntCode.applyDelta, hcap, if_true, hbalance, hsame, Option.map_some, sub_zero]
  rw [hafter, Option.getD_some] at hleft
  rw [h.outcome_of_mem hlast, (finish_pools _ _).1]
  exact ⟨share, start, size, _, hshare, hstart, hsize, hquota, hafter, rfl, by omega, hleft⟩

/-- The reserve: residents are awarded no more than it, and it is charged with their awards. -/
theorem Drawn.reserved (h : Drawn rules config codes applicants result entered p)
    (hcounts : ∀ n ∈ c.counts, 0 ≤ n) (hpercent : ∀ p, c.reserved.capPercent = some p → ¬p.Negative)
    (he : (c.code, e) ∈ entered) (hentrant : Entrant config c e) (hreserved : config.has .reserved) :
    Charged c c.reserved.capPercent (outcome config p c).reserved.quota (outcome config p c).reserved.balance
      (tally (result.awards c.code)).residents := by
  have hlast := h.mem_last he
  have henabled : c.reserved.enabled := by
    have hon := (hentrant.reserved hreserved).1
    rw [hentrant.sized.reserved] at hon
    exact hon
  obtain ⟨share, size, hshare, hsize, hquota, hbalance, hdraw⟩ := hentrant.sized.limited hreserved henabled
  obtain ⟨start, hstart, hsize, hzero⟩ := hentrant.share hcounts (hpercent share hshare) hsize
  have hafter : (e.applyDelta (tally (result.awards c.code)) config).reserved.balance =
      some (size - (tally (result.awards c.code)).residents) := by
    simp only [HuntCode.applyDelta, hreserved, if_true, hbalance, Option.map_some]
  -- the reserve is left with what the pool of the draw is left with
  have hleft := h.history.bounded c.code e _ he (by simpa [hentrant.drawBalance, hdraw] using hzero) hlast
  rw [← h.history.reserved_eq h.enters hreserved hlast, hafter, Option.getD_some] at hleft
  rw [h.outcome_of_mem hlast, (finish_pools _ _).2]
  exact ⟨share, start, size, _, hshare, hstart, hsize, hquota, hafter, rfl, by omega, hleft⟩

/-- The reserved draw leaves the non-resident pool as it was sized. -/
theorem Drawn.nonResident_kept (h : Drawn rules config codes applicants result entered p)
    (he : (c.code, e) ∈ entered) (hreserved : config.has .reserved) :
    (outcome config p c).nonResident.quota = e.nonResident.quota ∧
      (outcome config p c).nonResident.balance = e.nonResident.balance := by
  have hnone := h.no_nonResidents hreserved c.code
  rw [h.outcome_of_mem (h.mem_last he), (finish_pools _ _).1]
  refine ⟨rfl, ?_⟩
  simp only [HuntCode.applyDelta, hnone, sub_zero, Option.map_id', ite_self]

/-- Behind a draw that returns no sub-pool is overdrawn: a hard cap that is enforced is charged with the
awards to non-residents, and in the reserved draw the reserve is charged with the awards, all to residents,
while the non-resident pool is as it was sized. -/
theorem run_pools (hcodes : (codes.map HuntCode.code).Nodup) (hcounts : ∀ c ∈ codes, ∀ n ∈ c.counts, 0 ≤ n)
    (hcaps : ∀ c ∈ codes, ∀ p, c.nonResident.capPercent = some p → ¬p.Negative)
    (hreserves : ∀ c ∈ codes, ∀ p, c.reserved.capPercent = some p → ¬p.Negative)
    (h : run codes applicants (some sort) (some config) workers = .ok result) :
    ∀ c ∈ codes, c.code ∈ result.used → ∃ d ∈ result.codes, d.code = c.code ∧
      (config.has .nonResidentCap → ¬config.has .reserved → c.nonResident.hardCap →
        Charged c c.nonResident.capPercent d.nonResident.quota d.nonResident.balance
          (tally (result.awards c.code)).nonResidents) ∧
      (config.has .reserved → (∀ a ∈ result.awards c.code, a.residency = .resident) ∧
        Charged c c.reserved.capPercent d.reserved.quota d.reserved.balance
          (tally (result.awards c.code)).residents ∧
        (config.has .nonResidentCap → c.nonResident.hardCap →
          Charged c c.nonResident.capPercent d.nonResident.quota d.nonResident.balance 0) ∧
        (¬(config.has .nonResidentCap ∧ c.nonResident.hardCap) →
          d.nonResident.quota = none ∧ d.nonResident.balance = none)) := by
  obtain ⟨entered, p, hdrawn⟩ := run_drawn h
  intro c hc hused
  obtain ⟨e, he, hentrant⟩ := hdrawn.entrant hcodes hc hused
  refine ⟨outcome config p c, hdrawn.mem_codes.2 ⟨c, hc, rfl⟩, hdrawn.outcome_code c, ?_, ?_⟩
  · exact hdrawn.capped hcounts hcaps hc he hentrant
  · intro hreserved
    obtain ⟨hquota, hbalance⟩ := hdrawn.nonResident_kept he hreserved
    refine ⟨fun a ha => hdrawn.residents hreserved ha, hdrawn.reserved (hcounts c hc) (hreserves c hc) he hentrant
      hreserved, fun hcap hhard => ?_, fun hoff => ?_⟩
    · rw [hquota, hbalance]
      exact hentrant.capped (hcounts c hc) (hcaps c hc) hcap hhard
    · rw [hquota, hbalance, hentrant.sized.uncapped hoff]
      exact ⟨rfl, rfl⟩

/-- A non-resident wins the whole of a cap, and two residents the whole of a reserve. -/
theorem run_pools_sample :
    (([sampleCode].map HuntCode.code).Nodup ∧ (∀ c ∈ [sampleCode], ∀ n ∈ c.counts, 0 ≤ n) ∧
      (∀ c ∈ [sampleCode], ∀ p, c.nonResident.capPercent = some p → ¬p.Negative) ∧
      (∀ c ∈ [sampleCode], ∀ p, c.reserved.capPercent = some p → ¬p.Negative) ∧
      run [sampleCode] sampleApplicants (some sampleSort) (some sampleConfig) 1 = .ok sampleResult ∧
      ∃ d ∈ sampleResult.codes, Charged sampleCode (some (.ofNat 50)) d.nonResident.quota d.nonResident.balance 1) ∧
    (([doubleCode].map HuntCode.code).Nodup ∧ (∀ c ∈ [doubleCode], ∀ n ∈ c.counts, 0 ≤ n) ∧
      (∀ c ∈ [doubleCode], ∀ p, c.nonResident.capPercent = some p → ¬p.Negative) ∧
      (∀ c ∈ [doubleCode], ∀ p, c.reserved.capPercent = some p → ¬p.Negative) ∧
      run [doubleCode] [sampleApplicant 1 .resident 1 ["HC1"], sampleApplicant 2 .resident 0 ["HC1"]]
        (some sampleSort) (some flowConfig) 1 = .ok doubleResult ∧
      ∃ d ∈ doubleResult.codes, Charged doubleCode (some (.ofNat 200)) d.reserved.quota d.reserved.balance 2) := by
  have hcap : ∀ c ∈ [sampleCode], ∀ p, c.nonResident.capPercent = some p → ¬p.Negative := by
    intro c hc p hp
    rw [List.mem_singleton.1 hc] at hp
    rw [← Option.some.inj hp]
    exact Binary64.ofRatio_not_negative _ _
  have hnone : ∀ c ∈ [sampleCode], ∀ p, c.reserved.capPercent = some p → ¬p.Negative := by
    intro c hc p hp
    rw [List.mem_singleton.1 hc] at hp
    simp [sampleCode] at hp
  have huncapped : ∀ c ∈ [doubleCode], ∀ p, c.nonResident.capPercent = some p → ¬p.Negative := by
    intro c hc p hp
    rw [List.mem_singleton.1 hc] at hp
    simp [doubleCode] at hp
  have hdouble : run [doubleCode] [sampleApplicant 1 .resident 1 ["HC1"], sampleApplicant 2 .resident 0 ["HC1"]]
      (some sampleSort) (some flowConfig) 1 = .ok doubleResult := by decide +kernel
  obtain ⟨d, hd, -, hcapped, -⟩ := run_pools (by decide) (by decide) hcap hnone run_sample sampleCode
    List.mem_cons_self (by decide)
  obtain ⟨d', hd', -, -, hreserved⟩ := run_pools (by decide) (by decide) huncapped doubleCode_percent hdouble
    doubleCode List.mem_cons_self (by decide)
  exact ⟨⟨by decide, by decide, hcap, hnone, run_sample, d, hd, hcapped (by decide) (by decide) rfl⟩,
    ⟨by decide, by decide, huncapped, doubleCode_percent, hdouble, d', hd', (hreserved (by decide)).2.1⟩⟩

end Draw
end HuntDraw
