import HuntDraw.Proofs.Draw.Ledger

/-! No quota is wasted: a code that an applicant asked for in vain is used up in its last row, or its pools
are closed to the applicant, as long as no reserve is below nothing or beyond the balance it is
taken from. -/

namespace HuntDraw

open Draw

/-- The row of a code shows that nothing was left for an applicant. -/
def HuntCode.UsedUp (config : DrawConfig) (d : HuntCode) (a : Applicant) : Prop :=
  d.drawQuota = some d.drawAwarded ∨
    (a.residency = .nonResident ∧ config.has .reserved) ∨
    (a.residency = .nonResident ∧ config.has .nonResidentCap ∧ d.nonResident.hardCap ∧
      d.nonResident.quota = some d.nonResident.drawAwarded)

/-- The applicant asked at this ordinal in vain: the award came later, or never. -/
def Applicant.Missed (a : Applicant) (j : Nat) : Prop :=
  (a.outcome = some .awarded ∧ ∃ k : Int, a.ordinalAwarded = some k ∧ j < k) ∨
    (a.outcome = some .notAwarded ∧ j ≤ rounds)

theorem Applicant.Missed.ordinal {a : Applicant} {j : Nat} (h : a.Missed j) :
    ¬(a.outcome = some .awarded ∧ ∃ i : Int, a.ordinalAwarded = some i ∧ i ≤ j) := by
  rintro ⟨hawarded, i, hi, hij⟩
  rcases h with ⟨-, k, hk, hjk⟩ | ⟨hrefused, -⟩
  · rw [hi, Option.some.injEq] at hk
    omega
  · simp [hawarded] at hrefused

/-- Every drawn code that was asked for in vain is used up. -/
def DrawResult.NoWaste (config : DrawConfig) (result : DrawResult) : Prop :=
  ∀ a ∈ result.applicants, ∀ j c, 1 ≤ j → a.Missed j → a.choices[j - 1]? = some c → c ∈ result.used →
    (∃ d ∈ result.codes, d.code = c) ∧ ∀ d ∈ result.codes, d.code = c → d.UsedUp config a

namespace Draw

variable {rules : List SortRule} {config : DrawConfig} {workers : Int} {applicants : List Applicant}
  {codes : List HuntCode} {entered : Codes} {p : Progress} {sort : DrawSort} {result : DrawResult}
  {a : Applicant} {c e : HuntCode} {j : Nat} {n : Delta}

theorem isOpen_some {i : Int} (h : Bucket.isOpen (some i) = false) : i = 0 := by
  simpa [Bucket.isOpen] using h

theorem Entrant.usedUp_of_given (h : Entrant config c e) (hreserved : config.has .reserved → n.nonResidents = 0)
    (hquota : e.drawQuota = some (n.residents + n.nonResidents)) :
    (finish config (e.applyDelta n config)).UsedUp config a := by
  have hdrawn : (finish config (e.applyDelta n config)).drawQuota = some (n.residents + n.nonResidents) := by
    rw [finish_frame]
    exact hquota
  exact Or.inl (by rw [hdrawn, (h.ledger hreserved).drawAwarded])

/-- When the balance is gone so is the pool, which is no larger and is not overdrawn. -/
theorem Entrant.given_of_balance (h : Entrant config c e) (hwithin : c.ReserveWithin config)
    (hnonneg : c.ReserveNonneg config)
    (hbounded : 0 ≤ e.drawBalance.getD 0 → 0 ≤ (e.applyDelta n config).drawBalance.getD 0)
    (hbalance : (e.applyDelta n config).balance = some 0) :
    e.drawQuota = some (n.residents + n.nonResidents) := by
  obtain ⟨start, hstart⟩ := Option.isSome_iff_exists.1 (HuntCode.startBalance_isSome h.part)
  simp only [HuntCode.applyDelta, h.balance, hstart, Option.getD_some, Delta.total, Option.some.injEq]
    at hbalance
  by_cases hon : config.has .reserved
  · obtain ⟨pool, hquota⟩ := Option.isSome_iff_exists.1 (h.sized.drawQuota_isSome h.part)
    have hle := h.pool_le hwithin hquota hstart
    have hpool := hnonneg e pool h.part h.sizes ((h.reserved hon).2.1.trans hquota)
    simp only [HuntCode.applyDelta, h.drawBalance, hquota, Option.getD_some, Delta.total] at hbounded
    rw [hquota, Option.some.injEq]
    omega
  · rw [h.unreserved hon, hstart, Option.some.injEq]
    omega

theorem Entrant.usedUp_of_capped (h : Entrant config c e)
    (hreserved : config.has .reserved → n.nonResidents = 0) (hcap : config.has .nonResidentCap)
    (hhard : e.nonResident.hardCap = true)
    (hshut : Bucket.isOpen (Bucket.startScan (e.applyDelta n config)).nonResident = false)
    (ha : a.residency = .nonResident) : (finish config (e.applyDelta n config)).UsedUp config a := by
  obtain ⟨p, size, -, -, hsize, hbalance⟩ := h.sized.capped hcap (h.hardCap ▸ hhard)
  have hleft : (Bucket.startScan (e.applyDelta n config)).nonResident = some (size - n.nonResidents) := by
    simp only [Bucket.startScan, HuntCode.applyDelta, hcap, if_true, hbalance, Option.map_some]
  rw [hleft] at hshut
  have hempty := isOpen_some hshut
  refine Or.inr (Or.inr ⟨ha, hcap, ?_, ?_⟩)
  · rw [finish_frame]
    exact hhard
  · rw [(h.ledger hreserved).nonResidents.1, finish_frame]
    simp only [HuntCode.applyDelta, hsize, Option.some.injEq]
    omega

/-- A code that is closed after its awards is used up, whichever of its pools is closed. -/
theorem Entrant.usedUp (h : Entrant config c e) (hwithin : c.ReserveWithin config)
    (hnonneg : c.ReserveNonneg config) (hreserved : config.has .reserved → n.nonResidents = 0)
    (hbounded : 0 ≤ e.drawBalance.getD 0 → 0 ≤ (e.applyDelta n config).drawBalance.getD 0)
    (ha : a.residency.IsKnown) (hclosed : (e.applyDelta n config).ClosedTo config a) :
    (finish config (e.applyDelta n config)).UsedUp config a := by
  obtain ⟨pool, hquota⟩ := Option.isSome_iff_exists.1 (h.sized.drawQuota_isSome h.part)
  have hgiven : n.residents + n.nonResidents = pool →
      (finish config (e.applyDelta n config)).UsedUp config a :=
    fun hall => h.usedUp_of_given hreserved (hall ▸ hquota)
  rcases hclosed with hbalance | htotal | hadmits
  · exact h.usedUp_of_given hreserved (h.given_of_balance hwithin hnonneg hbounded hbalance)
  · simp only [Bucket.startScan, HuntCode.applyDelta, h.drawBalance, hquota, Option.getD_some, Delta.total]
      at htotal
    exact hgiven (by omega)
  · rw [Bucket.admits] at hadmits
    split_ifs at hadmits with hon hcap
    · rcases ha with ha | ha
      · have hleft : (Bucket.startScan (e.applyDelta n config)).reserved = some (pool - n.residents) := by
          simp only [Bucket.startScan, HuntCode.applyDelta, hon, if_true, (h.reserved hon).2.2, hquota,
            Option.map_some]
        rw [Applicant.isResident_iff.2 ha, Bool.true_and, hleft] at hadmits
        have hempty := isOpen_some hadmits
        have hnone := hreserved hon
        exact hgiven (by omega)
      · exact Or.inr (Or.inl ⟨ha, hon⟩)
    · simp only [Bool.or_eq_false_iff, Bool.not_eq_false'] at hadmits
      obtain ⟨⟨hnot, hhard⟩, hshut⟩ := hadmits
      have hnonResident : a.residency = .nonResident :=
        ha.resolve_left fun hres => by simp [Applicant.isResident, hres] at hnot
      exact h.usedUp_of_capped hreserved hcap hhard hshut hnonResident

theorem Drawn.missed_le (h : Drawn rules config codes applicants result entered p)
    (ha : a ∈ result.applicants) (hmissed : a.Missed j) : j ≤ Applicant.rounds := by
  rcases hmissed with ⟨hawarded, k, hk, hjk⟩ | ⟨-, hj⟩
  · have hwinner : a ∈ p.winners := (h.row ha).2.resolve_right fun hrefused => by simp [hawarded] at hrefused
    obtain ⟨b, c, m, hwon⟩ := h.history.won a hwinner
    have hm : (m : Int) = k := by simpa [hwon.row, Applicant.award] using hk
    have := hwon.ordinal.2
    omega
  · exact hj

/-- A draw that returns wastes no quota, where every reserve lies between nothing and the balance. -/
theorem run_no_waste (hblank : ∀ c ∈ codes, c.code ≠ "")
    (hwithin : ∀ c ∈ codes, c.ReserveWithin config) (hnonneg : ∀ c ∈ codes, c.ReserveNonneg config)
    (hknown : ∀ a ∈ applicants, a.residency.IsKnown) (hnumbers : (applicants.map Applicant.number).Nodup)
    (h : run codes applicants (some sort) (some config) workers = .ok result) : result.NoWaste config := by
  obtain ⟨entered, p, hdrawn⟩ := run_drawn h
  intro a ha j u hj hmissed hchoice hused
  rw [hdrawn.used] at hused
  obtain ⟨e, he⟩ := Fields.mem_keys.1 hused
  obtain ⟨c, hc, hcode, hentrant⟩ := mem_entered hdrawn.enters he
  have hcode : c.code = u := hcode
  refine ⟨⟨outcome config p c, hdrawn.mem_codes.2 ⟨c, hc, rfl⟩, (hdrawn.outcome_code c).trans hcode⟩, ?_⟩
  intro d hd hdu
  have hplace : Bucket.place? entered.keys j a.clear = some u :=
    Bucket.place?_eq_some.2 ⟨hchoice, hcode ▸ hblank c hc, hused⟩
  obtain ⟨d', hd', hclosed⟩ := hdrawn.history.lost a.clear (hdrawn.row ha).1 j hj (hdrawn.missed_le ha hmissed)
    u hplace (hdrawn.not_awardedBy hnumbers ha hmissed.ordinal)
  have hlast := hdrawn.mem_last he
  rw [Fields.eq_of_mem hdrawn.ready.nodup hd' hlast] at hclosed
  have hrow : d = finish config (e.applyDelta (tally (result.awards u)) config) := by
    obtain ⟨c', -, rfl⟩ := hdrawn.mem_codes.1 hd
    rw [hdrawn.outcome_code] at hdu
    exact hdrawn.outcome_of_mem (hdu ▸ hlast)
  obtain ⟨x, hx, hresidency, -⟩ := hdrawn.input ha
  rw [hrow]
  exact hentrant.usedUp (hwithin c hc) (hnonneg c hc) (fun hon => hdrawn.no_nonResidents hon u)
    (fun hdraw => hdrawn.history.bounded u e _ he hdraw hlast) (hresidency ▸ hknown x hx)
    (hclosed.congr rfl)

def reservedCode : HuntCode :=
  { code := "HC1", isValid := true, isInDraw := true, quota := some 2,
    reserved := { enabled := true, capPercent := some (.ofNat 50) } }

def reservedSized : HuntCode :=
  { reservedCode with
    drawQuota := some 1
    previousBalance := some 2
    balance := some 2
    drawBalance := some 1
    reserved := ⟨true, some (.ofNat 50), some 1, some 1⟩ }

def reservedConfig : DrawConfig := { id := "D", name := "reserved", rules := [.reserved] }

def reservedResult : DrawResult where
  codes :=
    [{ reservedSized with
       balance := some 1
       drawBalance := some 0
       awarded := 1
       drawAwarded := 1
       resident := ⟨1, 1⟩
       reserved := ⟨true, some (.ofNat 50), some 1, some 0⟩ }]
  applicants :=
    [(sampleApplicant 1 .resident 4 ["HC1"]).award "HC1" 1,
     (sampleApplicant 2 .nonResident 3 ["HC1"]).refuse,
     (sampleApplicant 3 .nonResident 2 ["HC1"]).refuse,
     (sampleApplicant 4 .resident 1 ["", "HC1"]).refuse,
     (sampleApplicant 5 .resident 0 ["", "HC1"]).refuse]
  used := ["HC1"]

theorem run_no_waste_reserved : (∀ c ∈ [reservedCode], c.code ≠ "") ∧
    (∀ c ∈ [reservedCode], c.ReserveWithin reservedConfig) ∧
    (∀ c ∈ [reservedCode], c.ReserveNonneg reservedConfig) ∧
    (∀ a ∈ sampleApplicants, a.residency.IsKnown) ∧ (sampleApplicants.map Applicant.number).Nodup ∧
    run [reservedCode] sampleApplicants (some sampleSort) (some reservedConfig) 1 = .ok reservedResult ∧
    reservedResult.NoWaste reservedConfig := by
  have hsized : reservedCode.reset.sizePools reservedConfig = .ok reservedSized := by decide +kernel
  have hblank : ∀ c ∈ [reservedCode], c.code ≠ "" := by decide
  have hwithin : ∀ c ∈ [reservedCode], c.ReserveWithin reservedConfig := by
    rintro c hc
    rw [List.mem_singleton.1 hc]
    exact HuntCode.reserveWithin hsized rfl rfl (by decide)
  have hnonneg : ∀ c ∈ [reservedCode], c.ReserveNonneg reservedConfig := by
    rintro c hc
    rw [List.mem_singleton.1 hc]
    exact HuntCode.reserveNonneg hsized rfl (by decide)
  have hknown : ∀ a ∈ sampleApplicants, a.residency.IsKnown := by decide +kernel
  have hnumbers : (sampleApplicants.map Applicant.number).Nodup := by decide
  have hrun : run [reservedCode] sampleApplicants (some sampleSort) (some reservedConfig) 1 =
      .ok reservedResult := by decide +kernel
  exact ⟨hblank, hwithin, hnonneg, hknown, hnumbers, hrun,
    run_no_waste hblank hwithin hnonneg hknown hnumbers hrun⟩

/-- A negative share makes a negative reserve, which awards overdraw until the balance is used up. -/
def negativeCode : HuntCode :=
  { code := "HC1", isValid := true, isInDraw := true, quota := some 1,
    reserved := { enabled := true, capPercent := some (Binary64.ofNat 100).neg } }

def negativeSized : HuntCode :=
  { negativeCode with
    drawQuota := some (-1)
    previousBalance := some 1
    balance := some 1
    drawBalance := some (-1)
    reserved := ⟨true, some (Binary64.ofNat 100).neg, some (-1), some (-1)⟩ }

def negativeApplicants : List Applicant :=
  [sampleApplicant 1 .resident 1 ["HC1"], sampleApplicant 2 .resident 0 ["", "HC1"]]

def negativeResult : DrawResult where
  codes :=
    [{ negativeSized with
       balance := some 0
       drawBalance := some (-2)
       awarded := 1
       drawAwarded := 1
       resident := ⟨1, 1⟩
       reserved := ⟨true, some (Binary64.ofNat 100).neg, some (-1), some (-2)⟩ }]
  applicants :=
    [(sampleApplicant 1 .resident 1 ["HC1"]).award "HC1" 1,
     (sampleApplicant 2 .resident 0 ["", "HC1"]).refuse]
  used := ["HC1"]

/-- It is not enough that no reserve is beyond the balance it is taken from. -/
theorem not_run_no_waste_negative : ¬∀ (codes : List HuntCode) (applicants : List Applicant)
    (sort : DrawSort) (config : DrawConfig) (workers : Int) (result : DrawResult),
    (codes.map HuntCode.code).Nodup → (∀ c ∈ codes, c.code ≠ "") → (∀ c ∈ codes, ∀ n ∈ c.counts, 0 ≤ n) →
    (∀ c ∈ codes, c.ReserveWithin config) → (∀ a ∈ applicants, a.residency.IsKnown) →
    (applicants.map Applicant.number).Nodup →
    run codes applicants (some sort) (some config) workers = .ok result → result.NoWaste config := by
  intro hall
  have hsized : negativeCode.reset.sizePools flowConfig = .ok negativeSized := by decide +kernel
  have hwithin : ∀ c ∈ [negativeCode], c.ReserveWithin flowConfig := by
    rintro c hc
    rw [List.mem_singleton.1 hc]
    exact HuntCode.reserveWithin hsized rfl rfl (by decide)
  have hwaste := hall [negativeCode] negativeApplicants sampleSort flowConfig 1 negativeResult (by decide)
    (by decide) (by decide) hwithin (by decide +kernel) (by decide) (by decide +kernel)
  obtain ⟨-, hused⟩ := hwaste (sampleApplicant 2 .resident 0 ["", "HC1"]).refuse (by decide +kernel) 2 "HC1"
    (by decide) (Or.inr ⟨rfl, by decide⟩) rfl (by decide)
  rcases hused _ List.mem_cons_self rfl with hquota | ⟨hres, -⟩ | ⟨hres, -⟩
  · exact absurd hquota (by decide)
  · exact absurd hres (by decide)
  · exact absurd hres (by decide)

end Draw
end HuntDraw
