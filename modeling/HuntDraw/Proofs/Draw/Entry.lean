import HuntDraw.Proofs.Draw.History

/-! Entering a draw. Sizing the pools of a code leaves everything else of it alone, and the codes that
take part are ready for the rounds, each sized from a row of its own text. -/

namespace HuntDraw

open Attempt

/-- What sizing the pools of a code does: the non-resident pool is sized where its cap is enforced and
hard, and an active reserved pool is also the pool of the draw. -/
structure HuntCode.Sized (config : DrawConfig) (c d : HuntCode) : Prop where
  frame : d =
    { c with
      drawQuota := d.drawQuota
      drawBalance := d.drawQuota
      nonResident := d.nonResident
      reserved := d.reserved }
  nonResident : d.nonResident =
    { c.nonResident with quota := d.nonResident.quota, balance := d.nonResident.balance }
  capped : config.has .nonResidentCap → c.nonResident.hardCap → ∃ p n, c.nonResident.capPercent = some p ∧
    poolSize p (c.balance.getD 0) = .ok n ∧ d.nonResident.quota = some n ∧ d.nonResident.balance = some n
  uncapped : ¬(config.has .nonResidentCap ∧ c.nonResident.hardCap) → d.nonResident = c.nonResident
  reserved : d.reserved = { c.reserved with quota := d.reserved.quota, balance := d.reserved.balance }
  limited : config.has .reserved → c.reserved.enabled → ∃ p n, c.reserved.capPercent = some p ∧
    poolSize p (c.balance.getD 0) = .ok n ∧ d.reserved.quota = some n ∧ d.reserved.balance = some n ∧
    d.drawQuota = some n
  unlimited : ¬(config.has .reserved ∧ c.reserved.enabled) →
    d.reserved = c.reserved ∧ d.drawQuota = c.drawQuota

namespace HuntCode

variable {config : DrawConfig} {c d : HuntCode} {pool : NonResidentPool} {reserved : Option ReservedPool}

theorem sizeNonResident_eq_ok (h : c.sizeNonResident config = .ok pool) :
    pool = { c.nonResident with quota := pool.quota, balance := pool.balance } ∧
    (config.has .nonResidentCap → c.nonResident.hardCap → ∃ p n, c.nonResident.capPercent = some p ∧
      poolSize p (c.balance.getD 0) = .ok n ∧ pool.quota = some n ∧ pool.balance = some n) ∧
    (¬(config.has .nonResidentCap ∧ c.nonResident.hardCap) → pool = c.nonResident) := by
  rw [sizeNonResident] at h
  split_ifs at h with hcap
  · split at h
    · simp at h
    · rename_i p hp
      simp only [bind_eq_ok, pure_eq_ok] at h
      obtain ⟨n, hn, rfl⟩ := h
      exact ⟨rfl, fun _ _ => ⟨p, n, hp, hn, rfl, rfl⟩, fun hnot => absurd hcap hnot⟩
  · obtain rfl := Except.ok.inj h
    exact ⟨rfl, fun h1 h2 => absurd ⟨h1, h2⟩ hcap, fun _ => rfl⟩

theorem sizeReserved_eq_ok (h : c.sizeReserved config = .ok reserved) :
    (config.has .reserved ∧ c.reserved.enabled ∧ ∃ p n, c.reserved.capPercent = some p ∧
      poolSize p (c.balance.getD 0) = .ok n ∧
      reserved = some { c.reserved with quota := some n, balance := some n }) ∨
    (¬(config.has .reserved ∧ c.reserved.enabled) ∧ reserved = none) := by
  rw [sizeReserved] at h
  split_ifs at h with hon
  · split at h
    · simp at h
    · rename_i p hp
      simp only [bind_eq_ok, pure_eq_ok] at h
      obtain ⟨n, hn, rfl⟩ := h
      exact Or.inl ⟨hon.1, hon.2, p, n, hp, hn, rfl⟩
  · exact Or.inr ⟨hon, (Except.ok.inj h).symm⟩

theorem sizePools_sized (h : c.sizePools config = .ok d) : Sized config c d := by
  rw [sizePools, bind_eq_ok] at h
  obtain ⟨pool, hpool, h⟩ := h
  rw [bind_eq_ok] at h
  obtain ⟨reserved, hreserved, h⟩ := h
  obtain ⟨hframe, hcapped, huncapped⟩ := sizeNonResident_eq_ok hpool
  rcases sizeReserved_eq_ok hreserved with ⟨hon, henabled, p, n, hp, hn, rfl⟩ | ⟨hoff, rfl⟩
  · obtain rfl := pure_eq_ok.1 h
    exact ⟨rfl, hframe, hcapped, huncapped, rfl, fun _ _ => ⟨p, n, hp, hn, rfl, rfl, rfl⟩,
      fun hnot => absurd ⟨hon, henabled⟩ hnot⟩
  · obtain rfl := pure_eq_ok.1 h
    exact ⟨rfl, hframe, hcapped, huncapped, rfl, fun h1 h2 => absurd ⟨h1, h2⟩ hoff, fun _ => ⟨rfl, rfl⟩⟩

theorem startBalance_isSome (h : c.takesPart config) : c.startBalance.isSome := by
  simp only [takesPart, isDrawable, Bool.and_eq_true] at h
  simp [startBalance, h.1.2]

theorem Sized.drawQuota_isSome (h : Sized config c.reset d) (hpart : c.takesPart config) :
    d.drawQuota.isSome := by
  by_cases hon : config.has .reserved ∧ c.reserved.enabled
  · obtain ⟨p, n, -, -, -, -, hn⟩ := h.limited hon.1 hon.2
    rw [hn]
    rfl
  · rw [(h.unlimited hon).2]
    exact startBalance_isSome hpart

end HuntCode

def HuntCode.counts (c : HuntCode) : List Int :=
  [c.quota, c.drawQuota, c.previousBalance, c.balance, c.drawBalance, c.nonResident.quota,
    c.nonResident.balance, c.reserved.quota, c.reserved.balance].filterMap id ++
  [c.awarded, c.drawAwarded, c.nonResident.drawAwarded, c.nonResident.awarded, c.resident.drawAwarded,
    c.resident.awarded]

/-- What a code may still award: its balance, or its quota where no balance is recorded yet. -/
def HuntCode.remaining (c : HuntCode) : Int := c.startBalance.getD 0

/-- A row whose reserved pool, where one is sized, is at most the balance that it starts from. -/
def HuntCode.ReserveWithin (config : DrawConfig) (c : HuntCode) : Prop :=
  ∀ d q start, c.takesPart config → c.reset.sizePools config = .ok d → d.reserved.quota = some q →
    c.startBalance = some start → q ≤ start

/-- A row whose reserved pool, where one is sized, is not below nothing. -/
def HuntCode.ReserveNonneg (config : DrawConfig) (c : HuntCode) : Prop :=
  ∀ d q, c.takesPart config → c.reset.sizePools config = .ok d → d.reserved.quota = some q → 0 ≤ q

variable {config : DrawConfig} {c d : HuntCode} {q start : Int}

theorem HuntCode.reserveWithin (hd : c.reset.sizePools config = .ok d) (hq : d.reserved.quota = some q)
    (hstart : c.startBalance = some start) (hle : q ≤ start) : c.ReserveWithin config := by
  intro d' q' start' _ hd' hq' hstart'
  rw [hd, Except.ok.injEq] at hd'
  subst hd'
  rw [hq, Option.some.injEq] at hq'
  rw [hstart, Option.some.injEq] at hstart'
  omega

theorem HuntCode.reserveNonneg (hd : c.reset.sizePools config = .ok d) (hq : d.reserved.quota = some q)
    (hle : 0 ≤ q) : c.ReserveNonneg config := by
  intro d' q' _ hd' hq'
  rw [hd, Except.ok.injEq] at hd'
  subst hd'
  rw [hq, Option.some.injEq] at hq'
  omega

namespace Draw

variable {config : DrawConfig} {codes : List HuntCode} {entered : Codes}

/-- A code enters a draw from a row that takes part, its pools sized from the balance of the row. -/
structure Entrant (config : DrawConfig) (c d : HuntCode) : Prop where
  part : c.takesPart config
  sizes : c.reset.sizePools config = .ok d

theorem Entrant.sized {c d : HuntCode} (h : Entrant config c d) : c.reset.Sized config d :=
  HuntCode.sizePools_sized h.sizes

theorem mem_entered (h : enterCodes codes config = .ok entered) {e : String × HuntCode} (he : e ∈ entered) :
    ∃ c ∈ codes, c.code = e.1 ∧ Entrant config c e.2 := by
  simp only [enterCodes, bind_eq_ok, pure_eq_ok] at h
  obtain ⟨sized, hsized, rfl⟩ := h
  obtain ⟨d, hd, rfl⟩ := List.mem_map.1 (Fields.mem_of_mem_ofPairs he)
  obtain ⟨c', hc', hcd⟩ := (mapM_mem hsized).1 d hd
  obtain ⟨c, hc, rfl⟩ := List.mem_map.1 hc'
  obtain ⟨hmem, hpart⟩ := List.mem_filter.1 hc
  have hcode : d.code = c.code := by rw [(HuntCode.sizePools_sized hcd).frame]; rfl
  exact ⟨c, hmem, hcode.symm, hpart, hcd⟩

theorem keys_entered (h : enterCodes codes config = .ok entered) {c : HuntCode} (hc : c ∈ codes)
    (hpart : c.takesPart config) : c.code ∈ entered.keys := by
  simp only [enterCodes, bind_eq_ok, pure_eq_ok] at h
  obtain ⟨sized, hsized, rfl⟩ := h
  obtain ⟨d, hd, hcd⟩ := (mapM_mem hsized).2 c.reset (List.mem_map_of_mem (List.mem_filter.2 ⟨hc, hpart⟩))
  have hcode : d.code = c.code := by rw [(HuntCode.sizePools_sized hcd).frame]; rfl
  rw [Fields.mem_keys_ofPairs, Fields.keys, List.map_map]
  exact List.mem_map.2 ⟨d, hd, hcode⟩

namespace Entrant

variable {c d : HuntCode}

theorem code (h : Entrant config c d) : d.code = c.code := by
  rw [h.sized.frame]
  rfl

theorem balance (h : Entrant config c d) : d.balance = c.startBalance := by
  rw [h.sized.frame]
  rfl

theorem drawBalance (h : Entrant config c d) : d.drawBalance = d.drawQuota := by
  rw [h.sized.frame]

theorem hardCap (h : Entrant config c d) : d.nonResident.hardCap = c.nonResident.hardCap := by
  rw [h.sized.nonResident]
  rfl

/-- The counters of the draw start from nothing, the others go on from the row. -/
theorem counters (h : Entrant config c d) :
    d.drawAwarded = 0 ∧ d.awarded = c.awarded ∧ d.previousBalance = c.startBalance ∧
      d.resident = ⟨0, c.resident.awarded⟩ ∧
      d.nonResident.drawAwarded = 0 ∧ d.nonResident.awarded = c.nonResident.awarded := by
  refine ⟨?_, ?_, ?_, ?_, ?_, ?_⟩
  · rw [h.sized.frame]; rfl
  · rw [h.sized.frame]; rfl
  · rw [h.sized.frame]; rfl
  · rw [h.sized.frame]; rfl
  · rw [h.sized.nonResident]; rfl
  · rw [h.sized.nonResident]; rfl

theorem reserved (h : Entrant config c d) (hreserved : config.has .reserved) :
    d.reserved.enabled ∧ d.reserved.quota = d.drawQuota ∧ d.reserved.balance = d.drawQuota := by
  have henabled : c.reserved.enabled := by
    have hpart := h.part
    simp only [HuntCode.takesPart, hreserved, Bool.not_true, Bool.false_or, Bool.and_eq_true] at hpart
    exact hpart.2
  obtain ⟨p, n, -, -, hquota, hbalance, hdraw⟩ := h.sized.limited hreserved henabled
  refine ⟨?_, by rw [hquota, hdraw], by rw [hbalance, hdraw]⟩
  rw [h.sized.reserved]
  exact henabled

/-- Without the reserved rule the pool of a code is the balance that it starts from. -/
theorem unreserved (h : Entrant config c d) (hreserved : ¬config.has .reserved) :
    d.drawQuota = c.startBalance :=
  (h.sized.unlimited fun hon => hreserved hon.1).2

theorem pool_le {pool start : Int} (h : Entrant config c d) (hwithin : c.ReserveWithin config)
    (hquota : d.drawQuota = some pool) (hstart : c.startBalance = some start) : pool ≤ start := by
  by_cases hon : config.has .reserved
  · exact hwithin d pool start h.part h.sizes ((h.reserved hon).2.1.trans hquota) hstart
  · rw [h.unreserved hon, hstart, Option.some.injEq] at hquota
    exact hquota.ge

/-- A pool is not below nothing where neither the reserve nor the balance is. -/
theorem pool_nonneg {pool start : Int} (h : Entrant config c d) (hnonneg : c.ReserveNonneg config)
    (hquota : d.drawQuota = some pool) (hstart : c.startBalance = some start) (hzero : 0 ≤ start) :
    0 ≤ pool := by
  by_cases hon : config.has .reserved
  · exact hnonneg d pool h.part h.sizes ((h.reserved hon).2.1.trans hquota)
  · rw [h.unreserved hon, hstart, Option.some.injEq] at hquota
    exact hquota ▸ hzero

end Entrant

theorem enterCodes_ready (h : enterCodes codes config = .ok entered) : Ready entered where
  nodup := by
    simp only [enterCodes, bind_eq_ok, pure_eq_ok] at h
    obtain ⟨sized, -, rfl⟩ := h
    exact Fields.nodup_keys_ofPairs _
  keyed e he := by
    obtain ⟨c, -, hcode, hc⟩ := mem_entered h he
    exact hc.code.trans hcode
  balance e he := by
    obtain ⟨c, -, -, hc⟩ := mem_entered h he
    rw [hc.balance]
    exact HuntCode.startBalance_isSome hc.part
  drawBalance e he := by
    obtain ⟨c, -, -, hc⟩ := mem_entered h he
    rw [hc.drawBalance]
    exact hc.sized.drawQuota_isSome hc.part

end Draw
end HuntDraw
