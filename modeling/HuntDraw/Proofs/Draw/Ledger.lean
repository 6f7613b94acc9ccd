import HuntDraw.Proofs.Draw.Result

/-! The quota ledger of a draw: every counter of a code that took part follows from the row it entered
with and from the rows that were awarded the code. -/

namespace HuntDraw

def DrawResult.awarded (r : DrawResult) : List Applicant :=
  r.applicants.filter fun a => a.outcome = some .awarded

def DrawResult.awards (r : DrawResult) (c : String) : List Applicant :=
  r.applicants.filter fun a => a.outcome = some .awarded ∧ a.codeAwarded = some c

namespace Draw

/-- How the row that a code is returned with follows from the row `c` and from the awards counted in `n`. -/
structure Ledger (config : DrawConfig) (c d : HuntCode) (n : Delta) : Prop where
  drawAwarded : d.drawAwarded = n.residents + n.nonResidents
  awarded : d.awarded = c.awarded + (n.residents + n.nonResidents)
  residents : d.resident.drawAwarded = n.residents ∧ d.resident.awarded = c.resident.awarded + n.residents
  nonResidents : d.nonResident.drawAwarded = n.nonResidents ∧
    d.nonResident.awarded = c.nonResident.awarded + n.nonResidents
  previous : d.previousBalance = c.startBalance
  balances : ∃ start pool, c.startBalance = some start ∧ d.drawQuota = some pool ∧
    (¬(config.has .reserved ∧ ¬config.has .flow) →
      d.balance = some (start - (n.residents + n.nonResidents)) ∧
        d.drawBalance = some (pool - (n.residents + n.nonResidents))) ∧
    (config.has .reserved → ¬config.has .flow → d.balance = some (start - pool) ∧ d.drawBalance = some 0)

variable {rules : List SortRule} {config : DrawConfig} {workers : Int} {applicants : List Applicant}
  {codes : List HuntCode} {entered : Codes} {p : Progress} {sort : DrawSort} {result : DrawResult}
  {c d : HuntCode}

theorem tally_perm {xs ys : List Applicant} (h : xs.Perm ys) : tally xs = tally ys := by
  simp only [tally, h.countP_eq]

/-- The rows that were awarded something are the winners of the rounds. -/
theorem Drawn.awarded_perm (h : Drawn rules config codes applicants result entered p) :
    result.awarded.Perm p.winners := by
  refine (h.applicants_perm.filter _).trans ?_
  rw [List.filter_append]
  have hwon : p.winners.filter (fun a => a.outcome = some .awarded) = p.winners := by
    rw [List.filter_eq_self]
    intro w hw
    obtain ⟨b, c, m, hwon⟩ := h.history.won w hw
    simp [hwon.row, Applicant.award]
  have hrefused : ((pending (Entry.applicants applicants config) p.awarded).map Applicant.refuse).filter
      (fun a => a.outcome = some .awarded) = [] := by
    rw [List.filter_eq_nil_iff]
    intro a ha
    obtain ⟨b, -, rfl⟩ := List.mem_map.1 ha
    simp [Applicant.refuse]
  rw [hwon, hrefused, List.append_nil]

theorem awards_eq (result : DrawResult) (c : String) : result.awards c = holders c result.awarded := by
  simp only [DrawResult.awards, DrawResult.awarded, holders, List.filter_filter, Bool.decide_and]
  exact List.filter_congr fun a _ => Bool.and_comm _ _

/-- The rows awarded a code are the winners that the rounds recorded for it. -/
theorem Drawn.awards_perm (h : Drawn rules config codes applicants result entered p) (c : String) :
    (result.awards c).Perm (holders c p.winners) := by
  rw [awards_eq]
  exact h.awarded_perm.filter _

/-- The state of a code behind the last round: the awards to its holders counted. -/
theorem Drawn.mem_last (h : Drawn rules config codes applicants result entered p) {e : String × HuntCode}
    (he : e ∈ entered) : (e.1, e.2.applyDelta (tally (result.awards e.1)) config) ∈ p.codes := by
  rw [h.history.codes, tally_perm (h.awards_perm e.1)]
  exact List.mem_map.2 ⟨e, he, rfl⟩

theorem Drawn.residents (h : Drawn rules config codes applicants result entered p)
    (hreserved : config.has .reserved) {u : String} {a : Applicant} (ha : a ∈ result.awards u) :
    a.residency = .resident :=
  h.history.residents hreserved (List.mem_of_mem_filter ((h.awards_perm u).mem_iff.1 ha))

theorem Drawn.no_nonResidents (h : Drawn rules config codes applicants result entered p)
    (hreserved : config.has .reserved) (c : String) : (tally (result.awards c)).nonResidents = 0 := by
  rw [tally_perm (h.awards_perm c)]
  exact h.history.no_nonResidents hreserved c

theorem Drawn.entrant (h : Drawn rules config codes applicants result entered p)
    (hcodes : (codes.map HuntCode.code).Nodup) (hc : c ∈ codes) (hused : c.code ∈ result.used) :
    ∃ e, (c.code, e) ∈ entered ∧ Entrant config c e := by
  rw [h.used] at hused
  obtain ⟨e, he⟩ := Fields.mem_keys.1 hused
  obtain ⟨c', hc', hcode, hentrant⟩ := mem_entered h.enters he
  have hsame : c' = c := List.inj_on_of_nodup_map hcodes hc' hc hcode
  exact ⟨e, he, hsame ▸ hentrant⟩

/-- Counting awards in a code that entered, and dropping its reserve where it may not flow on. -/
theorem Entrant.ledger {e : HuntCode} {n : Delta} (h : Entrant config c e)
    (hreserved : config.has .reserved → n.nonResidents = 0) :
    Ledger config c (finish config (e.applyDelta n config)) n := by
  obtain ⟨hdraw, hall, hprevious, hresident, hnonDraw, hnonAll⟩ := h.counters
  obtain ⟨start, hstart⟩ := Option.isSome_iff_exists.1 (HuntCode.startBalance_isSome h.part)
  obtain ⟨pool, hquota⟩ := Option.isSome_iff_exists.1 (h.sized.drawQuota_isSome h.part)
  have hframe := finish_frame config (e.applyDelta n config)
  refine ⟨?_, ?_, ?_, ?_, ?_, start, pool, hstart, ?_, ?_, ?_⟩
  · rw [hframe]
    simp only [HuntCode.applyDelta, hdraw, Delta.total, Int.zero_add]
  · rw [hframe]
    simp only [HuntCode.applyDelta, hall, Delta.total]
  · rw [hframe]
    simp only [HuntCode.applyDelta, hresident, Int.zero_add, and_self]
  · rw [hframe]
    simp only [HuntCode.applyDelta, hnonDraw, hnonAll, Int.zero_add, and_self]
  · rw [hframe]
    simp only [HuntCode.applyDelta, hprevious]
  · rw [hframe]
    simp only [HuntCode.applyDelta, hquota]
  · intro hkept
    have hsame : finish config (e.applyDelta n config) = e.applyDelta n config :=
      if_neg fun hdrop => hkept ⟨hdrop.1, hdrop.2.1⟩
    rw [hsame]
    simp [HuntCode.applyDelta, h.balance, h.drawBalance, hquota, hstart, Delta.total]
  · intro hon hoff
    -- what is left of the reserve is the pool less the awards, which are all to residents
    obtain ⟨henabled, -, hreserve⟩ := h.reserved hon
    have hdrop : finish config (e.applyDelta n config) = _ := if_pos ⟨hon, hoff, henabled⟩
    rw [hdrop]
    simp only [HuntCode.applyDelta, hon, if_true, hreserve, h.balance, hquota, hstart, hreserved hon,
      Delta.total, Option.map_some, Option.getD_some, Option.some.injEq, and_true]
    omega

/-- A draw that returns keeps the ledger of each code that took part, and every other row as it is. -/
theorem run_ledger (hcodes : (codes.map HuntCode.code).Nodup)
    (h : run codes applicants (some sort) (some config) workers = .ok result) :
    (∀ u ∈ result.used, ∃ c ∈ codes, ∃ d ∈ result.codes, c.code = u ∧ d.code = u ∧
      Ledger config c d (tally (result.awards u))) ∧
    (∀ c ∈ codes, c.code ∉ result.used → c ∈ result.codes) ∧
    (result.codes.map HuntCode.code).Perm (codes.map HuntCode.code) := by
  obtain ⟨entered, p, hdrawn⟩ := run_drawn h
  refine ⟨?_, ?_, hdrawn.codes_perm⟩
  · intro u hu
    obtain ⟨e, he⟩ := Fields.mem_keys.1 (hdrawn.used ▸ hu)
    obtain ⟨c, hc, rfl, -⟩ := mem_entered hdrawn.enters he
    obtain ⟨e, he, hentrant⟩ := hdrawn.entrant hcodes hc hu
    refine ⟨c, hc, outcome config p c, hdrawn.mem_codes.2 ⟨c, hc, rfl⟩, rfl, hdrawn.outcome_code c, ?_⟩
    rw [hdrawn.outcome_of_mem (hdrawn.mem_last he)]
    exact hentrant.ledger fun hreserved => hdrawn.no_nonResidents hreserved c.code
  · intro c hc hunused
    rw [hdrawn.used] at hunused
    exact hdrawn.mem_codes.2 ⟨c, hc, (hdrawn.outcome_of_notMem hunused).symm⟩

theorem run_ledger_sample : ([sampleCode].map HuntCode.code).Nodup ∧
    run [sampleCode] sampleApplicants (some sampleSort) (some sampleConfig) 1 = .ok sampleResult ∧
    ∃ c ∈ [sampleCode], ∃ d ∈ sampleResult.codes, c.code = "HC1" ∧ d.code = "HC1" ∧
      Ledger sampleConfig c d (tally (sampleResult.awards "HC1")) :=
  ⟨by decide, run_sample, (run_ledger (by decide) run_sample).1 "HC1" (by decide)⟩

end Draw
end HuntDraw
