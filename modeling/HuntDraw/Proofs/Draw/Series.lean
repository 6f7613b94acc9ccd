import HuntDraw.Proofs.Draw.OverAward
import HuntDraw.Proofs.Draw.Rows
import HuntDraw.Proofs.Draw.Waste

/-! Draws one after the other, each over the codes and the rows that the one before returned and with rules of
its own. What a code has awarded and what remains of it are never more than at the start, and nobody who was
awarded comes back. -/

namespace HuntDraw

/-- How a draw leaves a row: what it awards is counted, and is taken from what remains, together with a reserve
that may not flow on. -/
structure HuntCode.Spends (config : DrawConfig) (result : DrawResult) (c d : HuntCode) : Prop where
  code : d.code = c.code
  awarded : d.awarded = c.awarded + (result.awards c.code).length
  remaining : 0 ≤ d.remaining
  spent : d.awarded + d.remaining ≤ c.awarded + c.remaining
  kept : ¬(config.has .reserved ∧ ¬config.has .flow) → d.awarded + d.remaining = c.awarded + c.remaining
  idle : c.code ∉ result.used → d = c

namespace Draw

open Attempt

structure Stage where
  sort : DrawSort
  config : DrawConfig
  workers : Int
  result : DrawResult

def codesAfter (codes : List HuntCode) (stages : List Stage) : List HuntCode :=
  stages.foldl (fun _ s => s.result.codes) codes

def applicantsAfter (applicants : List Applicant) (stages : List Stage) : List Applicant :=
  stages.foldl (fun _ s => s.result.applicants) applicants

/-- Draws that all return, each over what the one before returned, its codes as they are allowed to be. -/
inductive Series (allowed : DrawConfig → HuntCode → Prop) : List HuntCode → List Applicant → List Stage → Prop
  | done (codes : List HuntCode) (applicants : List Applicant) : Series allowed codes applicants []
  | draw {codes : List HuntCode} {applicants : List Applicant} {s : Stage} {stages : List Stage}
    (hrun : run codes applicants (some s.sort) (some s.config) s.workers = .ok s.result)
    (hallowed : ∀ c ∈ codes, allowed s.config c)
    (hrest : Series allowed s.result.codes s.result.applicants stages) :
    Series allowed codes applicants (s :: stages)

/-- A reserve between nothing and the balance it is taken from. -/
def ReserveFits (config : DrawConfig) (c : HuntCode) : Prop :=
  c.ReserveWithin config ∧ c.ReserveNonneg config

/-- What every draw of a series starts from. -/
structure Solvent (codes : List HuntCode) (applicants : List Applicant) : Prop where
  texts : (codes.map HuntCode.code).Nodup
  remaining : ∀ c ∈ codes, 0 ≤ c.remaining
  numbers : (applicants.map Applicant.number).Nodup

variable {rules : List SortRule} {config : DrawConfig} {workers : Int} {applicants : List Applicant}
  {codes : List HuntCode} {entered : Codes} {p : Progress} {sort : DrawSort} {result : DrawResult}
  {c : HuntCode} {s : Stage} {stages before : List Stage} {allowed : DrawConfig → HuntCode → Prop}

theorem ReserveFits.of_unreserved (hoff : ¬config.has .reserved) : ReserveFits config c := by
  have hnone : ∀ d, c.reset.sizePools config = .ok d → d.reserved.quota = none := by
    intro d hd
    rw [((HuntCode.sizePools_sized hd).unlimited fun hon => hoff hon.1).1]
    rfl
  constructor
  · intro d q start _ hd hq
    simp [hnone d hd] at hq
  · intro d q _ hd hq
    simp [hnone d hd] at hq

theorem Drawn.awards_eq_nil (h : Drawn rules config codes applicants result entered p) {u : String}
    (hu : u ∉ result.used) : result.awards u = [] := by
  rw [DrawResult.awards, List.filter_eq_nil_iff]
  intro a ha hawarded
  simp only [decide_eq_true_eq] at hawarded
  rcases h.settled ha with ⟨k, c, -, -, -, -, hcode, -, hused⟩ | ⟨-, -, hcode⟩
  · rw [hawarded.2, Option.some.injEq] at hcode
    exact hu (hcode ▸ hused)
  · simp [hawarded.2] at hcode

theorem Drawn.spends (h : Drawn rules config codes applicants result entered p) (hs : Solvent codes applicants)
    (hc : c ∈ codes) (hfits : ReserveFits config c) : c.Spends config result (outcome config p c) := by
  by_cases hused : c.code ∈ result.used
  · obtain ⟨e, -, hentrant⟩ := h.entrant hs.texts hc hused
    obtain ⟨start, hstart⟩ := Option.isSome_iff_exists.1 (HuntCode.startBalance_isSome hentrant.part)
    have hremaining : c.remaining = start := by rw [HuntCode.remaining, hstart, Option.getD_some]
    have hzero : 0 ≤ start := hremaining ▸ hs.remaining c hc
    obtain ⟨hledger, pool, hdraw, hawards, hle⟩ :=
      h.length_awards_le hs.texts hc hused hstart hzero hfits.2 hfits.1
    obtain ⟨start', pool', hstart', hdraw', hkept, hdropped⟩ := hledger.balances
    rw [hstart, Option.some.injEq] at hstart'
    rw [hdraw, Option.some.injEq] at hdraw'
    subst hstart' hdraw'
    have hlength := h.length_awards c.code
    have hawarded := hledger.awarded
    -- whichever way the balance is left, it is recorded, so that it is what remains
    have hleft : ∀ balance, (outcome config p c).balance = some balance →
        (outcome config p c).remaining = balance := by
      intro balance hbalance
      rw [HuntCode.remaining, HuntCode.startBalance, hbalance, Option.some_or, Option.getD_some]
    by_cases hflow : config.has .reserved ∧ ¬config.has .flow
    · have hdrop := hleft _ (hdropped hflow.1 hflow.2).1
      exact ⟨h.outcome_code c, by omega, by omega, by omega, fun hnot => absurd hflow hnot,
        fun hnot => absurd hused hnot⟩
    · have hkeep := hleft _ (hkept hflow).1
      exact ⟨h.outcome_code c, by omega, by omega, by omega, fun _ => by omega,
        fun hnot => absurd hused hnot⟩
  · have hsame : outcome config p c = c := h.outcome_of_notMem (h.used ▸ hused)
    rw [hsame]
    exact ⟨rfl, by simp [h.awards_eq_nil hused], hs.remaining c hc, le_rfl, fun _ => rfl, fun _ => rfl⟩

theorem Drawn.numbers_nodup (h : Drawn rules config codes applicants result entered p)
    (hnumbers : (applicants.map Applicant.number).Nodup) : (result.applicants.map Applicant.number).Nodup := by
  have hcleared := (h.cleared_perm hnumbers).map Applicant.number
  rw [List.map_map] at hcleared
  exact hcleared.nodup_iff.2 (hnumbers.sublist (eligible_numbers applicants config))

/-- A row that is returned comes from one that was not awarded before. -/
theorem Drawn.source (h : Drawn rules config codes applicants result entered p) {a : Applicant}
    (ha : a ∈ result.applicants) : ∃ x ∈ applicants, x.number = a.number ∧ x.outcome ≠ some .awarded := by
  obtain ⟨x, hx, hclear⟩ := List.mem_map.1 (h.row ha).1
  obtain ⟨hmem, heligible⟩ := List.mem_filter.1 hx
  have hnumber : x.clear.number = a.clear.number := by rw [hclear]
  exact ⟨x, hmem, hnumber, (isEligible_iff.1 heligible).1⟩

/-- A draw over codes whose reserves fit goes on from what it started from. -/
theorem Drawn.solvent (h : Drawn rules config codes applicants result entered p) (hs : Solvent codes applicants)
    (hfits : ∀ c ∈ codes, ReserveFits config c) : Solvent result.codes result.applicants where
  texts := h.codes_perm.nodup_iff.2 hs.texts
  remaining d hd := by
    obtain ⟨c, hc, rfl⟩ := h.mem_codes.1 hd
    exact (h.spends hs hc (hfits c hc)).remaining
  numbers := h.numbers_nodup hs.numbers

namespace Series

/-- Every draw of a series runs over what the draws before it left behind. -/
theorem split (h : Series allowed codes applicants (before ++ stages)) :
    Series allowed (codesAfter codes before) (applicantsAfter applicants before) stages := by
  induction before generalizing codes applicants with
  | nil => exact h
  | cons s before ih =>
    cases h with
    | draw hrun hallowed hrest => exact ih hrest

/-- A series keeps the texts of its codes, and stays as it started. -/
theorem solvent (h : Series ReserveFits codes applicants (before ++ stages)) (hs : Solvent codes applicants) :
    Solvent (codesAfter codes before) (applicantsAfter applicants before) ∧
      ((codesAfter codes before).map HuntCode.code).Perm (codes.map HuntCode.code) := by
  induction before generalizing codes applicants with
  | nil => exact ⟨hs, .refl _⟩
  | cons s before ih =>
    cases h with
    | draw hrun hfits hrest =>
      obtain ⟨entered, p, hdrawn⟩ := run_drawn hrun
      obtain ⟨hsolvent, hperm⟩ := ih hrest (hdrawn.solvent hs hfits)
      exact ⟨hsolvent, hperm.trans hdrawn.codes_perm⟩

/-- A row that any draw of a series returns comes from one that was not awarded before the series. -/
theorem source (h : Series allowed codes applicants stages) (hs : s ∈ stages) {a : Applicant}
    (ha : a ∈ s.result.applicants) : ∃ x ∈ applicants, x.number = a.number ∧ x.outcome ≠ some .awarded := by
  induction h generalizing s a with
  | done => exact absurd hs List.not_mem_nil
  | draw hrun _ _ ih =>
    obtain ⟨entered, p, hdrawn⟩ := run_drawn hrun
    rcases List.mem_cons.1 hs with rfl | hs
    · exact hdrawn.source ha
    · obtain ⟨b, hb, hnumber, -⟩ := ih hs ha
      obtain ⟨x, hx, hsame, hout⟩ := hdrawn.source hb
      exact ⟨x, hx, hsame.trans hnumber, hout⟩

theorem gone (h : Series allowed codes applicants (s :: stages))
    (hnumbers : (applicants.map Applicant.number).Nodup) {a b : Applicant} {t : Stage}
    (ha : a ∈ s.result.awarded) (ht : t ∈ stages) (hb : b ∈ t.result.applicants) : b.number ≠ a.number := by
  cases h with
  | draw hrun _ hrest =>
    intro hsame
    obtain ⟨entered, p, hdrawn⟩ := run_drawn hrun
    obtain ⟨hmem, hawarded⟩ := List.mem_filter.1 ha
    obtain ⟨x, hx, hnumber, hout⟩ := hrest.source ht hb
    have hxa : x = a := List.inj_on_of_nodup_map (hdrawn.numbers_nodup hnumbers) hx hmem (hnumber.trans hsame)
    exact hout (hxa ▸ of_decide_eq_true hawarded)

theorem nodup_awarded (h : Series allowed codes applicants stages)
    (hnumbers : (applicants.map Applicant.number).Nodup) :
    (stages.flatMap fun s => s.result.awarded.map Applicant.number).Nodup := by
  induction h with
  | done => exact List.nodup_nil
  | @draw codes applicants s stages hrun hallowed hrest ih =>
    obtain ⟨entered, p, hdrawn⟩ := run_drawn hrun
    have hrows := hdrawn.numbers_nodup hnumbers
    rw [List.flatMap_cons, List.nodup_append']
    refine ⟨hrows.sublist (List.filter_sublist.map _), ih hrows, fun n hn hlater => ?_⟩
    obtain ⟨a, ha, rfl⟩ := List.mem_map.1 hn
    obtain ⟨t, ht, hmem⟩ := List.mem_flatMap.1 hlater
    obtain ⟨b, hb, hsame⟩ := List.mem_map.1 hmem
    exact (Series.draw hrun hallowed hrest).gone hnumbers ha ht (List.mem_of_mem_filter hb) hsame

/-- What the draws of a series award of a code is by how much its count of awards has grown, and is within what
remained of the code at the start. -/
theorem sum_awards (h : Series ReserveFits codes applicants stages) (hs : Solvent codes applicants)
    (hc : c ∈ codes) : ∃ d ∈ codesAfter codes stages, d.code = c.code ∧
      (stages.map fun s => ((s.result.awards c.code).length : Int)).sum = d.awarded - c.awarded ∧
      d.awarded - c.awarded ≤ c.remaining := by
  induction h generalizing c with
  | done => exact ⟨c, hc, rfl, by simp, by simpa using hs.remaining c hc⟩
  | draw hrun hfits hrest ih =>
    obtain ⟨entered, p, hdrawn⟩ := run_drawn hrun
    have hspends := hdrawn.spends hs hc (hfits c hc)
    -- the later draws count from the row that this one leaves
    obtain ⟨d, hd, hcode, hsum, hle⟩ := ih (hdrawn.solvent hs hfits) (hdrawn.mem_codes.2 ⟨c, hc, rfl⟩)
    have hawarded := hspends.awarded
    have hspent := hspends.spent
    rw [hspends.code] at hcode hsum
    refine ⟨d, hd, hcode, ?_, by omega⟩
    rw [List.map_cons, List.sum_cons, hsum]
    omega

end Series

/-- A series of draws never overspends. No number is awarded twice; what is awarded of a code is within what
remained of it; and in each draw whoever is awarded is gone from the later ones, every code stays, and what a code
has awarded together with what remains of it does not grow. -/
theorem series_never_overspends (hcodes : (codes.map HuntCode.code).Nodup)
    (hcounts : ∀ c ∈ codes, ∀ n ∈ c.counts, 0 ≤ n) (hnumbers : (applicants.map Applicant.number).Nodup)
    (h : Series ReserveFits codes applicants stages) :
    (stages.flatMap fun s => s.result.awarded.map Applicant.number).Nodup ∧
    (∀ c ∈ codes, ∃ d ∈ codesAfter codes stages, d.code = c.code ∧
      (stages.map fun s => ((s.result.awards c.code).length : Int)).sum = d.awarded - c.awarded ∧
      d.awarded - c.awarded ≤ c.remaining) ∧
    ∀ before s after, stages = before ++ s :: after →
      (∀ a ∈ s.result.awarded, ∀ t ∈ after, ∀ b ∈ t.result.applicants, b.number ≠ a.number) ∧
      (s.result.codes.map HuntCode.code).Perm (codes.map HuntCode.code) ∧
      ∀ c ∈ codesAfter codes before, ∃ d ∈ s.result.codes, c.Spends s.config s.result d := by
  have hs : Solvent codes applicants :=
    ⟨hcodes, fun c hc => HuntCode.remaining_nonneg (hcounts c hc), hnumbers⟩
  refine ⟨h.nodup_awarded hnumbers, fun c hc => h.sum_awards hs hc, ?_⟩
  rintro before s after rfl
  obtain ⟨hsolvent, hperm⟩ := h.solvent hs
  have hrest := h.split
  refine ⟨fun a ha t ht b hb => hrest.gone hsolvent.numbers ha ht hb, ?_⟩
  cases hrest with
  | draw hrun hfits _ =>
    obtain ⟨entered, p, hdrawn⟩ := run_drawn hrun
    exact ⟨hdrawn.codes_perm.trans hperm, fun c hc =>
      ⟨_, hdrawn.mem_codes.2 ⟨c, hc, rfl⟩, hdrawn.spends hsolvent hc (hfits c hc)⟩⟩

/-- What is left of the reserved code after its reserve was drawn goes to whoever is next. -/
def openResult : DrawResult where
  codes :=
    [{ reservedCode with
       drawQuota := some 1
       previousBalance := some 1
       balance := some 0
       drawBalance := some 0
       awarded := 2
       drawAwarded := 1
       nonResident := { drawAwarded := 1, awarded := 1 }
       resident := ⟨0, 1⟩ }]
  applicants :=
    [(sampleApplicant 2 .nonResident 3 ["HC1"]).award "HC1" 1,
     (sampleApplicant 3 .nonResident 2 ["HC1"]).refuse,
     (sampleApplicant 4 .resident 1 ["", "HC1"]).refuse,
     (sampleApplicant 5 .resident 0 ["", "HC1"]).refuse]
  used := ["HC1"]

theorem series_never_overspends_reserve_first :
    let stages := [⟨sampleSort, flowConfig, 1, reservedResult⟩, ⟨sampleSort, sampleConfig, 2, openResult⟩]
    ([reservedCode].map HuntCode.code).Nodup ∧ (∀ c ∈ [reservedCode], ∀ n ∈ c.counts, 0 ≤ n) ∧
    (sampleApplicants.map Applicant.number).Nodup ∧ Series ReserveFits [reservedCode] sampleApplicants stages ∧
    (stages.flatMap fun s => s.result.awarded.map Applicant.number).Nodup ∧
    ∃ d ∈ codesAfter [reservedCode] stages, d.code = "HC1" ∧
      (stages.map fun s => ((s.result.awards "HC1").length : Int)).sum = d.awarded - 0 ∧ d.awarded - 0 ≤ 2 := by
  intro stages
  have hcodes : ([reservedCode].map HuntCode.code).Nodup := by decide
  have hcounts : ∀ c ∈ [reservedCode], ∀ n ∈ c.counts, 0 ≤ n := by decide
  have hnumbers : (sampleApplicants.map Applicant.number).Nodup := by decide
  have hsized : reservedCode.reset.sizePools flowConfig = .ok reservedSized := by decide +kernel
  have hfits : ∀ c ∈ [reservedCode], ReserveFits flowConfig c := by
    intro c hc
    rw [List.mem_singleton.1 hc]
    exact ⟨HuntCode.reserveWithin hsized rfl rfl (by decide), HuntCode.reserveNonneg hsized rfl (by decide)⟩
  have hreserve : run [reservedCode] sampleApplicants (some sampleSort) (some flowConfig) 1 =
      .ok reservedResult := by decide +kernel
  have hopen : run reservedResult.codes reservedResult.applicants (some sampleSort) (some sampleConfig) 2 =
      .ok openResult := by decide +kernel
  have hseries : Series ReserveFits [reservedCode] sampleApplicants stages :=
    .draw hreserve hfits (.draw hopen (fun _ _ => .of_unreserved (by decide)) (.done _ _))
  obtain ⟨hdistinct, hsum, -⟩ := series_never_overspends hcodes hcounts hnumbers hseries
  exact ⟨hcodes, hcounts, hnumbers, hseries, hdistinct, hsum reservedCode List.mem_cons_self⟩

def overdrawnResult : DrawResult where
  codes :=
    [{ negativeSized with
       balance := some (-1)
       drawBalance := some (-3)
       awarded := 2
       drawAwarded := 2
       resident := ⟨2, 2⟩
       reserved := ⟨true, some (Binary64.ofNat 100).neg, some (-1), some (-3)⟩ }]
  applicants :=
    [(sampleApplicant 1 .resident 1 ["HC1"]).award "HC1" 1,
     (sampleApplicant 2 .resident 0 ["HC1"]).award "HC1" 1]
  used := ["HC1"]

/-- It is not enough that no reserve is beyond the balance it is taken from: a reserve below nothing is never used
up. -/
theorem not_series_never_overspends_negative : ¬∀ (codes : List HuntCode) (applicants : List Applicant)
    (stages : List Stage), (codes.map HuntCode.code).Nodup → (∀ c ∈ codes, ∀ n ∈ c.counts, 0 ≤ n) →
    (applicants.map Applicant.number).Nodup → (∀ a ∈ applicants, a.residency.IsKnown) →
    Series (fun config c => c.ReserveWithin config) codes applicants stages →
    ∀ c ∈ codes, (stages.map fun s => ((s.result.awards c.code).length : Int)).sum ≤ c.remaining := by
  intro hall
  have hsized : negativeCode.reset.sizePools flowConfig = .ok negativeSized := by decide +kernel
  have hwithin : ∀ c ∈ [negativeCode], c.ReserveWithin flowConfig := by
    rintro c hc
    rw [List.mem_singleton.1 hc]
    exact HuntCode.reserveWithin hsized rfl rfl (by decide)
  have hrun : run [negativeCode] [sampleApplicant 1 .resident 1 ["HC1"], sampleApplicant 2 .resident 0 ["HC1"]]
      (some sampleSort) (some flowConfig) 1 = .ok overdrawnResult := by decide +kernel
  have hsum := hall [negativeCode] _ [⟨sampleSort, flowConfig, 1, overdrawnResult⟩] (by decide) (by decide)
    (by decide) (by decide +kernel) (.draw hrun hwithin (.done _ _)) negativeCode List.mem_cons_self
  exact absurd hsum (by decide)

end Draw
end HuntDraw
