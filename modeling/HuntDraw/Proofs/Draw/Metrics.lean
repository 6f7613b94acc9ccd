import HuntDraw.Draw.Metrics
import HuntDraw.Proofs.Draw.KeptRows
import HuntDraw.Proofs.Number.Quotient
import Mathlib.Algebra.Order.Field.Basic

/-! The figures of a draw. Where each code stands on one row, they add up: those of the draw are the numbers of the rows
that it awarded, and the others have moved on by just these since the rows were given. They can be told unless a share
of all awards is out of reach. -/

namespace HuntDraw

open Attempt

variable {r result : DrawResult} {m : Metric} {v : MetricValue} {ms : List (Metric × MetricValue)} {part total : Int}

namespace Metric

/-- A share of something can be told while its percentage is within the reach of numbers. -/
def Told (part total : Int) : Prop := total = 0 ∨ |((100 * part : Int) / total : ℚ)| < Binary64.reach

theorem percent_isOk : (∃ v, percent part total = .ok v) ↔ Told part total := by
  rw [percent, Told]
  by_cases hzero : total = 0
  · simp [hzero]
  · rw [if_neg hzero, or_iff_right hzero, ← Binary64.ofQuotient?_isSome_iff hzero]
    cases Binary64.ofQuotient? (100 * part) total <;> simp

theorem Told.of_le (hpart : 0 ≤ part) (hle : part ≤ total) : Told part total := by
  refine or_iff_not_imp_left.2 fun hzero => ?_
  have htotal : (0 : ℚ) < total := by exact_mod_cast lt_of_le_of_ne (hpart.trans hle) (Ne.symm hzero)
  have hpart' : (0 : ℚ) ≤ part := by exact_mod_cast hpart
  have hle' : (part : ℚ) ≤ total := by exact_mod_cast hle
  have hhundred : ((100 * part : Int) / total : ℚ) ≤ 100 := by
    rw [div_le_iff₀ htotal]
    push_cast
    linarith
  rw [abs_of_nonneg (by push_cast; positivity)]
  refine hhundred.trans_lt (lt_of_lt_of_le ?_ Binary64.two_zpow_le_reach)
  calc (100 : ℚ) < 2 ^ (7 : Int) := by norm_num
    _ ≤ 2 ^ (1023 : Int) := zpow_le_zpow_right₀ one_le_two (by decide)

def reported (ms : List (Metric × MetricValue)) (m : Metric) : Int :=
  match (ms.find? (·.1 = m)).map Prod.snd with
  | some (.count n) => n
  | _ => 0

theorem mem_all (m : Metric) : m ∈ all := by cases m <;> decide

end Metric

namespace DrawResult

theorem metric_count (hm : m.isShare = false) : r.metric m = .ok (.count (r.count m)) := by
  cases m <;> first | rfl | cases hm

theorem mem_metrics (h : r.metrics = .ok ms) : (m, v) ∈ ms ↔ r.metric m = .ok v := by
  obtain ⟨hfrom, hall⟩ := mapM_mem h
  constructor
  · intro hmem
    obtain ⟨m', -, hm'⟩ := hfrom _ hmem
    obtain ⟨v', hv', hpair⟩ := map_eq_ok.1 hm'
    obtain ⟨rfl, rfl⟩ := Prod.mk.inj hpair
    exact hv'
  · intro hv
    obtain ⟨e, he, hm⟩ := hall m m.mem_all
    rw [hv] at hm
    obtain rfl : (m, v) = e := Except.ok.inj hm
    exact he

theorem reported_eq (h : r.metrics = .ok ms) (hm : m.isShare = false) : Metric.reported ms m = r.count m := by
  have hmem : (m, .count (r.count m)) ∈ ms := (mem_metrics h).2 (metric_count hm)
  obtain ⟨e, he⟩ : ∃ e, ms.find? (·.1 = m) = some e :=
    Option.isSome_iff_exists.1 (List.find?_isSome.2 ⟨_, hmem, by simp⟩)
  have hkey : e.1 = m := by simpa using List.find?_some he
  obtain ⟨m', v'⟩ := e
  obtain rfl : m' = m := hkey
  have hvalue := (mem_metrics h).1 (List.mem_of_find?_eq_some he)
  rw [metric_count hm, Except.ok.injEq] at hvalue
  rw [Metric.reported, he, ← hvalue]
  rfl

theorem metrics_isOk : (∃ ms, r.metrics = .ok ms) ↔
    (Metric.Told (r.count .nonResidents) (r.count .awarded) ∧ Metric.Told (r.count .residents) (r.count .awarded)) ∧
      Metric.Told (r.count .drawNonResidents) (r.count .drawAwarded) ∧
        Metric.Told (r.count .drawResidents) (r.count .drawAwarded) := by
  have heach : (∃ ms, r.metrics = .ok ms) ↔ ∀ m, ∃ v, r.metric m = .ok v := by
    constructor
    · rintro ⟨ms, hms⟩ m
      obtain ⟨e, -, he⟩ := (mapM_mem hms).2 m m.mem_all
      obtain ⟨v, hv, -⟩ := map_eq_ok.1 he
      exact ⟨v, hv⟩
    · intro hall
      refine mapM_total fun m _ => ?_
      obtain ⟨v, hv⟩ := hall m
      exact ⟨(m, v), by rw [hv]; rfl⟩
  simp only [← Metric.percent_isOk]
  rw [heach]
  constructor
  · exact fun hall =>
      ⟨⟨hall .nonResidentShare, hall .residentShare⟩, hall .drawNonResidentShare, hall .drawResidentShare⟩
  · rintro ⟨⟨hnon, hres⟩, hdrawNon, hdrawRes⟩ m
    cases hm : m.isShare with
    | false => exact ⟨_, metric_count hm⟩
    | true =>
      cases m with
      | nonResidentShare => exact hnon
      | residentShare => exact hres
      | drawNonResidentShare => exact hdrawNon
      | drawResidentShare => exact hdrawRes
      | _ => cases hm

theorem total_eq (codes : List HuntCode) (figure : HuntCode → Int) :
    DrawResult.total codes figure = (codes.map figure).sum := by
  induction codes with
  | nil => rfl
  | cons c codes ih => rw [List.map_cons, List.sum_cons, ← ih]; rfl

theorem total_add (codes : List HuntCode) (figure growth : HuntCode → Int) :
    DrawResult.total codes (fun c => figure c + growth c) =
      DrawResult.total codes figure + DrawResult.total codes growth := by
  simp only [total_eq, List.sum_map_add]

theorem total_neg (codes : List HuntCode) (figure : HuntCode → Int) :
    DrawResult.total codes (fun c => -figure c) = -DrawResult.total codes figure := by
  rw [total_eq, total_eq, List.sum_neg, List.map_map]
  rfl

theorem total_zero (codes : List HuntCode) : DrawResult.total codes (fun _ => 0) = 0 := by
  simp [total_eq]

end DrawResult

namespace Draw

variable {rules : List SortRule} {config : DrawConfig} {workers : Int} {applicants : List Applicant}
  {codes : List HuntCode} {entered : Codes} {p : Progress} {sort : DrawSort} {c : HuntCode}

/-- The rows before a draw, when no code has taken part. -/
def given (codes : List HuntCode) : DrawResult := ⟨codes, [], []⟩

/-- How the counts of a draw follow from those of the rows that it was given and from the rows that it awarded. -/
structure Accounts (config : DrawConfig) (before after : Metric → Int) (awarded : List Applicant) : Prop where
  drawAwarded : after .drawAwarded = awarded.length
  sides : after .drawAwarded = after .drawNonResidents + after .drawResidents
  drawNonResidents : after .drawNonResidents = awarded.countP (·.residency = .nonResident)
  drawResidents : after .drawResidents = awarded.countP (·.residency = .resident)
  kept : ¬(config.has .reserved ∧ ¬config.has .flow) → after .drawQuota = after .drawAwarded + after .nextBalance ∧
    after .balance = before .balance - after .drawAwarded
  dropped : config.has .reserved → ¬config.has .flow → after .nextBalance = 0 ∧
    after .balance = before .balance - after .drawQuota
  awarded : after .awarded = before .awarded + after .drawAwarded
  nonResidents : after .nonResidents = before .nonResidents + after .drawNonResidents
  residents : after .residents = before .residents + after .drawResidents
  quota : after .quota = before .quota

/-- Sums over some rows that have moved on by sums over a part of them. -/
theorem sum_filter_grows {α : Type} {xs : List α} {inside moved : α → Bool} {before after growth : α → Int}
    (hpart : ∀ x ∈ xs, moved x → inside x)
    (hgrows : ∀ x ∈ xs, after x = before x + if moved x then growth x else 0) :
    ((xs.filter inside).map after).sum =
      ((xs.filter inside).map before).sum + ((xs.filter moved).map growth).sum := by
  induction xs with
  | nil => rfl
  | cons x xs ih =>
    have hrest := ih (fun y hy => hpart y (List.mem_cons_of_mem _ hy)) fun y hy => hgrows y (List.mem_cons_of_mem _ hy)
    have hx := hgrows x List.mem_cons_self
    cases hinside : inside x with
    | true => cases hmoved : moved x <;> simp_all <;> omega
    | false =>
      have hmoved : moved x = false := by
        cases hmoved : moved x with
        | true => exact absurd (hpart x List.mem_cons_self hmoved) (by simp [hinside])
        | false => rfl
      simp_all

theorem HuntCode.counts_of_takesPart (h : c.takesPart config) : c.isValid && c.isInDraw := by
  simp only [HuntCode.takesPart, HuntCode.isDrawable, Bool.and_eq_true] at h
  simp [h.1.1]

/-- Where codes stand on one row each, it is the rows that take part whose codes were used. -/
theorem Drawn.mem_used (h : Drawn rules config codes applicants result entered p)
    (hcodes : (codes.map HuntCode.code).Nodup) (hc : c ∈ codes) : c.code ∈ result.used ↔ c.takesPart config := by
  constructor
  · intro hused
    obtain ⟨e, -, hentrant⟩ := h.entrant hcodes hc hused
    exact hentrant.part
  · intro hpart
    rw [h.used]
    exact keys_entered h.enters hc hpart

theorem Drawn.outcome_eq (h : Drawn rules config codes applicants result entered p)
    (hcodes : (codes.map HuntCode.code).Nodup) (hc : c ∈ codes) (hpart : c.takesPart config) :
    ∃ e, Entrant config c e ∧
      outcome config p c = finish config (e.applyDelta (tally (result.awards c.code)) config) := by
  obtain ⟨e, he, hentrant⟩ := h.entrant hcodes hc ((h.mem_used hcodes hc).2 hpart)
  exact ⟨e, hentrant, h.outcome_of_mem (h.mem_last he)⟩

theorem Drawn.outcome_idle (h : Drawn rules config codes applicants result entered p)
    (hcodes : (codes.map HuntCode.code).Nodup) (hc : c ∈ codes) (hidle : ¬c.takesPart config) :
    outcome config p c = c :=
  h.outcome_of_notMem fun hused => hidle ((h.mem_used hcodes hc).1 (h.used ▸ hused))

theorem Drawn.outcome_fixed (h : Drawn rules config codes applicants result entered p)
    (hcodes : (codes.map HuntCode.code).Nodup) (hc : c ∈ codes) : (outcome config p c).isValid = c.isValid ∧
      (outcome config p c).isInDraw = c.isInDraw ∧ (outcome config p c).quota = c.quota := by
  by_cases hpart : c.takesPart config
  · obtain ⟨e, hentrant, heq⟩ := h.outcome_eq hcodes hc hpart
    rw [heq, finish_frame, hentrant.sized.frame]
    exact ⟨rfl, rfl, rfl⟩
  · rw [h.outcome_idle hcodes hc hpart]
    exact ⟨rfl, rfl, rfl⟩

theorem Drawn.ledger (h : Drawn rules config codes applicants result entered p)
    (hcodes : (codes.map HuntCode.code).Nodup) (hc : c ∈ codes) (hpart : c.takesPart config) :
    Ledger config c (outcome config p c) (tally (result.awards c.code)) := by
  obtain ⟨e, hentrant, heq⟩ := h.outcome_eq hcodes hc hpart
  rw [heq]
  exact hentrant.ledger fun hreserved => h.no_nonResidents hreserved c.code

/-- The rows that figures are summed over: as given, and as they come back. -/
theorem Drawn.counted_perm (h : Drawn rules config codes applicants result entered p)
    (hcodes : (codes.map HuntCode.code).Nodup) :
    result.counted.Perm ((given codes).counted.map (outcome config p)) := by
  rw [DrawResult.counted, h.rows]
  refine ((List.mergeSort_perm _ _).filter _).trans (.of_eq ?_)
  rw [List.filter_map]
  refine congrArg (List.map _) (List.filter_congr fun c hc => ?_)
  obtain ⟨hvalid, hin, -⟩ := h.outcome_fixed hcodes hc
  rw [Function.comp_apply, hvalid, hin]

theorem Drawn.drawn_perm (h : Drawn rules config codes applicants result entered p)
    (hcodes : (codes.map HuntCode.code).Nodup) :
    result.drawn.Perm ((codes.filter (·.takesPart config)).map (outcome config p)) := by
  rw [DrawResult.drawn]
  refine ((h.counted_perm hcodes).filter _).trans (.of_eq ?_)
  rw [List.filter_map, DrawResult.counted, given, List.filter_filter]
  refine congrArg (List.map _) (List.filter_congr fun c hc => ?_)
  have hused : result.used.contains c.code = c.takesPart config := by
    rw [Bool.eq_iff_iff, List.contains_iff_mem, h.mem_used hcodes hc]
  rw [Function.comp_apply, h.outcome_code, hused]
  cases hpart : c.takesPart config with
  | false => rfl
  | true => simpa using HuntCode.counts_of_takesPart hpart

theorem Drawn.total_drawn (h : Drawn rules config codes applicants result entered p)
    (hcodes : (codes.map HuntCode.code).Nodup) (figure : HuntCode → Int) : DrawResult.total result.drawn figure =
      ((codes.filter (·.takesPart config)).map fun c => figure (outcome config p c)).sum := by
  rw [DrawResult.total_eq, ((h.drawn_perm hcodes).map figure).sum_eq, List.map_map]
  rfl

/-- A figure that moves on by another one in each row that took part does so as a whole. -/
theorem Drawn.total_grows (h : Drawn rules config codes applicants result entered p)
    (hcodes : (codes.map HuntCode.code).Nodup) {figure growth : HuntCode → Int}
    (hgrows : ∀ c ∈ codes, c.takesPart config →
      figure (outcome config p c) = figure c + growth (outcome config p c)) :
    DrawResult.total result.counted figure =
      DrawResult.total (given codes).counted figure + DrawResult.total result.drawn growth := by
  rw [h.total_drawn hcodes, DrawResult.total_eq, DrawResult.total_eq, ((h.counted_perm hcodes).map figure).sum_eq,
    List.map_map]
  refine sum_filter_grows (fun c _ => HuntCode.counts_of_takesPart) fun c hc => ?_
  split_ifs with hpart
  · exact hgrows c hc hpart
  · rw [Function.comp_apply, h.outcome_idle hcodes hc hpart, Int.add_zero]

theorem Drawn.countP_awarded (h : Drawn rules config codes applicants result entered p)
    (hcodes : (codes.map HuntCode.code).Nodup) (side : Applicant → Bool) : (result.awarded.countP side : Int) =
      ((codes.filter (·.takesPart config)).map fun c => ((result.awards c.code).countP side : Int)).sum := by
  have htexts : (drawnTexts config codes).Nodup := hcodes.sublist (List.filter_sublist.map _)
  have hheld : ∀ a ∈ result.awarded.filter side, ∃ u ∈ (drawnTexts config codes).toFinset, a.codeAwarded = some u :=
    fun a ha => h.exists_text (h.awarded_perm.mem_iff.1 (List.mem_of_mem_filter ha))
  have hcode : ∀ u, (holders u (result.awarded.filter side)).length = (result.awards u).countP side := by
    intro u
    rw [awards_eq, holders, holders, List.countP_eq_length_filter, List.filter_filter, List.filter_filter]
    simp only [Bool.and_comm]
  rw [List.countP_eq_length_filter, length_eq_sum_holders hheld, List.sum_toFinset _ htexts, drawnTexts, List.map_map,
    Nat.cast_list_sum, List.map_map]
  simp only [hcode]
  rfl

/-- Whatever is counted for a code, of its awards, sums up to what is counted of all awards. -/
theorem Drawn.total_awards (h : Drawn rules config codes applicants result entered p)
    (hcodes : (codes.map HuntCode.code).Nodup) {figure : HuntCode → Int} {side : Applicant → Bool}
    (hfigure : ∀ c ∈ codes, c.takesPart config →
      figure (outcome config p c) = (result.awards c.code).countP side) :
    DrawResult.total result.drawn figure = result.awarded.countP side := by
  rw [h.total_drawn hcodes, h.countP_awarded hcodes]
  refine congrArg List.sum (List.map_congr_left fun c hc => ?_)
  obtain ⟨hmem, hpart⟩ := List.mem_filter.1 hc
  exact hfigure c hmem hpart

/-- What is the same of every row that took part is the same of all of them. -/
theorem Drawn.total_congr (h : Drawn rules config codes applicants result entered p)
    (hcodes : (codes.map HuntCode.code).Nodup) {figure figure' : HuntCode → Int}
    (hsame : ∀ c ∈ codes, c.takesPart config → figure (outcome config p c) = figure' (outcome config p c)) :
    DrawResult.total result.drawn figure = DrawResult.total result.drawn figure' := by
  rw [h.total_drawn hcodes, h.total_drawn hcodes]
  refine congrArg List.sum (List.map_congr_left fun c hc => ?_)
  obtain ⟨hmem, hpart⟩ := List.mem_filter.1 hc
  exact hsame c hmem hpart

theorem Drawn.awarded_known (h : Drawn rules config codes applicants result entered p) :
    ∀ a ∈ result.awarded, a.residency.IsKnown := by
  intro a ha
  obtain ⟨b, u, m, hwon⟩ := h.history.won a (h.awarded_perm.mem_iff.1 ha)
  rw [hwon.row]
  exact hwon.known

theorem Drawn.accounts (h : Drawn rules config codes applicants result entered p)
    (hcodes : (codes.map HuntCode.code).Nodup) :
    Accounts config (given codes).count result.count result.awarded := by
  have hledger := fun c => h.ledger hcodes (c := c)
  have hresidents : result.count .drawResidents = result.awarded.countP (·.residency = .resident) :=
    h.total_awards hcodes fun c hc hpart => (hledger c hc hpart).residents.1
  have hnonResidents : result.count .drawNonResidents = result.awarded.countP (·.residency = .nonResident) :=
    h.total_awards hcodes fun c hc hpart => (hledger c hc hpart).nonResidents.1
  have hawarded : result.count .drawAwarded = result.awarded.length := by
    have hall : DrawResult.total result.drawn HuntCode.drawAwarded = result.awarded.countP fun _ => true :=
      h.total_awards hcodes fun c hc hpart => by
        rw [List.countP_true]
        exact (h.outcome_drawn hc hpart rfl).2
    rwa [List.countP_true] at hall
  refine ⟨hawarded, ?_, hnonResidents, hresidents, ?_, ?_, ?_, ?_, ?_, ?_⟩
  · rw [hawarded, hnonResidents, hresidents, length_eq_tally h.awarded_known]
    exact Int.add_comm _ _
  · intro hkept
    have hpool : result.count .drawQuota =
        DrawResult.total result.drawn fun d => d.drawAwarded + d.drawBalance.getD 0 := by
      refine h.total_congr hcodes fun c hc hpart => ?_
      obtain ⟨start, pool, -, hquota, hbalance, -⟩ := (hledger c hc hpart).balances
      rw [hquota, (hbalance hkept).2, (hledger c hc hpart).drawAwarded, Option.getD_some, Option.getD_some]
      omega
    have hbalance : result.count .balance = (given codes).count .balance +
        DrawResult.total result.drawn fun d => -d.drawAwarded := by
      refine h.total_grows hcodes fun c hc hpart => ?_
      obtain ⟨start, pool, hstart, -, hbalance, -⟩ := (hledger c hc hpart).balances
      rw [HuntCode.startBalance, (hbalance hkept).1, hstart, (hledger c hc hpart).drawAwarded, Option.some_or,
        Option.getD_some, Option.getD_some]
      omega
    rw [DrawResult.total_add] at hpool
    rw [DrawResult.total_neg] at hbalance
    exact ⟨hpool, hbalance⟩
  · intro hon hoff
    have hnext : result.count .nextBalance = DrawResult.total result.drawn fun _ => 0 := by
      refine h.total_congr hcodes fun c hc hpart => ?_
      obtain ⟨start, pool, -, -, -, hdropped⟩ := (hledger c hc hpart).balances
      rw [(hdropped hon hoff).2]
      rfl
    have hbalance : result.count .balance = (given codes).count .balance +
        DrawResult.total result.drawn fun d => -d.drawQuota.getD 0 := by
      refine h.total_grows hcodes fun c hc hpart => ?_
      obtain ⟨start, pool, hstart, hquota, -, hdropped⟩ := (hledger c hc hpart).balances
      rw [HuntCode.startBalance, (hdropped hon hoff).1, hstart, hquota]
      exact Int.sub_eq_add_neg
    rw [DrawResult.total_zero] at hnext
    rw [DrawResult.total_neg] at hbalance
    exact ⟨hnext, hbalance⟩
  · refine h.total_grows hcodes fun c hc hpart => ?_
    rw [(hledger c hc hpart).awarded, (hledger c hc hpart).drawAwarded]
  · refine h.total_grows hcodes fun c hc hpart => ?_
    rw [(hledger c hc hpart).nonResidents.1, (hledger c hc hpart).nonResidents.2]
  · refine h.total_grows hcodes fun c hc hpart => ?_
    rw [(hledger c hc hpart).residents.1, (hledger c hc hpart).residents.2]
  · have hquota : result.count .quota = (given codes).count .quota +
        DrawResult.total result.drawn fun _ => 0 := by
      refine h.total_grows hcodes fun c hc _ => ?_
      rw [(h.outcome_fixed hcodes hc).2.2, Int.add_zero]
    rwa [DrawResult.total_zero, Int.add_zero] at hquota

theorem Accounts.congr {before before' after after' : Metric → Int} {awarded : List Applicant}
    (h : Accounts config before after awarded) (hbefore : ∀ m, m.isShare = false → before' m = before m)
    (hafter : ∀ m, m.isShare = false → after' m = after m) : Accounts config before' after' awarded := by
  constructor <;> simp (disch := decide) only [hbefore, hafter]
  exacts [h.drawAwarded, h.sides, h.drawNonResidents, h.drawResidents, h.kept, h.dropped, h.awarded, h.nonResidents,
    h.residents, h.quota]

theorem Accounts.told {before after : Metric → Int} {awarded : List Applicant}
    (h : Accounts config before after awarded) : Metric.Told (after .drawNonResidents) (after .drawAwarded) ∧
      Metric.Told (after .drawResidents) (after .drawAwarded) := by
  have hnonResidents := h.drawNonResidents
  have hresidents := h.drawResidents
  have hsides := h.sides
  exact ⟨.of_le (by omega) (by omega), .of_le (by omega) (by omega)⟩

/-- The shares of all awards can be told. -/
def SharesTold (r : DrawResult) : Prop :=
  Metric.Told (r.count .nonResidents) (r.count .awarded) ∧ Metric.Told (r.count .residents) (r.count .awarded)

/-- The metrics of a draw and of the rows before it are there, and they agree with the rows that were awarded. -/
def Compared (config : DrawConfig) (codes : List HuntCode) (result : DrawResult) : Prop :=
  ∃ before after, (given codes).metrics = .ok before ∧ result.metrics = .ok after ∧
    Accounts config (Metric.reported before) (Metric.reported after) result.awarded

theorem metrics_given_isOk : (∃ ms, (given codes).metrics = .ok ms) ↔ SharesTold (given codes) := by
  have hnothing : (given codes).drawn = [] := by simp [DrawResult.drawn, given]
  have hzero : (given codes).count .drawAwarded = 0 := by
    rw [DrawResult.count, hnothing]
    rfl
  rw [DrawResult.metrics_isOk, hzero]
  exact and_iff_left ⟨.inl rfl, .inl rfl⟩

/-- A row whose awards are told apart by residency. -/
structure HuntCode.Split (c : HuntCode) : Prop where
  awarded : c.awarded = c.nonResident.awarded + c.resident.awarded
  nonResidents : 0 ≤ c.nonResident.awarded
  residents : 0 ≤ c.resident.awarded

/-- Where the awards of each row are told apart, so are all of them. -/
theorem given_split (h : ∀ c ∈ (given codes).counted, HuntCode.Split c) :
    (given codes).count .awarded = (given codes).count .nonResidents + (given codes).count .residents ∧
      0 ≤ (given codes).count .nonResidents ∧ 0 ≤ (given codes).count .residents := by
  simp only [DrawResult.count, DrawResult.total_eq]
  refine ⟨?_, List.sum_nonneg fun n hn => ?_, List.sum_nonneg fun n hn => ?_⟩
  · rw [← List.sum_map_add]
    exact congrArg List.sum (List.map_congr_left fun c hc => (h c hc).awarded)
  · obtain ⟨c, hc, rfl⟩ := List.mem_map.1 hn
    exact (h c hc).nonResidents
  · obtain ⟨c, hc, rfl⟩ := List.mem_map.1 hn
    exact (h c hc).residents

/-- The counts of a draw that returns add up. Its metrics can be told, and show this, exactly if the shares of all
awards are within the reach of numbers, before and after; so they are where the rows tell their awards apart by
residency. -/
theorem run_metrics_iff (hcodes : (codes.map HuntCode.code).Nodup)
    (h : run codes applicants (some sort) (some config) workers = .ok result) :
    Accounts config (given codes).count result.count result.awarded ∧
    (Compared config codes result ↔ SharesTold (given codes) ∧ SharesTold result) ∧
    ((∀ c ∈ (given codes).counted, HuntCode.Split c) → Compared config codes result) := by
  obtain ⟨entered, p, hdrawn⟩ := run_drawn h
  have haccounts := hdrawn.accounts hcodes
  have hiff : Compared config codes result ↔ SharesTold (given codes) ∧ SharesTold result := by
    have hresult : (∃ ms, result.metrics = .ok ms) ↔ SharesTold result := by
      rw [DrawResult.metrics_isOk]
      exact and_iff_left haccounts.told
    rw [← metrics_given_isOk, ← hresult]
    constructor
    · rintro ⟨before, after, hbefore, hafter, -⟩
      exact ⟨⟨before, hbefore⟩, after, hafter⟩
    · rintro ⟨⟨before, hbefore⟩, after, hafter⟩
      exact ⟨before, after, hbefore, hafter,
        haccounts.congr (fun m => DrawResult.reported_eq hbefore) fun m => DrawResult.reported_eq hafter⟩
  refine ⟨haccounts, hiff, fun hsplit => hiff.2 ?_⟩
  obtain ⟨htotal, hnonResidents, hresidents⟩ := given_split hsplit
  have hafter := haccounts.awarded
  have hafterNon := haccounts.nonResidents
  have hafterRes := haccounts.residents
  have hsides := haccounts.sides
  have hdrawNon := haccounts.drawNonResidents
  have hdrawRes := haccounts.drawResidents
  exact ⟨⟨.of_le hnonResidents (by omega), .of_le hresidents (by omega)⟩, .of_le (by omega) (by omega),
    .of_le (by omega) (by omega)⟩

/-- A row that takes no part and stands before the others is carried along, and the draw goes on as without it. -/
theorem run_cons_idle (hidle : ¬c.takesPart config)
    (hfirst : ∀ d ∈ codes, Text.le c.code d.code ∧ d.code ≠ c.code)
    (h : run codes applicants (some sort) (some config) workers = .ok result) :
    run (c :: codes) applicants (some sort) (some config) workers = .ok { result with codes := c :: result.codes } := by
  obtain ⟨_, _, hdrawn⟩ := run_drawn h
  have hcodes := hdrawn.codes_perm
  obtain ⟨hvalid, entered, p, ranked, drawn, hentered, hp, hranked, hreconciled, rfl⟩ := run_eq_ok.1 h
  have hskip : enterCodes (c :: codes) config = .ok entered := by
    rw [← hentered, enterCodes, enterCodes, Entry.codes, Entry.codes, List.filter_cons_of_neg (by simpa using hidle)]
  have hready := enterCodes_ready hentered
  have hhistory := rounds_history hready hp
  have hnew : c.code ∉ p.codes.keys := by
    rw [hhistory.keys]
    intro hmem
    obtain ⟨e, he, hcode⟩ := List.mem_map.1 hmem
    obtain ⟨d, hd, hsame, -⟩ := mem_entered hentered he
    exact (hfirst d hd).2 (hsame.trans hcode)
  have hmerge : merge (c :: codes) drawn = c :: merge codes drawn := by
    have hidle : outcome config p c = c := by
      rw [outcome, Fields.get?_eq_none.2 hnew]
      rfl
    obtain ⟨front, back, hwith, hwithout, hfront⟩ :=
      List.mergeSort_cons (fun a b d : HuntCode => Text.le_trans a.code b.code d.code)
        (fun a b => Text.le_total a.code b.code) c (codes.map (outcome config p))
    have hmerged : merge codes drawn = front ++ back := by
      rw [reconcile_eq hreconciled, merge_eq (hhistory.ready hready), hwithout]
    have hnone : front = [] := by
      refine List.eq_nil_iff_forall_not_mem.2 fun b hb => ?_
      have hmem : b.code ∈ codes.map HuntCode.code :=
        hcodes.mem_iff.1 (List.mem_map_of_mem (hmerged ▸ List.mem_append_left back hb))
      obtain ⟨d, hd, hsame⟩ := List.mem_map.1 hmem
      exact absurd (hfront b hb) (by simp [← hsame, (hfirst d hd).1])
    rw [hmerged, reconcile_eq hreconciled, merge_eq (hhistory.ready hready), List.map_cons, hidle, hwith, hnone]
    rfl
  exact run_eq_ok.2 ⟨hvalid, entered, p, ranked, drawn, hskip, hp, hranked, hreconciled, by rw [hmerge]⟩

/-- A row without a quota, with the counters of an earlier draw. -/
def idleCode : HuntCode :=
  { code := "HC0", isValid := true, isInDraw := true, awarded := 4, drawAwarded := 1,
    nonResident := { awarded := 3 }, resident := ⟨1, 1⟩ }

def idleResult : DrawResult := { sampleResult with codes := idleCode :: sampleResult.codes }

theorem run_idle : run [idleCode, sampleCode] sampleApplicants (some sampleSort) (some sampleConfig) 1 =
    .ok idleResult :=
  run_cons_idle (by decide) (by decide) run_sample

/-- The counters of a row that takes no part are the same before and after. -/
theorem run_metrics_iff_idle : ([idleCode, sampleCode].map HuntCode.code).Nodup ∧
    run [idleCode, sampleCode] sampleApplicants (some sampleSort) (some sampleConfig) 1 = .ok idleResult ∧
    idleResult.count .nonResidents = 4 ∧ idleResult.count .drawNonResidents = 1 ∧
    Compared sampleConfig [idleCode, sampleCode] idleResult := by
  have hcodes : ([idleCode, sampleCode].map HuntCode.code).Nodup := by decide
  have hsplit : ∀ c ∈ (given [idleCode, sampleCode]).counted, HuntCode.Split c := by
    intro c hc
    obtain rfl | rfl : c = idleCode ∨ c = sampleCode := by simpa [given] using List.mem_of_mem_filter hc
    · exact ⟨by decide, by decide, by decide⟩
    · exact ⟨by decide, by decide, by decide⟩
  exact ⟨hcodes, run_idle, by decide, by decide, (run_metrics_iff hcodes run_idle).2.2 hsplit⟩

/-- A row with more awards to non-residents than a number can tell. -/
def bulkyCode : HuntCode :=
  { code := "HC1", isValid := true, isInDraw := true, quota := some 1, nonResident := { awarded := 2 ^ 1023 } }

def bulkyResult : DrawResult where
  codes :=
    [{ bulkyCode with
       drawQuota := some 1
       previousBalance := some 1
       balance := some 0
       drawBalance := some 0
       awarded := 1
       drawAwarded := 1
       resident := ⟨1, 1⟩ }]
  applicants := [(sampleApplicant 1 .resident 1 ["HC1"]).award "HC1" 1]
  used := ["HC1"]

theorem run_bulky : run [bulkyCode] [sampleApplicant 1 .resident 1 ["HC1"]] (some sampleSort) (some sampleConfig) 1 =
    .ok bulkyResult ∧ bulkyResult.metrics = .error .shareTooLarge := by
  decide +kernel

/-- A share of all awards can be out of reach, and then no metric is told. -/
theorem not_run_metrics : ¬∀ (codes : List HuntCode) (applicants : List Applicant) (sort : DrawSort)
    (config : DrawConfig) (workers : Int) (result : DrawResult), (codes.map HuntCode.code).Nodup →
    Ranking.validate sort.rules = .ok () →
    run codes applicants (some sort) (some config) workers = .ok result → Compared config codes result := by
  intro hall
  obtain ⟨before, after, -, hafter, -⟩ :=
    hall [bulkyCode] _ sampleSort sampleConfig 1 bulkyResult (by decide) (by decide) run_bulky.1
  rw [run_bulky.2] at hafter
  cases hafter

end Draw
end HuntDraw
