import HuntDraw.Proofs.Draw.Entry
import HuntDraw.Proofs.Draw.Ranking

/-! A whole draw, from its inputs to the rows that it returns: what the rounds left behind, with unused
reserves dropped, stands in the place of each row whose code took part. -/

namespace HuntDraw.Draw

open Attempt

def finish (config : DrawConfig) (c : HuntCode) : HuntCode :=
  if config.has .reserved ∧ ¬config.has .flow ∧ c.reserved.enabled then
    { c with
      balance := some (c.balance.getD 0 - c.reserved.balance.getD 0)
      drawBalance := some 0 }
  else c

def outcome (config : DrawConfig) (p : Progress) (c : HuntCode) : HuntCode :=
  ((p.codes.get? c.code).map (finish config)).getD c

variable {rules : List SortRule} {config : DrawConfig} {workers : Int} {eligible applicants : List Applicant}
  {codes drawn : List HuntCode} {entered : Codes} {p : Progress} {sort : DrawSort} {result : DrawResult}
  {c : HuntCode}

@[simp] theorem finish_code : (finish config c).code = c.code := by
  rw [finish]
  split_ifs <;> rfl

theorem finish_frame (config : DrawConfig) (c : HuntCode) : finish config c =
    { c with balance := (finish config c).balance, drawBalance := (finish config c).drawBalance } := by
  rw [finish]
  split_ifs <;> rfl

theorem dropReserve_eq {d : HuntCode} (h : dropReserve c = .ok d) (hon : config.has .reserved)
    (hoff : ¬config.has .flow) : d = finish config c := by
  rw [dropReserve] at h
  split_ifs at h with h1 h2 <;> simp_all [finish]

theorem reconcile_eq (h : reconcile codes config = .ok drawn) : drawn = codes.map (finish config) := by
  rw [reconcile] at h
  by_cases hrules : config.has .reserved ∧ ¬config.has .flow
  · rw [if_neg (by simpa using hrules)] at h
    have hmap : drawn.map id = codes.map (finish config) :=
      mapM_map_eq h fun c _ d hd => dropReserve_eq hd hrules.1 hrules.2
    simpa using hmap
  · have hkept : !config.has .reserved ∨ config.has .flow := by
      by_contra hnot
      exact hrules (by simpa using hnot)
    rw [if_pos hkept, Except.ok.injEq] at h
    subst h
    refine ((List.map_congr_left fun c _ => ?_).trans (List.map_id _)).symm
    rw [finish, if_neg fun hc => hrules ⟨hc.1, hc.2.1⟩]
    rfl

theorem merge_eq (hready : Ready p.codes) : merge codes ((p.codes.map (·.2)).map (finish config)) =
    (codes.map (outcome config p)).mergeSort fun a b => Text.le a.code b.code := by
  have hpairs : ((p.codes.map (·.2)).map (finish config)).map (fun c => (c.code, c)) =
      p.codes.map fun e => (e.1, finish config e.2) := by
    simp only [List.map_map]
    apply List.map_congr_left
    intro e he
    simp [hready.keyed e he]
  rw [merge, hpairs, Fields.ofPairs_eq_self (by rw [Fields.keys_map]; exact hready.nodup)]
  simp only [Fields.get?_map]
  rfl

theorem run_eq_ok : run codes applicants (some sort) (some config) workers = .ok result ↔
    Ranking.validate sort.rules = .ok () ∧ ∃ entered p ranked drawn, enterCodes codes config = .ok entered ∧
      rounds sort.rules config workers (Entry.applicants applicants config) entered = .ok p ∧
      Ranking.sort sort.rules (results (Entry.applicants applicants config) p) = .ok ranked ∧
      reconcile (p.codes.map (·.2)) config = .ok drawn ∧
      result = ⟨merge codes drawn, ranked, p.codes.keys⟩ := by
  simp only [run, settings, bind_eq_ok, pure_eq_ok]
  constructor
  · rintro ⟨rc, ⟨⟨⟩, hvalid, rfl⟩, entered, hentered, p, hp, ranked, hranked, drawn, hdrawn, rfl⟩
    exact ⟨hvalid, entered, p, ranked, drawn, hentered, hp, hranked, hdrawn, rfl⟩
  · rintro ⟨hvalid, entered, p, ranked, drawn, hentered, hp, hranked, hdrawn, rfl⟩
    exact ⟨_, ⟨(), hvalid, rfl⟩, entered, hentered, p, hp, ranked, hranked, drawn, hdrawn, rfl⟩

structure Drawn (rules : List SortRule) (config : DrawConfig) (codes : List HuntCode)
    (applicants : List Applicant) (result : DrawResult) (entered : Codes) (p : Progress) : Prop where
  enters : enterCodes codes config = .ok entered
  ran : ∃ workers, rounds rules config workers (Entry.applicants applicants config) entered = .ok p
  history : History rules config (Entry.applicants applicants config) entered Applicant.rounds p
  ranked : Ranking.sort rules (results (Entry.applicants applicants config) p) = .ok result.applicants
  rows : result.codes = (codes.map (outcome config p)).mergeSort fun a b => Text.le a.code b.code
  used : result.used = entered.keys

theorem run_drawn (h : run codes applicants (some sort) (some config) workers = .ok result) :
    ∃ entered p, Drawn sort.rules config codes applicants result entered p := by
  obtain ⟨-, entered, p, ranked, drawn, hentered, hrounds, hranked, hdrawn, rfl⟩ := run_eq_ok.1 h
  have hready := enterCodes_ready hentered
  have hp := rounds_history hready hrounds
  refine ⟨entered, p, hentered, ⟨workers, hrounds⟩, hp, hranked, ?_, hp.keys⟩
  rw [reconcile_eq hdrawn]
  exact merge_eq (hp.ready hready)

variable {d : HuntCode}

theorem Drawn.mem_codes (h : Drawn rules config codes applicants result entered p) :
    d ∈ result.codes ↔ ∃ c ∈ codes, d = outcome config p c := by
  rw [h.rows, (List.mergeSort_perm _ _).mem_iff, List.mem_map]
  exact exists_congr fun c => and_congr_right fun _ => eq_comm

theorem Drawn.ready (h : Drawn rules config codes applicants result entered p) : Ready p.codes :=
  h.history.ready (enterCodes_ready h.enters)

theorem Drawn.outcome_of_mem (h : Drawn rules config codes applicants result entered p)
    (hc : (c.code, d) ∈ p.codes) : outcome config p c = finish config d := by
  rw [outcome, (Fields.get?_eq_some h.ready.nodup).2 hc]
  rfl

theorem Drawn.outcome_of_notMem (h : Drawn rules config codes applicants result entered p)
    (hc : c.code ∉ entered.keys) : outcome config p c = c := by
  rw [outcome, Fields.get?_eq_none.2 (by rwa [h.history.keys])]
  rfl

theorem Drawn.outcome_code (h : Drawn rules config codes applicants result entered p) (c : HuntCode) :
    (outcome config p c).code = c.code := by
  cases hget : p.codes.get? c.code with
  | none => rw [outcome, hget]; rfl
  | some d =>
    have hmem : (c.code, d) ∈ p.codes := (Fields.get?_eq_some h.ready.nodup).1 hget
    rw [h.outcome_of_mem hmem, finish_code]
    exact h.ready.keyed _ hmem

theorem Drawn.codes_perm (h : Drawn rules config codes applicants result entered p) :
    (result.codes.map HuntCode.code).Perm (codes.map HuntCode.code) := by
  rw [h.rows]
  refine ((List.mergeSort_perm _ _).map _).trans ?_
  rw [List.map_map]
  exact .of_eq (List.map_congr_left fun c _ => h.outcome_code c)

/-- The rows that are returned are the winners and whoever was refused. -/
theorem Drawn.applicants_perm (h : Drawn rules config codes applicants result entered p) :
    result.applicants.Perm (p.winners ++
      (pending (Entry.applicants applicants config) p.awarded).map Applicant.refuse) :=
  Ranking.sort_perm h.ranked

theorem mem_eligible {a : Applicant} (ha : a ∈ Entry.applicants applicants config) :
    a.clear = a ∧ ∃ x ∈ applicants, x.clear = a := by
  obtain ⟨x, hx, rfl⟩ := List.mem_map.1 ha
  exact ⟨rfl, x, List.mem_of_mem_filter hx, rfl⟩

theorem eligible_numbers (applicants : List Applicant) (config : DrawConfig) :
    ((Entry.applicants applicants config).map Applicant.number).Sublist (applicants.map Applicant.number) := by
  rw [Entry.applicants, List.map_map]
  exact List.filter_sublist.map _

/-- A row that is returned is that of an eligible applicant, won in a round or refused behind them all. -/
theorem Drawn.row (h : Drawn rules config codes applicants result entered p) {a : Applicant}
    (ha : a ∈ result.applicants) : a.clear ∈ Entry.applicants applicants config ∧
      (a ∈ p.winners ∨ a.outcome = some .notAwarded ∧ a.number ∉ p.awarded) := by
  rcases List.mem_append.1 (h.applicants_perm.mem_iff.1 ha) with hw | hr
  · obtain ⟨b, c, m, hwon⟩ := h.history.won a hw
    have hclear : a.clear = b := by
      rw [hwon.row]
      exact (mem_eligible hwon.source).1
    exact ⟨hclear ▸ hwon.source, Or.inl hw⟩
  · obtain ⟨b, hb, rfl⟩ := List.mem_map.1 hr
    obtain ⟨hmem, hnot⟩ := List.mem_filter.1 hb
    have hclear : b.refuse.clear = b := (mem_eligible hmem).1
    exact ⟨hclear.symm ▸ hmem, Or.inr ⟨rfl, of_decide_eq_true hnot⟩⟩

theorem Drawn.won (h : Drawn rules config codes applicants result entered p) {b : Applicant} {c : String}
    {i : Int} (hb : b ∈ result.applicants) (hawarded : b.outcome = some .awarded)
    (hcode : b.codeAwarded = some c) (hordinal : b.ordinalAwarded = some i) :
    ∃ m : Nat, i = m ∧ Won rules config (Entry.applicants applicants config) entered.keys Applicant.rounds p
      b b.clear c m := by
  have hwinner : b ∈ p.winners := (h.row hb).2.resolve_right fun hrefused => by simp [hawarded] at hrefused
  obtain ⟨b', c', m', hwon⟩ := h.history.won b hwinner
  have hb' : b.clear = b' := by
    rw [hwon.row]
    exact (mem_eligible hwon.source).1
  have hc' : c' = c := by simpa [hwon.row, Applicant.award] using hcode
  have hm' : (m' : Int) = i := by simpa [hwon.row, Applicant.award] using hordinal
  exact ⟨m', hm'.symm, hb' ▸ hc' ▸ hwon⟩

theorem Drawn.input (h : Drawn rules config codes applicants result entered p) {a : Applicant}
    (ha : a ∈ result.applicants) : ∃ x ∈ applicants, a.residency = x.residency ∧ a.points = x.points := by
  obtain ⟨-, x, hx, hxa⟩ := mem_eligible (h.row ha).1
  exact ⟨x, hx, (congrArg Applicant.residency hxa).symm, (congrArg Applicant.points hxa).symm⟩

/-- Where numbers are distinct, the row of an applicant tells in which round the number was awarded. -/
theorem Drawn.not_awardedBy (h : Drawn rules config codes applicants result entered p)
    (hnumbers : (applicants.map Applicant.number).Nodup) {a : Applicant} {j : Nat}
    (ha : a ∈ result.applicants)
    (hnot : ¬(a.outcome = some .awarded ∧ ∃ i : Int, a.ordinalAwarded = some i ∧ i ≤ j)) :
    ¬p.AwardedBy j a.clear := by
  rintro ⟨w, hw, hnumber, i, hi, hij⟩
  have hdistinct := h.history.distinct (hnumbers.sublist (eligible_numbers applicants config))
  rw [h.history.awarded] at hdistinct
  rcases (h.row ha).2 with hwon | ⟨-, hrefused⟩
  · have hsame : w = a := List.inj_on_of_nodup_map hdistinct hw hwon hnumber
    obtain ⟨b, c, m, hrow⟩ := h.history.won a hwon
    exact hnot ⟨by rw [hrow.row]; rfl, i, hsame ▸ hi, Int.ofNat_le.2 hij⟩
  · rw [h.history.awarded] at hrefused
    exact hrefused (hnumber ▸ List.mem_map_of_mem hw)

def sampleCode : HuntCode :=
  { code := "HC1", isValid := true, isInDraw := true, quota := some 3,
    nonResident := { hardCap := true, capPercent := some (.ofNat 50) } }

def sampleApplicant (number : Int) (residency : Residency) (points : Nat) (choices : List String) :
    Applicant :=
  ⟨number, 40, residency, .ofNat points, choices, none, none, none⟩

def sampleApplicants : List Applicant :=
  [sampleApplicant 5 .resident 0 ["", "HC1"], sampleApplicant 4 .resident 1 ["", "HC1"],
   sampleApplicant 3 .nonResident 2 ["HC1"], sampleApplicant 2 .nonResident 3 ["HC1"],
   sampleApplicant 1 .resident 4 ["HC1"]]

def sampleSort : DrawSort := { id := "S", name := "by points", rules := [⟨.points, .descending⟩] }

def sampleConfig : DrawConfig := { id := "D", name := "capped", rules := [.nonResidentCap] }

/-- Only the reserve is handed out, and what is left of it stays. -/
def flowConfig : DrawConfig := { id := "D", name := "flow", rules := [.reserved, .flow] }

def sampleResult : DrawResult where
  codes :=
    [{ code := "HC1", isValid := true, isInDraw := true, quota := some 3, drawQuota := some 3,
       previousBalance := some 3, balance := some 0, drawBalance := some 0, awarded := 3, drawAwarded := 3,
       nonResident := ⟨true, some (.ofNat 50), some 1, some 0, 1, 1⟩, resident := ⟨2, 2⟩ }]
  applicants :=
    [(sampleApplicant 1 .resident 4 ["HC1"]).award "HC1" 1,
     (sampleApplicant 2 .nonResident 3 ["HC1"]).award "HC1" 1,
     (sampleApplicant 3 .nonResident 2 ["HC1"]).refuse,
     (sampleApplicant 4 .resident 1 ["", "HC1"]).award "HC1" 2,
     (sampleApplicant 5 .resident 0 ["", "HC1"]).refuse]
  used := ["HC1"]

theorem run_sample :
    run [sampleCode] sampleApplicants (some sampleSort) (some sampleConfig) 1 = .ok sampleResult := by
  decide +kernel

end HuntDraw.Draw
