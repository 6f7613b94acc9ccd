import HuntDraw.Proofs.Draw.Scan

/-! Processing a bucket. The balances of its scan are those of the code less what was given away, and
the code has the same ones once the awards are counted; so a code that is closed to an applicant
stays closed, and it is closed to whoever lost. -/

namespace HuntDraw

open Attempt

theorem map_sub_sub (balance : Option Int) (i j : Int) :
    (balance.map (· - i)).map (· - j) = balance.map (· - (i + j)) := by
  cases balance with
  | none => rfl
  | some b => simp only [Option.map_some, Int.sub_sub]

/-- The counters of a code depend on how many residents and non-residents were awarded. -/
theorem HuntCode.applyDelta_congr {d e : Delta} (hr : d.residents = e.residents)
    (hn : d.nonResidents = e.nonResidents) (c : HuntCode) (config : DrawConfig) :
    c.applyDelta d config = c.applyDelta e config := by
  simp only [applyDelta, Delta.total, hr, hn]

/-- Awards that are counted one after the other are counted together. -/
theorem HuntCode.applyDelta_applyDelta (c : HuntCode) (d e : Delta) (config : DrawConfig) :
    (c.applyDelta d config).applyDelta e config =
      c.applyDelta ⟨d.residents + e.residents, d.nonResidents + e.nonResidents, 0⟩ config := by
  simp only [applyDelta, Delta.total, Option.getD_some, HuntCode.mk.injEq, NonResidentPool.mk.injEq,
    ResidentPool.mk.injEq, ReservedPool.mk.injEq, Option.some.injEq, true_and]
  refine ⟨by omega, by omega, by omega, by omega, ⟨?_, by omega, by omega⟩, ⟨by omega, by omega⟩, ?_⟩
  · split_ifs
    · exact map_sub_sub _ _ _
    · rfl
  · split_ifs
    · exact map_sub_sub _ _ _
    · rfl

theorem HuntCode.applyDelta_zero {c : HuntCode} (hbalance : c.balance.isSome)
    (hdraw : c.drawBalance.isSome) (config : DrawConfig) : c.applyDelta {} config = c := by
  obtain ⟨b, hb⟩ := Option.isSome_iff_exists.1 hbalance
  obtain ⟨d, hd⟩ := Option.isSome_iff_exists.1 hdraw
  obtain ⟨⟩ := c
  simp only at hb hd
  simp [applyDelta, Delta.total, hb, hd]

/-- A code has nothing for an applicant: no balance, or no open pool. -/
def HuntCode.ClosedTo (config : DrawConfig) (c : HuntCode) (a : Applicant) : Prop :=
  c.balance = some 0 ∨ (Bucket.startScan c).ClosedTo config c a

theorem HuntCode.ClosedTo.congr {config : DrawConfig} {c : HuntCode} {a b : Applicant}
    (hc : c.ClosedTo config a) (h : a.isResident = b.isResident) : c.ClosedTo config b :=
  hc.imp_right fun hs => hs.congr h

namespace Bucket

variable {config : DrawConfig} {c : HuntCode} {ordinal : Int} {awarded : List Int} {a : Applicant}
  {s t : Scan} {xs : List Applicant} {b : Bucket} {rules : List SortRule} {r : BucketResult}

/-- The balances are those of the code less what the winners were given. -/
structure Scan.Accounted (config : DrawConfig) (c : HuntCode) (s : Scan) : Prop where
  residents : s.delta.residents = (tally s.winners).residents
  nonResidents : s.delta.nonResidents = (tally s.winners).nonResidents
  known : ∀ w ∈ s.winners, w.residency.IsKnown
  residentsOnly : config.has .reserved → ∀ w ∈ s.winners, w.residency = .resident
  total : s.total = c.drawBalance.getD 0 - s.delta.total
  nonResident : s.nonResident = c.nonResident.balance.map (· - s.delta.nonResidents)
  reserved : s.reserved =
    if config.has .reserved then c.reserved.balance.map (· - s.delta.residents) else c.reserved.balance

theorem Scan.accounted_start : (startScan c).Accounted config c :=
  ⟨rfl, rfl, by simp [startScan], by simp [startScan], by simp [startScan, Delta.total], by simp [startScan],
    by simp [startScan]⟩

theorem Scan.Step.accounted (h : Scan.Step config c ordinal awarded a s t) (hs : s.Accounted config c) :
    t.Accounted config c := by
  cases h with
  | pass => exact hs
  | resident ha htotal hnew hadmits =>
    have htally := tally_append s.winners [a.award c.code ordinal]
    refine ⟨?_, ?_, ?_, ?_, ?_, hs.nonResident, ?_⟩
    · simp only [hs.residents, htally.1]
      simp [tally, Applicant.award, ha]
    · simp only [hs.nonResidents, htally.2]
      simp [tally, Applicant.award, ha]
    · intro w hw
      rcases List.mem_append.1 hw with hw | hw
      · exact hs.known w hw
      · rw [List.mem_singleton.1 hw]
        exact Or.inl ha
    · intro hreserved w hw
      rcases List.mem_append.1 hw with hw | hw
      · exact hs.residentsOnly hreserved w hw
      · rw [List.mem_singleton.1 hw]
        exact ha
    · simp only [hs.total, Delta.total]
      omega
    · simp only [hs.reserved]
      split_ifs
      · exact map_sub_sub _ _ _
      · rfl
  | nonResident ha htotal hnew hadmits =>
    have htally := tally_append s.winners [a.award c.code ordinal]
    refine ⟨?_, ?_, ?_, ?_, ?_, ?_, hs.reserved⟩
    · simp only [hs.residents, htally.1]
      simp [tally, Applicant.award, ha]
    · simp only [hs.nonResidents, htally.2]
      simp [tally, Applicant.award, ha]
    · intro w hw
      rcases List.mem_append.1 hw with hw | hw
      · exact hs.known w hw
      · rw [List.mem_singleton.1 hw]
        exact Or.inr ha
    · intro hreserved
      -- the reserved draw admits residents only
      simp [admits, hreserved, Applicant.isResident_nonResident ha] at hadmits
    · simp only [hs.total, Delta.total]
      omega
    · simp only [hs.nonResident]
      exact map_sub_sub _ _ _

/-- An award needs something left of the total, so the total does not fall below nothing. -/
theorem Scan.Step.total_nonneg (h : Scan.Step config c ordinal awarded a s t) (hs : 0 ≤ s.total) :
    0 ≤ t.total := by
  cases h with
  | pass => exact hs
  | resident _ htotal => exact Int.sub_nonneg_of_le (by omega)
  | nonResident _ htotal => exact Int.sub_nonneg_of_le (by omega)

theorem scan_accounted
    (h : xs.foldlM (scanStep config c ordinal awarded) (startScan c) = .ok t) : t.Accounted config c :=
  foldlM_preserves (Scan.Accounted config c) (fun _ _ _ _ hstep => (scanStep_step hstep).accounted) h
    Scan.accounted_start

/-- The pools that a scan ends with are those of the code after the awards are counted. -/
theorem Scan.Accounted.closedTo_iff (h : s.Accounted config c) (a : Applicant) :
    s.ClosedTo config c a ↔
      (startScan (c.applyDelta s.delta config)).ClosedTo config (c.applyDelta s.delta config) a := by
  have hadmits : admits config c s a =
      admits config (c.applyDelta s.delta config) (startScan (c.applyDelta s.delta config)) a := by
    simp only [admits, startScan, HuntCode.applyDelta, h.nonResident, h.reserved]
    split_ifs <;> rfl
  rw [Scan.ClosedTo, Scan.ClosedTo, hadmits, h.total]
  rfl

/-- A bucket that is processed is that of a code without balance, or is ranked and gone through. -/
theorem process_eq_ok : b.process c rules config awarded = .ok r ↔
    c.balance = some 0 ∧ r = { code := b.code } ∨
      c.balance ≠ some 0 ∧ ∃ ranked s, Ranking.sort rules b.applicants = .ok ranked ∧
        ranked.foldlM (scanStep config c b.ordinal awarded) (startScan c) = .ok s ∧
        r = ⟨b.code, s.winners, s.delta⟩ := by
  rw [process]
  by_cases hbalance : c.balance = some 0
  · simp [hbalance, eq_comm]
  · simp only [hbalance, if_false, bind_eq_ok, pure_eq_ok, false_and, false_or, ne_eq, not_false_iff, true_and]
    constructor
    · rintro ⟨ranked, hsort, s, hscan, rfl⟩
      exact ⟨ranked, s, hsort, hscan, rfl⟩
    · rintro ⟨ranked, s, hsort, hscan, rfl⟩
      exact ⟨ranked, hsort, s, hscan, rfl⟩

/-- What processing a bucket comes to, `ws` being those in it who win. -/
structure Processed (rules : List SortRule) (config : DrawConfig) (awarded : List Int) (b : Bucket)
    (c : HuntCode) (r : BucketResult) (ws : List Applicant) : Prop where
  made : b.process c rules config awarded = .ok r
  code : r.code = b.code
  winners : r.awarded = ws.map (·.award c.code b.ordinal)
  subperm : ws.Subperm b.applicants
  new : ∀ w ∈ ws, w.number ∉ awarded
  known : ∀ w ∈ ws, w.residency.IsKnown
  residents : r.delta.residents = (tally r.awarded).residents
  nonResidents : r.delta.nonResidents = (tally r.awarded).nonResidents
  residentsOnly : config.has .reserved → ∀ w ∈ ws, w.residency = .resident
  bounded : 0 ≤ c.drawBalance.getD 0 → r.delta.total ≤ c.drawBalance.getD 0
  closed : ∀ a, c.ClosedTo config a →
    (c.applyDelta r.delta config).ClosedTo config a ∧ ∀ w ∈ ws, w.isResident ≠ a.isResident
  lost : ∀ a ∈ b.applicants, a.number ∉ awarded → a ∉ ws →
    (c.applyDelta r.delta config).ClosedTo config a
  ahead : ∀ a ∈ b.applicants, a.number ∉ awarded → a ∉ ws → ∀ w ∈ ws, w.isResident = a.isResident →
    ∃ ranked, Ranking.sort rules b.applicants = .ok ranked ∧ [w, a].Sublist ranked

theorem processed_empty (h : c.balance = some 0) : Processed rules config awarded b c { code := b.code } [] where
  made := if_pos h
  code := rfl
  winners := rfl
  subperm := List.nil_subperm
  new := by simp
  known := by simp
  residents := rfl
  nonResidents := rfl
  residentsOnly := by simp
  bounded hc := hc
  closed a _ := ⟨Or.inl (by simp [HuntCode.applyDelta, h, Delta.total]), by simp⟩
  lost a _ _ _ := Or.inl (by simp [HuntCode.applyDelta, h, Delta.total])
  ahead := by simp

theorem processed_ranked {ranked ws : List Applicant} (hbalance : c.balance ≠ some 0)
    (hsort : Ranking.sort rules b.applicants = .ok ranked)
    (hscan : ranked.foldlM (scanStep config c b.ordinal awarded) (startScan c) = .ok s)
    (hran : Scan.Ran config c b.ordinal awarded (startScan c) ranked s ws) :
    Processed rules config awarded b c ⟨b.code, s.winners, s.delta⟩ ws := by
  have hacc := scan_accounted hscan
  have hwinners : s.winners = ws.map (·.award c.code b.ordinal) := hran.winners
  have hperm := Ranking.sort_perm hsort
  refine ⟨?_, rfl, hwinners, hran.sublist.subperm.trans hperm.subperm, hran.new, ?_, hacc.residents,
    hacc.nonResidents, ?_, ?_, ?_, ?_, ?_⟩
  · exact process_eq_ok.2 (Or.inr ⟨hbalance, ranked, s, hsort, hscan, rfl⟩)
  · intro w hw
    have haward : w.award c.code b.ordinal ∈ s.winners := hwinners ▸ List.mem_map_of_mem hw
    exact (hacc.known _ haward : (w.award c.code b.ordinal).residency.IsKnown)
  · intro hreserved w hw
    have haward : w.award c.code b.ordinal ∈ s.winners := hwinners ▸ List.mem_map_of_mem hw
    exact (hacc.residentsOnly hreserved _ haward : (w.award c.code b.ordinal).residency = .resident)
  · intro hdraw
    have hnonneg : 0 ≤ s.total :=
      foldlM_preserves (fun s => 0 ≤ s.total) (fun _ _ _ _ hstep => (scanStep_step hstep).total_nonneg)
        hscan hdraw
    have := hacc.total
    simp only
    omega
  · intro a ha
    obtain ⟨hs, hws⟩ := hran.closed a (ha.resolve_left hbalance)
    exact ⟨Or.inr ((hacc.closedTo_iff a).1 hs), hws⟩
  · intro a ha hnew hlost
    exact Or.inr ((hacc.closedTo_iff a).1 (hran.lost a (hperm.mem_iff.2 ha) hnew hlost))
  · intro a ha hnew hlost w hw hwa
    exact ⟨ranked, hsort, hran.ahead a (hperm.mem_iff.2 ha) hnew hlost w hw hwa⟩

theorem process_processed (h : b.process c rules config awarded = .ok r) :
    ∃ ws, Processed rules config awarded b c r ws := by
  rcases process_eq_ok.1 h with ⟨hbalance, rfl⟩ | ⟨hbalance, ranked, s, hsort, hscan, rfl⟩
  · exact ⟨[], processed_empty hbalance⟩
  · obtain ⟨ws, hran⟩ := scan_ran hscan
    exact ⟨ws, processed_ranked hbalance hsort hscan hran⟩

theorem Processed.length_awarded {ws : List Applicant} (h : Processed rules config awarded b c r ws) :
    (r.awarded.length : Int) = r.delta.total := by
  rw [Delta.total, h.residents, h.nonResidents]
  refine length_eq_tally fun w hw => ?_
  rw [h.winners] at hw
  obtain ⟨a, ha, rfl⟩ := List.mem_map.1 hw
  exact h.known a ha

/-- Whoever the pools are still open to behind a bucket was served in it. -/
theorem process_serves {ys : List Applicant} (hbalance : c.balance ≠ some 0) (hsub : ys.Subperm b.applicants)
    (hnew : ∀ a ∈ ys, a.number ∉ awarded) (h : b.process c rules config awarded = .ok r)
    (hopen : ∀ a ∈ ys,
      ¬(startScan (c.applyDelta r.delta config)).ClosedTo config (c.applyDelta r.delta config) a) :
    ys.length ≤ r.awarded.length := by
  obtain ⟨ranked, s, hsort, hscan, rfl⟩ := ((process_eq_ok.1 h).resolve_left fun hnone => hbalance hnone.1).2
  obtain ⟨zs, hzs, hranked⟩ := hsub.trans (Ranking.sort_perm hsort).symm.subperm
  have hserved := scan_serves hranked (fun a ha => ?_) hscan
  · simpa [startScan, hzs.length_eq] using hserved
  · have ha := hzs.mem_iff.1 ha
    exact ⟨hnew a ha, fun hs => hopen a ha (((scan_accounted hscan).closedTo_iff a).1 hs)⟩

/-- A pool serves as many as it is large enough for, if its sub-pools admit them while it lasts. -/
theorem process_serves_pool {ys : List Applicant} {pool : Int} (hbalance : c.balance ≠ some 0)
    (hdraw : c.drawBalance = some pool) (hsub : ys.Subperm b.applicants) (hnew : ∀ a ∈ ys, a.number ∉ awarded)
    (hlength : ys.length ≤ pool) (h : b.process c rules config awarded = .ok r)
    (hadmits : (r.awarded.length : Int) < pool → ∀ a ∈ ys,
      admits config (c.applyDelta r.delta config) (startScan (c.applyDelta r.delta config)) a = true) :
    ys.length ≤ r.awarded.length := by
  obtain ⟨ws, hproc⟩ := process_processed h
  have hcount := hproc.length_awarded
  by_contra hless
  refine hless (process_serves hbalance hsub hnew h fun a ha => ?_)
  -- less than the pool is given away, so the total is not used up
  rintro (htotal | hshut)
  · simp only [startScan, HuntCode.applyDelta, hdraw, Option.getD_some] at htotal
    omega
  · simp [hadmits (by omega) a ha] at hshut

/-- Processing looks at the ranked applicants of a bucket, and at which numbers were awarded. -/
theorem process_congr {b' : Bucket} {awarded' : List Int} (hcode : b'.code = b.code)
    (hordinal : b'.ordinal = b.ordinal)
    (hsort : Ranking.sort rules b'.applicants = Ranking.sort rules b.applicants)
    (hawarded : ∀ n, n ∈ awarded' ↔ n ∈ awarded) :
    b'.process c rules config awarded' = b.process c rules config awarded := by
  have hscan : scanStep config c b'.ordinal awarded' = scanStep config c b.ordinal awarded := by
    funext s a
    simp only [scanStep, hawarded, hordinal]
  rw [process, process, hcode, hsort, hscan]

theorem process_total (h : ∀ a ∈ b.applicants, a.residency.IsKnown) :
    ∃ r, b.process c rules config awarded = .ok r := by
  by_cases hbalance : c.balance = some 0
  · exact ⟨_, process_eq_ok.2 (Or.inl ⟨hbalance, rfl⟩)⟩
  · obtain ⟨ranked, hsort⟩ : ∃ ranked, Ranking.sort rules b.applicants = .ok ranked := Ranking.sort_total h
    have hknown : ∀ a ∈ ranked, a.residency.IsKnown := fun a ha => h a ((Ranking.sort_perm hsort).mem_iff.1 ha)
    obtain ⟨s, hs, -⟩ := foldlM_total (f := scanStep config c b.ordinal awarded) (fun _ => True)
      (b := startScan c) (fun s a ha _ => (scanStep_total (hknown a ha)).imp fun _ ht => ⟨ht, trivial⟩) trivial
    exact ⟨_, process_eq_ok.2 (Or.inr ⟨hbalance, ranked, s, hsort, hs, rfl⟩)⟩

/-- A reserve that is large enough serves a whole bucket of residents, whatever the balance. -/
theorem process_residents (hreserved : config.has .reserved) (hbalance : c.balance ≠ some 0) {pool : Int}
    (hdraw : c.drawBalance = some pool) (hpool : c.reserved.balance = some pool)
    (hxs : ∀ a ∈ b.applicants, a.residency = .resident ∧ a.number ∉ awarded)
    (hlength : b.applicants.length ≤ pool) (h : b.process c rules config awarded = .ok r) :
    r.awarded.length = b.applicants.length := by
  obtain ⟨ws, hproc⟩ := process_processed h
  have hatMost : r.awarded.length ≤ b.applicants.length := by
    rw [hproc.winners, List.length_map]
    exact hproc.subperm.length_le
  refine hatMost.antisymm (process_serves_pool hbalance hdraw (List.Subperm.refl _) (fun a ha => (hxs a ha).2)
    hlength h fun hless a ha => ?_)
  have hnone : r.delta.nonResidents = 0 := by
    simp only [hproc.nonResidents, tally, Nat.cast_eq_zero, List.countP_eq_zero, decide_eq_true_eq]
    intro w hw
    rw [hproc.winners] at hw
    obtain ⟨a, ha, rfl⟩ := List.mem_map.1 hw
    simp [Applicant.award, hproc.residentsOnly hreserved a ha]
  have hleft : pool - r.delta.residents ≠ 0 := by
    rw [hproc.length_awarded, Delta.total, hnone] at hless
    omega
  simpa [admits, hreserved, Applicant.isResident_iff.2 (hxs a ha).1, isOpen, startScan, HuntCode.applyDelta,
    hpool] using hleft

end Bucket
end HuntDraw
