import HuntDraw.Proofs.Draw.Result

/-! The rows of a draw that returns: every eligible applicant comes back exactly once, settled with a drawn
choice of its own or with nothing, and the rows stand in the order of the rules. -/

namespace HuntDraw

/-- A row tells how an applicant came out: awarded one of its own choices that was drawn, or nothing. -/
def Applicant.Settled (used : List String) (a : Applicant) : Prop :=
  (∃ (k : Nat) (c : String), 1 ≤ k ∧ k ≤ rounds ∧ a.outcome = some .awarded ∧
    a.ordinalAwarded = some (k : Int) ∧ a.codeAwarded = some c ∧ a.choices[k - 1]? = some c ∧ c ∈ used) ∨
  (a.outcome = some .notAwarded ∧ a.ordinalAwarded = none ∧ a.codeAwarded = none)

namespace Draw

variable {rules : List SortRule} {config : DrawConfig} {workers : Int} {applicants : List Applicant}
  {codes : List HuntCode} {entered : Codes} {p : Progress} {sort : DrawSort} {result : DrawResult}
  {a b : Applicant}

theorem isEligible_iff : Entry.isEligible config a = true ↔
    a.outcome ≠ some .awarded ∧ (config.applicants = [] ∨ toString a.number ∈ config.applicants) := by
  simp [Entry.isEligible]

/-- The winners, with their awards taken away, are the eligible applicants whose numbers were awarded. -/
theorem Drawn.winners_perm (h : Drawn rules config codes applicants result entered p)
    (hnumbers : (applicants.map Applicant.number).Nodup) : (p.winners.map Applicant.clear).Perm
      ((Entry.applicants applicants config).filter fun a => a.number ∈ p.awarded) := by
  have heligible : ((Entry.applicants applicants config).map Applicant.number).Nodup :=
    hnumbers.sublist (eligible_numbers applicants config)
  have hdistinct : (p.winners.map Applicant.number).Nodup := h.history.awarded ▸ h.history.distinct heligible
  have hcleared : ((p.winners.map Applicant.clear).map Applicant.number).Nodup := by
    rw [List.map_map]
    exact hdistinct
  refine (List.perm_ext_iff_of_nodup hcleared.of_map (heligible.of_map.filter _)).2 fun a => ?_
  rw [List.mem_map, List.mem_filter, decide_eq_true_eq]
  constructor
  · rintro ⟨w, hw, rfl⟩
    have hrow := h.row (h.applicants_perm.mem_iff.2 (List.mem_append_left _ hw))
    exact ⟨hrow.1, h.history.awarded ▸ List.mem_map.2 ⟨w, hw, rfl⟩⟩
  · rintro ⟨ha, hmem⟩
    rw [h.history.awarded] at hmem
    obtain ⟨w, hw, hnumber⟩ := List.mem_map.1 hmem
    have hrow := h.row (h.applicants_perm.mem_iff.2 (List.mem_append_left _ hw))
    exact ⟨w, hw, List.inj_on_of_nodup_map heligible hrow.1 ha hnumber⟩

theorem Drawn.cleared_perm (h : Drawn rules config codes applicants result entered p)
    (hnumbers : (applicants.map Applicant.number).Nodup) :
    (result.applicants.map Applicant.clear).Perm (Entry.applicants applicants config) := by
  have hrefused : ((pending (Entry.applicants applicants config) p.awarded).map Applicant.refuse).map
      Applicant.clear = pending (Entry.applicants applicants config) p.awarded := by
    rw [List.map_map]
    refine (List.map_congr_left fun a ha => ?_).trans (List.map_id _)
    exact (mem_eligible (List.mem_of_mem_filter ha)).1
  calc (result.applicants.map Applicant.clear).Perm
        (p.winners.map Applicant.clear ++ pending (Entry.applicants applicants config) p.awarded) := by
        have hrows := h.applicants_perm.map Applicant.clear
        rwa [List.map_append, hrefused] at hrows
    _ |>.Perm ((Entry.applicants applicants config).filter (fun a => a.number ∈ p.awarded) ++
        pending (Entry.applicants applicants config) p.awarded) := (h.winners_perm hnumbers).append_right _
    _ |>.Perm (Entry.applicants applicants config) := by
        simpa [pending] using List.filter_append_perm (fun a : Applicant => decide (a.number ∈ p.awarded)) _

theorem Drawn.settled (h : Drawn rules config codes applicants result entered p)
    (ha : a ∈ result.applicants) : a.Settled result.used := by
  rcases List.mem_append.1 (h.applicants_perm.mem_iff.1 ha) with hw | hr
  · obtain ⟨b, c, k, hwon⟩ := h.history.won a hw
    obtain ⟨hchoice, -, hdrawn⟩ := Bucket.place?_eq_some.1 hwon.chosen
    refine Or.inl ⟨k, c, hwon.ordinal.1, hwon.ordinal.2, ?_⟩
    rw [hwon.row, h.used]
    exact ⟨rfl, rfl, rfl, hchoice, hdrawn⟩
  · obtain ⟨b, -, rfl⟩ := List.mem_map.1 hr
    exact Or.inr ⟨rfl, rfl, rfl⟩

/-- The rows stand in the order of the rules, whichever applicant the fields are sampled from. -/
theorem Drawn.ordered (h : Drawn rules config codes applicants result entered p)
    (hknown : ∀ a ∈ applicants, a.residency.IsKnown) (hpoints : ∀ a ∈ applicants, a.points ≠ .nan) :
    result.applicants.Pairwise fun a b => ∀ sample, ∃ o, Ranking.compare rules sample a b = .ok o ∧ o.isLE := by
  have hrow : ∀ a ∈ result.applicants, a.residency.IsKnown ∧ a.points ≠ .nan := by
    intro a ha
    obtain ⟨x, hx, hresidency, hxp⟩ := h.input ha
    rw [hresidency, hxp]
    exact ⟨hknown x hx, hpoints x hx⟩
  have hperm := Ranking.sort_perm h.ranked
  have harranged := Ranking.sort_arranged (fun a ha => (hrow a (hperm.mem_iff.2 ha)).1)
    (fun a ha => (hrow a (hperm.mem_iff.2 ha)).2) h.ranked
  refine harranged.sorted.imp_of_mem fun {a b} ha hb hle sample => ⟨_, ?_, hle⟩
  exact Ranking.compare_eq (hrow a ha).1 (hrow b hb).1 (hrow a ha).2 (hrow b hb).2

/-- A draw that returns gives back every eligible applicant once, settled and in the order of the rules. -/
theorem run_rows (hknown : ∀ a ∈ applicants, a.residency.IsKnown)
    (hnumbers : (applicants.map Applicant.number).Nodup) (hpoints : ∀ a ∈ applicants, a.points ≠ .nan)
    (h : run codes applicants (some sort) (some config) workers = .ok result) :
    (result.applicants.map Applicant.clear).Perm ((applicants.filter fun a => a.outcome ≠ some .awarded ∧
      (config.applicants = [] ∨ toString a.number ∈ config.applicants)).map Applicant.clear) ∧
    (∀ a ∈ result.applicants, a.Settled result.used) ∧
    result.applicants.Pairwise fun a b =>
      ∀ sample, ∃ o, Ranking.compare sort.rules sample a b = .ok o ∧ o.isLE := by
  obtain ⟨entered, p, hdrawn⟩ := run_drawn h
  refine ⟨?_, fun a ha => hdrawn.settled ha, hdrawn.ordered hknown hpoints⟩
  have heligible : (applicants.filter fun a => a.outcome ≠ some .awarded ∧
      (config.applicants = [] ∨ toString a.number ∈ config.applicants)).map Applicant.clear =
      Entry.applicants applicants config := by
    rw [Entry.applicants]
    refine congrArg _ (List.filter_congr fun a _ => ?_)
    rw [Bool.eq_iff_iff, decide_eq_true_eq, isEligible_iff]
  rw [heligible]
  exact hdrawn.cleared_perm hnumbers

theorem run_rows_sample : (∀ a ∈ sampleApplicants, a.residency.IsKnown) ∧
    (sampleApplicants.map Applicant.number).Nodup ∧ (∀ a ∈ sampleApplicants, a.points ≠ .nan) ∧
    run [sampleCode] sampleApplicants (some sampleSort) (some sampleConfig) 1 = .ok sampleResult ∧
    (sampleResult.applicants.map Applicant.clear).Perm sampleApplicants ∧
    (∀ a ∈ sampleResult.applicants, a.Settled ["HC1"]) ∧
    sampleResult.applicants.Pairwise fun a b =>
      ∀ sample, ∃ o, Ranking.compare sampleSort.rules sample a b = .ok o ∧ o.isLE := by
  have hknown : ∀ a ∈ sampleApplicants, a.residency.IsKnown := by decide +kernel
  have hnumbers : (sampleApplicants.map Applicant.number).Nodup := by decide
  have hpoints : ∀ a ∈ sampleApplicants, a.points ≠ .nan := by decide +kernel
  obtain ⟨hperm, hsettled, hordered⟩ := run_rows hknown hnumbers hpoints run_sample
  exact ⟨hknown, hnumbers, hpoints, run_sample, hperm.trans (.of_eq (by decide +kernel)), hsettled, hordered⟩

end Draw
end HuntDraw
