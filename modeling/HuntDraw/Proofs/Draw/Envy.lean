import HuntDraw.Proofs.Draw.Result

/-! No justified envy: an applicant who wanted a code no later than its winner of the same residency, and
was not awarded anything by then, asked in the same round and was ranked behind. -/

namespace HuntDraw

open Draw

theorem Ranking.order_clear (rules : List SortRule) (a b : Applicant) :
    order rules a.clear b.clear = order rules a b := by
  induction rules with
  | nil => rfl
  | cons r rest ih =>
    have hrule : r.order a.clear b.clear = r.order a b := by
      obtain ⟨f, d⟩ := r
      cases f <;> rfl
    simp only [order, compareLex, hrule, ih]

namespace Draw

variable {config : DrawConfig} {workers : Int} {applicants : List Applicant} {codes : List HuntCode}
  {sort : DrawSort} {result : DrawResult} {a b : Applicant} {c : String} {j : Nat} {m : Int}

/-- Whoever stands ahead in a bucket ranks ahead, or ties and stands ahead in the input. -/
theorem ranks_ahead {rules : List SortRule} {xs ranked : List Applicant}
    (hknown : ∀ a ∈ applicants, a.residency.IsKnown) (hpoints : ∀ a ∈ applicants, a.points ≠ .nan)
    (hxs : xs.Sublist (Entry.applicants applicants config)) (hsort : Ranking.sort rules xs = .ok ranked)
    (hahead : [b, a].Sublist ranked) :
    Ranking.order rules b a = .lt ∨
      Ranking.order rules b a = .eq ∧ [b.number, a.number].Sublist (applicants.map Applicant.number) := by
  have hrow : ∀ x ∈ xs, x.residency.IsKnown ∧ x.points ≠ .nan := by
    intro x hx
    obtain ⟨-, y, hy, rfl⟩ := mem_eligible (hxs.subset hx)
    exact ⟨hknown y hy, hpoints y hy⟩
  have harranged := Ranking.sort_arranged (fun x hx => (hrow x hx).1) (fun x hx => (hrow x hx).2) hsort
  refine (harranged.lt_or_precedes hahead).imp_right fun ⟨heq, hinput⟩ => ⟨heq, ?_⟩
  exact ((hinput.trans hxs).map Applicant.number).trans (eligible_numbers applicants config)

/-- A draw that returns leaves no justified envy. -/
theorem run_no_envy (hknown : ∀ a ∈ applicants, a.residency.IsKnown)
    (hnumbers : (applicants.map Applicant.number).Nodup) (hpoints : ∀ a ∈ applicants, a.points ≠ .nan)
    (h : run codes applicants (some sort) (some config) workers = .ok result)
    (ha : a ∈ result.applicants) (hb : b ∈ result.applicants) (hab : a.residency = b.residency)
    (hawarded : b.outcome = some .awarded) (hcode : b.codeAwarded = some c)
    (hordinal : b.ordinalAwarded = some m) (hj : 1 ≤ j) (hjm : (j : Int) ≤ m)
    (hchoice : a.choices[j - 1]? = some c) :
    (a.outcome = some .awarded ∧ ∃ i : Int, a.ordinalAwarded = some i ∧ i ≤ j) ∨
      (j : Int) = m ∧ ((∀ sample, Ranking.compare sort.rules sample b a = .ok .lt) ∨
        (∀ sample, Ranking.compare sort.rules sample b a = .ok .eq) ∧
          [b.number, a.number].Sublist (applicants.map Applicant.number)) := by
  obtain ⟨entered, p, hdrawn⟩ := run_drawn h
  apply or_iff_not_imp_left.2
  intro hnot
  have hbefore := hdrawn.not_awardedBy hnumbers ha hnot
  obtain ⟨n, rfl, hwon⟩ := hdrawn.won hb hawarded hcode hordinal
  have hplace : Bucket.place? entered.keys j a.clear = some c :=
    Bucket.place?_eq_some.2 ⟨hchoice, (Bucket.place?_eq_some.1 hwon.chosen).2⟩
  have hsame : a.clear.isResident = b.clear.isResident := by
    change a.isResident = b.isResident
    simp only [Applicant.isResident, hab]
  obtain ⟨rfl, xs, ranked, hxs, hsort, hahead⟩ :=
    hwon.ahead a.clear (hdrawn.row ha).1 hsame j hj (Int.ofNat_le.1 hjm) hplace hbefore
  have hcompare : ∀ sample, Ranking.compare sort.rules sample b a = .ok (Ranking.order sort.rules b a) := by
    intro sample
    obtain ⟨x, hx, hxr, hxp⟩ := hdrawn.input ha
    obtain ⟨y, hy, hyr, hyp⟩ := hdrawn.input hb
    exact Ranking.compare_eq (hyr ▸ hknown y hy) (hxr ▸ hknown x hx) (hyp ▸ hpoints y hy) (hxp ▸ hpoints x hx)
  refine ⟨rfl, ?_⟩
  rcases ranks_ahead hknown hpoints hxs hsort hahead with hlt | ⟨heq, hinput⟩
  · rw [Ranking.order_clear] at hlt
    exact Or.inl fun sample => by rw [hcompare, hlt]
  · rw [Ranking.order_clear] at heq
    exact Or.inr ⟨fun sample => by rw [hcompare, heq], hinput⟩

theorem run_no_envy_sample : (∀ a ∈ sampleApplicants, a.residency.IsKnown) ∧
    (sampleApplicants.map Applicant.number).Nodup ∧ (∀ a ∈ sampleApplicants, a.points ≠ .nan) ∧
    run [sampleCode] sampleApplicants (some sampleSort) (some sampleConfig) 1 = .ok sampleResult ∧
    (∀ sample, Ranking.compare sampleSort.rules sample
      ((sampleApplicant 4 .resident 1 ["", "HC1"]).award "HC1" 2)
      (sampleApplicant 5 .resident 0 ["", "HC1"]).refuse = .ok .lt) := by
  have hknown : ∀ a ∈ sampleApplicants, a.residency.IsKnown := by decide +kernel
  have hnumbers : (sampleApplicants.map Applicant.number).Nodup := by decide
  have hpoints : ∀ a ∈ sampleApplicants, a.points ≠ .nan := by decide +kernel
  refine ⟨hknown, hnumbers, hpoints, run_sample, ?_⟩
  have hfair := run_no_envy (a := (sampleApplicant 5 .resident 0 ["", "HC1"]).refuse)
    (b := (sampleApplicant 4 .resident 1 ["", "HC1"]).award "HC1" 2) (c := "HC1") (j := 2) (m := 2) hknown
    hnumbers hpoints run_sample (by decide +kernel) (by decide +kernel) rfl rfl rfl rfl (by decide) (by decide) rfl
  rcases hfair with ⟨hawarded, -⟩ | ⟨-, hlt | ⟨-, hinput⟩⟩
  · exact absurd hawarded (by decide)
  · exact hlt
  · exact absurd hinput (by decide)

end Draw
end HuntDraw
