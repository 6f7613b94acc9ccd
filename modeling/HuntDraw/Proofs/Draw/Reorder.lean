import HuntDraw.Proofs.Draw.Envy
import HuntDraw.Proofs.Draw.Ledger
import HuntDraw.Proofs.Draw.Rows
import HuntDraw.Proofs.Draw.Total
import HuntDraw.Proofs.Text.Order

/-! The order of the input rows. Two draws over the same rows in different orders, none of them tied, go
through the same states up to order: in every round the same applicants stand in the bucket of a code, they
are ranked alike, and so they win alike; and the results are sorted. -/

namespace HuntDraw.Draw

open Attempt

variable {rules : List SortRule} {config : DrawConfig} {workers workers' : Int}
  {eligible eligible' applicants applicants' : List Applicant} {codes codes' : List HuntCode}
  {entered entered' : Codes} {p p' q q' : Progress} {k : Nat} {s s' : RoundSummary}
  {results results' : List BucketResult} {sort : DrawSort} {result result' : DrawResult}

theorem Ready.perm (h : Ready entered) (hperm : entered'.Perm entered) : Ready entered' where
  nodup := (hperm.map Prod.fst).nodup_iff.2 h.nodup
  keyed e he := h.keyed e (hperm.mem_iff.1 he)
  balance e he := h.balance e (hperm.mem_iff.1 he)
  drawBalance e he := h.drawBalance e (hperm.mem_iff.1 he)

/-- What enters two draws is the same up to order, and the rules tell all applicants apart. -/
structure Reordered (rules : List SortRule) (entered entered' : Codes) (eligible eligible' : List Applicant) :
    Prop where
  ready : Ready entered
  codes : entered'.Perm entered
  rows : eligible'.Perm eligible
  numbers : (eligible.map Applicant.number).Nodup
  known : ∀ a ∈ eligible, a.residency.IsKnown
  points : ∀ a ∈ eligible, a.points ≠ .nan
  ties : ∀ a ∈ eligible, ∀ b ∈ eligible, Ranking.order rules a b = .eq → a = b

theorem Reordered.symm (h : Reordered rules entered entered' eligible eligible') :
    Reordered rules entered' entered eligible' eligible where
  ready := h.ready.perm h.codes
  codes := h.codes.symm
  rows := h.rows.symm
  numbers := (h.rows.map _).nodup_iff.2 h.numbers
  known a ha := h.known a (h.rows.mem_iff.1 ha)
  points a ha := h.points a (h.rows.mem_iff.1 ha)
  ties a ha b hb := h.ties a (h.rows.mem_iff.1 ha) b (h.rows.mem_iff.1 hb)

/-- Two draws after the same number of rounds, with the same winners up to order. -/
structure Alike (rules : List SortRule) (config : DrawConfig) (entered entered' : Codes)
    (eligible eligible' : List Applicant) (k : Nat) (p p' : Progress) : Prop where
  left : History rules config eligible entered k p
  right : History rules config eligible' entered' k p'
  winners : p'.winners.Perm p.winners

namespace Alike

variable (h : Alike rules config entered entered' eligible eligible' k p p')
  (hr : Reordered rules entered entered' eligible eligible')

include h

theorem symm : Alike rules config entered' entered eligible' eligible k p' p where
  left := h.right
  right := h.left
  winners := h.winners.symm

theorem awarded_perm : p'.awarded.Perm p.awarded := by
  rw [h.left.awarded, h.right.awarded]
  exact h.winners.map _

include hr

/-- The codes are the ones that entered, with the same awards counted. -/
theorem codes_perm : p'.codes.Perm p.codes := by
  have hsettle : settle config entered' p'.winners = settle config entered' p.winners := by
    refine List.map_congr_left fun e _ => ?_
    have hholders : (holders e.1 p'.winners).Perm (holders e.1 p.winners) := h.winners.filter _
    rw [tally_perm hholders]
  rw [h.left.codes, h.right.codes, hsettle]
  exact hr.codes.map _

theorem pending_perm : (pending eligible' p'.awarded).Perm (pending eligible p.awarded) := by
  have hsame : ∀ a : Applicant, decide (a.number ∉ p'.awarded) = decide (a.number ∉ p.awarded) := fun a => by
    simp only [h.awarded_perm.mem_iff]
  rw [pending, List.filter_congr fun a _ => hsame a]
  exact hr.rows.filter _

theorem standing_perm (j : Nat) (c : String) :
    (standing eligible' p' j c).applicants.Perm (standing eligible p j c).applicants := by
  have hkeys : ∀ d, d ∈ p'.codes.keys ↔ d ∈ p.codes.keys := fun d => ((h.codes_perm hr).map Prod.fst).mem_iff
  have hplace : Bucket.place? p'.codes.keys j = Bucket.place? p.codes.keys j := by
    funext a
    simp only [Bucket.place?, hkeys]
  rw [standing, hplace]
  exact (h.pending_perm hr).filter _

theorem process_eq (j : Nat) (c : String) (d : HuntCode) :
    (standing eligible' p' j c).process d rules config p'.awarded =
      (standing eligible p j c).process d rules config p.awarded := by
  have hin : ∀ a ∈ (standing eligible p j c).applicants, a ∈ eligible := fun a ha =>
    List.mem_of_mem_filter (List.mem_of_mem_filter ha)
  refine Bucket.process_congr rfl rfl ?_ fun n => h.awarded_perm.mem_iff
  exact Ranking.sort_of_perm (h.standing_perm hr j c) (fun a ha => hr.known a (hin a ha))
    (fun a ha => hr.points a (hin a ha)) fun a ha b hb => hr.ties a (hin a ha) b (hin b hb)

/-- Whoever wins in a round of the one draw wins the same in that round of the other. -/
theorem wins (hran : Ran rules config eligible p (k + 1) results)
    (hran' : Ran rules config eligible' p' (k + 1) results') {w : Applicant}
    (hw : w ∈ results.flatMap (·.awarded)) : w ∈ results'.flatMap (·.awarded) := by
  obtain ⟨r, hmem, hw⟩ := List.mem_flatMap.1 hw
  have hready := h.left.ready hr.ready
  obtain ⟨d, ws, hd, hproc⟩ := hran.processed r hmem
  obtain ⟨b, hb, hplace, -⟩ := hran.source hready hmem hw
  obtain ⟨hpending, hplace⟩ :=
    mem_standing.1 ((h.standing_perm hr (k + 1) r.code).mem_iff.2 (mem_standing.2 ⟨hb, hplace⟩))
  -- somebody stands in the bucket of the code in the other draw too, so it has a result there
  obtain ⟨r', hmem', hcode⟩ := hran'.named b hpending r.code hplace
  obtain ⟨d', ws', hd', hproc'⟩ := hran'.processed r' hmem'
  rw [hcode] at hd' hproc'
  obtain rfl : d' = d := Fields.eq_of_mem hready.nodup ((h.codes_perm hr).mem_iff.1 hd') hd
  have hsame : (.ok r' : Except DrawFault BucketResult) = .ok r := by
    rw [← hproc'.made, h.process_eq hr, hproc.made]
  rw [← Except.ok.inj hsame] at hw
  exact List.mem_flatMap.2 ⟨r', hmem', hw⟩

theorem round (hround : Draw.round rules config workers eligible p (k + 1) = .ok (q, s)) :
    ∃ q' s', Draw.round rules config workers' eligible' p' (k + 1) = .ok (q', s') ∧
      Alike rules config entered entered' eligible eligible' (k + 1) q q' := by
  obtain ⟨⟨q', s'⟩, hround'⟩ : ∃ q', Draw.round rules config workers' eligible' p' (k + 1) = .ok q' :=
    round_total (by omega) hr.symm.known
  refine ⟨q', s', hround', h.left.round hr.ready hround, h.right.round hr.symm.ready hround', ?_⟩
  have hready := h.left.ready hr.ready
  have hready' := h.right.ready hr.symm.ready
  obtain ⟨results, hran, rfl⟩ := round_ran (by omega) hready.nodup hround
  obtain ⟨results', hran', rfl⟩ := round_ran (by omega) hready'.nodup hround'
  rw [(foldl_foldResult_winners _ _ _).1, (foldl_foldResult_winners _ _ _).1]
  -- nobody wins twice in a round, so it is enough that the winners are the same ones
  refine h.winners.append ((List.perm_ext_iff_of_nodup (hran'.distinct hready' hr.symm.numbers).of_map
    (hran.distinct hready hr.numbers).of_map).2 fun w => ?_)
  exact ⟨h.symm.wins hr.symm hran' hran, h.wins hr hran hran'⟩

end Alike

theorem rounds_alike (hr : Reordered rules entered entered' eligible eligible')
    (h : rounds rules config workers eligible entered = .ok p) :
    ∃ p', rounds rules config workers' eligible' entered' = .ok p' ∧
      Alike rules config entered entered' eligible eligible' Applicant.rounds p p' := by
  -- beside every state of the one draw stands the state of the other after as many rounds
  refine rounds_induction (fun k p => ∃ p', (List.range' 1 k).foldlM
    (fun p k => (·.1) <$> round rules config workers' eligible' p k) { codes := entered' } = .ok p' ∧
    Alike rules config entered entered' eligible eligible' k p p') ?_ ?_ h
  · rintro k p q s hround ⟨p', hp', halike⟩
    obtain ⟨q', s', hround', halike'⟩ : ∃ q' s', round rules config workers' eligible' p' (k + 1) = .ok (q', s') ∧
        Alike rules config entered entered' eligible eligible' (k + 1) q q' := halike.round hr hround
    refine ⟨q', ?_, halike'⟩
    rw [List.range'_1_concat, List.foldlM_append, bind_eq_ok]
    refine ⟨p', hp', bind_eq_ok.2 ⟨q', ?_, rfl⟩⟩
    rw [Nat.add_comm 1 k]
    exact map_eq_ok.2 ⟨_, hround', rfl⟩
  · exact ⟨_, rfl, History.start hr.ready, History.start hr.symm.ready, .refl _⟩

theorem enterCodes_eq_ok (hcodes : (codes.map HuntCode.code).Nodup) : enterCodes codes config = .ok entered ↔
    ∃ sized, (Entry.codes codes config).mapM (fun c => c.sizePools config) = .ok sized ∧
      entered = sized.map fun c => (c.code, c) := by
  have hsub : ((Entry.codes codes config).map HuntCode.code).Sublist (codes.map HuntCode.code) := by
    rw [Entry.codes, List.map_map]
    exact List.filter_sublist.map _
  have hpairs : ∀ sized, (Entry.codes codes config).mapM (fun c => c.sizePools config) = .ok sized →
      Fields.ofPairs (sized.map fun c => (c.code, c)) = sized.map fun c => (c.code, c) := by
    intro sized hsized
    have hsame : sized.map HuntCode.code = (Entry.codes codes config).map HuntCode.code :=
      mapM_map_eq hsized fun c _ d hd => by rw [(HuntCode.sizePools_sized hd).frame]
    apply Fields.ofPairs_eq_self
    have hkeys : Fields.keys (sized.map fun c => (c.code, c)) = sized.map HuntCode.code := by
      rw [Fields.keys, List.map_map]
      rfl
    rw [hkeys, hsame]
    exact hcodes.sublist hsub
  simp only [enterCodes, bind_eq_ok, pure_eq_ok]
  constructor
  · rintro ⟨sized, hsized, rfl⟩
    exact ⟨sized, hsized, hpairs sized hsized⟩
  · rintro ⟨sized, hsized, rfl⟩
    exact ⟨sized, hsized, hpairs sized hsized⟩

theorem enterCodes_perm (hcodes : (codes.map HuntCode.code).Nodup) (hperm : codes'.Perm codes)
    (h : enterCodes codes config = .ok entered) :
    ∃ entered', enterCodes codes' config = .ok entered' ∧ entered'.Perm entered := by
  obtain ⟨sized, hsized, rfl⟩ := (enterCodes_eq_ok hcodes).1 h
  have hrows : (Entry.codes codes' config).Perm (Entry.codes codes config) := (hperm.filter _).map _
  obtain ⟨sized', hsized', hsame⟩ := mapM_perm hrows hsized
  exact ⟨_, (enterCodes_eq_ok ((hperm.map _).nodup_iff.2 hcodes)).2 ⟨sized', hsized', rfl⟩, hsame.map _⟩

/-- Rows that the rules tell apart are the same if they compare equal. -/
theorem eq_of_order_eq {xs : List Applicant} (hknown : ∀ a ∈ xs, a.residency.IsKnown)
    (hpoints : ∀ a ∈ xs, a.points ≠ .nan)
    (hties : xs.Pairwise fun a b => ∃ sample, Ranking.compare rules sample a b ≠ .ok .eq) :
    ∀ a ∈ xs, ∀ b ∈ xs, Ranking.order rules a b = .eq → a = b := by
  have hsymm : Std.Symm fun a b : Applicant => Ranking.order rules a b = .eq → a = b :=
    ⟨fun a b hab hba => (hab (Std.OrientedCmp.eq_comm.1 hba)).symm⟩
  have hpairs : xs.Pairwise fun a b => Ranking.order rules a b = .eq → a = b := by
    refine hties.imp_of_mem ?_
    rintro a b ha hb ⟨sample, hne⟩ heq
    exact absurd (heq ▸ Ranking.compare_eq (hknown a ha) (hknown b hb) (hpoints a ha) (hpoints b hb)) hne
  exact hpairs.forall_of_forall fun _ _ _ => rfl

theorem Drawn.eq_of_order_eq (h : Drawn rules config codes applicants result entered p)
    (hnumbers : (applicants.map Applicant.number).Nodup)
    (hties : ∀ a ∈ Entry.applicants applicants config, ∀ b ∈ Entry.applicants applicants config,
      Ranking.order rules a b = .eq → a = b) :
    ∀ a ∈ result.applicants, ∀ b ∈ result.applicants, Ranking.order rules a b = .eq → a = b := by
  intro a ha b hb heq
  have hrows : (result.applicants.map Applicant.number).Nodup := by
    have hcleared := ((h.cleared_perm hnumbers).map Applicant.number).nodup_iff.2
      (hnumbers.sublist (eligible_numbers applicants config))
    rwa [List.map_map] at hcleared
  rw [← Ranking.order_clear] at heq
  have hclear := hties _ (h.row ha).1 _ (h.row hb).1 heq
  have hnumber : a.clear.number = b.clear.number := congrArg Applicant.number hclear
  exact List.inj_on_of_nodup_map hrows ha hb hnumber

theorem Drawn.codes_sorted (h : Drawn rules config codes applicants result entered p) :
    result.codes.Pairwise fun a b => Text.le a.code b.code := by
  have htrans : ∀ a b c : HuntCode, Text.le a.code b.code → Text.le b.code c.code → Text.le a.code c.code :=
    fun a b c => Text.le_trans a.code b.code c.code
  have htotal : ∀ a b : HuntCode, (Text.le a.code b.code || Text.le b.code a.code) = true :=
    fun a b => Text.le_total a.code b.code
  rw [h.rows]
  exact List.pairwise_mergeSort htrans htotal _

section Results

variable (h : Drawn rules config codes applicants result entered p)
  (h' : Drawn rules config codes' applicants' result' entered' p')
  (hr : Reordered rules entered entered' (Entry.applicants applicants config) (Entry.applicants applicants' config))
  (halike : Alike rules config entered entered' (Entry.applicants applicants config)
    (Entry.applicants applicants' config) k p p')

include h h' hr halike

theorem Alike.codes_eq (hcodes : (codes.map HuntCode.code).Nodup) (hperm : codes'.Perm codes) :
    result'.codes = result.codes := by
  have houtcome : outcome config p' = outcome config p := by
    funext c
    rw [outcome, outcome, Fields.get?_perm (halike.codes_perm hr) h.ready.nodup]
  have hrows : result'.codes.Perm result.codes := by
    rw [h.rows, h'.rows, houtcome]
    exact (List.mergeSort_perm _ _).trans ((hperm.map _).trans (List.mergeSort_perm _ _).symm)
  refine hrows.eq_of_pairwise (fun a b ha hb hab hba => ?_) h'.codes_sorted h.codes_sorted
  exact List.inj_on_of_nodup_map (h.codes_perm.nodup_iff.2 hcodes) (hrows.mem_iff.1 ha) hb
    (Text.le_antisymm hab hba)

theorem Alike.applicants_eq (hnumbers : (applicants.map Applicant.number).Nodup) :
    result'.applicants = result.applicants := by
  have hrows : (results (Entry.applicants applicants' config) p').Perm
      (results (Entry.applicants applicants config) p) :=
    halike.winners.append ((halike.pending_perm hr).map _)
  have hresult : ∀ a ∈ results (Entry.applicants applicants config) p, a ∈ result.applicants := fun a ha =>
    h.applicants_perm.mem_iff.2 ha
  have hrow : ∀ a ∈ result.applicants, a.residency.IsKnown ∧ a.points ≠ .nan := fun a ha =>
    ⟨(hr.known _ (h.row ha).1 : a.clear.residency.IsKnown), (hr.points _ (h.row ha).1 : a.clear.points ≠ .nan)⟩
  have hsame := Ranking.sort_of_perm hrows (fun a ha => (hrow a (hresult a ha)).1)
    (fun a ha => (hrow a (hresult a ha)).2)
    fun a ha b hb => h.eq_of_order_eq hnumbers hr.ties a (hresult a ha) b (hresult b hb)
  rw [h.ranked, h'.ranked] at hsame
  exact Except.ok.inj hsame

end Results

theorem eligible_perm (hperm : applicants'.Perm applicants) :
    (Entry.applicants applicants' config).Perm (Entry.applicants applicants config) :=
  (hperm.filter _).map _

theorem eligible_points (h : ∀ a ∈ applicants, a.points ≠ .nan) :
    ∀ a ∈ Entry.applicants applicants config, a.points ≠ .nan := by
  intro a ha
  obtain ⟨-, x, hx, rfl⟩ := mem_eligible ha
  exact h x hx

/-- A draw that returns, returns the same for its rows in another order. -/
theorem run_of_perm (hcodes : (codes.map HuntCode.code).Nodup) (hnumbers : (applicants.map Applicant.number).Nodup)
    (hknown : ∀ a ∈ applicants, a.residency.IsKnown) (hpoints : ∀ a ∈ applicants, a.points ≠ .nan)
    (hties : ∀ a ∈ Entry.applicants applicants config, ∀ b ∈ Entry.applicants applicants config,
      Ranking.order sort.rules a b = .eq → a = b)
    (hperm : codes'.Perm codes) (hrows : applicants'.Perm applicants)
    (h : run codes applicants (some sort) (some config) workers = .ok result) :
    ∃ result', run codes' applicants' (some sort) (some config) workers' = .ok result' ∧
      result'.codes = result.codes ∧ result'.applicants = result.applicants ∧ result'.used.Perm result.used := by
  obtain ⟨entered, p, hdrawn⟩ := run_drawn h
  obtain ⟨entered', hentered', hentries⟩ := enterCodes_perm hcodes hperm hdrawn.enters
  have hr : Reordered sort.rules entered entered' (Entry.applicants applicants config)
      (Entry.applicants applicants' config) :=
    ⟨enterCodes_ready hdrawn.enters, hentries, eligible_perm hrows,
      hnumbers.sublist (eligible_numbers applicants config), eligible_known hknown, eligible_points hpoints, hties⟩
  obtain ⟨result', hrun'⟩ : ∃ result', run codes' applicants' (some sort) (some config) workers' = .ok result' :=
    run_total (run_eq_ok.1 h).1 hentered' fun a ha => hknown a (hrows.mem_iff.1 ha)
  obtain ⟨entered'', p', hdrawn'⟩ := run_drawn hrun'
  obtain rfl : entered'' = entered' := Except.ok.inj (hdrawn'.enters.symm.trans hentered')
  obtain ⟨workers₁, hrounds⟩ := hdrawn.ran
  obtain ⟨workers₂, hrounds'⟩ := hdrawn'.ran
  obtain ⟨p'', hp'', halike⟩ : ∃ p'', rounds sort.rules config workers₂ (Entry.applicants applicants' config)
      entered'' = .ok p'' ∧ Alike sort.rules config entered entered'' (Entry.applicants applicants config)
        (Entry.applicants applicants' config) Applicant.rounds p p'' := rounds_alike hr hrounds
  obtain rfl : p'' = p' := Except.ok.inj (hp''.symm.trans hrounds')
  refine ⟨result', hrun', Alike.codes_eq hdrawn hdrawn' hr halike hcodes hperm,
    Alike.applicants_eq hdrawn hdrawn' hr halike hnumbers, ?_⟩
  rw [hdrawn.used, hdrawn'.used]
  exact hentries.map _

/-- Two draws over the same rows in different orders both fail, or return the same, when no two eligible
applicants compare equal. -/
theorem run_reorder (hcodes : (codes.map HuntCode.code).Nodup) (hnumbers : (applicants.map Applicant.number).Nodup)
    (hknown : ∀ a ∈ applicants, a.residency.IsKnown) (hpoints : ∀ a ∈ applicants, a.points ≠ .nan)
    (hties : (Entry.applicants applicants config).Pairwise fun a b =>
      ∃ sample, Ranking.compare sort.rules sample a b ≠ .ok .eq)
    (hperm : codes'.Perm codes) (hrows : applicants'.Perm applicants) :
    (∃ f f', run codes applicants (some sort) (some config) workers = .error f ∧
      run codes' applicants' (some sort) (some config) workers' = .error f') ∨
    ∃ result result', run codes applicants (some sort) (some config) workers = .ok result ∧
      run codes' applicants' (some sort) (some config) workers' = .ok result' ∧
      result'.codes = result.codes ∧ result'.applicants = result.applicants ∧ result'.used.Perm result.used := by
  have heq := eq_of_order_eq (eligible_known hknown) (eligible_points hpoints) hties
  cases h : run codes applicants (some sort) (some config) workers with
  | ok result =>
    obtain ⟨result', h', hsame⟩ := run_of_perm hcodes hnumbers hknown hpoints heq hperm hrows h
    exact Or.inr ⟨result, result', rfl, h', hsame⟩
  | error f =>
    cases h' : run codes' applicants' (some sort) (some config) workers' with
    | error f' => exact Or.inl ⟨f, f', rfl, rfl⟩
    | ok result' =>
      -- what returns for the one order returns for the other
      have hin : ∀ a ∈ Entry.applicants applicants' config, a ∈ Entry.applicants applicants config := fun a =>
        (eligible_perm hrows).mem_iff.1
      obtain ⟨result, hrun, -⟩ : ∃ result, run codes applicants (some sort) (some config) workers = .ok result ∧ _ :=
        run_of_perm ((hperm.map _).nodup_iff.2 hcodes) ((hrows.map _).nodup_iff.2 hnumbers)
          (fun a ha => hknown a (hrows.mem_iff.1 ha)) (fun a ha => hpoints a (hrows.mem_iff.1 ha))
          (fun a ha b hb => heq a (hin a ha) b (hin b hb)) hperm.symm hrows.symm h'
      simp [h] at hrun

def earlierCode : HuntCode := { code := "HC0", isValid := true, isInDraw := true, quota := some 1 }

theorem run_reorder_sample :
    let codes := [sampleCode, earlierCode]
    (codes.map HuntCode.code).Nodup ∧ (sampleApplicants.map Applicant.number).Nodup ∧
    (∀ a ∈ sampleApplicants, a.residency.IsKnown) ∧ (∀ a ∈ sampleApplicants, a.points ≠ .nan) ∧
    ((Entry.applicants sampleApplicants sampleConfig).Pairwise fun a b =>
      ∃ sample, Ranking.compare sampleSort.rules sample a b ≠ .ok .eq) ∧
    codes.reverse.Perm codes ∧ sampleApplicants.reverse.Perm sampleApplicants ∧
    ∃ result result', run codes sampleApplicants (some sampleSort) (some sampleConfig) 1 = .ok result ∧
      run codes.reverse sampleApplicants.reverse (some sampleSort) (some sampleConfig) 4 = .ok result' ∧
      result'.codes = result.codes ∧ result'.applicants = result.applicants ∧ result'.used.Perm result.used := by
  intro codes
  have hcodes : (codes.map HuntCode.code).Nodup := by decide
  have hnumbers : (sampleApplicants.map Applicant.number).Nodup := by decide
  have hknown : ∀ a ∈ sampleApplicants, a.residency.IsKnown := by decide +kernel
  have hpoints : ∀ a ∈ sampleApplicants, a.points ≠ .nan := by decide +kernel
  have huntied : (Entry.applicants sampleApplicants sampleConfig).Pairwise fun a b =>
      Ranking.compare sampleSort.rules a a b ≠ .ok .eq := by decide +kernel
  have hties := huntied.imp fun {a b} h => (⟨a, h⟩ : ∃ sample, Ranking.compare sampleSort.rules sample a b ≠ .ok .eq)
  have hperm := List.reverse_perm codes
  have hrows := List.reverse_perm sampleApplicants
  refine ⟨hcodes, hnumbers, hknown, hpoints, hties, hperm, hrows,
    (run_reorder hcodes hnumbers hknown hpoints hties hperm hrows).resolve_left ?_⟩
  rintro ⟨f, f', hf, -⟩
  have hok : (run codes sampleApplicants (some sampleSort) (some sampleConfig) 1).isOk := by decide +kernel
  rw [hf] at hok
  exact Bool.false_ne_true hok

end HuntDraw.Draw
