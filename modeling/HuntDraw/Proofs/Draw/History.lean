import HuntDraw.Proofs.Draw.Rounds

/-! The rounds of a draw. Between rounds every code is the one that entered with its winners counted, every
winner was placed ahead of whoever wanted the same code no later, and a code is closed to everybody who
asked for it in vain. -/

namespace HuntDraw.Draw

open Attempt

structure Ready (codes : Codes) : Prop where
  nodup : codes.keys.Nodup
  keyed : ∀ e ∈ codes, e.2.code = e.1
  balance : ∀ e ∈ codes, e.2.balance.isSome
  drawBalance : ∀ e ∈ codes, e.2.drawBalance.isSome

def holders (c : String) (rows : List Applicant) : List Applicant := rows.filter (·.codeAwarded = some c)

def settle (config : DrawConfig) (entered : Codes) (winners : List Applicant) : Codes :=
  entered.map fun e => (e.1, e.2.applyDelta (tally (holders e.1 winners)) config)

variable {rules : List SortRule} {config : DrawConfig} {workers : Int} {eligible : List Applicant}
  {entered codes : Codes} {p q : Progress} {k : Nat} {s : RoundSummary} {results : List BucketResult}

theorem holders_append (c : String) (xs ys : List Applicant) :
    holders c (xs ++ ys) = holders c xs ++ holders c ys :=
  List.filter_append ..

theorem keys_settle (winners : List Applicant) : (settle config entered winners).keys = entered.keys :=
  Fields.keys_map _

theorem Ready.settle (h : Ready entered) (winners : List Applicant) :
    Ready (settle config entered winners) where
  nodup := by
    rw [keys_settle]
    exact h.nodup
  keyed e he := by
    obtain ⟨d, hd, rfl⟩ := List.mem_map.1 he
    exact h.keyed d hd
  balance e he := by
    obtain ⟨d, -, rfl⟩ := List.mem_map.1 he
    rfl
  drawBalance e he := by
    obtain ⟨d, -, rfl⟩ := List.mem_map.1 he
    rfl

theorem Ready.settle_nil (h : Ready entered) : Draw.settle config entered [] = entered := by
  refine (List.map_congr_left fun e he => ?_).trans (List.map_id _)
  exact Prod.ext rfl (HuntCode.applyDelta_zero (h.balance e he) (h.drawBalance e he) config)

/-- Results whose rows are tallied in their deltas move a settled code on to the rows that they add. -/
theorem foldl_bill_settled {c : String} {h : HuntCode} {ws : List Applicant}
    (hresults : ∀ r ∈ results, (∀ w ∈ r.awarded, w.codeAwarded = some r.code) ∧
      r.delta.residents = (tally r.awarded).residents ∧
      r.delta.nonResidents = (tally r.awarded).nonResidents) :
    results.foldl (bill config c) (h.applyDelta (tally (holders c ws)) config) =
      h.applyDelta (tally (holders c (ws ++ results.flatMap (·.awarded)))) config := by
  induction results generalizing ws with
  | nil => simp
  | cons r results ih =>
    obtain ⟨hcode, hres, hnon⟩ := hresults r List.mem_cons_self
    have hbill : bill config c (h.applyDelta (tally (holders c ws)) config) r =
        h.applyDelta (tally (holders c (ws ++ r.awarded))) config := by
      rw [bill, holders_append]
      obtain ⟨happr, happn⟩ := tally_append (holders c ws) (holders c r.awarded)
      split_ifs with hc
      · have hall : holders c r.awarded = r.awarded :=
          List.filter_eq_self.2 fun w hw => decide_eq_true (hc ▸ hcode w hw)
        rw [HuntCode.applyDelta_applyDelta]
        rw [hall] at happr happn ⊢
        exact HuntCode.applyDelta_congr (by simp only [happr, hres]) (by simp only [happn, hnon]) h config
      · have hnone : holders c r.awarded = [] := by
          apply List.filter_eq_nil_iff.2
          intro w hw
          rw [hcode w hw]
          simpa using hc
        rw [hnone, List.append_nil]
    rw [List.foldl_cons, hbill, ih fun r hr => hresults r (List.mem_cons_of_mem _ hr), List.flatMap_cons,
      List.append_assoc]

/-- Whether an applicant's number was awarded in one of the rounds up to an ordinal. -/
def Progress.AwardedBy (p : Progress) (j : Nat) (a : Applicant) : Prop :=
  ∃ w ∈ p.winners, w.number = a.number ∧ ∃ i : Nat, w.ordinalAwarded = some (i : Int) ∧ i ≤ j

/-- How a row came to be awarded: whoever of the same residency asked for the code no later, without
an award by then, asked in the same round and was ranked behind. -/
structure Won (rules : List SortRule) (config : DrawConfig) (eligible : List Applicant)
    (keys : List String) (k : Nat) (p : Progress) (w b : Applicant) (c : String) (m : Nat) : Prop where
  source : b ∈ eligible
  row : w = b.award c m
  known : b.residency.IsKnown
  residentsOnly : config.has .reserved → b.residency = .resident
  ordinal : 1 ≤ m ∧ m ≤ k
  chosen : Bucket.place? keys m b = some c
  ahead : ∀ a ∈ eligible, a.isResident = b.isResident → ∀ j, 1 ≤ j → j ≤ m →
    Bucket.place? keys j a = some c → ¬p.AwardedBy j a →
    j = m ∧ ∃ xs ranked, xs.Sublist eligible ∧ Ranking.sort rules xs = .ok ranked ∧ [b, a].Sublist ranked

structure History (rules : List SortRule) (config : DrawConfig) (eligible : List Applicant)
    (entered : Codes) (k : Nat) (p : Progress) : Prop where
  codes : p.codes = settle config entered p.winners
  awarded : p.awarded = p.winners.map Applicant.number
  distinct : (eligible.map Applicant.number).Nodup → p.awarded.Nodup
  bounded : ∀ c e h, (c, e) ∈ entered → 0 ≤ e.drawBalance.getD 0 → (c, h) ∈ p.codes → 0 ≤ h.drawBalance.getD 0
  won : ∀ w ∈ p.winners, ∃ b c m, Won rules config eligible entered.keys k p w b c m
  lost : ∀ a ∈ eligible, ∀ j, 1 ≤ j → j ≤ k → ∀ c, Bucket.place? entered.keys j a = some c →
    ¬p.AwardedBy j a → ∃ h, (c, h) ∈ p.codes ∧ h.ClosedTo config a

theorem History.start (h : Ready entered) :
    History rules config eligible entered 0 { codes := entered } where
  codes := h.settle_nil.symm
  awarded := rfl
  distinct _ := List.nodup_nil
  bounded c e d he hdraw hd := Fields.eq_of_mem h.nodup he hd ▸ hdraw
  won := by simp
  lost a _ j hj hk := by omega

theorem History.ready (h : History rules config eligible entered k p) (hentered : Ready entered) :
    Ready p.codes :=
  h.codes ▸ hentered.settle _

theorem History.keys (h : History rules config eligible entered k p) : p.codes.keys = entered.keys := by
  rw [h.codes, keys_settle]

/-- A winner of a round carries the code and the ordinal of its bucket. -/
theorem Ran.awarded (hran : Ran rules config eligible p k results) (hready : Ready p.codes)
    {r : BucketResult} (hr : r ∈ results) : ∃ h ws, (r.code, h) ∈ p.codes ∧
      r.awarded = ws.map (·.award r.code k) ∧
      Bucket.Processed rules config p.awarded (standing eligible p k r.code) h r ws := by
  obtain ⟨h, ws, hmem, hproc⟩ := hran.processed r hr
  have hcode : h.code = r.code := hready.keyed _ hmem
  have hwinners : r.awarded = ws.map (·.award h.code k) := hproc.winners
  rw [hcode] at hwinners
  exact ⟨h, ws, hmem, hwinners, hproc⟩

/-- A row that is awarded in a round is that of a pending applicant who chose the code. -/
theorem Ran.source (hran : Ran rules config eligible p k results) (hready : Ready p.codes)
    {r : BucketResult} (hr : r ∈ results) {w : Applicant} (hw : w ∈ r.awarded) :
    ∃ b ∈ pending eligible p.awarded, Bucket.place? p.codes.keys k b = some r.code ∧ w = b.award r.code k := by
  obtain ⟨h, ws, -, hws, hproc⟩ := hran.awarded hready hr
  obtain ⟨b, hb, rfl⟩ := List.mem_map.1 (hws ▸ hw)
  obtain ⟨hpending, hplace⟩ := mem_standing.1 (hproc.subperm.subset hb)
  exact ⟨b, hpending, hplace, rfl⟩

theorem Ran.codes_settled (hran : Ran rules config eligible p k results) (hentered : Ready entered)
    (hp : p.codes = settle config entered p.winners) :
    (results.foldl (foldResult config) p).codes =
      settle config entered (results.foldl (foldResult config) p).winners := by
  have hready : Ready p.codes := hp ▸ hentered.settle _
  rw [foldl_foldResult_codes hready.nodup, (foldl_foldResult_winners _ _ results).1, hp, settle, List.map_map]
  refine List.map_congr_left fun e _ => Prod.ext rfl (foldl_bill_settled fun r hr => ?_)
  obtain ⟨h, ws, -, hproc⟩ := hran.processed r hr
  refine ⟨fun w hw => ?_, hproc.residents, hproc.nonResidents⟩
  obtain ⟨b, -, -, rfl⟩ := hran.source hready hr hw
  rfl

/-- The state of a code after a round: its own result counted, if it has one. -/
theorem Ran.mem_codes (hran : Ran rules config eligible p k results) (hp : p.codes.keys.Nodup)
    {c : String} {h : HuntCode} (hmem : (c, h) ∈ p.codes) :
    (∀ r ∈ results, r.code ≠ c) ∧ (c, h) ∈ (results.foldl (foldResult config) p).codes ∨
      ∃ r ∈ results, r.code = c ∧ (c, h.applyDelta r.delta config) ∈
        (results.foldl (foldResult config) p).codes := by
  rw [foldl_foldResult_codes hp]
  have hafter : (c, results.foldl (bill config c) h) ∈
      p.codes.map fun e => (e.1, results.foldl (bill config e.1) e.2) := List.mem_map.2 ⟨(c, h), hmem, rfl⟩
  by_cases hc : c ∈ results.map BucketResult.code
  · obtain ⟨r, hr, rfl⟩ := List.mem_map.1 hc
    rw [foldl_bill_of_mem h hran.nodup hr] at hafter
    exact Or.inr ⟨r, hr, rfl, hafter⟩
  · rw [foldl_bill_of_notMem h hc] at hafter
    exact Or.inl ⟨fun r hr heq => hc (heq ▸ List.mem_map_of_mem hr), hafter⟩

theorem Ran.keeps (hran : Ran rules config eligible p k results) (hp : p.codes.keys.Nodup)
    (P : HuntCode → Prop) {c : String} {h : HuntCode} (hmem : (c, h) ∈ p.codes) (hP : P h)
    (hkeep : ∀ b r ws, Bucket.Processed rules config p.awarded b h r ws → P (h.applyDelta r.delta config)) :
    ∃ h', (c, h') ∈ (results.foldl (foldResult config) p).codes ∧ P h' := by
  rcases hran.mem_codes hp hmem with ⟨-, hafter⟩ | ⟨r, hr, rfl, hafter⟩
  · exact ⟨h, hafter, hP⟩
  · obtain ⟨h', ws, hmem', hproc⟩ := hran.processed r hr
    obtain rfl : h' = h := Fields.eq_of_mem hp hmem' hmem
    exact ⟨_, hafter, hkeep _ r ws hproc⟩

theorem Ran.closed (hran : Ran rules config eligible p k results) (hp : p.codes.keys.Nodup)
    {c : String} {h : HuntCode} {a : Applicant} (hmem : (c, h) ∈ p.codes) (hclosed : h.ClosedTo config a) :
    ∃ h', (c, h') ∈ (results.foldl (foldResult config) p).codes ∧ h'.ClosedTo config a :=
  hran.keeps hp (HuntCode.ClosedTo config · a) hmem hclosed fun _ _ _ hproc => (hproc.closed a hclosed).1

theorem Progress.AwardedBy.mono {j : Nat} {a : Applicant} (hsub : ∀ w ∈ p.winners, w ∈ q.winners)
    (h : p.AwardedBy j a) : q.AwardedBy j a := by
  obtain ⟨w, hw, hnumber, i, hi, hij⟩ := h
  exact ⟨w, hsub w hw, hnumber, i, hi, hij⟩

theorem History.mem_pending (h : History rules config eligible entered k p) {a : Applicant} {j : Nat}
    (hj : k ≤ j) (ha : a ∈ eligible) (hnot : ¬p.AwardedBy j a) : a ∈ pending eligible p.awarded := by
  refine List.mem_filter.2 ⟨ha, decide_eq_true fun hmem => hnot ?_⟩
  rw [h.awarded] at hmem
  obtain ⟨w, hw, hnumber⟩ := List.mem_map.1 hmem
  obtain ⟨b, c, m, hwon⟩ := h.won w hw
  exact ⟨w, hw, hnumber, m, by rw [hwon.row]; rfl, hwon.ordinal.2.trans hj⟩

theorem Won.mono {w b : Applicant} {c : String} {m : Nat} (h : Won rules config eligible entered.keys k p w b c m)
    (hsub : ∀ w ∈ p.winners, w ∈ q.winners) : Won rules config eligible entered.keys (k + 1) q w b c m where
  source := h.source
  row := h.row
  known := h.known
  residentsOnly := h.residentsOnly
  ordinal := ⟨h.ordinal.1, h.ordinal.2.trans k.le_succ⟩
  chosen := h.chosen
  ahead a ha hab j hj hjm hc hnot := h.ahead a ha hab j hj hjm hc fun hp => hnot (hp.mono hsub)

/-- Whoever stands in a bucket and wins has an award by the ordinal of the round. -/
theorem awardedBy_of_mem {r : BucketResult} (hr : r ∈ results) {ws : List Applicant}
    (hws : r.awarded = ws.map (·.award r.code k)) {a : Applicant} (ha : a ∈ ws) :
    (results.foldl (foldResult config) p).AwardedBy k a := by
  refine ⟨a.award r.code k, ?_, rfl, k, rfl, le_rfl⟩
  rw [(foldl_foldResult_winners _ _ results).1]
  exact List.mem_append_right _ (List.mem_flatMap.2 ⟨r, hr, hws ▸ List.mem_map_of_mem ha⟩)

theorem History.round_won (h : History rules config eligible entered k p) (hentered : Ready entered)
    (hran : Ran rules config eligible p (k + 1) results) {r : BucketResult} (hr : r ∈ results)
    {w : Applicant} (hw : w ∈ r.awarded) :
    ∃ b, Won rules config eligible entered.keys (k + 1) (results.foldl (foldResult config) p) w b r.code (k + 1) := by
  have hready := h.ready hentered
  have hsub : ∀ w ∈ p.winners, w ∈ (results.foldl (foldResult config) p).winners := by
    rw [(foldl_foldResult_winners _ _ results).1]
    exact fun w hw => List.mem_append_left _ hw
  obtain ⟨d, ws, hmem, hws, hproc⟩ := hran.awarded hready hr
  obtain ⟨b, hb, rfl⟩ := List.mem_map.1 (hws ▸ hw)
  obtain ⟨hpending, hplace⟩ := mem_standing.1 (hproc.subperm.subset hb)
  rw [h.keys] at hplace
  refine ⟨b, (List.mem_filter.1 hpending).1, rfl, hproc.known b hb, ?_, ⟨by omega, le_rfl⟩, hplace, ?_⟩
  · intro hreserved
    exact hproc.residentsOnly hreserved b hb
  intro a ha hab j hj hjm hc hnot
  have hbefore : ¬p.AwardedBy j a := fun hp => hnot (hp.mono hsub)
  rcases Nat.lt_or_eq_of_le hjm with hlt | rfl
  · -- the code was closed to `a` before the round, and so to `b`
    obtain ⟨d', hmem', hclosed⟩ := h.lost a ha j hj (by omega) r.code hc hbefore
    rw [Fields.eq_of_mem hready.nodup hmem' hmem] at hclosed
    exact absurd hab.symm ((hproc.closed a hclosed).2 b hb)
  · have hstill : a ∈ pending eligible p.awarded := h.mem_pending (Nat.le_succ k) ha hbefore
    have hin : a ∈ (standing eligible p (k + 1) r.code).applicants := mem_standing.2 ⟨hstill, h.keys ▸ hc⟩
    have hlost : a ∉ ws := fun hwon => hnot (awardedBy_of_mem hr hws hwon)
    have hnew : a.number ∉ p.awarded := of_decide_eq_true (List.mem_filter.1 hstill).2
    obtain ⟨ranked, hsort, hahead⟩ := hproc.ahead a hin hnew hlost b hb hab.symm
    exact ⟨rfl, _, ranked, List.filter_sublist.trans List.filter_sublist, hsort, hahead⟩

theorem History.round_lost (h : History rules config eligible entered k p) (hentered : Ready entered)
    (hran : Ran rules config eligible p (k + 1) results) {a : Applicant} (ha : a ∈ eligible) {c : String}
    (hc : Bucket.place? entered.keys (k + 1) a = some c)
    (hnot : ¬(results.foldl (foldResult config) p).AwardedBy (k + 1) a) :
    ∃ d, (c, d) ∈ (results.foldl (foldResult config) p).codes ∧ d.ClosedTo config a := by
  have hready := h.ready hentered
  have hbefore : ¬p.AwardedBy (k + 1) a := fun hp => hnot <| hp.mono <| by
    rw [(foldl_foldResult_winners _ _ results).1]
    exact fun w hw => List.mem_append_left _ hw
  have hstill : a ∈ pending eligible p.awarded := h.mem_pending (Nat.le_succ k) ha hbefore
  obtain ⟨r, hr, rfl⟩ := hran.named a hstill c (h.keys ▸ hc)
  obtain ⟨d, ws, hmem, hws, hproc⟩ := hran.awarded hready hr
  have hnew : a.number ∉ p.awarded := of_decide_eq_true (List.mem_filter.1 hstill).2
  have hlost := hproc.lost a (mem_standing.2 ⟨hstill, h.keys ▸ hc⟩) hnew
    fun hwon => hnot (awardedBy_of_mem hr hws hwon)
  rcases hran.mem_codes hready.nodup hmem with ⟨hnone, -⟩ | ⟨r', hr', heq, hafter⟩
  · exact absurd rfl (hnone r hr)
  · rw [List.inj_on_of_nodup_map hran.nodup hr' hr heq] at hafter
    exact ⟨_, hafter, hlost⟩

theorem Ran.distinct (hran : Ran rules config eligible p k results) (hready : Ready p.codes)
    (heligible : (eligible.map Applicant.number).Nodup) :
    ((results.flatMap (·.awarded)).map Applicant.number).Nodup := by
  have hplaced : ∀ r ∈ results, ∀ n ∈ r.awarded.map Applicant.number,
      ∃ a ∈ eligible, a.number = n ∧ Bucket.place? p.codes.keys k a = some r.code := by
    intro r hr n hn
    obtain ⟨w, hw, rfl⟩ := List.mem_map.1 hn
    obtain ⟨b, hb, hplace, rfl⟩ := hran.source hready hr hw
    exact ⟨b, List.mem_of_mem_filter hb, rfl, hplace⟩
  rw [List.map_flatMap, List.nodup_flatMap]
  refine ⟨?_, (List.pairwise_map.1 hran.nodup).imp_of_mem ?_⟩
  · intro r hr
    obtain ⟨d, ws, -, hws, hproc⟩ := hran.awarded hready hr
    have hnumbers : r.awarded.map Applicant.number = ws.map Applicant.number := by
      rw [hws, List.map_map]
      rfl
    obtain ⟨ys, hys, hsub⟩ := hproc.subperm
    rw [hnumbers, ← (hys.map _).nodup_iff]
    exact heligible.sublist ((hsub.trans (List.filter_sublist.trans List.filter_sublist)).map _)
  · intro r r' hr hr' hne n hn hn'
    obtain ⟨a, ha, rfl, hplace⟩ := hplaced _ hr n hn
    obtain ⟨a', ha', hnumber, hplace'⟩ := hplaced _ hr' _ hn'
    rw [List.inj_on_of_nodup_map heligible ha' ha hnumber, hplace] at hplace'
    exact hne (Option.some.inj hplace')

theorem Ran.bounded (hran : Ran rules config eligible p k results) (hready : Ready p.codes) {c : String}
    {d d' : HuntCode} (hd : (c, d) ∈ p.codes) (hdraw : 0 ≤ d.drawBalance.getD 0)
    (hd' : (c, d') ∈ (results.foldl (foldResult config) p).codes) : 0 ≤ d'.drawBalance.getD 0 := by
  have hnodup : (results.foldl (foldResult config) p).codes.keys.Nodup := by
    rw [foldl_foldResult_keys hready.nodup]
    exact hready.nodup
  obtain ⟨d'', hmem, hbound⟩ := hran.keeps hready.nodup (fun d => 0 ≤ d.drawBalance.getD 0) hd hdraw
    fun _ _ _ hproc => Int.sub_nonneg_of_le (hproc.bounded hdraw)
  exact Fields.eq_of_mem hnodup hmem hd' ▸ hbound

theorem Ran.new (hran : Ran rules config eligible p k results) (hready : Ready p.codes) {n : Int}
    (hn : n ∈ (results.flatMap (·.awarded)).map Applicant.number) : n ∉ p.awarded := by
  obtain ⟨w, hw, rfl⟩ := List.mem_map.1 hn
  obtain ⟨r, hr, hw⟩ := List.mem_flatMap.1 hw
  obtain ⟨b, hb, -, rfl⟩ := hran.source hready hr hw
  exact of_decide_eq_true (List.mem_filter.1 hb).2

theorem History.round (h : History rules config eligible entered k p) (hentered : Ready entered)
    (hround : Draw.round rules config workers eligible p (k + 1) = .ok (q, s)) :
    History rules config eligible entered (k + 1) q := by
  have hready := h.ready hentered
  obtain ⟨results, hran, rfl⟩ := round_ran (by omega) hready.nodup hround
  obtain ⟨hwinners, hawarded⟩ := foldl_foldResult_winners config p results
  refine ⟨hran.codes_settled hentered h.codes, ?_, ?_, ?_, ?_, ?_⟩
  · rw [hawarded, hwinners, List.map_append, h.awarded]
  · intro heligible
    rw [hawarded]
    exact (h.distinct heligible).append (hran.distinct hready heligible)
      fun n hn hn' => hran.new hready hn' hn
  · intro c e d he hdraw hd
    have hkeys : c ∈ p.codes.keys := h.keys ▸ Fields.mem_keys.2 ⟨e, he⟩
    obtain ⟨d', hd'⟩ := Fields.mem_keys.1 hkeys
    exact hran.bounded hready hd' (h.bounded c e d' he hdraw hd') hd
  · intro w hw
    rw [hwinners, List.mem_append, List.mem_flatMap] at hw
    rcases hw with hw | ⟨r, hr, hw⟩
    · obtain ⟨b, c, m, hwon⟩ := h.won w hw
      exact ⟨b, c, m, hwon.mono fun w hw => hwinners ▸ List.mem_append_left _ hw⟩
    · obtain ⟨b, hwon⟩ := h.round_won hentered hran hr hw
      exact ⟨b, r.code, k + 1, hwon⟩
  · intro a ha j hj hjk c hc hnot
    rcases Nat.lt_or_eq_of_le hjk with hlt | rfl
    · obtain ⟨d, hmem, hclosed⟩ := h.lost a ha j hj (by omega) c hc fun hp =>
        hnot (hp.mono fun w hw => hwinners ▸ List.mem_append_left _ hw)
      exact hran.closed hready.nodup hmem hclosed
    · exact h.round_lost hentered hran ha hc hnot

theorem History.residents (h : History rules config eligible entered k p) (hreserved : config.has .reserved)
    {w : Applicant} (hw : w ∈ p.winners) : w.residency = .resident := by
  obtain ⟨b, c, m, hwon⟩ := h.won w hw
  rw [hwon.row]
  exact hwon.residentsOnly hreserved

theorem History.no_nonResidents (h : History rules config eligible entered k p)
    (hreserved : config.has .reserved) (c : String) : (tally (holders c p.winners)).nonResidents = 0 := by
  simp only [tally, Nat.cast_eq_zero, List.countP_eq_zero, decide_eq_true_eq]
  intro w hw
  simp [h.residents hreserved (List.mem_of_mem_filter hw)]

theorem rounds_induction (P : Nat → Progress → Prop)
    (hstep : ∀ k p q s, round rules config workers eligible p (k + 1) = .ok (q, s) → P k p → P (k + 1) q)
    (hstart : P 0 { codes }) (h : rounds rules config workers eligible codes = .ok p) :
    P Applicant.rounds p := by
  have hrun : ∀ n k p q, (List.range' (k + 1) n).foldlM
      (fun p k => (·.1) <$> round rules config workers eligible p k) p = .ok q → P k p → P (k + n) q := by
    intro n
    induction n with
    | zero =>
      intro k p q hrun hp
      rw [List.range'_zero, List.foldlM_nil, pure_eq_ok] at hrun
      exact hrun ▸ hp
    | succ n ih =>
      intro k p q hrun hp
      rw [List.range'_succ, List.foldlM_cons, bind_eq_ok] at hrun
      obtain ⟨p', hfirst, hrest⟩ := hrun
      obtain ⟨⟨p', s⟩, hround, rfl⟩ := map_eq_ok.1 hfirst
      have hall := ih (k + 1) p' q hrest (hstep k p p' s hround hp)
      rwa [Nat.add_right_comm] at hall
  simpa using hrun Applicant.rounds 0 _ p h hstart

theorem rounds_history (hentered : Ready entered)
    (h : rounds rules config workers eligible entered = .ok p) :
    History rules config eligible entered Applicant.rounds p :=
  rounds_induction _ (fun _ _ _ _ hround hp => hp.round hentered hround) (History.start hentered) h

/-- What counting the results of each round keeps holds after all of them. -/
theorem rounds_invariant (P : Progress → Prop) (hentered : Ready entered) (hstart : P { codes := entered })
    (hstep : ∀ k p results, History rules config eligible entered k p →
      Ran rules config eligible p (k + 1) results → P p → P (results.foldl (foldResult config) p))
    (h : rounds rules config workers eligible entered = .ok p) : P p := by
  have hall := rounds_induction (fun k p => History rules config eligible entered k p ∧ P p)
    (fun k p q s hround hp => ?_) ⟨History.start hentered, hstart⟩ h
  · exact hall.2
  · refine ⟨hp.1.round hentered hround, ?_⟩
    obtain ⟨results, hran, rfl⟩ := round_ran (by omega) (hp.1.ready hentered).nodup hround
    exact hstep k p results hp.1 hran hp.2

/-- What processing a bucket keeps of every code, the rounds keep of the codes that entered. -/
theorem rounds_keep (P : HuntCode → Prop) (hentered : Ready entered) (hP : ∀ e ∈ entered, P e.2)
    (hkeep : ∀ awarded b d r ws, Bucket.Processed rules config awarded b d r ws → P d →
      P (d.applyDelta r.delta config))
    (h : rounds rules config workers eligible entered = .ok p) : ∀ e ∈ p.codes, P e.2 := by
  refine rounds_invariant (fun p => ∀ e ∈ p.codes, P e.2) hentered hP (fun k p results hp hran hcodes => ?_) h
  intro e he
  have hnodup := (hp.ready hentered).nodup
  have hkeys : (results.foldl (foldResult config) p).codes.keys = p.codes.keys := foldl_foldResult_keys hnodup results
  have hkey : e.1 ∈ p.codes.keys := hkeys ▸ Fields.mem_keys.2 ⟨e.2, he⟩
  obtain ⟨d, hd⟩ := Fields.mem_keys.1 hkey
  obtain ⟨d', hd', hPd'⟩ := hran.keeps hnodup P hd (hcodes _ hd)
    fun b r ws hproc => hkeep _ b d r ws hproc (hcodes _ hd)
  exact Fields.eq_of_mem (hkeys ▸ hnodup) he hd' ▸ hPd'

end HuntDraw.Draw
