import HuntDraw.Proofs.Draw.Ledger
import HuntDraw.Proofs.Text.Order
import Mathlib.Algebra.BigOperators.Group.Finset.Basic
import Mathlib.Algebra.Order.BigOperators.Group.Finset

/-! Rows of one code. A draw keeps its codes under their texts, so that all rows of a text come back in the state that
its last row was drawn to, whether they took part or not. -/

namespace HuntDraw

open Std Attempt

/-- A merge sort leaves elements that compare equal in their order. -/
theorem RunSort.mergeSort_arranged {α : Type} {cmp : α → α → Ordering} [TransCmp cmp] (xs : List α) :
    Arranged cmp xs (xs.mergeSort fun a b => (cmp a b).isLE) := by
  have htrans : ∀ a b c, (cmp a b).isLE = true → (cmp b c).isLE = true → (cmp a c).isLE = true :=
    fun _ _ _ => TransCmp.isLE_trans
  have htotal : ∀ a b, ((cmp a b).isLE || (cmp b a).isLE) = true := by
    intro a b
    have hswap : cmp b a = (cmp a b).swap := OrientedCmp.eq_swap
    rw [hswap]
    cases cmp a b <;> rfl
  have hperm := List.mergeSort_perm xs fun a b => (cmp a b).isLE
  refine ⟨hperm, List.pairwise_mergeSort htrans htotal xs, fun a => ?_⟩
  have hequal : (xs.filter (cmp a · == .eq)).Pairwise fun b c => (cmp b c).isLE = true := by
    refine List.pairwise_of_forall_mem_list fun b hb c hc => ?_
    have hab : cmp a b = .eq := beq_iff_eq.1 (List.mem_filter.1 hb).2
    have hac : cmp a c = .eq := beq_iff_eq.1 (List.mem_filter.1 hc).2
    rw [TransCmp.congr_left (OrientedCmp.eq_symm hab), hac]
    rfl
  have hsub := (List.sublist_mergeSort htrans htotal hequal List.filter_sublist).filter (cmp a · == .eq)
  rw [List.filter_filter] at hsub
  simp only [Bool.and_self] at hsub
  exact (hsub.eq_of_length (hperm.filter _).length_eq.symm).symm

def HuntCode.order (c d : HuntCode) : Ordering := Text.order c.code d.code

instance : TransCmp HuntCode.order where
  eq_swap {c d} := @OrientedCmp.eq_swap _ Text.order _ c.code d.code
  isLE_trans {c d e} := @TransCmp.isLE_trans _ Text.order _ c.code d.code e.code

namespace Draw

variable {rules : List SortRule} {config : DrawConfig} {workers : Int} {applicants rows : List Applicant}
  {codes : List HuntCode} {entered : Codes} {p : Progress} {sort : DrawSort} {result : DrawResult}
  {c d : HuntCode}

def byCode (codes : List HuntCode) : List HuntCode := codes.mergeSort fun c d => Text.le c.code d.code

theorem byCode_arranged (codes : List HuntCode) : RunSort.Arranged HuntCode.order codes (byCode codes) :=
  RunSort.mergeSort_arranged codes

theorem takesPart_finish : (finish config c).takesPart config = c.takesPart config := by
  rw [finish_frame]
  rfl

theorem Entrant.takesPart (h : Entrant config c d) : d.takesPart config := by
  have hpart := h.part
  rw [h.sized.frame, h.sized.reserved]
  exact hpart

/-- The rows that are returned are those that were given, in the order of their codes. -/
theorem Drawn.codes_eq (h : Drawn rules config codes applicants result entered p) :
    result.codes = (byCode codes).map (outcome config p) := by
  rw [h.rows, byCode, List.map_mergeSort]
  intro c _ d _
  rw [h.outcome_code, h.outcome_code]

theorem Drawn.zip_codes (h : Drawn rules config codes applicants result entered p) :
    (byCode codes).zip result.codes = (byCode codes).map fun c => (c, outcome config p c) := by
  have hzip := List.zip_map' (f := id) (g := outcome config p) (l := byCode codes)
  rwa [List.map_id, ← h.codes_eq] at hzip

/-- The code of a row that took part is in the draw, drawn from some row. -/
theorem Drawn.exists_entrant (h : Drawn rules config codes applicants result entered p) (hc : c ∈ codes)
    (hpart : c.takesPart config) : ∃ c' e, (c.code, e) ∈ entered ∧ Entrant config c' e := by
  obtain ⟨e, he⟩ := Fields.mem_keys.1 (keys_entered h.enters hc hpart)
  obtain ⟨c', -, -, hentrant⟩ := mem_entered h.enters he
  exact ⟨c', e, he, hentrant⟩

/-- A row of a code that was drawn comes back as one that takes part, and with the awards of its code. -/
theorem Drawn.outcome_drawn (h : Drawn rules config codes applicants result entered p) (hc : c ∈ codes)
    (hpart : c.takesPart config) (hcode : d.code = c.code) : (outcome config p d).takesPart config ∧
      (outcome config p d).drawAwarded = (result.awards c.code).length := by
  obtain ⟨c', e, he, hentrant⟩ := h.exists_entrant hc hpart
  have hlast : (d.code, e.applyDelta (tally (result.awards c.code)) config) ∈ p.codes := by
    rw [hcode]
    exact h.mem_last he
  rw [h.outcome_of_mem hlast]
  refine ⟨takesPart_finish.trans hentrant.takesPart, ?_⟩
  have hknown : ∀ a ∈ result.awards c.code, a.residency.IsKnown := by
    intro a ha
    obtain ⟨b, u, m, hwon⟩ := h.history.won a (List.mem_of_mem_filter ((h.awards_perm _).mem_iff.1 ha))
    rw [hwon.row]
    exact hwon.known
  rw [finish_frame, length_eq_tally hknown]
  simp only [HuntCode.applyDelta, hentrant.counters.1, Delta.total, Int.zero_add]

/-- A row that did not take part comes back as it was unless a row of its code did. -/
theorem Drawn.outcome_eq_iff (h : Drawn rules config codes applicants result entered p)
    (hd : ¬d.takesPart config) :
    outcome config p d = d ↔ ∀ c ∈ codes, c.takesPart config → c.code ≠ d.code := by
  constructor
  · intro hkept c hc hpart hcode
    exact hd (hkept ▸ (h.outcome_drawn hc hpart hcode.symm).1)
  · intro hnone
    refine h.outcome_of_notMem fun hmem => ?_
    obtain ⟨e, he⟩ := Fields.mem_keys.1 hmem
    obtain ⟨c, hc, hcode, hentrant⟩ := mem_entered h.enters he
    exact hnone c hc hentrant.part hcode

def drawnTexts (config : DrawConfig) (codes : List HuntCode) : List String :=
  (codes.filter (·.takesPart config)).map HuntCode.code

theorem mem_drawnTexts {u : String} :
    u ∈ drawnTexts config codes ↔ ∃ c ∈ codes, c.takesPart config ∧ c.code = u := by
  simp [drawnTexts, and_assoc]

/-- A text that took part stands on one row only if it is that row's alone. -/
theorem count_drawnTexts_eq_one (hc : c ∈ codes) (hpart : c.takesPart config) :
    (drawnTexts config codes).count c.code = 1 ↔
      codes.filter (fun d => d.takesPart config ∧ d.code = c.code) = [c] := by
  have hcount : (drawnTexts config codes).count c.code =
      (codes.filter fun d => d.takesPart config ∧ d.code = c.code).length := by
    rw [drawnTexts, List.count_eq_length_filter, List.filter_map, List.length_map, List.filter_filter]
    refine congrArg List.length (List.filter_congr fun d _ => ?_)
    rw [Function.comp_apply, Bool.and_comm, Bool.decide_and, Bool.decide_eq_true, beq_eq_decide]
  have hmem : c ∈ codes.filter fun d => d.takesPart config ∧ d.code = c.code :=
    List.mem_filter.2 ⟨hc, by simp [hpart]⟩
  rw [hcount, List.length_eq_one_iff]
  constructor
  · rintro ⟨d, hd⟩
    rw [hd] at hmem ⊢
    rw [List.mem_singleton.1 hmem]
  · exact fun halone => ⟨c, halone⟩

/-- Rows that hold codes out of some are as many as hold each of these. -/
theorem length_eq_sum_holders {texts : Finset String} (h : ∀ a ∈ rows, ∃ u ∈ texts, a.codeAwarded = some u) :
    rows.length = ∑ u ∈ texts, (holders u rows).length := by
  induction rows with
  | nil => simp [holders]
  | cons a rows ih =>
    obtain ⟨u, hu, hcode⟩ := h a List.mem_cons_self
    have hcons : ∀ v, (holders v (a :: rows)).length = (holders v rows).length + if u = v then 1 else 0 := by
      intro v
      by_cases huv : u = v <;> simp [holders, hcode, huv]
    simp only [hcons, Finset.sum_add_distrib, Finset.sum_ite_eq, hu, if_true, List.length_cons,
      ih fun a ha => h a (List.mem_cons_of_mem _ ha)]

theorem Drawn.exists_text (h : Drawn rules config codes applicants result entered p) {a : Applicant}
    (ha : a ∈ p.winners) : ∃ u ∈ (drawnTexts config codes).toFinset, a.codeAwarded = some u := by
  obtain ⟨b, u, m, hwon⟩ := h.history.won a ha
  obtain ⟨e, he⟩ := Fields.mem_keys.1 (Bucket.place?_eq_some.1 hwon.chosen).2.2
  obtain ⟨c, hc, hcode, hentrant⟩ := mem_entered h.enters he
  exact ⟨u, List.mem_toFinset.2 (mem_drawnTexts.2 ⟨c, hc, hentrant.part, hcode⟩), by rw [hwon.row]; rfl⟩

theorem Drawn.awarded_length (h : Drawn rules config codes applicants result entered p) :
    result.awarded.length = ∑ u ∈ (drawnTexts config codes).toFinset, (result.awards u).length := by
  rw [h.awarded_perm.length_eq, length_eq_sum_holders fun _ => h.exists_text]
  exact Finset.sum_congr rfl fun u _ => (h.awards_perm u).length_eq.symm

/-- The awards that the rows that took part come back with: those of a code for each of its rows. -/
theorem Drawn.sum_drawAwarded (h : Drawn rules config codes applicants result entered p) :
    ((((byCode codes).zip result.codes).filter (·.1.takesPart config)).map (·.2.drawAwarded)).sum =
      ((∑ u ∈ (drawnTexts config codes).toFinset,
        (drawnTexts config codes).count u * (result.awards u).length : Nat) : Int) := by
  have hperm := ((byCode_arranged codes).perm.filter (·.takesPart config)).map fun c => (outcome config p c).drawAwarded
  calc ((((byCode codes).zip result.codes).filter (·.1.takesPart config)).map (·.2.drawAwarded)).sum
      = (((byCode codes).filter (·.takesPart config)).map fun c => (outcome config p c).drawAwarded).sum := by
        rw [h.zip_codes, List.filter_map, List.map_map]
        rfl
    _ = ((codes.filter (·.takesPart config)).map fun c => (outcome config p c).drawAwarded).sum := hperm.sum_eq
    _ = ((codes.filter (·.takesPart config)).map fun c => ((result.awards c.code).length : Int)).sum := by
        refine congrArg List.sum (List.map_congr_left fun c hc => ?_)
        obtain ⟨hmem, hpart⟩ := List.mem_filter.1 hc
        exact (h.outcome_drawn hmem hpart rfl).2
    _ = (((drawnTexts config codes).map fun u => (result.awards u).length).sum : Nat) := by
        rw [drawnTexts, List.map_map, Nat.cast_list_sum, List.map_map]
        rfl
    _ = _ := by
        rw [Finset.sum_list_map_count]
        rfl

/-- Each award is counted once exactly if the codes with awards stand on one row each. -/
theorem Drawn.sum_drawAwarded_iff (h : Drawn rules config codes applicants result entered p) :
    ((((byCode codes).zip result.codes).filter (·.1.takesPart config)).map (·.2.drawAwarded)).sum =
        result.awarded.length ↔
      ∀ c ∈ codes, c.takesPart config → result.awards c.code ≠ [] →
        codes.filter (fun d => d.takesPart config ∧ d.code = c.code) = [c] := by
  have hle : ∀ u ∈ (drawnTexts config codes).toFinset, (result.awards u).length ≤
      (drawnTexts config codes).count u * (result.awards u).length := fun u hu =>
    Nat.le_mul_of_pos_left _ (List.count_pos_iff.2 (List.mem_toFinset.1 hu))
  rw [h.sum_drawAwarded, h.awarded_length, Nat.cast_inj, eq_comm, Finset.sum_eq_sum_iff_of_le hle]
  constructor
  · intro hall c hc hpart hawards
    have hpos : 0 < (result.awards c.code).length := List.length_pos_iff.2 hawards
    have honce := hall c.code (List.mem_toFinset.2 (mem_drawnTexts.2 ⟨c, hc, hpart, rfl⟩))
    exact (count_drawnTexts_eq_one hc hpart).1 ((Nat.eq_of_mul_eq_mul_right hpos (by rw [one_mul]; exact honce)).symm)
  · intro hall u hu
    obtain ⟨c, hc, hpart, rfl⟩ := mem_drawnTexts.1 (List.mem_toFinset.1 hu)
    by_cases hawards : result.awards c.code = []
    · rw [hawards, List.length_nil, Nat.mul_zero]
    · rw [(count_drawnTexts_eq_one hc hpart).2 (hall c hc hpart hawards), one_mul]

/-- What a draw that returns makes of the rows. There is one for each that was given, in the order of the codes and,
within a code, as given. A row that did not take part comes back as it was exactly if no row of its code took part,
and the rows that did count each award once exactly if the codes with awards stand on one of them each. -/
theorem run_keeps_rows_iff (h : run codes applicants (some sort) (some config) workers = .ok result) :
    RunSort.Arranged HuntCode.order codes (byCode codes) ∧
    List.Forall₂ (fun c d => d.code = c.code) (byCode codes) result.codes ∧
    (∀ q ∈ (byCode codes).zip result.codes, ¬q.1.takesPart config →
      (q.2 = q.1 ↔ ∀ c ∈ codes, c.takesPart config → c.code ≠ q.1.code)) ∧
    (((((byCode codes).zip result.codes).filter (·.1.takesPart config)).map (·.2.drawAwarded)).sum =
        result.awarded.length ↔
      ∀ c ∈ codes, c.takesPart config → result.awards c.code ≠ [] →
        codes.filter (fun d => d.takesPart config ∧ d.code = c.code) = [c]) := by
  obtain ⟨entered, p, hdrawn⟩ := run_drawn h
  refine ⟨byCode_arranged codes, ?_, ?_, hdrawn.sum_drawAwarded_iff⟩
  · rw [hdrawn.codes_eq, List.forall₂_map_right_iff]
    exact List.forall₂_same.2 fun c _ => hdrawn.outcome_code c
  · intro q hq hidle
    rw [hdrawn.zip_codes] at hq
    obtain ⟨c, -, rfl⟩ := List.mem_map.1 hq
    exact hdrawn.outcome_eq_iff hidle

/-- A code on two rows, the second of which is not valid. -/
def sharedCodes : List HuntCode :=
  [{ code := "HC1", isValid := true, isInDraw := true, quota := some 1 },
   { code := "HC1", isValid := false, isInDraw := true }]

def sharedEntered : HuntCode :=
  { code := "HC1", isValid := true, isInDraw := true, quota := some 1, drawQuota := some 1, previousBalance := some 1,
    balance := some 1, drawBalance := some 1 }

def sharedDrawn : HuntCode :=
  { sharedEntered with
    balance := some 0
    drawBalance := some 0
    awarded := 1
    drawAwarded := 1
    resident := ⟨1, 1⟩ }

def sharedResult : DrawResult where
  codes := [sharedDrawn, sharedDrawn]
  applicants := [(sampleApplicant 1 .resident 1 ["HC1"]).award "HC1" 1]
  used := ["HC1"]

theorem run_shared : run sharedCodes [sampleApplicant 1 .resident 1 ["HC1"]] (some sampleSort) (some sampleConfig) 1 =
    .ok sharedResult := by
  have hentered : enterCodes sharedCodes sampleConfig = .ok [("HC1", sharedEntered)] := by decide +kernel
  have hrounds : rounds sampleSort.rules sampleConfig 1
      (Entry.applicants [sampleApplicant 1 .resident 1 ["HC1"]] sampleConfig) [("HC1", sharedEntered)] =
        .ok ⟨[("HC1", sharedDrawn)], [1], sharedResult.applicants⟩ := by decide +kernel
  have hmerge : merge sharedCodes [sharedDrawn] = sharedResult.codes := by
    rw [merge, List.mergeSort_of_pairwise (by decide +kernel)]
    decide
  refine run_eq_ok.2 ⟨by decide, _, _, sharedResult.applicants, [sharedDrawn], hentered, hrounds, by decide +kernel,
    by decide, ?_⟩
  rw [hmerge]
  rfl

theorem byCode_shared : byCode sharedCodes = sharedCodes := List.mergeSort_of_pairwise (by decide +kernel)

/-- The award is counted on the row that took part, and the other row is not left alone. -/
theorem run_keeps_rows_iff_shared :
    run sharedCodes [sampleApplicant 1 .resident 1 ["HC1"]] (some sampleSort) (some sampleConfig) 1 =
      .ok sharedResult ∧
    ((((byCode sharedCodes).zip sharedResult.codes).filter (·.1.takesPart sampleConfig)).map (·.2.drawAwarded)).sum =
      sharedResult.awarded.length ∧
    ∃ q ∈ (byCode sharedCodes).zip sharedResult.codes, ¬q.1.takesPart sampleConfig ∧ q.2 ≠ q.1 := by
  obtain ⟨-, -, hkept, hcounted⟩ := run_keeps_rows_iff run_shared
  refine ⟨run_shared, hcounted.2 (by decide), ?_⟩
  rw [byCode_shared] at hkept ⊢
  refine ⟨_, List.mem_cons_of_mem _ List.mem_cons_self, by decide, fun heq => ?_⟩
  exact absurd ((hkept _ (List.mem_cons_of_mem _ List.mem_cons_self) (by decide)).1 heq) (by decide)

/-- Nobody looks whether it was the row itself that took part. -/
theorem not_run_keeps_rows : ¬∀ (codes : List HuntCode) (applicants : List Applicant) (sort : DrawSort)
    (config : DrawConfig) (workers : Int) (result : DrawResult), Ranking.validate sort.rules = .ok () →
    run codes applicants (some sort) (some config) workers = .ok result →
    RunSort.Arranged HuntCode.order codes (byCode codes) ∧
    List.Forall₂ (fun c d => d.code = c.code) (byCode codes) result.codes ∧
    (∀ q ∈ (byCode codes).zip result.codes, ¬q.1.takesPart config → q.2 = q.1) ∧
    ((((byCode codes).zip result.codes).filter (·.1.takesPart config)).map (·.2.drawAwarded)).sum =
      result.awarded.length := by
  intro hall
  obtain ⟨-, -, hkept, -⟩ := hall sharedCodes _ sampleSort sampleConfig 1 sharedResult (by decide) run_shared
  rw [byCode_shared] at hkept
  exact absurd hkept (by decide)

end Draw
end HuntDraw
