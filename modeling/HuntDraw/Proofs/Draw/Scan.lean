import HuntDraw.Draw.Bucket
import HuntDraw.Proofs.Data.Attempt
import HuntDraw.Proofs.Draw.Ranking

/-! Going through a ranked bucket. A pool that is closed to an applicant stays closed, so nobody of
the same residency wins behind an applicant who was turned away, and the balances always tell who
has won. -/

namespace HuntDraw

open Attempt

theorem Applicant.isResident_iff {a : Applicant} : a.isResident = true ↔ a.residency = .resident := by
  simp [Applicant.isResident]

theorem Applicant.isResident_nonResident {a : Applicant} (h : a.residency = .nonResident) :
    a.isResident = false := by
  simp [Applicant.isResident, h]

def tally (rows : List Applicant) : Delta :=
  { residents := rows.countP (·.residency = .resident)
    nonResidents := rows.countP (·.residency = .nonResident) }

theorem tally_append (xs ys : List Applicant) :
    (tally (xs ++ ys)).residents = (tally xs).residents + (tally ys).residents ∧
      (tally (xs ++ ys)).nonResidents = (tally xs).nonResidents + (tally ys).nonResidents := by
  simp [tally]

theorem length_eq_tally {rows : List Applicant} (h : ∀ w ∈ rows, w.residency.IsKnown) :
    (rows.length : Int) = (tally rows).residents + (tally rows).nonResidents := by
  have hnot : rows.countP (fun w => !decide (w.residency = .resident)) =
      rows.countP fun w => w.residency = .nonResident := by
    apply List.countP_congr
    intro w hw
    rcases h w hw with h | h <;> simp [h]
  rw [List.length_eq_countP_add_countP fun w : Applicant => decide (w.residency = .resident), tally]
  simp only [Nat.cast_add, add_right_inj, Nat.cast_inj]
  simpa using hnot

namespace Bucket

variable {config : DrawConfig} {c : HuntCode} {ordinal : Int} {awarded : List Int} {a b : Applicant}
  {s t : Scan} {xs : List Applicant}

/-- One applicant of a ranked bucket is passed over, or wins a unit of the code. -/
inductive Scan.Step (config : DrawConfig) (c : HuntCode) (ordinal : Int) (awarded : List Int)
    (a : Applicant) (s : Scan) : Scan → Prop
  | pass (h : s.total = 0 ∨ a.number ∈ awarded ∨ admits config c s a = false) :
    Step config c ordinal awarded a s s
  | resident (ha : a.residency = .resident) (htotal : s.total ≠ 0) (hnew : a.number ∉ awarded)
      (hadmits : admits config c s a = true) :
    Step config c ordinal awarded a s
      { total := s.total - 1
        nonResident := s.nonResident
        reserved := if config.has .reserved then s.reserved.map (· - 1) else s.reserved
        delta := ⟨s.delta.residents + 1, s.delta.nonResidents,
          if config.has .reserved ∧ s.reserved.isSome then s.delta.reserved + 1 else s.delta.reserved⟩
        winners := s.winners ++ [a.award c.code ordinal] }
  | nonResident (ha : a.residency = .nonResident) (htotal : s.total ≠ 0) (hnew : a.number ∉ awarded)
      (hadmits : admits config c s a = true) :
    Step config c ordinal awarded a s
      { total := s.total - 1
        nonResident := s.nonResident.map (· - 1)
        reserved := s.reserved
        delta := ⟨s.delta.residents, s.delta.nonResidents + 1, s.delta.reserved⟩
        winners := s.winners ++ [a.award c.code ordinal] }

theorem scanStep_step (h : scanStep config c ordinal awarded s a = .ok t) :
    Scan.Step config c ordinal awarded a s t := by
  rw [scanStep] at h
  split_ifs at h with hpass
  · rw [← Except.ok.inj h]
    exact .pass (by simpa using hpass)
  · simp only [not_or, Bool.not_eq_true'] at hpass
    obtain ⟨htotal, hnew, hadmits⟩ := hpass
    rw [Bool.not_eq_false] at hadmits
    obtain ⟨u, hu, rfl⟩ := map_eq_ok.1 h
    rw [charge] at hu
    cases hr : a.residency with
    | resident =>
      rw [hr, Except.ok.injEq] at hu
      subst hu
      have hstep : Scan.Step config c ordinal awarded a s _ := .resident hr htotal hnew hadmits
      by_cases h1 : config.has .reserved <;> by_cases h2 : s.reserved.isSome <;>
        simpa [h1, h2] using hstep
    | nonResident =>
      rw [hr, Except.ok.injEq] at hu
      subst hu
      exact .nonResident hr htotal hnew hadmits
    | other text => simp [hr] at hu

theorem scanStep_total (ha : a.residency.IsKnown) :
    ∃ t, scanStep config c ordinal awarded s a = .ok t := by
  rw [scanStep]
  split_ifs
  · exact ⟨_, rfl⟩
  · rcases ha with ha | ha <;> exact ⟨_, map_eq_ok.2 ⟨_, by rw [charge, ha], rfl⟩⟩

/-- Nothing is left that the applicant could get. -/
def Scan.ClosedTo (config : DrawConfig) (c : HuntCode) (s : Scan) (a : Applicant) : Prop :=
  s.total = 0 ∨ admits config c s a = false

theorem admits_congr (h : a.isResident = b.isResident) : admits config c s a = admits config c s b := by
  simp only [admits, h]

theorem Scan.ClosedTo.congr (hs : s.ClosedTo config c a) (h : a.isResident = b.isResident) :
    s.ClosedTo config c b := by
  rwa [ClosedTo, ← admits_congr h]

/-- A step leaves closed what is closed, and awards nobody whom the pools are closed to. -/
theorem Scan.Step.closed (h : Scan.Step config c ordinal awarded b s t) (hs : s.ClosedTo config c a) :
    t.ClosedTo config c a ∧ (b.isResident = a.isResident → t = s) := by
  cases h with
  | pass => exact ⟨hs, fun _ => rfl⟩
  | resident hb htotal hnew hadmits =>
    have hb := Applicant.isResident_iff.2 hb
    rcases hs with hs | hs
    · exact absurd hs htotal
    · have hne : b.isResident ≠ a.isResident := fun heq => by simp [← admits_congr heq, hadmits] at hs
      rw [hb, ne_eq, Bool.true_eq, Bool.not_eq_true] at hne
      refine ⟨Or.inr ?_, fun heq => by simp [hb, hne] at heq⟩
      -- only the pool of the other residency has changed
      simpa [admits, hne] using hs
  | nonResident hb htotal hnew hadmits =>
    have hb := Applicant.isResident_nonResident hb
    rcases hs with hs | hs
    · exact absurd hs htotal
    · have hne : b.isResident ≠ a.isResident := fun heq => by simp [← admits_congr heq, hadmits] at hs
      rw [hb, ne_eq, Bool.false_eq, Bool.not_eq_false] at hne
      refine ⟨Or.inr ?_, fun heq => by simp [hb, hne] at heq⟩
      simp only [admits, hb, hne] at hs hadmits ⊢
      simp_all

/-- What going through a list of applicants does: `ws` are those of them who win. -/
structure Scan.Ran (config : DrawConfig) (c : HuntCode) (ordinal : Int) (awarded : List Int) (s : Scan)
    (xs : List Applicant) (t : Scan) (ws : List Applicant) : Prop where
  winners : t.winners = s.winners ++ ws.map (·.award c.code ordinal)
  sublist : ws.Sublist xs
  new : ∀ w ∈ ws, w.number ∉ awarded
  closed : ∀ a, s.ClosedTo config c a → t.ClosedTo config c a ∧ ∀ w ∈ ws, w.isResident ≠ a.isResident
  lost : ∀ a ∈ xs, a.number ∉ awarded → a ∉ ws → t.ClosedTo config c a
  ahead : ∀ a ∈ xs, a.number ∉ awarded → a ∉ ws →
    ∀ w ∈ ws, w.isResident = a.isResident → [w, a].Sublist xs

theorem Scan.Ran.pass {ws : List Applicant} (hb : s.ClosedTo config c b ∨ b.number ∈ awarded)
    (h : Scan.Ran config c ordinal awarded s xs t ws) :
    Scan.Ran config c ordinal awarded s (b :: xs) t ws where
  winners := h.winners
  sublist := h.sublist.cons b
  new := h.new
  closed := h.closed
  lost a ha hnew hlost := by
    rcases List.mem_cons.1 ha with rfl | ha
    · exact (h.closed a (hb.resolve_right hnew)).1
    · exact h.lost a ha hnew hlost
  ahead a ha hnew hlost w hw hwa := by
    rcases List.mem_cons.1 ha with rfl | ha
    · exact absurd hwa ((h.closed a (hb.resolve_right hnew)).2 w hw)
    · exact (h.ahead a ha hnew hlost w hw hwa).cons b

theorem Scan.Ran.award {u : Scan} {ws : List Applicant} (hnew : b.number ∉ awarded)
    (hwin : u.winners = s.winners ++ [b.award c.code ordinal])
    (hclosed : ∀ a, s.ClosedTo config c a → u.ClosedTo config c a ∧ b.isResident ≠ a.isResident)
    (h : Scan.Ran config c ordinal awarded u xs t ws) :
    Scan.Ran config c ordinal awarded s (b :: xs) t (b :: ws) where
  winners := by rw [h.winners, hwin]; simp
  sublist := h.sublist.cons_cons b
  new w hw := by
    rcases List.mem_cons.1 hw with rfl | hw
    · exact hnew
    · exact h.new w hw
  closed a ha := by
    obtain ⟨hu, hb⟩ := hclosed a ha
    refine ⟨(h.closed a hu).1, fun w hw => ?_⟩
    rcases List.mem_cons.1 hw with rfl | hw
    · exact hb
    · exact (h.closed a hu).2 w hw
  lost a ha hnew hlost := by
    simp only [List.mem_cons, not_or] at hlost
    exact h.lost a ((List.mem_cons.1 ha).resolve_left hlost.1) hnew hlost.2
  ahead a ha hnew hlost w hw hwa := by
    simp only [List.mem_cons, not_or] at hlost
    have hax := (List.mem_cons.1 ha).resolve_left hlost.1
    rcases List.mem_cons.1 hw with rfl | hw
    · exact (List.singleton_sublist.2 hax).cons_cons w
    · exact (h.ahead a hax hnew hlost.2 w hw hwa).cons b

/-- The winners behind an award are found step by step; an award goes to nobody whom the pools were
closed to. -/
theorem scan_ran (h : xs.foldlM (scanStep config c ordinal awarded) s = .ok t) :
    ∃ ws, Scan.Ran config c ordinal awarded s xs t ws := by
  induction xs generalizing s with
  | nil =>
    rw [List.foldlM_nil, pure_eq_ok] at h
    subst h
    exact ⟨[], by simp, by simp, by simp, fun a ha => ⟨ha, by simp⟩, by simp, by simp⟩
  | cons b xs ih =>
    rw [List.foldlM_cons, bind_eq_ok] at h
    obtain ⟨u, hu, h⟩ := h
    obtain ⟨ws, hws⟩ := ih h
    have hstep := scanStep_step hu
    have hclosed : ∀ a, s.ClosedTo config c a → u.ClosedTo config c a ∧
        (b.isResident = a.isResident → u = s) := fun a ha => hstep.closed ha
    cases hstep with
    | pass hb =>
      refine ⟨ws, hws.pass ?_⟩
      rcases hb with hb | hb | hb
      · exact Or.inl (Or.inl hb)
      · exact Or.inr hb
      · exact Or.inl (Or.inr hb)
    | resident hb htotal hnew hadmits =>
      refine ⟨b :: ws, hws.award hnew rfl fun a ha => ⟨(hclosed a ha).1, fun heq => ?_⟩⟩
      have := congrArg Scan.total ((hclosed a ha).2 heq)
      simp at this
    | nonResident hb htotal hnew hadmits =>
      refine ⟨b :: ws, hws.award hnew rfl fun a ha => ⟨(hclosed a ha).1, fun heq => ?_⟩⟩
      have := congrArg Scan.total ((hclosed a ha).2 heq)
      simp at this

theorem Scan.Step.length_winners (h : Scan.Step config c ordinal awarded a s t) :
    s.winners.length ≤ t.winners.length := by
  cases h <;> simp

theorem scan_serves {ys : List Applicant} (hsub : ys.Sublist xs)
    (hys : ∀ a ∈ ys, a.number ∉ awarded ∧ ¬t.ClosedTo config c a)
    (h : xs.foldlM (scanStep config c ordinal awarded) s = .ok t) :
    s.winners.length + ys.length ≤ t.winners.length := by
  induction hsub generalizing s with
  | slnil =>
    rw [List.foldlM_nil, pure_eq_ok] at h
    rw [h, List.length_nil, Nat.add_zero]
  | cons b hsub ih =>
    rw [List.foldlM_cons, bind_eq_ok] at h
    obtain ⟨u, hu, h⟩ := h
    have hgrows := (scanStep_step hu).length_winners
    have hrest := ih hys h
    omega
  | cons_cons b hsub ih =>
    rw [List.foldlM_cons, bind_eq_ok] at h
    obtain ⟨u, hu, h⟩ := h
    have hrest := ih (fun a ha => hys a (List.mem_cons_of_mem b ha)) h
    obtain ⟨hnew, hopen⟩ := hys b List.mem_cons_self
    cases scanStep_step hu with
    | pass hb =>
      -- what is closed before the rest is closed behind it
      have hclosed : s.ClosedTo config c b := by
        rcases hb with hb | hb | hb
        · exact Or.inl hb
        · exact absurd hb hnew
        · exact Or.inr hb
      obtain ⟨ws, hran⟩ := scan_ran h
      exact absurd (hran.closed b hclosed).1 hopen
    | resident =>
      simp only [List.length_append, List.length_cons, List.length_nil] at hrest ⊢
      omega
    | nonResident =>
      simp only [List.length_append, List.length_cons, List.length_nil] at hrest ⊢
      omega

end Bucket
end HuntDraw
