import HuntDraw.Proofs.Draw.Total
import HuntDraw.Proofs.Draw.Waste

/-! The two balances of the reserved draw. An award takes a unit from the pool of its code, and one from the reserve
if it goes to a resident. Only residents are awarded, so the two are never apart, and what is left of the reserve can
be dropped behind any round. -/

namespace HuntDraw.Draw

open Attempt

variable {rules : List SortRule} {config : DrawConfig} {workers : Int} {eligible applicants : List Applicant}
  {codes : List HuntCode} {entered : Codes}

def roundsUpTo (rules : List SortRule) (config : DrawConfig) (workers : Int) (eligible : List Applicant)
    (codes : Codes) (k : Nat) : Except DrawFault Progress :=
  (List.range' 1 k).foldlM (fun p j => (·.1) <$> round rules config workers eligible p j) { codes }

theorem roundsUpTo_succ (k : Nat) : roundsUpTo rules config workers eligible entered (k + 1) =
    roundsUpTo rules config workers eligible entered k >>= fun p =>
      (·.1) <$> round rules config workers eligible p (k + 1) := by
  rw [roundsUpTo, List.range'_1_concat, List.foldlM_append, Nat.add_comm 1 k]
  simp only [List.foldlM_cons, List.foldlM_nil, bind_pure]
  rfl

theorem roundsUpTo_history (hentered : Ready entered) (hknown : ∀ a ∈ eligible, a.residency.IsKnown) (k : Nat) :
    ∃ p, roundsUpTo rules config workers eligible entered k = .ok p ∧ History rules config eligible entered k p := by
  induction k with
  | zero => exact ⟨_, rfl, History.start hentered⟩
  | succ k ih =>
    obtain ⟨p, hp, hhistory⟩ := ih
    obtain ⟨⟨q, s⟩, hround⟩ : ∃ q, round rules config workers eligible p (k + 1) = .ok q :=
      round_total (Nat.le_add_left 1 k) hknown
    refine ⟨q, ?_, hhistory.round hentered hround⟩
    rw [roundsUpTo_succ]
    exact bind_eq_ok.2 ⟨p, hp, map_eq_ok.2 ⟨(q, s), hround, rfl⟩⟩

/-- Every code has as much left to give as it has left to give from its reserve. -/
def Progress.InStep (p : Progress) : Prop :=
  ∀ e ∈ p.codes, ∃ left, e.2.reserved.balance = some left ∧ e.2.drawBalance = some left

theorem History.inStep {k : Nat} {p : Progress} (h : History rules config eligible entered k p)
    (hentered : enterCodes codes config = .ok entered) (hreserved : config.has .reserved) : p.InStep := by
  intro e he
  obtain ⟨left, hleft⟩ := Option.isSome_iff_exists.1 ((h.ready (enterCodes_ready hentered)).drawBalance e he)
  exact ⟨left, (h.reserved_eq hentered hreserved he).trans hleft, hleft⟩

/-- In the reserved draw the two balances of every code are the same behind each of the rounds, whatever the other
rules and the sizes of the pools; what is left of the reserves can be dropped there, and doing so touches nothing but
what remains of the codes. -/
theorem roundsUpTo_inStep (hreserved : config.has .reserved) (hknown : ∀ a ∈ applicants, a.residency.IsKnown)
    (hentered : enterCodes codes config = .ok entered) :
    rounds rules config workers (Entry.applicants applicants config) entered =
      roundsUpTo rules config workers (Entry.applicants applicants config) entered Applicant.rounds ∧
    ∀ k, ∃ p drawn, roundsUpTo rules config workers (Entry.applicants applicants config) entered k = .ok p ∧
      p.InStep ∧ reconcile (p.codes.map (·.2)) config = .ok drawn ∧
      List.Forall₂ (fun c d : HuntCode => d = { c with balance := d.balance, drawBalance := d.drawBalance })
        (p.codes.map (·.2)) drawn := by
  refine ⟨rfl, fun k => ?_⟩
  obtain ⟨p, hp, hhistory⟩ : ∃ p, roundsUpTo rules config workers (Entry.applicants applicants config) entered k = .ok p ∧
      History rules config (Entry.applicants applicants config) entered k p :=
    roundsUpTo_history (enterCodes_ready hentered) (eligible_known hknown) k
  obtain ⟨drawn, hdrawn⟩ := reconcile_total hhistory hentered
  refine ⟨p, drawn, hp, hhistory.inStep hentered hreserved, hdrawn, ?_⟩
  rw [reconcile_eq hdrawn, List.forall₂_map_right_iff]
  exact List.forall₂_same.2 fun c _ => finish_frame config c

/-- A reserve below nothing falls further with each award, and the pool with it. -/
theorem roundsUpTo_inStep_negative :
    let eligible := Entry.applicants negativeApplicants flowConfig
    flowConfig.has .reserved ∧ (∀ a ∈ negativeApplicants, a.residency.IsKnown) ∧
    enterCodes [negativeCode] flowConfig = .ok [("HC1", negativeSized)] ∧
    (fun p => p.codes.map (·.2.drawBalance)) <$>
      roundsUpTo sampleSort.rules flowConfig 1 eligible [("HC1", negativeSized)] 1 = .ok [some (-2)] ∧
    ∃ p, roundsUpTo sampleSort.rules flowConfig 1 eligible [("HC1", negativeSized)] 1 = .ok p ∧ p.InStep := by
  intro eligible
  have hreserved : flowConfig.has .reserved := by decide
  have hknown : ∀ a ∈ negativeApplicants, a.residency.IsKnown := by decide +kernel
  have hentered : enterCodes [negativeCode] flowConfig = .ok [("HC1", negativeSized)] := by decide +kernel
  refine ⟨hreserved, hknown, hentered, by decide +kernel, ?_⟩
  obtain ⟨-, hround⟩ := @roundsUpTo_inStep sampleSort.rules _ 1 _ _ _ hreserved hknown hentered
  obtain ⟨p, -, hp, hstep, -⟩ := hround 1
  exact ⟨p, hp, hstep⟩

end HuntDraw.Draw
