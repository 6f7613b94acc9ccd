import HuntDraw.Proofs.Draw.Document
import HuntDraw.Proofs.Draw.OverAward
import HuntDraw.Proofs.Number.Range

/-! Draws over documents. Whatever could be read can be drawn, except that the pool of a code may be out of reach
of numbers: its balance is, or the percentage of it is not finite. That is the only way in which a draw over
documents fails. -/

namespace HuntDraw

open Attempt

/-- The faults of arithmetic on numbers that are out of reach. -/
def DrawFault.IsArithmetic (f : DrawFault) : Prop := f = .balanceTooLarge ∨ ∃ w, f = .poolSize w

namespace HuntCode

def activePercents (config : DrawConfig) (c : HuntCode) : List Binary64 :=
  (if config.has .nonResidentCap ∧ c.nonResident.hardCap then c.nonResident.capPercent.toList else []) ++
  if config.has .reserved ∧ c.reserved.enabled then c.reserved.capPercent.toList else []

/-- The percentages of what remains of the code are within reach of numbers. -/
def Sizable (config : DrawConfig) (c : HuntCode) : Prop :=
  ∀ p ∈ c.activePercents config, ∃ b, Binary64.ofInt? c.remaining = some b ∧ (p.mul b).isFinite

variable {config : DrawConfig} {c d : HuntCode} {p : Binary64} {b : Int} {f : DrawFault} {k : Nat}

theorem mem_activePercents : p ∈ c.activePercents config ↔
    (config.has .nonResidentCap ∧ c.nonResident.hardCap ∧ c.nonResident.capPercent = some p) ∨
    (config.has .reserved ∧ c.reserved.enabled ∧ c.reserved.capPercent = some p) := by
  rw [activePercents, List.mem_append]
  split_ifs with hcap hreserve hreserve <;> simp_all

/-- A share can be taken where the balance is a number and its multiple is finite. -/
theorem poolSize_isOk : (∃ n, poolSize p b = .ok n) ↔ ∃ x, Binary64.ofInt? b = some x ∧ (p.mul x).isFinite := by
  rw [poolSize]
  cases hb : Binary64.ofInt? b with
  | none => simp
  | some x =>
    simp only [Option.some.injEq, exists_eq_left']
    rw [← Binary64.div_hundred_isFinite, ← Binary64.floor_isOk]
    cases ((p.mul x).div (Binary64.ofNat 100)).floor <;> simp

theorem poolSize_error (h : poolSize p b = .error f) : f.IsArithmetic := by
  rw [poolSize] at h
  split at h
  · exact Or.inl (Except.error.inj h).symm
  · split at h
    · cases h
    · exact Or.inr ⟨_, (Except.error.inj h).symm⟩

theorem share_isOk {α : Type} {g : Int → α} :
    (∃ a, (do let n ← poolSize p b; return g n) = Except.ok a) ↔ ∃ n, poolSize p b = .ok n := by
  simp only [bind_eq_ok, pure_eq_ok]
  constructor
  · rintro ⟨a, n, hn, -⟩
    exact ⟨n, hn⟩
  · rintro ⟨n, hn⟩
    exact ⟨g n, n, hn, rfl⟩

theorem share_error {α : Type} {g : Int → α} (h : (do let n ← poolSize p b; return g n) = Except.error f) :
    f.IsArithmetic := by
  rcases bind_eq_error.1 h with h | ⟨n, -, h⟩
  · exact poolSize_error h
  · cases h

section Capped

variable (hcapped : c.nonResident.hardCap → c.nonResident.capPercent.isSome)
include hcapped

theorem sizeNonResident_isOk : (∃ pool, c.sizeNonResident config = .ok pool) ↔
    ∀ p, config.has .nonResidentCap ∧ c.nonResident.hardCap ∧ c.nonResident.capPercent = some p →
      ∃ n, poolSize p (c.balance.getD 0) = .ok n := by
  rw [sizeNonResident]
  split_ifs with hcap
  · obtain ⟨p, hp⟩ := Option.isSome_iff_exists.1 (hcapped hcap.2)
    simp only [hp, share_isOk]
    constructor
    · rintro hn q ⟨-, -, hq⟩
      rwa [← Option.some.inj hq]
    · exact fun h => h p ⟨hcap.1, hcap.2, rfl⟩
  · exact iff_of_true ⟨_, rfl⟩ fun p hp => absurd ⟨hp.1, hp.2.1⟩ hcap

theorem sizeNonResident_error (h : c.sizeNonResident config = .error f) : f.IsArithmetic := by
  rw [sizeNonResident] at h
  split_ifs at h with hcap
  obtain ⟨p, hp⟩ := Option.isSome_iff_exists.1 (hcapped hcap.2)
  simp only [hp] at h
  exact share_error h

end Capped

section Enabled

variable (henabled : c.reserved.enabled → c.reserved.capPercent.isSome)
include henabled

theorem sizeReserved_isOk : (∃ reserved, c.sizeReserved config = .ok reserved) ↔
    ∀ p, config.has .reserved ∧ c.reserved.enabled ∧ c.reserved.capPercent = some p →
      ∃ n, poolSize p (c.balance.getD 0) = .ok n := by
  rw [sizeReserved]
  split_ifs with hon
  · obtain ⟨p, hp⟩ := Option.isSome_iff_exists.1 (henabled hon.2)
    simp only [hp, share_isOk]
    constructor
    · rintro hn q ⟨-, -, hq⟩
      rwa [← Option.some.inj hq]
    · exact fun h => h p ⟨hon.1, hon.2, rfl⟩
  · exact iff_of_true ⟨_, rfl⟩ fun p hp => absurd ⟨hp.1, hp.2.1⟩ hon

theorem sizeReserved_error (h : c.sizeReserved config = .error f) : f.IsArithmetic := by
  rw [sizeReserved] at h
  split_ifs at h with hon
  obtain ⟨p, hp⟩ := Option.isSome_iff_exists.1 (henabled hon.2)
  simp only [hp] at h
  exact share_error h

end Enabled

/-- Where each pool has its percentage, sizing pools fails in arithmetic only. -/
theorem sizePools_error (hcapped : c.nonResident.hardCap → c.nonResident.capPercent.isSome)
    (henabled : c.reserved.enabled → c.reserved.capPercent.isSome) (h : c.sizePools config = .error f) :
    f.IsArithmetic := by
  simp only [sizePools, bind_eq_error] at h
  rcases h with h | ⟨pool, -, h | ⟨reserved, -, h⟩⟩
  · exact sizeNonResident_error hcapped h
  · exact sizeReserved_error henabled h
  · cases reserved <;> cases h

theorem sizePools_isOk : (∃ d, c.sizePools config = .ok d) ↔
    (∃ pool, c.sizeNonResident config = .ok pool) ∧ ∃ reserved, c.sizeReserved config = .ok reserved := by
  constructor
  · rintro ⟨d, hd⟩
    obtain ⟨pool, hpool, hd⟩ := bind_eq_ok.1 hd
    obtain ⟨reserved, hreserved, -⟩ := bind_eq_ok.1 hd
    exact ⟨⟨pool, hpool⟩, reserved, hreserved⟩
  · rintro ⟨⟨pool, hpool⟩, reserved, hreserved⟩
    cases reserved with
    | none => exact ⟨_, bind_eq_ok.2 ⟨pool, hpool, bind_eq_ok.2 ⟨none, hreserved, rfl⟩⟩⟩
    | some r => exact ⟨_, bind_eq_ok.2 ⟨pool, hpool, bind_eq_ok.2 ⟨some r, hreserved, rfl⟩⟩⟩

/-- The pools of a proper code can be sized exactly where its percentages are within reach. -/
theorem Proper.sizePools_isOk (hc : c.Proper) : (∃ d, c.reset.sizePools config = .ok d) ↔ c.Sizable config := by
  have hcapped : c.reset.nonResident.hardCap → c.reset.nonResident.capPercent.isSome := hc.capped
  have henabled : c.reset.reserved.enabled → c.reset.reserved.capPercent.isSome := hc.enabled
  rw [HuntCode.sizePools_isOk, sizeNonResident_isOk hcapped, sizeReserved_isOk henabled, ← forall_and]
  refine forall_congr' fun p => ?_
  rw [← or_imp, ← poolSize_isOk]
  exact imp_congr_left mem_activePercents.symm

/-- Percentages up to a hundred of what is not astronomically much are within reach. -/
theorem Proper.sizable (hc : c.Proper) (hk : k ≤ 1000) (hremaining : c.remaining < 2 ^ k)
    (hpercents : ∀ p ∈ c.activePercents config, p.le (.ofNat 100)) : c.Sizable config := by
  intro p hp
  have hsign : ¬p.Negative := by
    rcases mem_activePercents.1 hp with ⟨-, -, hpercent⟩ | ⟨-, -, hpercent⟩
    · exact hc.cap p hpercent
    · exact hc.reserve p hpercent
  obtain ⟨hfinite, hle⟩ := Binary64.magnitude_le_hundred hsign (hpercents p hp)
  have hnat : (c.remaining.natAbs : ℚ) < 2 ^ (k : Int) := by
    have hlt : c.remaining.natAbs < 2 ^ k := by
      have hnonneg := remaining_nonneg hc.counts
      zify
      rwa [abs_of_nonneg hnonneg]
    rw [zpow_natCast]
    exact_mod_cast hlt
  obtain ⟨x, hx, hxfinite, hxle⟩ := Binary64.ofInt?_bounded (by omega) (by omega) hnat
  refine ⟨x, hx, Binary64.mul_isFinite hfinite hxfinite ?_⟩
  calc p.magnitude * x.magnitude ≤ 100 * 2 ^ (k : Int) :=
        mul_le_mul hle hxle x.magnitude_nonneg (by norm_num)
    _ < 2 ^ (7 : Int) * 2 ^ (k : Int) := mul_lt_mul_of_pos_right (by norm_num) (by positivity)
    _ = 2 ^ (7 + k : Int) := (zpow_add₀ two_ne_zero _ _).symm
    _ ≤ 2 ^ (1023 : Int) := zpow_le_zpow_right₀ one_le_two (by omega)

end HuntCode

namespace Draw

variable {codeRows applicantRows : List (Fields Json)} {codes : List HuntCode} {applicants : List Applicant}
  {sort : DrawSort} {config : DrawConfig} {workers : Int} {f : DrawFault}

theorem enterCodes_isOk : (∃ entered, enterCodes codes config = .ok entered) ↔
    ∀ c ∈ codes, c.takesPart config → ∃ d, c.reset.sizePools config = .ok d := by
  constructor
  · rintro ⟨entered, h⟩ c hc hpart
    simp only [enterCodes, bind_eq_ok] at h
    obtain ⟨sized, hsized, -⟩ := h
    obtain ⟨d, -, hd⟩ := (mapM_mem hsized).2 c.reset (List.mem_map_of_mem (List.mem_filter.2 ⟨hc, hpart⟩))
    exact ⟨d, hd⟩
  · intro h
    obtain ⟨sized, hsized⟩ : ∃ sized, (Entry.codes codes config).mapM (·.sizePools config) = .ok sized := by
      refine mapM_total fun c' hc' => ?_
      obtain ⟨c, hc, rfl⟩ := List.mem_map.1 hc'
      obtain ⟨hmem, hpart⟩ := List.mem_filter.1 hc
      exact h c hmem hpart
    exact ⟨_, bind_eq_ok.2 ⟨sized, hsized, rfl⟩⟩

theorem enterCodes_error (h : enterCodes codes config = .error f) :
    ∃ c ∈ codes, c.takesPart config ∧ c.reset.sizePools config = .error f := by
  simp only [enterCodes, bind_eq_error] at h
  rcases h with h | ⟨sized, -, h⟩
  · obtain ⟨c', hc', hf⟩ := mapM_error h
    obtain ⟨c, hc, rfl⟩ := List.mem_map.1 hc'
    obtain ⟨hmem, hpart⟩ := List.mem_filter.1 hc
    exact ⟨c, hmem, hpart, hf⟩
  · cases h

/-- A draw with rules that can rank fails where its codes cannot enter. -/
theorem run_of_enterCodes_error (hrules : Ranking.validate sort.rules = .ok ())
    (h : enterCodes codes config = .error f) :
    run codes applicants (some sort) (some config) workers = .error f := by
  have hsettings : settings (some sort) (some config) = .ok (sort.rules, config) := by
    rw [settings, hrules]
    rfl
  exact bind_eq_error.2 (Or.inr ⟨_, hsettings, bind_eq_error.2 (Or.inl h)⟩)

/-- Over documents a draw returns exactly when the percentages of its codes are within reach; where they are not it
fails in arithmetic; and they are for percentages up to a hundred of balances up to some three hundred digits. -/
theorem run_read_returns_iff (hcodes : Document.readHuntCodes codeRows = .ok codes)
    (happlicants : Document.readApplicants applicantRows = .ok applicants)
    (hrules : Ranking.validate sort.rules = .ok ()) :
    ((∃ result, run codes applicants (some sort) (some config) workers = .ok result) ↔
      ∀ c ∈ codes, c.takesPart config → c.Sizable config) ∧
    (∀ f, run codes applicants (some sort) (some config) workers = .error f → f.IsArithmetic) ∧
    ((∀ c ∈ codes, c.remaining < 2 ^ 1000 ∧ ∀ p ∈ c.activePercents config, p.le (.ofNat 100)) →
      ∃ result, run codes applicants (some sort) (some config) workers = .ok result) := by
  have hproper := Document.readHuntCodes_valid hcodes
  have hknown : ∀ a ∈ applicants, a.residency.IsKnown := fun a ha =>
    (Document.readApplicants_valid happlicants a ha).1
  have hreturns : (∃ result, run codes applicants (some sort) (some config) workers = .ok result) ↔
      ∀ c ∈ codes, c.takesPart config → c.Sizable config := by
    rw [← forall₂_congr fun c hc => imp_congr_right fun _ => (hproper c hc).sizePools_isOk, ← enterCodes_isOk]
    constructor
    · rintro ⟨result, h⟩
      obtain ⟨-, entered, -, -, -, hentered, -⟩ := run_eq_ok.1 h
      exact ⟨entered, hentered⟩
    · rintro ⟨entered, hentered⟩
      exact run_total hrules hentered hknown
  refine ⟨hreturns, fun f hf => ?_, fun hbounded => hreturns.2 fun c hc _ => ?_⟩
  -- once the codes have entered nothing can fail, so that the fault is that of sizing a pool
  · cases hentered : enterCodes codes config with
    | ok entered =>
      obtain ⟨result, hresult⟩ : ∃ result, run codes applicants (some sort) (some config) workers = .ok result :=
        run_total hrules hentered hknown
      cases hresult.symm.trans hf
    | error g =>
      obtain rfl : g = f := Except.error.inj ((run_of_enterCodes_error hrules hentered).symm.trans hf)
      obtain ⟨c, hc, -, hsizes⟩ := enterCodes_error hentered
      exact HuntCode.sizePools_error (c := c.reset) (hproper c hc).capped (hproper c hc).enabled hsizes
  · exact (hproper c hc).sizable le_rfl (hbounded c hc).1 (hbounded c hc).2

def codeRow (quota percent : String) : Fields Json :=
  [("hunt_code", .text "HC1"), ("is_valid", .text "Y"), ("in_the_draw", .text "Y"), ("total_quota", .text quota),
   ("nr_cap_chk", .text "Y"), ("nrcap_prect", .text percent)]

def applicantRow (number points : String) : Fields Json :=
  [("application_number", .text number), ("age", .text "40"), ("residency", .text "RESIDENT"),
   ("point_balance", .text points), ("choice1", .text "HC1")]

theorem run_read_returns_half : Document.readHuntCodes [codeRow "3" "50"] = .ok [sampleCode] ∧
    Document.readApplicants [applicantRow "1" "4"] = .ok [sampleApplicant 1 .resident 4 ["HC1"]] ∧
    Ranking.validate sampleSort.rules = .ok () ∧ ∃ result, run [sampleCode]
      [sampleApplicant 1 .resident 4 ["HC1"]] (some sampleSort) (some sampleConfig) 1 = .ok result := by
  have hcodes : Document.readHuntCodes [codeRow "3" "50"] = .ok [sampleCode] := by decide +kernel
  have happlicants : Document.readApplicants [applicantRow "1" "4"] =
      .ok [sampleApplicant 1 .resident 4 ["HC1"]] := by decide +kernel
  have hrules : Ranking.validate sampleSort.rules = .ok () := by decide
  have hbounded : ∀ c ∈ [sampleCode], c.remaining < 2 ^ 1000 ∧ ∀ p ∈ c.activePercents sampleConfig,
      p.le (.ofNat 100) := by decide +kernel
  exact ⟨hcodes, happlicants, hrules, (run_read_returns_iff hcodes happlicants hrules).2.2 hbounded⟩

/-- A code whose cap is a percentage near the end of the numbers. -/
def boundlessCode : HuntCode :=
  { code := "HC1", isValid := true, isInDraw := true, quota := some 2,
    nonResident := { hardCap := true, capPercent := some (.ofNat (10 ^ 308)) } }

/-- No bound on percentages is asked for when codes are read. -/
theorem not_run_read_returns : ¬∀ (codeRows applicantRows : List (Fields Json)) (codes : List HuntCode)
    (applicants : List Applicant) (sort : DrawSort) (config : DrawConfig) (workers : Int),
    Document.readHuntCodes codeRows = .ok codes → Document.readApplicants applicantRows = .ok applicants →
    Ranking.validate sort.rules = .ok () →
    ∃ result, run codes applicants (some sort) (some config) workers = .ok result := by
  intro hall
  have hcodes : Document.readHuntCodes [codeRow "2" "1e308"] = .ok [boundlessCode] := by decide +kernel
  have happlicants : Document.readApplicants [applicantRow "1" "4"] =
      .ok [sampleApplicant 1 .resident 4 ["HC1"]] := by decide +kernel
  have hrun : run [boundlessCode] [sampleApplicant 1 .resident 4 ["HC1"]] (some sampleSort) (some sampleConfig) 1 =
      .error (.poolSize .infinite) := by decide +kernel
  obtain ⟨result, hresult⟩ := hall _ _ _ _ sampleSort sampleConfig 1 hcodes happlicants (by decide)
  cases hresult.symm.trans hrun

end Draw
end HuntDraw
