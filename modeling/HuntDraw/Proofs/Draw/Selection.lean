import HuntDraw.Draw.Run
import HuntDraw.Proofs.Draw.Pools

/-! Whom a bucket selects. The scan gives units out one by one and charges them to its balances; all the same its
winners are told by the balances that it starts with: so many of those who may have one, in their order. -/

namespace HuntDraw

open Attempt Draw

/-- The rows without the non-residents behind the first so many of them. -/
def withinShare (share : Nat) : List Applicant → List Applicant
  | [] => []
  | a :: rest =>
    if a.residency ≠ .nonResident then a :: withinShare share rest
    else if share = 0 then withinShare share rest
    else a :: withinShare (share - 1) rest

theorem withinShare_of_ne {a : Applicant} (ha : a.residency ≠ .nonResident) (share : Nat) (rest : List Applicant) :
    withinShare share (a :: rest) = a :: withinShare share rest := if_pos ha

theorem withinShare_zero {a : Applicant} (ha : a.residency = .nonResident) (rest : List Applicant) :
    withinShare 0 (a :: rest) = withinShare 0 rest := by
  rw [withinShare, if_neg (not_not.2 ha), if_pos rfl]

theorem withinShare_succ {a : Applicant} (ha : a.residency = .nonResident) (share : Nat) (rest : List Applicant) :
    withinShare (share + 1) (a :: rest) = a :: withinShare share rest := by
  rw [withinShare, if_neg (not_not.2 ha), if_neg (Nat.succ_ne_zero share), Nat.add_sub_cancel]

namespace Bucket

variable {config : DrawConfig} {c : HuntCode} {ordinal : Int} {awarded : List Int} {a : Applicant}
  {s t : Scan} {xs : List Applicant} {b : Bucket} {rules : List SortRule} {r : BucketResult}

/-- Those of the ranked applicants that the balances of a scan are enough for: the reserved draw takes residents, as far
as the reserve goes too, and a hard cap leaves non-residents out behind their share. A balance that is not there holds
nothing. -/
def Scan.select (config : DrawConfig) (c : HuntCode) (s : Scan) (ranked : List Applicant) : List Applicant :=
  if config.has .reserved then
    (ranked.filter Applicant.isResident).take (min s.total (s.reserved.getD 0)).toNat
  else if config.has .nonResidentCap ∧ c.nonResident.hardCap then
    (withinShare (s.nonResident.getD 0).toNat ranked).take s.total.toNat
  else ranked.take s.total.toNat

theorem Scan.select_reserved (hreserved : config.has .reserved) (s : Scan) (ranked : List Applicant) :
    s.select config c ranked =
      (ranked.filter Applicant.isResident).take (min s.total (s.reserved.getD 0)).toNat := if_pos hreserved

theorem Scan.select_capped (hreserved : ¬config.has .reserved) (hcap : config.has .nonResidentCap)
    (hhard : c.nonResident.hardCap) (s : Scan) (ranked : List Applicant) : s.select config c ranked =
      (withinShare (s.nonResident.getD 0).toNat ranked).take s.total.toNat := by
  rw [select, if_neg hreserved, if_pos ⟨hcap, hhard⟩]

theorem Scan.select_open (hreserved : ¬config.has .reserved)
    (hopen : ¬(config.has .nonResidentCap ∧ c.nonResident.hardCap)) (s : Scan) (ranked : List Applicant) :
    s.select config c ranked = ranked.take s.total.toNat := by
  rw [select, if_neg hreserved, if_neg hopen]

theorem isOpen_iff {balance : Option Int} : isOpen balance = true ↔ balance.getD 0 ≠ 0 := by
  cases balance <;> simp [isOpen]

theorem admits_reserved (hreserved : config.has .reserved) :
    admits config c s a = true ↔ a.isResident ∧ s.reserved.getD 0 ≠ 0 := by
  rw [admits, if_pos hreserved, Bool.and_eq_true, isOpen_iff]

theorem admits_capped (hreserved : ¬config.has .reserved) (hcap : config.has .nonResidentCap)
    (hhard : c.nonResident.hardCap) : admits config c s a = true ↔ a.isResident ∨ s.nonResident.getD 0 ≠ 0 := by
  rw [admits, if_neg hreserved, if_pos hcap, hhard, Bool.not_true, Bool.or_false, Bool.or_eq_true, isOpen_iff]

theorem admits_open (hreserved : ¬config.has .reserved)
    (hopen : ¬(config.has .nonResidentCap ∧ c.nonResident.hardCap)) : admits config c s a = true := by
  rw [admits, if_neg hreserved]
  split_ifs with hcap
  · have hhard : c.nonResident.hardCap = false := Bool.eq_false_iff.2 fun hhard => hopen ⟨hcap, hhard⟩
    rw [hhard, Bool.not_false, Bool.or_true, Bool.true_or]
  · rfl

structure Scan.Stocked (config : DrawConfig) (c : HuntCode) (s : Scan) : Prop where
  total : 0 ≤ s.total
  reserved : 0 ≤ s.reserved.getD 0
  nonResident : ¬config.has .reserved → config.has .nonResidentCap → c.nonResident.hardCap →
    0 ≤ s.nonResident.getD 0

/-- What is charged to a balance that holds something leaves it above nothing. -/
theorem getD_map_sub {balance : Option Int} (h : balance.getD 0 ≠ 0) :
    (balance.map (· - 1)).getD 0 = balance.getD 0 - 1 := by
  cases balance with
  | none => exact absurd rfl h
  | some left => rfl

theorem Scan.Step.stocked (h : Scan.Step config c ordinal awarded a s t) (hs : s.Stocked config c) :
    t.Stocked config c := by
  refine ⟨h.total_nonneg hs.total, ?_, fun hreserved hcap hhard =>
    h.nonResident_nonneg hcap hreserved hhard (hs.nonResident hreserved hcap hhard)⟩
  cases h with
  | pass => exact hs.reserved
  | nonResident => exact hs.reserved
  | resident ha htotal hnew hadmits =>
    by_cases hreserved : config.has .reserved
    · have hleft := ((admits_reserved hreserved).1 hadmits).2
      have hnonneg := hs.reserved
      rw [if_pos hreserved, getD_map_sub hleft]
      omega
    · rw [if_neg hreserved]
      exact hs.reserved

theorem Scan.ClosedTo.select_cons (h : s.ClosedTo config c a) (ha : a.residency.IsKnown) (rest : List Applicant) :
    s.select config c (a :: rest) = s.select config c rest := by
  rw [ClosedTo, ← Bool.not_eq_true] at h
  by_cases hreserved : config.has .reserved
  · rw [select_reserved hreserved, select_reserved hreserved]
    rw [admits_reserved hreserved] at h
    by_cases hresident : a.isResident
    · have hempty : s.total = 0 ∨ s.reserved.getD 0 = 0 :=
        h.imp_right fun hadmits => of_not_not fun hleft => hadmits ⟨hresident, hleft⟩
      have hnone : (min s.total (s.reserved.getD 0)).toNat = 0 := by omega
      rw [hnone, List.take_zero, List.take_zero]
    · rw [List.filter_cons_of_neg hresident]
  by_cases hopen : config.has .nonResidentCap ∧ c.nonResident.hardCap
  · rw [select_capped hreserved hopen.1 hopen.2, select_capped hreserved hopen.1 hopen.2]
    rw [admits_capped hreserved hopen.1 hopen.2] at h
    rcases h with htotal | hadmits
    · rw [htotal, Int.toNat_zero, List.take_zero, List.take_zero]
    · have hnonResident : a.residency = .nonResident := ha.resolve_left fun hresident =>
        hadmits (.inl (Applicant.isResident_iff.2 hresident))
      have hnone : s.nonResident.getD 0 = 0 := by
        by_contra hleft
        exact hadmits (.inr hleft)
      rw [hnone, Int.toNat_zero, withinShare_zero hnonResident]
  · have htotal : s.total = 0 := h.resolve_right fun hadmits => hadmits (admits_open hreserved hopen)
    rw [select_open hreserved hopen, select_open hreserved hopen, htotal, Int.toNat_zero, List.take_zero,
      List.take_zero]

/-- So many and one more of a list are its first element and so many of the others. -/
theorem take_toNat_cons {α : Type} {n : Int} (hn : 0 ≤ n) (hne : n ≠ 0) (x : α) (xs : List α) :
    (x :: xs).take n.toNat = x :: xs.take (n - 1).toNat := by
  obtain ⟨m, rfl⟩ : ∃ m : Nat, n = m + 1 := ⟨(n - 1).toNat, by omega⟩
  simp [Int.toNat_natCast_add_one]

/-- One applicant is selected if the pools are open to him, and the others by what is left. -/
theorem Scan.Step.select (h : Scan.Step config c ordinal awarded a s t) (hs : s.Stocked config c)
    (ha : a.residency.IsKnown) : ∃ ws, t.winners = s.winners ++ ws.map (·.award c.code ordinal) ∧
      ∀ rest, s.select config c (pending (a :: rest) awarded) = ws ++ t.select config c (pending rest awarded) := by
  cases h with
  | pass hpass =>
    refine ⟨[], by simp, fun rest => ?_⟩
    by_cases hnew : a.number ∉ awarded
    · have hclosed : s.ClosedTo config c a := by
        rcases hpass with htotal | hold | hadmits
        · exact .inl htotal
        · exact absurd hold hnew
        · exact .inr hadmits
      rw [pending, List.filter_cons_of_pos (by simpa using hnew), hclosed.select_cons ha]
      rfl
    · rw [pending, List.filter_cons_of_neg (by simpa using hnew)]
      rfl
  | resident hresident htotal hnew hadmits =>
    refine ⟨[a], rfl, fun rest => ?_⟩
    have hisResident := Applicant.isResident_iff.2 hresident
    have hother : a.residency ≠ .nonResident := by simp [hresident]
    rw [pending, List.filter_cons_of_pos (by simpa using hnew), List.singleton_append]
    by_cases hreserved : config.has .reserved
    · have hleft := ((admits_reserved hreserved).1 hadmits).2
      have htotal_nonneg := hs.total
      have hreserved_nonneg := hs.reserved
      have hcharged : min (s.total - 1) (s.reserved.getD 0 - 1) = min s.total (s.reserved.getD 0) - 1 := by omega
      rw [select_reserved hreserved, select_reserved hreserved, List.filter_cons_of_pos hisResident,
        take_toNat_cons (by omega) (by omega), if_pos hreserved, getD_map_sub hleft, hcharged]
      rfl
    by_cases hopen : config.has .nonResidentCap ∧ c.nonResident.hardCap
    · rw [select_capped hreserved hopen.1 hopen.2, select_capped hreserved hopen.1 hopen.2,
        withinShare_of_ne hother, take_toNat_cons hs.total htotal]
      rfl
    · rw [select_open hreserved hopen, select_open hreserved hopen, take_toNat_cons hs.total htotal]
      rfl
  | nonResident hnonResident htotal hnew hadmits =>
    refine ⟨[a], rfl, fun rest => ?_⟩
    have hnot : ¬a.isResident := by simp [Applicant.isResident_nonResident hnonResident]
    rw [pending, List.filter_cons_of_pos (by simpa using hnew), List.singleton_append]
    have hreserved : ¬config.has .reserved := fun hreserved => hnot ((admits_reserved hreserved).1 hadmits).1
    by_cases hopen : config.has .nonResidentCap ∧ c.nonResident.hardCap
    · have hleft := ((admits_capped hreserved hopen.1 hopen.2).1 hadmits).resolve_left hnot
      have hnonneg := hs.nonResident hreserved hopen.1 hopen.2
      have hshare : (s.nonResident.getD 0).toNat = (s.nonResident.getD 0 - 1).toNat + 1 := by omega
      rw [select_capped hreserved hopen.1 hopen.2, select_capped hreserved hopen.1 hopen.2, hshare,
        withinShare_succ hnonResident, take_toNat_cons hs.total htotal, getD_map_sub hleft]
      rfl
    · rw [select_open hreserved hopen, select_open hreserved hopen, take_toNat_cons hs.total htotal]
      rfl

/-- What is given out one by one is what is selected at once. -/
theorem scan_selects (hs : s.Stocked config c) (hknown : ∀ a ∈ xs, a.residency.IsKnown)
    (h : xs.foldlM (scanStep config c ordinal awarded) s = .ok t) :
    t.winners = s.winners ++ (s.select config c (pending xs awarded)).map (·.award c.code ordinal) := by
  induction xs generalizing s with
  | nil =>
    rw [List.foldlM_nil, pure_eq_ok] at h
    have hnobody : s.select config c (pending [] awarded) = [] := by
      rw [Scan.select]
      split_ifs <;> simp [pending, withinShare]
    rw [hnobody, h, List.map_nil, List.append_nil]
  | cons a xs ih =>
    rw [List.foldlM_cons, bind_eq_ok] at h
    obtain ⟨u, hu, h⟩ := h
    have hstep := scanStep_step hu
    obtain ⟨ws, hws, hselect⟩ := hstep.select hs (hknown a List.mem_cons_self)
    rw [ih (hstep.stocked hs) (fun a ha => hknown a (List.mem_cons_of_mem _ ha)) h, hws, hselect, List.map_append,
      List.append_assoc]

/-- Every award of the reserved draw is one from the reserve, and no other is. -/
theorem Scan.Step.delta_reserved (h : Scan.Step config c ordinal awarded a s t)
    (hs : s.delta.reserved = if config.has .reserved then s.delta.residents else 0) :
    t.delta.reserved = if config.has .reserved then t.delta.residents else 0 := by
  cases h with
  | pass => exact hs
  | nonResident => exact hs
  | resident ha htotal hnew hadmits =>
    by_cases hreserved : config.has .reserved
    · have hleft := ((admits_reserved hreserved).1 hadmits).2
      have hsome : s.reserved.isSome := by
        cases hbalance : s.reserved with
        | none => simp [hbalance] at hleft
        | some left => rfl
      simp only [hreserved, hsome, if_true, and_self] at hs ⊢
      rw [hs]
    · simp only [hreserved, if_false, false_and, Bool.false_eq_true] at hs ⊢
      exact hs

theorem Scan.select_grows {total : Int} (hle : s.total ≤ total) (ranked : List Applicant) :
    s.select config c ranked <+: Scan.select config c { s with total } ranked := by
  rw [select, select]
  split_ifs
  · exact List.take_prefix_take_left (Int.toNat_le_toNat (min_le_min_right _ hle))
  · exact List.take_prefix_take_left (Int.toNat_le_toNat hle)
  · exact List.take_prefix_take_left (Int.toNat_le_toNat hle)

end Bucket

/-- Those of the ranked applicants that the balances of a code are enough for. -/
def HuntCode.select (config : DrawConfig) (c : HuntCode) (ranked : List Applicant) : List Applicant :=
  (Bucket.startScan c).select config c ranked

namespace Bucket

variable {config : DrawConfig} {c : HuntCode} {awarded : List Int} {ranked : List Applicant} {b : Bucket}
  {rules : List SortRule}

theorem process_ranked (hstocked : (startScan c).Stocked config c) (hknown : ∀ a ∈ b.applicants, a.residency.IsKnown)
    (hbalance : c.balance ≠ some 0) (hsort : Ranking.sort rules b.applicants = .ok ranked) (awarded : List Int) :
    ∃ winners, winners = (c.select config (pending ranked awarded)).map (·.award c.code b.ordinal) ∧
      b.process c rules config awarded = .ok ⟨b.code, winners, (tally winners).residents, (tally winners).nonResidents,
        if config.has .reserved then (tally winners).residents else 0⟩ := by
  have hranked : ∀ a ∈ ranked, a.residency.IsKnown := fun a ha => hknown a ((Ranking.sort_perm hsort).mem_iff.1 ha)
  obtain ⟨s, hscan, -⟩ := foldlM_total (f := scanStep config c b.ordinal awarded) (fun _ => True)
    (b := startScan c) (fun s a ha _ => (scanStep_total (hranked a ha)).imp fun _ ht => ⟨ht, trivial⟩) trivial
  have hacc := scan_accounted hscan
  have hreserved : s.delta.reserved = if config.has .reserved then s.delta.residents else 0 :=
    foldlM_preserves (fun s => s.delta.reserved = if config.has .reserved then s.delta.residents else 0)
      (fun _ _ _ _ hstep => (scanStep_step hstep).delta_reserved) hscan (by simp [startScan])
  refine ⟨s.winners, scan_selects hstocked hranked hscan, ?_⟩
  rw [← hacc.residents, ← hacc.nonResidents, ← hreserved]
  exact process_eq_ok.2 (.inr ⟨hbalance, ranked, s, hsort, hscan, rfl⟩)

/-- Processing a bucket of a code with a balance awards those whom the code selects among the ranked applicants that
were not awarded before, and counts them; the ranked applicants are those of the bucket, sorted stably by the rules
where all points are numbers. One unit more takes no award away. -/
theorem process_selects (hknown : ∀ a ∈ b.applicants, a.residency.IsKnown) (hbalance : c.balance ≠ some 0)
    (hdraw : 0 ≤ c.drawBalance.getD 0) (hnonResident : ∀ n ∈ c.nonResident.balance, 0 ≤ n)
    (hreserved : ∀ n ∈ c.reserved.balance, 0 ≤ n) : ∃ ranked winners more,
      Ranking.sort rules b.applicants = .ok ranked ∧ ranked.Perm b.applicants ∧
      ((∀ a ∈ b.applicants, a.points ≠ .nan) → RunSort.Arranged (Ranking.order rules) b.applicants ranked) ∧
      winners = (c.select config (pending ranked awarded)).map (·.award c.code b.ordinal) ∧
      b.process c rules config awarded = .ok ⟨b.code, winners, (tally winners).residents, (tally winners).nonResidents,
        if config.has .reserved then (tally winners).residents else 0⟩ ∧
      b.process { c with drawBalance := some (c.drawBalance.getD 0 + 1) } rules config awarded = .ok more ∧
      winners <+: more.awarded := by
  obtain ⟨ranked, hsort⟩ : ∃ ranked, Ranking.sort rules b.applicants = .ok ranked := Ranking.sort_total hknown
  have hnonneg : ∀ {balance : Option Int}, (∀ n ∈ balance, 0 ≤ n) → 0 ≤ balance.getD 0 := by
    intro balance h
    cases balance with
    | none => exact le_rfl
    | some n => exact h n rfl
  have hstocked : (startScan c).Stocked config c := ⟨hdraw, hnonneg hreserved, fun _ _ _ => hnonneg hnonResident⟩
  have hstocked' : (startScan { c with drawBalance := some (c.drawBalance.getD 0 + 1) }).Stocked config
      { c with drawBalance := some (c.drawBalance.getD 0 + 1) } :=
    ⟨Int.add_nonneg hdraw (by decide), hnonneg hreserved, fun _ _ _ => hnonneg hnonResident⟩
  obtain ⟨winners, hwinners, hprocess⟩ := process_ranked hstocked hknown hbalance hsort awarded
  obtain ⟨winners', hwinners', hprocess'⟩ := process_ranked hstocked' hknown hbalance hsort awarded
  refine ⟨ranked, winners, _, hsort, Ranking.sort_perm hsort, fun hpoints => Ranking.sort_arranged hknown hpoints hsort,
    hwinners, hprocess, hprocess', ?_⟩
  rw [hwinners, hwinners']
  have hgrows : c.select config (pending ranked awarded) <+:
      HuntCode.select config { c with drawBalance := some (c.drawBalance.getD 0 + 1) } (pending ranked awarded) :=
    Scan.select_grows (Int.le_add_one le_rfl) _
  exact hgrows.map _

/-- A code with three units, one of them at most for a non-resident. -/
def cappedCode : HuntCode :=
  { code := "HC1", isValid := true, isInDraw := true, quota := some 3, balance := some 3, drawBalance := some 3,
    nonResident := { hardCap := true, balance := some 1 } }

/-- The second non-resident is passed over, and with one unit more all residents are awarded. -/
theorem process_selects_capped :
    let b : Bucket := { code := "HC1", ordinal := 1, applicants := sampleApplicants }
    let winners := [sampleApplicant 1 .resident 4 ["HC1"], sampleApplicant 2 .nonResident 3 ["HC1"],
      sampleApplicant 4 .resident 1 ["", "HC1"]].map (·.award "HC1" 1)
    (∀ a ∈ b.applicants, a.residency.IsKnown) ∧ cappedCode.balance ≠ some 0 ∧ 0 ≤ cappedCode.drawBalance.getD 0 ∧
    (∀ n ∈ cappedCode.nonResident.balance, 0 ≤ n) ∧ (∀ n ∈ cappedCode.reserved.balance, 0 ≤ n) ∧
    b.process cappedCode sampleSort.rules sampleConfig [] = .ok ⟨"HC1", winners, 2, 1, 0⟩ ∧
    ∃ more, b.process { cappedCode with drawBalance := some 4 } sampleSort.rules sampleConfig [] = .ok more ∧
      winners <+: more.awarded := by
  intro b winners
  have hknown : ∀ a ∈ b.applicants, a.residency.IsKnown := by decide +kernel
  have hbalance : cappedCode.balance ≠ some 0 := by decide
  have hdraw : 0 ≤ cappedCode.drawBalance.getD 0 := by decide
  have hnonResident : ∀ n ∈ cappedCode.nonResident.balance, 0 ≤ n := by decide
  have hreserved : ∀ n ∈ cappedCode.reserved.balance, 0 ≤ n := by decide
  have hrun : b.process cappedCode sampleSort.rules sampleConfig [] = .ok ⟨"HC1", winners, 2, 1, 0⟩ := by
    decide +kernel
  obtain ⟨-, ws, more, -, -, -, -, hprocess, hmore, hprefix⟩ :=
    @process_selects sampleConfig cappedCode [] b sampleSort.rules hknown hbalance hdraw hnonResident hreserved
  rw [hrun] at hprocess
  have hws : winners = ws := congrArg BucketResult.awarded (Except.ok.inj hprocess)
  exact ⟨hknown, hbalance, hdraw, hnonResident, hreserved, hrun, more, hmore, hws ▸ hprefix⟩

end Bucket
end HuntDraw
