import HuntDraw.Draw.Bucket
import HuntDraw.Proofs.Data.Keys
import Mathlib.Tactic

/-! The buckets of a round: one for each drawn code that is named, in the order in which the codes are
first named, and in it, in input order, whoever names the code. Nobody else stands anywhere. -/

namespace HuntDraw

open Attempt

/-- An ordinal counted from one is a place in the list of choices, or beyond it. -/
theorem Applicant.choice?_eq (a : Applicant) {k : Nat} (hk : 1 ≤ k) :
    a.choice? k = .ok a.choices[k - 1]? := by
  have hindex : ((k : Int) - 1).toNat = k - 1 := by omega
  have hone : (1 : Int) ≤ k := by omega
  have hneg : ¬(k : Int) - 1 < 0 := by omega
  by_cases hlen : (a.choices.length : Int) < k
  · rw [Applicant.choice?, if_pos hlen, List.getElem?_eq_none (by omega)]
  · simp only [Applicant.choice?, hlen, if_false, hone, if_true, hneg, hindex]

namespace Bucket

/-- The code in whose bucket an applicant stands in a round: the choice of that round, unless it is
blank or not drawn. -/
def place? (codes : List String) (k : Nat) (a : Applicant) : Option String :=
  a.choices[k - 1]?.filter fun c => c ≠ "" ∧ c ∈ codes

def ofRound (codes : List String) (k : Nat) (xs : List Applicant) : List Bucket :=
  (xs.filterMap (place? codes k)).eraseDups.map fun c => ⟨c, k, xs.filter (place? codes k · = some c)⟩

variable {codes : List String} {k : Nat} {a : Applicant} {c : String} {xs : List Applicant} {b : Bucket}

theorem place?_eq_some :
    place? codes k a = some c ↔ a.choices[k - 1]? = some c ∧ c ≠ "" ∧ c ∈ codes := by
  simp [place?, Option.filter_eq_some_iff]

theorem placeStep_eq (bs : List Bucket) :
    placeStep codes k bs (a, a.choices[k - 1]?) =
      match place? codes k a with
      | some c => add k c a bs
      | none => bs := by
  cases hc : a.choices[k - 1]? with
  | none => simp [placeStep, place?, hc]
  | some c => by_cases h : c ≠ "" ∧ c ∈ codes <;> simp [placeStep, place?, hc, h, Option.filter_some]

theorem add_of_notMem {ordinal : Int} {bs : List Bucket} (h : c ∉ bs.map Bucket.code) :
    add ordinal c a bs = bs ++ [⟨c, ordinal, [a]⟩] := by
  induction bs with
  | nil => rfl
  | cons b bs ih =>
    simp only [List.map_cons, List.mem_cons, not_or] at h
    simp [add, Ne.symm h.1, ih h.2]

theorem add_of_mem {ordinal : Int} {ds : List String} (f : String → List Applicant) (hds : ds.Nodup)
    (h : c ∈ ds) :
    add ordinal c a (ds.map fun d => ⟨d, ordinal, f d⟩) =
      ds.map fun d => ⟨d, ordinal, if d = c then f d ++ [a] else f d⟩ := by
  induction ds with
  | nil => simp at h
  | cons d ds ih =>
    obtain ⟨hd, hds⟩ := List.nodup_cons.1 hds
    by_cases hdc : d = c
    · subst hdc
      simp only [List.map_cons, add, if_true, List.cons.injEq, true_and]
      apply List.map_congr_left
      intro e he
      rw [if_neg (ne_of_mem_of_not_mem he hd)]
    · simp [add, hdc, ih hds ((List.mem_cons.1 h).resolve_left (Ne.symm hdc))]

theorem foldl_placeStep_eq (codes : List String) (k : Nat) (xs : List Applicant) :
    xs.foldl (fun bs a => placeStep codes k bs (a, a.choices[k - 1]?)) [] = ofRound codes k xs := by
  induction xs using List.reverseRecOn with
  | nil => rfl
  | append_singleton xs a ih =>
    rw [List.foldl_concat, ih, placeStep_eq]
    cases hp : place? codes k a with
    | none => simp [ofRound, hp]
    | some c =>
      simp only [ofRound, List.filterMap_append, List.filterMap_cons, hp, List.filterMap_nil,
        eraseDups_concat, List.filter_append, List.filter_cons, List.filter_nil, Option.some.injEq,
        decide_eq_true_eq]
      by_cases hc : c ∈ xs.filterMap (place? codes k)
      · rw [if_pos hc, add_of_mem _ (nodup_eraseDups _) (List.mem_eraseDups.2 hc)]
        apply List.map_congr_left
        intro d _
        by_cases hdc : d = c
        · simp [hdc]
        · simp [hdc, Ne.symm hdc]
      · -- nobody before stands in the bucket of `c`
        have hnone : xs.filter (place? codes k · = some c) = [] := by
          rw [List.filter_eq_nil_iff]
          intro b hb hbc
          exact hc (List.mem_filterMap.2 ⟨b, hb, by simpa using hbc⟩)
        rw [if_neg hc, add_of_notMem, List.map_append]
        · congr 1
          · apply List.map_congr_left
            intro d hd
            have hdc : c ≠ d := fun h => hc (h ▸ List.mem_eraseDups.1 hd)
            simp [hdc]
          · simp [hnone]
        · simpa using hc

theorem group_eq (codes : List String) (xs : List Applicant) {k : Nat} (hk : 1 ≤ k) :
    group codes xs k = .ok (ofRound codes k xs) := by
  rw [group, bind_eq_ok]
  refine ⟨xs.map fun a => (a, a.choices[k - 1]?), ?_, ?_⟩
  · rw [mapM_eq_ok, List.forall₂_map_right_iff]
    exact List.forall₂_same.2 fun a _ => map_eq_ok.2 ⟨_, a.choice?_eq hk, rfl⟩
  · rw [List.foldl_map, foldl_placeStep_eq]
    rfl

end Bucket
end HuntDraw

namespace HuntDraw.Bucket

variable {codes : List String} {k : Nat} {a : Applicant} {xs : List Applicant} {c : String}

/-- Nothing places the applicant in a round: there is no such choice, or it is blank or not drawn. -/
def Unplaced (codes : List String) (k : Nat) (a : Applicant) : Prop :=
  a.choices.length < k ∨ ∃ c, a.choices[k - 1]? = some c ∧ (c = "" ∨ c ∉ codes)

instance (codes : List String) (k : Nat) (a : Applicant) : Decidable (Unplaced codes k a) :=
  match h : a.choices[k - 1]? with
  | none => decidable_of_iff (a.choices.length < k) (by simp [Unplaced, h])
  | some c => decidable_of_iff (a.choices.length < k ∨ c = "" ∨ c ∉ codes) (by simp [Unplaced, h])

structure Partition (codes : List String) (k : Nat) (xs : List Applicant) (bs : List Bucket) : Prop where
  distinct : (bs.map code).Nodup
  drawn : ∀ b ∈ bs, b.code ∈ codes
  filled : ∀ b ∈ bs, b.applicants ≠ []
  numbered : ∀ b ∈ bs, b.ordinal = k
  /-- In input order, and as often as in the input. -/
  members : ∀ b ∈ bs, b.applicants = xs.filter fun a => a.choices[k - 1]? = some b.code
  /-- By the first applicant in each. -/
  ordered : bs.Pairwise fun b d =>
    xs.findIdx (fun a => a.choices[k - 1]? = some b.code) < xs.findIdx fun a => a.choices[k - 1]? = some d.code
  left : ∀ a ∈ xs, (∀ b ∈ bs, a ∉ b.applicants) ↔ Unplaced codes k a
  whole : (bs.flatMap applicants).Perm (xs.filter fun a => ¬Unplaced codes k a)

theorem place?_eq_none (hk : 1 ≤ k) : place? codes k a = none ↔ Unplaced codes k a := by
  have hchoice : a.choices.length < k ↔ a.choices[k - 1]? = none := by
    rw [List.getElem?_eq_none_iff]
    omega
  rw [Unplaced, hchoice]
  cases h : a.choices[k - 1]? with
  | none => simp [place?, h]
  | some c => simp [place?, h, Option.filter_eq_none_iff]; tauto

theorem place?_eq_iff (hblank : c ≠ "") (hdrawn : c ∈ codes) : place? codes k a = some c ↔ a.choices[k - 1]? = some c := by
  simp [place?_eq_some, hblank, hdrawn]

section Keys

variable {f : Applicant → Option String}

/-- Where the first one with a key stands does not depend on what follows. -/
theorem findIdx_append_of_mem (h : c ∈ xs.filterMap f) (ys : List Applicant) :
    (xs ++ ys).findIdx (f · = some c) = xs.findIdx (f · = some c) ∧ xs.findIdx (f · = some c) < xs.length := by
  obtain ⟨a, ha, hfa⟩ := List.mem_filterMap.1 h
  have hlt : xs.findIdx (f · = some c) < xs.length := List.findIdx_lt_length_of_exists ⟨a, ha, by simpa using hfa⟩
  exact ⟨by rw [List.findIdx_append, if_pos hlt], hlt⟩

/-- Keys without their repetitions stand in the order of those who have them first. -/
theorem eraseDups_filterMap_ordered (f : Applicant → Option String) (xs : List Applicant) :
    (xs.filterMap f).eraseDups.Pairwise fun c d => xs.findIdx (f · = some c) < xs.findIdx (f · = some d) := by
  induction xs using List.reverseRecOn with
  | nil => exact List.Pairwise.nil
  | append_singleton xs a ih =>
    have hbefore : (xs.filterMap f).eraseDups.Pairwise fun c d =>
        (xs ++ [a]).findIdx (f · = some c) < (xs ++ [a]).findIdx (f · = some d) := by
      refine ih.imp_of_mem fun {c d} hc hd hlt => ?_
      rwa [(findIdx_append_of_mem (List.mem_eraseDups.1 hc) [a]).1, (findIdx_append_of_mem (List.mem_eraseDups.1 hd) [a]).1]
    cases hfa : f a with
    | none => simpa [hfa] using hbefore
    | some d =>
      rw [List.filterMap_append, List.filterMap_cons_some hfa, List.filterMap_nil, eraseDups_concat]
      split_ifs with hd
      · exact hbefore
      · refine List.pairwise_append.2 ⟨hbefore, List.pairwise_singleton _ _, fun c hc e he => ?_⟩
        obtain rfl := List.mem_singleton.1 he
        have hnobody : ¬xs.findIdx (f · = some e) < xs.length := fun hlt => by
          refine hd (List.mem_filterMap.2 ⟨xs[xs.findIdx (f · = some e)], List.getElem_mem hlt, ?_⟩)
          simpa using List.findIdx_getElem (w := hlt)
        obtain ⟨hsame, hlt⟩ := findIdx_append_of_mem (List.mem_eraseDups.1 hc) [a]
        rw [hsame, List.findIdx_append, if_neg hnobody]
        omega

/-- The members of different keys, put together, are all who have one of the keys. -/
theorem flatMap_filter_perm {cs : List String} (hcs : cs.Nodup) (xs : List Applicant) :
    (cs.flatMap fun c => xs.filter (f · = some c)).Perm (xs.filter fun a => ∃ c ∈ cs, f a = some c) := by
  have hkeys : (cs.map some).Nodup := hcs.map (Option.some_injective _)
  rw [← List.flatMap_map some fun k => xs.filter (f · = k)]
  refine (flatMap_filter_key_perm hkeys xs).trans (.of_eq (List.filter_congr fun a _ => ?_))
  simp [eq_comm]

end Keys

theorem exists_key_iff (ha : a ∈ xs) :
    (∃ c ∈ (xs.filterMap (place? codes k)).eraseDups, place? codes k a = some c) ↔ place? codes k a ≠ none := by
  rw [Option.ne_none_iff_exists']
  exact ⟨fun ⟨c, _, hc⟩ => ⟨c, hc⟩, fun ⟨c, hc⟩ => ⟨c, List.mem_eraseDups.2 (List.mem_filterMap.2 ⟨a, ha, hc⟩), hc⟩⟩

theorem ofRound_partition (codes : List String) (xs : List Applicant) (hk : 1 ≤ k) :
    Partition codes k xs (ofRound codes k xs) := by
  have hkey : ∀ c ∈ (xs.filterMap (place? codes k)).eraseDups, c ≠ "" ∧ c ∈ codes := fun c hc => by
    obtain ⟨a, -, ha⟩ := List.mem_filterMap.1 (List.mem_eraseDups.1 hc)
    exact (place?_eq_some.1 ha).2
  have hnames : ∀ c ∈ (xs.filterMap (place? codes k)).eraseDups, ∀ a : Applicant,
      decide (place? codes k a = some c) = decide (a.choices[k - 1]? = some c) := fun c hc a =>
    decide_eq_decide.2 (place?_eq_iff (hkey c hc).1 (hkey c hc).2)
  constructor
  case distinct =>
    rw [ofRound, List.map_map]
    exact (List.map_id _).symm ▸ nodup_eraseDups _
  case drawn => exact List.forall_mem_map.2 fun c hc => (hkey c hc).2
  case filled =>
    refine List.forall_mem_map.2 fun c hc hnone => ?_
    obtain ⟨a, ha, hplace⟩ := List.mem_filterMap.1 (List.mem_eraseDups.1 hc)
    simpa [hplace] using List.filter_eq_nil_iff.1 hnone a ha
  case numbered => exact List.forall_mem_map.2 fun c _ => rfl
  case members => exact List.forall_mem_map.2 fun c hc => List.filter_congr fun a _ => hnames c hc a
  case ordered =>
    refine List.pairwise_map.2 ((eraseDups_filterMap_ordered (place? codes k) xs).imp_of_mem fun {c d} hc hd hlt => ?_)
    simpa only [hnames c hc, hnames d hd] using hlt
  case left =>
    intro a ha
    rw [← place?_eq_none hk, ← not_iff_not, ← Ne, ← exists_key_iff ha, ofRound, List.forall_mem_map]
    simp only [List.mem_filter, ha, true_and, decide_eq_true_eq, not_forall, not_not, exists_prop]
  case whole =>
    rw [ofRound, List.flatMap_map]
    refine (flatMap_filter_perm (nodup_eraseDups _) xs).trans (.of_eq (List.filter_congr fun a ha => ?_))
    rw [decide_eq_decide, exists_key_iff ha, Ne, place?_eq_none hk]

theorem Partition.unique {bs ds : List Bucket} (h : Partition codes k xs bs) (h' : Partition codes k xs ds) : bs = ds := by
  have hsub : ∀ {bs ds : List Bucket}, Partition codes k xs bs → Partition codes k xs ds → ∀ b ∈ bs, b ∈ ds := by
    intro bs ds h h' b hb
    -- whoever stands in the bucket is placed by the other buckets as well, and by the same code
    obtain ⟨a, ha⟩ := List.exists_mem_of_ne_nil _ (h.filled b hb)
    obtain ⟨haxs, hchoice⟩ := List.mem_filter.1 (h.members b hb ▸ ha)
    have hplaced : ¬Unplaced codes k a := fun hun => (h.left a haxs).2 hun b hb ha
    obtain ⟨d, hd, had⟩ : ∃ d ∈ ds, a ∈ d.applicants := by
      simpa using mt (h'.left a haxs).1 hplaced
    have hcode : b.code = d.code := by
      have hchoice' := (List.mem_filter.1 (h'.members d hd ▸ had)).2
      rw [decide_eq_true_eq] at hchoice hchoice'
      exact Option.some.inj (hchoice.symm.trans hchoice')
    have hbd : b = d := by
      have happlicants := h.members b hb
      rw [hcode, ← h'.members d hd] at happlicants
      have hordinal := (h.numbered b hb).trans (h'.numbered d hd).symm
      obtain ⟨code, ordinal, applicants⟩ := b
      obtain ⟨code', ordinal', applicants'⟩ := d
      obtain rfl : code = code' := hcode
      obtain rfl : ordinal = ordinal' := hordinal
      obtain rfl : applicants = applicants' := happlicants
      rfl
    exact hbd ▸ hd
  have hperm : bs.Perm ds := (List.perm_ext_iff_of_nodup h.distinct.of_map h'.distinct.of_map).2 fun b =>
    ⟨hsub h h' b, hsub h' h b⟩
  exact hperm.eq_of_pairwise (fun b d _ _ hbd hdb => absurd hbd hdb.asymm) h.ordered h'.ordered

/-- In every round those who are placed are parted into buckets, in the one way that there is. -/
theorem group_partitions (codes : List String) (xs : List Applicant) (hk : 1 ≤ k) :
    ∃ bs, group codes xs k = .ok bs ∧ Partition codes k xs bs ∧ ∀ ds, Partition codes k xs ds → ds = bs :=
  ⟨_, group_eq codes xs hk, ofRound_partition codes xs hk, fun _ h => h.unique (ofRound_partition codes xs hk)⟩

def placedApplicant (number : Int) (choices : List String) : Applicant :=
  ⟨number, 30, .resident, .ofNat 0, choices, none, none, none⟩

/-- The code that is named first goes first, whoever stands in the input twice stands in the bucket twice, and blanks
place nobody even where the blank code is drawn. -/
theorem group_partitions_second :
    let first := placedApplicant 1 ["HC1", "HC2"]
    let twice := placedApplicant 2 ["HC2", "HC1"]
    let xs := [placedApplicant 3 ["HC1", ""], twice, first, twice, placedApplicant 4 ["HC1", "HC9"],
      placedApplicant 5 ["HC1"]]
    let bs : List Bucket := [⟨"HC1", 2, [twice, twice]⟩, ⟨"HC2", 2, [first]⟩]
    1 ≤ 2 ∧ group ["HC2", "HC1", ""] xs 2 = .ok bs ∧ Partition ["HC2", "HC1", ""] 2 xs bs ∧
      ∀ ds, Partition ["HC2", "HC1", ""] 2 xs ds → ds = bs := by
  intro first twice xs bs
  have hk : 1 ≤ 2 := by decide
  have hgroup : group ["HC2", "HC1", ""] xs 2 = .ok bs := by decide +kernel
  obtain ⟨bs', hbs', hparts⟩ := group_partitions ["HC2", "HC1", ""] xs hk
  obtain rfl := Except.ok.inj (hbs'.symm.trans hgroup)
  exact ⟨hk, hgroup, hparts⟩

end HuntDraw.Bucket
