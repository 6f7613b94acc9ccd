import HuntDraw.Draw.Ranking
import HuntDraw.Proofs.Data.RunSort
import HuntDraw.Proofs.Number.Order
import HuntDraw.Proofs.Text.Order

/-! Ranking compares applicants by the rules in turn, whichever applicant the fields are sampled from,
and so sorts them into the order of the rules, ties left in theirs. The rules are one total order of the
applicants of known residency whose points are numbers: the first rule that tells two of them apart
decides. -/

namespace HuntDraw

open Attempt

def Residency.IsKnown (r : Residency) : Prop := r = .resident ∨ r = .nonResident

instance (r : Residency) : Decidable r.IsKnown := inferInstanceAs (Decidable (_ ∨ _))

def Residency.rank : Residency → Nat
  | .resident => 1
  | _ => 0

theorem Residency.IsKnown.collates {r s : Residency} (hr : r.IsKnown) (hs : s.IsKnown) (numeric : Bool) :
    ∃ a b, CollationKey.ofText r.text numeric = .ok a ∧ CollationKey.ofText s.text numeric = .ok b ∧
      a.order b = compare r.rank s.rank := by
  rcases hr with rfl | rfl <;> rcases hs with rfl | rfl <;> cases numeric <;>
    exact ⟨_, _, rfl, rfl, by decide⟩

def SortField.order : SortField → Applicant → Applicant → Ordering
  | .number => compareOn Applicant.number
  | .age => compareOn Applicant.age
  | .residency => compareOn fun a => a.residency.rank
  | .points => fun a b => a.points.order b.points

def SortRule.order (r : SortRule) (a b : Applicant) : Ordering := r.direction.apply (r.field.order a b)

def Ranking.order : List SortRule → Applicant → Applicant → Ordering
  | [] => fun _ _ => .eq
  | r :: rest => compareLex r.order (Ranking.order rest)

instance (f : SortField) : Std.TransCmp f.order := by
  cases f with
  | number => exact inferInstanceAs (Std.TransCmp (compareOn _))
  | age => exact inferInstanceAs (Std.TransCmp (compareOn _))
  | residency => exact inferInstanceAs (Std.TransCmp (compareOn _))
  | points =>
    exact inferInstanceAs (Std.TransCmp (compareLex (compareOn fun a : Applicant => a.points.place.1)
      (compareOn fun a : Applicant => a.points.place.2)))

instance (r : SortRule) : Std.TransCmp r.order := by
  obtain ⟨f, d⟩ := r
  cases d with
  | ascending => exact inferInstanceAs (Std.TransCmp f.order)
  | descending =>
    have hswap : SortRule.order ⟨f, .descending⟩ = fun a b => f.order b a := by
      funext a b
      exact Std.OrientedCmp.eq_swap.symm
    rw [hswap]
    exact Std.TransCmp.opposite

namespace Ranking

instance (rules : List SortRule) : Std.TransCmp (order rules) := by
  induction rules with
  | nil => exact { eq_swap := rfl, isLE_trans := fun _ _ => rfl }
  | cons r rest ih => exact inferInstanceAs (Std.TransCmp (compareLex r.order (order rest)))

variable {rules : List SortRule} {sample a b : Applicant} {xs ys : List Applicant}

theorem rule_compare_eq {r : SortRule} (ha : a.residency.IsKnown) (hb : b.residency.IsKnown)
    (hap : a.points ≠ .nan) (hbp : b.points ≠ .nan) : r.compare sample a b = .ok (r.order a b) := by
  obtain ⟨f, d⟩ := r
  cases f with
  | number => rfl
  | age => rfl
  | residency =>
    obtain ⟨ka, kb, hka, hkb, hcmp⟩ := ha.collates hb (d = .descending)
    refine bind_eq_ok.2 ⟨ka, hka, bind_eq_ok.2 ⟨kb, hkb, ?_⟩⟩
    rw [hcmp]
    rfl
  | points =>
    have hcmp := Binary64.order?_eq hap hbp
    simp only [SortRule.compare, Applicant.value, FieldValue.isText, FieldValue.orderNumbers, hcmp]
    rfl

/-- Applicants of known residency with points that are numbers are compared by the rules in turn. -/
theorem compare_eq (ha : a.residency.IsKnown) (hb : b.residency.IsKnown) (hap : a.points ≠ .nan)
    (hbp : b.points ≠ .nan) : compare rules sample a b = .ok (order rules a b) := by
  induction rules with
  | nil => rfl
  | cons r rest ih =>
    rw [compare, bind_eq_ok]
    refine ⟨_, rule_compare_eq ha hb hap hbp, ?_⟩
    simp only [order, compareLex]
    cases r.order a b with
    | eq => exact ih
    | lt => rfl
    | gt => rfl

theorem rule_compare_total {r : SortRule} (ha : a.residency.IsKnown) (hb : b.residency.IsKnown) :
    ∃ o, r.compare sample a b = .ok o := by
  obtain ⟨f, d⟩ := r
  cases f with
  | number => exact ⟨_, rfl⟩
  | age => exact ⟨_, rfl⟩
  | residency =>
    obtain ⟨ka, kb, hka, hkb, -⟩ := ha.collates hb (d = .descending)
    exact ⟨_, bind_eq_ok.2 ⟨ka, hka, bind_eq_ok.2 ⟨kb, hkb, rfl⟩⟩⟩
  | points => exact ⟨_, rfl⟩

/-- Points that are no number do not make a comparison fail: they count as equal to all. -/
theorem compare_total (ha : a.residency.IsKnown) (hb : b.residency.IsKnown) :
    ∃ o, compare rules sample a b = .ok o := by
  induction rules with
  | nil => exact ⟨_, rfl⟩
  | cons r rest ih =>
    obtain ⟨o, ho⟩ : ∃ o, r.compare sample a b = .ok o := rule_compare_total ha hb
    obtain ⟨o', ho'⟩ := ih
    cases o with
    | eq => exact ⟨o', bind_eq_ok.2 ⟨_, ho, ho'⟩⟩
    | lt => exact ⟨_, bind_eq_ok.2 ⟨_, ho, rfl⟩⟩
    | gt => exact ⟨_, bind_eq_ok.2 ⟨_, ho, rfl⟩⟩

theorem sort_perm (h : sort rules xs = .ok ys) : ys.Perm xs := by
  cases xs with
  | nil => simp_all [sort]
  | cons a rest => exact RunSort.sort_perm h

theorem sort_total (h : ∀ a ∈ xs, a.residency.IsKnown) : ∃ ys, sort rules xs = .ok ys := by
  cases xs with
  | nil => exact ⟨_, rfl⟩
  | cons a rest =>
    apply RunSort.sort_total
    intro x hx y hy
    obtain ⟨o, ho⟩ : ∃ o, compare rules a x y = .ok o := compare_total (h x hx) (h y hy)
    exact ⟨_, map_eq_ok.2 ⟨o, ho, rfl⟩⟩

theorem sort_arranged (hknown : ∀ a ∈ xs, a.residency.IsKnown) (hpoints : ∀ a ∈ xs, a.points ≠ .nan)
    (h : sort rules xs = .ok ys) : RunSort.Arranged (order rules) xs ys := by
  cases xs with
  | nil =>
    simp only [sort, Except.ok.injEq] at h
    subst h
    exact ⟨.refl _, .nil, fun _ => rfl⟩
  | cons a rest =>
    refine RunSort.sort_arranged (fun x hx y hy => ?_) h
    rw [less, compare_eq (hknown x hx) (hknown y hy) (hpoints x hx) (hpoints y hy)]
    rfl

/-- Applicants that the rules tell apart have one order, whatever order they come in. -/
theorem sort_of_perm (hperm : ys.Perm xs) (hknown : ∀ a ∈ xs, a.residency.IsKnown)
    (hpoints : ∀ a ∈ xs, a.points ≠ .nan) (hties : ∀ a ∈ xs, ∀ b ∈ xs, order rules a b = .eq → a = b) :
    sort rules ys = sort rules xs := by
  obtain ⟨zs, hzs⟩ : ∃ zs, sort rules xs = .ok zs := sort_total hknown
  obtain ⟨zs', hzs'⟩ : ∃ zs', sort rules ys = .ok zs' := sort_total fun a ha => hknown a (hperm.mem_iff.1 ha)
  have harranged := sort_arranged hknown hpoints hzs
  have harranged' := sort_arranged (fun a ha => hknown a (hperm.mem_iff.1 ha))
    (fun a ha => hpoints a (hperm.mem_iff.1 ha)) hzs'
  have hsame : zs'.Perm zs := harranged'.perm.trans (hperm.trans harranged.perm.symm)
  rw [hzs, hzs']
  refine congrArg _ (hsame.eq_of_pairwise (fun a b ha hb hab hba => ?_) harranged'.sorted harranged.sorted)
  exact hties a (harranged.perm.mem_iff.1 (hsame.mem_iff.1 ha)) b (harranged.perm.mem_iff.1 hb)
    (Std.OrientedCmp.isLE_antisymm hab hba)

end Ranking

section Comparison

open Std

/-- An applicant that rules can rank: as a document may name it, with points that are a number. -/
structure Applicant.Ranks (a : Applicant) : Prop where
  known : a.residency.IsKnown
  counted : a.points ≠ .nan

/-- Ages and numbers compare as such, points by their values, and a non-resident comes before a resident. -/
def SortField.compares (f : SortField) (a b : Applicant) : Ordering :=
  match f with
  | .number => compare a.number b.number
  | .age => compare a.age b.age
  | .residency => compare a.residency.rank b.residency.rank
  | .points => compare a.points.extended b.points.extended

def SortRule.compares (r : SortRule) (a b : Applicant) : Ordering := r.direction.apply (r.field.compares a b)

namespace Ranking

/-- What rules say of two applicants: the first one that tells them apart decides, and they are tied where none does. -/
inductive Decides (rules : List SortRule) (a b : Applicant) : Ordering → Prop
  | tied (hties : ∀ r ∈ rules, r.compares a b = .eq) : Decides rules a b .eq
  | told {before : List SortRule} {r : SortRule} {after : List SortRule} (hrules : rules = before ++ r :: after)
      (hties : ∀ q ∈ before, q.compares a b = .eq) (htold : r.compares a b ≠ .eq) : Decides rules a b (r.compares a b)

variable {rules before : List SortRule} {a b : Applicant} {o : Ordering}

theorem order_eq_compares {r : SortRule} (ha : a.Ranks) (hb : b.Ranks) : r.order a b = r.compares a b := by
  obtain ⟨f, d⟩ := r
  cases f with
  | number => rfl
  | age => rfl
  | residency => rfl
  | points => exact congrArg d.apply (Binary64.order_eq_extended ha.counted hb.counted)

theorem order_append (hties : ∀ r ∈ before, r.order a b = .eq) : order (before ++ rules) a b = order rules a b := by
  induction before with
  | nil => rfl
  | cons r before ih =>
    obtain ⟨hr, hties⟩ := List.forall_mem_cons.1 hties
    rw [List.cons_append, order, compareLex, hr]
    exact ih hties

theorem Decides.later {r : SortRule} (hr : r.compares a b = .eq) (h : Decides rules a b o) :
    Decides (r :: rules) a b o := by
  cases h with
  | tied hties => exact .tied (List.forall_mem_cons.2 ⟨hr, hties⟩)
  | told hrules hties htold =>
    exact .told (congrArg (r :: ·) hrules) (List.forall_mem_cons.2 ⟨hr, hties⟩) htold

theorem decides_iff (ha : a.Ranks) (hb : b.Ranks) : Decides rules a b o ↔ order rules a b = o := by
  constructor
  · intro h
    cases h with
    | tied hties =>
      have hties : ∀ r ∈ rules, r.order a b = .eq := fun r hr => (order_eq_compares ha hb).trans (hties r hr)
      exact (congrArg (order · a b) rules.append_nil.symm).trans (order_append hties)
    | @told before r after hrules hties htold =>
      have hties : ∀ q ∈ before, q.order a b = .eq := fun q hq => (order_eq_compares ha hb).trans (hties q hq)
      rw [hrules, order_append hties, order, compareLex, order_eq_compares ha hb, then_of_ne htold]
  · rintro rfl
    induction rules with
    | nil => exact .tied (List.forall_mem_nil _)
    | cons r rest ih =>
      have hr : r.order a b = r.compares a b := order_eq_compares ha hb
      rw [order, compareLex, hr]
      by_cases htold : r.compares a b = .eq
      · rw [htold]
        exact ih.later htold
      · rw [then_of_ne htold]
        exact .told rfl (List.forall_mem_nil _) htold

/-- Rules rank applicants: whichever of them is the sample, the comparison is one and the same function, which turns
around with its arguments, is transitive, and follows the first rule that tells two applicants apart. Sorting by it
keeps the applicants, puts them in order, and leaves those that are tied as they were. -/
theorem sort_ranks (rules : List SortRule) (xs : List Applicant) (h : ∀ a ∈ xs, a.Ranks) :
    (∀ sample, ∀ a ∈ xs, ∀ b ∈ xs, compare rules sample a b = .ok (order rules a b) ∧
      order rules b a = (order rules a b).swap ∧ ∀ o, Decides rules a b o ↔ order rules a b = o) ∧
    (∀ a ∈ xs, ∀ b ∈ xs, ∀ c ∈ xs,
      ((order rules a b).isLE → (order rules b c).isLE → (order rules a c).isLE) ∧
      (order rules a b = .eq → order rules b c = .eq → order rules a c = .eq)) ∧
    ∃ ys, sort rules xs = .ok ys ∧ RunSort.Arranged (order rules) xs ys := by
  refine ⟨fun sample a ha b hb => ⟨?_, OrientedCmp.eq_swap, fun o => decides_iff (h a ha) (h b hb)⟩,
    fun a _ b _ c _ => ⟨TransCmp.isLE_trans, TransCmp.eq_trans⟩, ?_⟩
  · exact compare_eq (h a ha).known (h b hb).known (h a ha).counted (h b hb).counted
  · obtain ⟨ys, hys⟩ : ∃ ys, sort rules xs = .ok ys := sort_total fun a ha => (h a ha).known
    exact ⟨ys, hys, sort_arranged (fun a ha => (h a ha).known) (fun a ha => (h a ha).counted) hys⟩

/-- Residents before others, and the younger first: the two residents of one age are tied. -/
theorem sort_ranks_residents :
    let rules : List SortRule := [⟨.residency, .descending⟩, ⟨.age, .ascending⟩]
    let guest : Applicant := ⟨1, 20, .nonResident, .zero false, [], none, none, none⟩
    let first : Applicant := ⟨2, 40, .resident, .zero false, [], none, none, none⟩
    let second : Applicant := ⟨3, 40, .resident, .infinite false, [], none, none, none⟩
    let xs := [guest, first, second]
    (∀ a ∈ xs, a.Ranks) ∧ Decides rules first guest .lt ∧ compare rules guest first guest = .ok .lt ∧
      compare rules second first second = .ok .eq ∧
      ∃ ys, sort rules xs = .ok ys ∧ ys.Perm xs ∧ ys.filter (order rules first · == .eq) = [first, second] := by
  intro rules guest first second xs
  have hranks : ∀ a ∈ xs, a.Ranks := by
    rw [List.forall_mem_cons, List.forall_mem_cons, List.forall_mem_singleton]
    exact ⟨⟨by decide, by decide⟩, ⟨by decide, by decide⟩, ⟨by decide, by decide⟩⟩
  obtain ⟨hcompare, -, ys, hys, harranged⟩ := sort_ranks rules xs hranks
  obtain ⟨hguest, -, hdecides⟩ := hcompare guest first (by decide) guest (by decide)
  obtain ⟨hsecond, -, -⟩ := hcompare second first (by decide) second (by decide)
  have hlt : order rules first guest = .lt := by decide
  have htied : order rules first second = .eq := by decide
  refine ⟨hranks, (hdecides .lt).2 hlt, hguest.trans (congrArg _ hlt), hsecond.trans (congrArg _ htied),
    ys, hys, harranged.perm, (harranged.stable first).trans (by decide)⟩

end Ranking

end Comparison

end HuntDraw
