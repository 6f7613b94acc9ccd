import HuntDraw.Data.RunSort
import HuntDraw.Proofs.Data.Attempt
import Mathlib.Data.List.Perm.Basic
import Mathlib.Tactic

/-! The sort loses and invents nothing, whatever it compares by. Where the comparison never fails and
is that of a total preorder, the result is in order, and elements that compare equal keep theirs. -/

namespace HuntDraw.RunSort

open Attempt

variable {ε α : Type} {lt : α → α → Except ε Bool}

/-- One halving: the middle element decides on which side of it the placing goes on. -/
theorem place_eq_ok {x : α} {xs ys : List α} (h : place lt x xs = .ok ys) :
    (xs = [] ∧ ys = [x]) ∨ ∃ pre y post, xs = pre ++ y :: post ∧
      ((lt x y = .ok true ∧ ∃ zs, place lt x pre = .ok zs ∧ ys = zs ++ y :: post) ∨
        (lt x y = .ok false ∧ ∃ zs, place lt x post = .ok zs ∧ ys = pre ++ y :: zs)) := by
  cases xs with
  | nil => exact Or.inl ⟨rfl, by simpa [place, eq_comm] using h⟩
  | cons z zs =>
    right
    have hmid : (z :: zs).length / 2 < (z :: zs).length := by
      simp only [List.length_cons]; omega
    have hsplit : z :: zs = (z :: zs).take ((z :: zs).length / 2) ++
        (z :: zs)[(z :: zs).length / 2] :: (z :: zs).drop ((z :: zs).length / 2 + 1) := by
      rw [List.getElem_cons_drop, List.take_append_drop]
    rw [place, bind_eq_ok] at h
    obtain ⟨b, hb, h⟩ := h
    refine ⟨_, _, _, hsplit, ?_⟩
    cases b with
    | true =>
      simp only [if_true, bind_eq_ok, pure_eq_ok] at h
      obtain ⟨ws, hws, rfl⟩ := h
      refine Or.inl ⟨hb, ws, hws, ?_⟩
      rw [List.getElem_cons_drop]
    | false =>
      simp only [Bool.false_eq_true, if_false, bind_eq_ok, pure_eq_ok] at h
      obtain ⟨ws, hws, rfl⟩ := h
      refine Or.inr ⟨hb, ws, hws, ?_⟩
      rw [← List.take_append_getElem hmid, List.append_assoc, List.singleton_append]

/-- Placing puts the element somewhere and leaves the others as they are. -/
theorem place_split {x : α} {xs ys : List α} (h : place lt x xs = .ok ys) :
    ∃ pre post, xs = pre ++ post ∧ ys = pre ++ x :: post := by
  induction hn : xs.length using Nat.strong_induction_on generalizing xs ys with
  | _ n ih =>
    rcases place_eq_ok h with ⟨rfl, rfl⟩ | ⟨pre, y, post, rfl, hcase⟩
    · exact ⟨[], [], rfl, rfl⟩
    · simp only [List.length_append, List.length_cons] at hn
      rcases hcase with ⟨-, zs, hzs, rfl⟩ | ⟨-, zs, hzs, rfl⟩
      · obtain ⟨a, b, rfl, rfl⟩ := ih pre.length (by omega) hzs rfl
        exact ⟨a, b ++ y :: post, by simp, by simp⟩
      · obtain ⟨a, b, rfl, rfl⟩ := ih post.length (by omega) hzs rfl
        exact ⟨pre ++ y :: a, b, by simp, by simp⟩

theorem place_perm {x : α} {xs ys : List α} (h : place lt x xs = .ok ys) : ys.Perm (xs ++ [x]) := by
  obtain ⟨pre, post, rfl, rfl⟩ := place_split h
  exact List.perm_middle.trans (List.perm_append_singleton x _).symm

theorem takeRun_append {falling : Bool} {last : α} {xs run rest : List α}
    (h : takeRun lt falling last xs = .ok (run, rest)) : xs = run ++ rest := by
  induction xs generalizing last run with
  | nil => simp_all [takeRun]
  | cons x xs ih =>
    rw [takeRun, bind_eq_ok] at h
    obtain ⟨b, -, h⟩ := h
    split at h
    · simp only [bind_eq_ok, Prod.exists, pure_eq_ok, Prod.mk.injEq] at h
      obtain ⟨r, s, hr, rfl, rfl⟩ := h
      rw [ih hr, List.cons_append]
    · simp only [pure_eq_ok, Prod.mk.injEq] at h
      obtain ⟨rfl, rfl⟩ := h
      rfl

theorem firstRun_perm {a b : α} {xs run rest : List α} (h : firstRun lt a b xs = .ok (run, rest)) :
    (run ++ rest).Perm (a :: b :: xs) := by
  rw [firstRun, bind_eq_ok] at h
  obtain ⟨falling, -, h⟩ := h
  simp only [bind_eq_ok, Prod.exists, pure_eq_ok, Prod.mk.injEq] at h
  obtain ⟨r, s, hr, rfl, rfl⟩ := h
  rw [takeRun_append hr]
  split
  · exact (List.reverse_perm _).append_right s
  · exact List.Perm.refl _

theorem foldlM_place_perm {xs acc ys : List α}
    (h : xs.foldlM (fun acc x => place lt x acc) acc = .ok ys) : ys.Perm (acc ++ xs) := by
  induction xs generalizing acc with
  | nil => simp_all
  | cons x xs ih =>
    rw [List.foldlM_cons, bind_eq_ok] at h
    obtain ⟨zs, hzs, h⟩ := h
    have := (place_perm hzs).append_right xs
    exact (ih h).trans (by simpa using this)

/-- Sorting by any comparison gives back the elements that were there. -/
theorem sort_perm {xs ys : List α} (h : sort lt xs = .ok ys) : ys.Perm xs := by
  match xs with
  | [] => simp_all [sort]
  | [a] => simp_all [sort]
  | a :: b :: rest =>
    rw [sort, bind_eq_ok] at h
    obtain ⟨⟨run, rest'⟩, hrun, h⟩ := h
    exact (foldlM_place_perm h).trans (firstRun_perm hrun)

theorem place_total {x : α} {xs : List α} (h : ∀ y ∈ xs, ∃ b, lt x y = .ok b) :
    ∃ ys, place lt x xs = .ok ys := by
  induction hn : xs.length using Nat.strong_induction_on generalizing xs with
  | _ n ih =>
    cases xs with
    | nil => exact ⟨[x], by simp [place]⟩
    | cons z zs =>
      have hmid : (z :: zs).length / 2 < (z :: zs).length := by
        simp only [List.length_cons]; omega
      obtain ⟨b, hb⟩ := h _ (List.getElem_mem hmid)
      obtain ⟨us, hus⟩ := ih ((z :: zs).take ((z :: zs).length / 2)).length
        (by simp only [List.length_take]; omega) (fun y hy => h y (List.mem_of_mem_take hy)) rfl
      obtain ⟨vs, hvs⟩ := ih ((z :: zs).drop ((z :: zs).length / 2 + 1)).length
        (by simp only [List.length_drop]; omega) (fun y hy => h y (List.mem_of_mem_drop hy)) rfl
      rw [place]
      cases b with
      | true => exact ⟨_, bind_eq_ok.2 ⟨true, hb, bind_eq_ok.2 ⟨us, hus, rfl⟩⟩⟩
      | false => exact ⟨_, bind_eq_ok.2 ⟨false, hb, bind_eq_ok.2 ⟨vs, hvs, rfl⟩⟩⟩

theorem takeRun_total {falling : Bool} {last : α} {xs : List α}
    (h : ∀ x ∈ xs, ∀ y ∈ last :: xs, ∃ b, lt x y = .ok b) : ∃ r, takeRun lt falling last xs = .ok r := by
  induction xs generalizing last with
  | nil => exact ⟨_, rfl⟩
  | cons x xs ih =>
    obtain ⟨b, hb⟩ := h x (by simp) last (by simp)
    obtain ⟨r, hr⟩ : ∃ r, takeRun lt falling x xs = .ok r :=
      ih fun y hy z hz => h y (by simp [hy]) z (List.mem_cons_of_mem _ hz)
    rw [takeRun, hb]
    by_cases hf : (b == falling) = true
    · exact ⟨_, bind_eq_ok.2 ⟨b, rfl, by rw [if_pos hf, hr]; rfl⟩⟩
    · exact ⟨_, bind_eq_ok.2 ⟨b, rfl, by rw [if_neg hf]; rfl⟩⟩

theorem sort_total {xs : List α} (h : ∀ x ∈ xs, ∀ y ∈ xs, ∃ b, lt x y = .ok b) :
    ∃ ys, sort lt xs = .ok ys := by
  match xs with
  | [] => exact ⟨_, rfl⟩
  | [a] => exact ⟨_, rfl⟩
  | a :: b :: rest =>
    obtain ⟨falling, hf⟩ := h b (by simp) a (by simp)
    obtain ⟨r, hr⟩ : ∃ r, takeRun lt falling b rest = .ok r := takeRun_total
      fun x hx y hy => h x (by simp [hx]) y (List.mem_cons_of_mem _ hy)
    obtain ⟨run, hrun⟩ : ∃ run, firstRun lt a b rest = .ok run :=
      ⟨_, bind_eq_ok.2 ⟨falling, hf, bind_eq_ok.2 ⟨r, hr, rfl⟩⟩⟩
    have hmem : ∀ x ∈ run.1 ++ run.2, x ∈ a :: b :: rest := fun x => (firstRun_perm hrun).mem_iff.1
    -- what has been placed so far is made of elements of the list
    have hstep : ∀ acc x, x ∈ run.2 → (∀ y ∈ acc, y ∈ a :: b :: rest) →
        ∃ zs, place lt x acc = .ok zs ∧ ∀ y ∈ zs, y ∈ a :: b :: rest := by
      intro acc x hx hacc
      have hxm := hmem x (by simp [hx])
      obtain ⟨zs, hzs⟩ : ∃ zs, place lt x acc = .ok zs :=
        place_total fun y hy => h x hxm y (hacc y hy)
      refine ⟨zs, hzs, fun y hy => ?_⟩
      rcases List.mem_append.1 ((place_perm hzs).mem_iff.1 hy) with hy | hy
      · exact hacc y hy
      · exact List.mem_singleton.1 hy ▸ hxm
    obtain ⟨ys, hys, -⟩ := foldlM_total (b := run.1) _ hstep fun x hx => hmem x (by simp [hx])
    exact ⟨ys, bind_eq_ok.2 ⟨run, hrun, hys⟩⟩

-- from here on the comparison is that of a preorder
variable {cmp : α → α → Ordering}

/-- `ys` is `xs` put in order, with elements that compare equal left in theirs. -/
structure Arranged (cmp : α → α → Ordering) (xs ys : List α) : Prop where
  perm : ys.Perm xs
  sorted : ys.Pairwise fun a b => (cmp a b).isLE
  stable : ∀ a, ys.filter (cmp a · == .eq) = xs.filter (cmp a · == .eq)

/-- Each element of a run compares with the one before it as the run's direction says. -/
theorem takeRun_chain {falling : Bool} {last : α} {xs run rest : List α}
    (hlt : ∀ x ∈ xs, ∀ y ∈ last :: xs, lt x y = .ok (cmp x y == .lt))
    (h : takeRun lt falling last xs = .ok (run, rest)) :
    (last :: run).IsChain fun a b => (cmp b a == .lt) = falling := by
  induction xs generalizing last run with
  | nil => simp_all [takeRun]
  | cons x xs ih =>
    rw [takeRun, hlt x (by simp) last (by simp), bind_eq_ok] at h
    obtain ⟨b, hb, h⟩ := h
    rw [Except.ok.injEq] at hb
    subst hb
    split at h
    · simp only [bind_eq_ok, Prod.exists, pure_eq_ok, Prod.mk.injEq] at h
      obtain ⟨r, s, hr, rfl, rfl⟩ := h
      have hrest := ih (fun y hy z hz => hlt y (by simp [hy]) z (List.mem_cons_of_mem _ hz)) hr
      exact List.IsChain.cons_cons (by simpa using ‹(_ == falling) = true›) hrest
    · simp only [pure_eq_ok, Prod.mk.injEq] at h
      obtain ⟨rfl, rfl⟩ := h
      exact List.IsChain.singleton last

variable [Std.TransCmp cmp]

theorem isLE_of_not_lt {a b : α} (h : cmp a b ≠ .lt) : (cmp b a).isLE := by
  have hswap : cmp b a = (cmp a b).swap := Std.OrientedCmp.eq_swap
  rw [hswap]
  cases hab : cmp a b <;> simp_all

/-- In a sorted list placing finds the border between what is not greater and what is. -/
theorem place_border {x : α} {xs ys : List α} (hxs : xs.Pairwise fun a b => (cmp a b).isLE)
    (hlt : ∀ y ∈ xs, lt x y = .ok (cmp x y == .lt)) (h : place lt x xs = .ok ys) :
    ∃ pre post, xs = pre ++ post ∧ ys = pre ++ x :: post ∧
      (∀ y ∈ pre, cmp x y ≠ .lt) ∧ ∀ y ∈ post, cmp x y = .lt := by
  induction hn : xs.length using Nat.strong_induction_on generalizing xs ys with
  | _ n ih =>
    rcases place_eq_ok h with ⟨rfl, rfl⟩ | ⟨pre, y, post, rfl, hcase⟩
    · exact ⟨[], [], rfl, rfl, by simp, by simp⟩
    · simp only [List.length_append, List.length_cons] at hn
      obtain ⟨hpre, hrest, hcross⟩ := List.pairwise_append.1 hxs
      obtain ⟨hy, hpost⟩ := List.pairwise_cons.1 hrest
      rcases hcase with ⟨hxy, zs, hzs, rfl⟩ | ⟨hxy, zs, hzs, rfl⟩
      · rw [hlt y (by simp), Except.ok.injEq, beq_iff_eq] at hxy
        obtain ⟨a, b, rfl, rfl, ha, hb⟩ :=
          ih pre.length (by omega) hpre (fun z hz => hlt z (by simp [hz])) hzs rfl
        refine ⟨a, b ++ y :: post, by simp, by simp, ha, fun z hz => ?_⟩
        rcases List.mem_append.1 hz with hz | hz
        · exact hb z hz
        · rcases List.mem_cons.1 hz with rfl | hz
          · exact hxy
          · exact Std.TransCmp.lt_of_lt_of_isLE hxy (hy z hz)
      · rw [hlt y (by simp), Except.ok.injEq, beq_eq_false_iff_ne] at hxy
        obtain ⟨a, b, rfl, rfl, ha, hb⟩ :=
          ih post.length (by omega) hpost (fun z hz => hlt z (by simp [hz])) hzs rfl
        refine ⟨pre ++ y :: a, b, by simp, by simp, fun z hz => ?_, hb⟩
        have hle : ∀ w, (cmp w y).isLE → cmp x w ≠ .lt := fun w hw hlt =>
          hxy (Std.TransCmp.lt_of_lt_of_isLE hlt hw)
        rcases List.mem_append.1 hz with hz | hz
        · exact hle z (hcross z hz y (by simp))
        · rcases List.mem_cons.1 hz with rfl | hz
          · exact hxy
          · exact ha z hz

theorem Arranged.place {x : α} {xs acc ys : List α} (hacc : Arranged cmp xs acc)
    (hlt : ∀ y ∈ acc, lt x y = .ok (cmp x y == .lt)) (h : place lt x acc = .ok ys) :
    Arranged cmp (xs ++ [x]) ys := by
  obtain ⟨pre, post, rfl, rfl, hpre, hpost⟩ := place_border hacc.sorted hlt h
  obtain ⟨hs, ht, hst⟩ := List.pairwise_append.1 hacc.sorted
  refine ⟨?_, ?_, fun a => ?_⟩
  · exact (place_perm h).trans (hacc.perm.append_right [x])
  · refine List.pairwise_append.2 ⟨hs, List.pairwise_cons.2 ⟨fun y hy => ?_, ht⟩, fun y hy z hz => ?_⟩
    · rw [hpost y hy]; rfl
    · rcases List.mem_cons.1 hz with rfl | hz
      · exact isLE_of_not_lt (hpre y hy)
      · exact hst y hy z hz
  · have hold := hacc.stable a
    rw [List.filter_append] at hold ⊢
    rw [List.filter_append, List.filter_cons, ← hold]
    by_cases hax : cmp a x = .eq
    · -- what stands behind `x` is greater, so it does not compare equal to `a` either
      have hnone : post.filter (cmp a · == .eq) = [] := by
        rw [List.filter_eq_nil_iff]
        intro y hy hay
        have : cmp a y = cmp x y := Std.TransCmp.congr_left hax
        rw [hpost y hy, beq_iff_eq.1 hay] at this
        cases this
      simp [hax, hnone]
    · simp [hax]

theorem Arranged.foldlM_place {xs acc rest ys : List α} (hacc : Arranged cmp xs acc)
    (hlt : ∀ x ∈ rest, ∀ y ∈ xs ++ rest, lt x y = .ok (cmp x y == .lt))
    (h : rest.foldlM (fun acc x => RunSort.place lt x acc) acc = .ok ys) :
    Arranged cmp (xs ++ rest) ys := by
  induction rest generalizing xs acc with
  | nil => simp_all
  | cons x rest ih =>
    rw [List.foldlM_cons, bind_eq_ok] at h
    obtain ⟨zs, hzs, h⟩ := h
    have hx := hacc.place (fun y hy => hlt x (by simp) y (by simp [hacc.perm.mem_iff.1 hy])) hzs
    simpa using ih hx (fun y hy z hz => hlt y (by simp [hy]) z (by simpa using hz)) h

instance transIsLE : Trans (fun a b => (cmp a b).isLE = true) (fun a b => (cmp a b).isLE = true)
    (fun a b => (cmp a b).isLE = true) where
  trans := Std.TransCmp.isLE_trans

instance transGT : Trans (fun a b => cmp b a = .lt) (fun a b => cmp b a = .lt) (fun a b => cmp b a = .lt) where
  trans hab hbc := Std.TransCmp.lt_trans hbc hab

/-- Turning a strictly falling run round parts no two elements that compare equal. -/
theorem Arranged.reverse {xs : List α} (h : xs.Pairwise fun a b => cmp b a = .lt) :
    Arranged cmp xs xs.reverse := by
  refine ⟨List.reverse_perm xs, ?_, fun a => ?_⟩
  · exact List.pairwise_reverse.2 (h.imp fun hab => by rw [hab]; rfl)
  · -- at most one element of the run compares equal to `a`
    rw [List.filter_reverse]
    have hf := h.filter (cmp a · == .eq)
    have heq : ∀ y ∈ xs.filter (cmp a · == .eq), cmp a y = .eq := fun y hy =>
      beq_iff_eq.1 (List.mem_filter.1 hy).2
    match hxs : xs.filter (cmp a · == .eq) with
    | [] => rfl
    | [y] => rfl
    | y :: z :: rest =>
      rw [hxs] at hf heq
      have hzy := (List.pairwise_cons.1 hf).1 z (by simp)
      have : cmp a y = cmp z y := Std.TransCmp.congr_left (heq z (by simp))
      rw [heq y (by simp), hzy] at this
      cases this

theorem firstRun_arranged {a b : α} {xs run rest : List α}
    (hlt : ∀ x ∈ a :: b :: xs, ∀ y ∈ a :: b :: xs, lt x y = .ok (cmp x y == .lt))
    (h : firstRun lt a b xs = .ok (run, rest)) :
    ∃ front, a :: b :: xs = front ++ rest ∧ Arranged cmp front run := by
  rw [firstRun, hlt b (by simp) a (by simp), bind_eq_ok] at h
  obtain ⟨falling, hf, h⟩ := h
  simp only [bind_eq_ok, Prod.exists, pure_eq_ok, Prod.mk.injEq] at h
  obtain ⟨r, s, hr, rfl, rfl⟩ := h
  rw [Except.ok.injEq] at hf
  have hchain : (a :: b :: r).IsChain fun a b => (cmp b a == .lt) = falling :=
    List.IsChain.cons_cons hf
      (takeRun_chain (fun x hx y hy => hlt x (by simp [hx]) y (List.mem_cons_of_mem _ hy)) hr)
  refine ⟨a :: b :: r, by rw [takeRun_append hr]; rfl, ?_⟩
  cases falling with
  | true =>
    simp only [beq_iff_eq] at hchain
    exact Arranged.reverse (List.isChain_iff_pairwise.1 hchain)
  | false =>
    have hle : (a :: b :: r).IsChain fun a b => (cmp a b).isLE = true :=
      hchain.imp fun x y hxy => isLE_of_not_lt (by simpa using hxy)
    exact ⟨List.Perm.refl _, List.isChain_iff_pairwise.1 hle, fun _ => rfl⟩

/-- Where the comparison is that of a preorder, the sort is in order and stable. -/
theorem sort_arranged {xs ys : List α}
    (hlt : ∀ x ∈ xs, ∀ y ∈ xs, lt x y = .ok (cmp x y == .lt)) (h : sort lt xs = .ok ys) :
    Arranged cmp xs ys := by
  match xs with
  | [] => simp only [sort, Except.ok.injEq] at h; subst h; exact ⟨.refl _, .nil, fun _ => rfl⟩
  | [a] => simp only [sort, Except.ok.injEq] at h; subst h; exact ⟨.refl _, by simp, fun _ => rfl⟩
  | a :: b :: rest =>
    rw [sort, bind_eq_ok] at h
    obtain ⟨⟨run, rest'⟩, hrun, h⟩ := h
    obtain ⟨front, hfront, harr⟩ := firstRun_arranged hlt hrun
    rw [hfront] at hlt ⊢
    exact harr.foldlM_place (fun x hx y hy => hlt x (by simp [hx]) y hy) h

/-- Of two elements that the sort leaves in this order, the first is less, or was first before. -/
theorem Arranged.lt_or_precedes {xs ys : List α} (h : Arranged cmp xs ys) {a b : α}
    (hab : [a, b].Sublist ys) : cmp a b = .lt ∨ (cmp a b = .eq ∧ [a, b].Sublist xs) := by
  have hle : (cmp a b).isLE := by simpa using h.sorted.sublist hab
  cases hc : cmp a b with
  | lt => exact Or.inl rfl
  | gt => simp [hc] at hle
  | eq =>
    have haa : cmp a a = .eq := Std.ReflCmp.compare_self
    have hfilter : [a, b].filter (cmp a · == .eq) = [a, b] := by simp [haa, hc]
    have hsub := hab.filter (cmp a · == .eq)
    rw [hfilter, h.stable a] at hsub
    exact Or.inr ⟨rfl, hsub.trans List.filter_sublist⟩

end HuntDraw.RunSort
