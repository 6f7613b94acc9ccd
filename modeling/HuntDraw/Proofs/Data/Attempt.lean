import Mathlib.Data.List.Perm.Basic

/-! Steps that may fail, one after the other: what it takes for a chain of them to succeed, and what
a property kept by each of them says of the whole chain. -/

namespace HuntDraw.Attempt

variable {ε α β : Type}

theorem ok_bind (a : α) (f : α → Except ε β) : Except.ok a >>= f = f a := rfl

theorem bind_eq_ok {x : Except ε α} {f : α → Except ε β} {b : β} :
    x >>= f = .ok b ↔ ∃ a, x = .ok a ∧ f a = .ok b := by
  cases x <;> simp [bind, Except.bind]

theorem bind_eq_error {x : Except ε α} {f : α → Except ε β} {e : ε} :
    x >>= f = .error e ↔ x = .error e ∨ ∃ a, x = .ok a ∧ f a = .error e := by
  cases x <;> simp [bind, Except.bind]

theorem map_eq_ok {x : Except ε α} {f : α → β} {b : β} :
    f <$> x = .ok b ↔ ∃ a, x = .ok a ∧ f a = b := by
  cases x <;> simp [Functor.map, Except.map]

theorem map_eq_error {x : Except ε α} {f : α → β} {e : ε} : f <$> x = .error e ↔ x = .error e := by
  cases x <;> simp [Functor.map, Except.map]

theorem mapError_eq_ok {δ : Type} {x : Except ε α} {f : ε → δ} {a : α} : x.mapError f = .ok a ↔ x = .ok a := by
  cases x <;> simp [Except.mapError]

theorem mapError_eq_error {δ : Type} {x : Except ε α} {f : ε → δ} {d : δ} :
    x.mapError f = .error d ↔ ∃ e, x = .error e ∧ f e = d := by
  cases x <;> simp [Except.mapError]

theorem isOk_iff {x : Except ε α} : x.isOk ↔ ∃ a, x = .ok a := by
  cases x <;> simp [Except.isOk, Except.toBool]

@[simp] theorem pure_eq_ok {a b : α} : (pure a : Except ε α) = .ok b ↔ a = b := by
  simp [pure, Except.pure]

theorem mapM_eq_ok {f : α → Except ε β} {xs : List α} {ys : List β} :
    xs.mapM f = .ok ys ↔ List.Forall₂ (fun x y => f x = .ok y) xs ys := by
  induction xs generalizing ys with
  | nil => cases ys <;> simp
  | cons x xs ih =>
    simp only [List.mapM_cons, bind_eq_ok, pure_eq_ok, ih, List.forall₂_cons_left_iff]
    constructor
    · rintro ⟨y, hy, zs, hzs, rfl⟩
      exact ⟨y, zs, hy, hzs, rfl⟩
    · rintro ⟨y, zs, hy, hzs, rfl⟩
      exact ⟨y, hy, zs, hzs, rfl⟩

/-- Every outcome is that of an element, and every element has an outcome. -/
theorem mapM_mem {f : α → Except ε β} {xs : List α} {ys : List β} (h : xs.mapM f = .ok ys) :
    (∀ y ∈ ys, ∃ x ∈ xs, f x = .ok y) ∧ ∀ x ∈ xs, ∃ y ∈ ys, f x = .ok y := by
  induction mapM_eq_ok.1 h with
  | nil => simp
  | cons hxy hrest ih =>
    obtain ⟨ihy, ihx⟩ := ih (mapM_eq_ok.2 hrest)
    exact ⟨List.forall_mem_cons.2 ⟨⟨_, List.mem_cons_self, hxy⟩, fun y hy =>
        (ihy y hy).imp fun _ hx => ⟨List.mem_cons_of_mem _ hx.1, hx.2⟩⟩,
      List.forall_mem_cons.2 ⟨⟨_, List.mem_cons_self, hxy⟩, fun x hx =>
        (ihx x hx).imp fun _ hy => ⟨List.mem_cons_of_mem _ hy.1, hy.2⟩⟩⟩

/-- What each outcome keeps of its element, the outcomes keep of the elements. -/
theorem mapM_map_eq {γ : Type} {f : α → Except ε β} {g : α → γ} {g' : β → γ} {xs : List α} {ys : List β}
    (h : xs.mapM f = .ok ys) (hg : ∀ x ∈ xs, ∀ y, f x = .ok y → g' y = g x) : ys.map g' = xs.map g := by
  induction mapM_eq_ok.1 h with
  | nil => rfl
  | cons hxy hrest ih =>
    rw [List.map_cons, List.map_cons, hg _ List.mem_cons_self _ hxy,
      ih (mapM_eq_ok.2 hrest) fun x hx => hg x (List.mem_cons_of_mem _ hx)]

/-- Elements in another order have their outcomes in another order. -/
theorem mapM_perm {f : α → Except ε β} {xs xs' : List α} {ys : List β} (hperm : xs'.Perm xs)
    (h : xs.mapM f = .ok ys) : ∃ ys', xs'.mapM f = .ok ys' ∧ ys'.Perm ys := by
  obtain ⟨ys', hys', hys⟩ := List.perm_comp_forall₂ hperm (mapM_eq_ok.1 h)
  exact ⟨ys', mapM_eq_ok.2 hys', hys⟩

theorem mapM_map_eq_ok {f : β → Except ε α} {g : α → β} (h : ∀ x, f (g x) = .ok x) (xs : List α) :
    (xs.map g).mapM f = .ok xs := by
  rw [mapM_eq_ok, List.forall₂_map_left_iff]
  exact List.forall₂_same.2 fun x _ => h x

theorem mapM_total {f : α → Except ε β} {xs : List α} (h : ∀ x ∈ xs, ∃ y, f x = .ok y) :
    ∃ ys, xs.mapM f = .ok ys := by
  induction xs with
  | nil => exact ⟨[], rfl⟩
  | cons x xs ih =>
    obtain ⟨y, hy⟩ := h x (by simp)
    obtain ⟨ys, hys⟩ := ih fun z hz => h z (by simp [hz])
    exact ⟨y :: ys, by rw [mapM_eq_ok] at hys ⊢; exact .cons hy hys⟩

def First (fails : Nat → ε → Prop) (e : ε) : Prop := ∃ k, fails k e ∧ ∀ j < k, ∀ e', ¬fails j e'

theorem First.unique {fails : Nat → ε → Prop} (hfails : ∀ {k e e'}, fails k e → fails k e' → e = e') {e e' : ε}
    (h : First fails e) (h' : First fails e') : e = e' := by
  obtain ⟨k, hk, hbefore⟩ := h
  obtain ⟨k', hk', hbefore'⟩ := h'
  rcases Nat.lt_trichotomy k k' with hlt | rfl | hlt
  · exact absurd hk (hbefore' k hlt e)
  · exact hfails hk hk'
  · exact absurd hk' (hbefore k' hlt e')

theorem first_map {δ : Type} {fails : Nat → ε → Prop} {f : ε → δ} {d : δ} :
    First (fun k d => ∃ e, d = f e ∧ fails k e) d ↔ ∃ e, d = f e ∧ First fails e := by
  constructor
  · rintro ⟨k, ⟨e, rfl, hk⟩, hbefore⟩
    exact ⟨e, rfl, k, hk, fun j hj e' he' => hbefore j hj _ ⟨e', rfl, he'⟩⟩
  · rintro ⟨e, rfl, k, hk, hbefore⟩
    exact ⟨k, ⟨e, rfl, hk⟩, fun j hj d ⟨e', _, he'⟩ => hbefore j hj e' he'⟩

/-- The first failure is at the first place, or where there is none it is the first one at the places behind. -/
theorem first_iff {fails : Nat → ε → Prop} {e : ε} :
    First fails e ↔ fails 0 e ∨ (∀ e', ¬fails 0 e') ∧ First (fun k => fails (k + 1)) e := by
  constructor
  · rintro ⟨k, hk, hbefore⟩
    cases k with
    | zero => exact .inl hk
    | succ k =>
      exact .inr ⟨hbefore 0 k.succ_pos, k, hk, fun j hj => hbefore (j + 1) (Nat.succ_lt_succ hj)⟩
  · rintro (hzero | ⟨hzero, k, hk, hbefore⟩)
    · exact ⟨0, hzero, fun j hj => absurd hj j.not_lt_zero⟩
    · refine ⟨k + 1, hk, fun j hj => ?_⟩
      cases j with
      | zero => exact hzero
      | succ j => exact hbefore j (Nat.lt_of_succ_lt_succ hj)

theorem mapM_eq_error {f : α → Except ε β} {xs : List α} {e : ε} :
    xs.mapM f = .error e ↔ First (fun k e => ∃ x, xs[k]? = some x ∧ f x = .error e) e := by
  induction xs with
  | nil => simp [First, pure, Except.pure]
  | cons x xs ih =>
    rw [first_iff, List.mapM_cons, bind_eq_error]
    simp only [List.getElem?_cons_zero, List.getElem?_cons_succ, Option.some.injEq, exists_eq_left', ← ih]
    cases hx : f x with
    | error e' => simp
    | ok y => simp [bind_eq_error, pure, Except.pure]

theorem mapM_error {f : α → Except ε β} {xs : List α} {e : ε} (h : xs.mapM f = .error e) :
    ∃ x ∈ xs, f x = .error e := by
  obtain ⟨k, ⟨x, hx, hfails⟩, -⟩ := mapM_eq_error.1 h
  exact ⟨x, List.mem_of_getElem? hx, hfails⟩

theorem foldlM_preserves {f : β → α → Except ε β} (P : β → Prop) {xs : List α} {b c : β}
    (hstep : ∀ b x c, x ∈ xs → f b x = .ok c → P b → P c) (h : xs.foldlM f b = .ok c) (hb : P b) :
    P c := by
  induction xs generalizing b with
  | nil => simp_all
  | cons x xs ih =>
    rw [List.foldlM_cons, bind_eq_ok] at h
    obtain ⟨d, hd, hc⟩ := h
    exact ih (fun b y c hy => hstep b y c (by simp [hy])) hc (hstep b x d (by simp) hd hb)

/-- A chain succeeds when every step does from the states that the steps before it lead to. -/
theorem foldlM_total {f : β → α → Except ε β} (P : β → Prop) {xs : List α} {b : β}
    (hstep : ∀ b x, x ∈ xs → P b → ∃ c, f b x = .ok c ∧ P c) (hb : P b) :
    ∃ c, xs.foldlM f b = .ok c ∧ P c := by
  induction xs generalizing b with
  | nil => exact ⟨b, rfl, hb⟩
  | cons x xs ih =>
    obtain ⟨d, hd, hP⟩ := hstep b x (by simp) hb
    obtain ⟨c, hc, hPc⟩ := ih (fun b y hy => hstep b y (by simp [hy])) hP
    exact ⟨c, by rw [List.foldlM_cons, hd]; exact hc, hPc⟩

end HuntDraw.Attempt
