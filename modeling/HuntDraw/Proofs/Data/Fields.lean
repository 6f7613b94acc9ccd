import HuntDraw.Data.Json
import Mathlib.Data.List.Nodup

/-! Mappings in the order of first insertion. Setting a key that is there changes its entry alone,
and pairs with different keys make the mapping that they are. -/

namespace HuntDraw.Fields

variable {α : Type} {m : Fields α}

@[simp] theorem keys_nil : keys ([] : Fields α) = [] := rfl

@[simp] theorem keys_cons (e : String × α) : keys (e :: m) = e.1 :: keys m := rfl

@[simp] theorem get?_nil (k : String) : get? ([] : Fields α) k = none := rfl

theorem get?_cons (k k' : String) (v : α) : get? ((k, v) :: m) k' = if k = k' then some v else get? m k' := by
  by_cases h : k = k' <;> simp [get?, h]

theorem mem_keys {k : String} : k ∈ keys m ↔ ∃ v, (k, v) ∈ m := by
  simp [keys]

theorem keys_map {β : Type} (f : String × α → β) : keys (m.map fun e => (e.1, f e)) = keys m := by
  simp [keys]

theorem eq_of_mem {k : String} {v w : α} (hm : (keys m).Nodup) (hv : (k, v) ∈ m) (hw : (k, w) ∈ m) :
    v = w :=
  congrArg Prod.snd (List.inj_on_of_nodup_map hm hv hw rfl)

theorem keys_put (k : String) (v : α) :
    keys (put m k v) = if k ∈ keys m then keys m else keys m ++ [k] := by
  induction m with
  | nil => rfl
  | cons e m ih =>
    by_cases h : e.1 = k
    · simp [put, h]
    · simp only [put, h, if_false, keys_cons, ih, List.mem_cons, Ne.symm h, false_or]
      split <;> rfl

theorem mem_keys_put {k k' : String} {v : α} : k' ∈ keys (put m k v) ↔ k' = k ∨ k' ∈ keys m := by
  rw [keys_put]
  split_ifs with h
  · exact ⟨Or.inr, fun h' => h'.elim (fun heq => heq ▸ h) id⟩
  · rw [List.mem_append, List.mem_singleton, or_comm]

theorem mem_put {k : String} {v : α} {e : String × α} (h : e ∈ put m k v) : e = (k, v) ∨ e ∈ m := by
  induction m with
  | nil => simpa [put] using h
  | cons d m ih =>
    by_cases hd : d.1 = k
    · simp only [put, hd, if_true, List.mem_cons] at h
      rcases h with rfl | h
      · exact Or.inl rfl
      · exact Or.inr (List.mem_cons_of_mem d h)
    · simp only [put, hd, if_false, List.mem_cons] at h
      rcases h with rfl | h
      · exact Or.inr List.mem_cons_self
      · exact (ih h).imp_right (List.mem_cons_of_mem d)

theorem get?_put_self (k : String) (v : α) : get? (put m k v) k = some v := by
  induction m with
  | nil => simp [put, get?]
  | cons e m ih =>
    by_cases h : e.1 = k
    · simp [put, get?, h]
    · simpa [put, get?, h] using ih

theorem get?_put_of_ne {k k' : String} (v : α) (h : k' ≠ k) : get? (put m k v) k' = get? m k' := by
  induction m with
  | nil => simp [put, get?, h.symm]
  | cons e m ih =>
    by_cases he : e.1 = k
    · simp [put, get?, he, h.symm]
    · by_cases hk : e.1 = k'
      · simp [put, get?, hk, h]
      · simpa [put, get?, he, hk] using ih

theorem put_of_get? {k : String} {v : α} (h : get? m k = some v) : put m k v = m := by
  induction m with
  | nil => simp at h
  | cons e m ih =>
    obtain ⟨k', v'⟩ := e
    rw [get?_cons] at h
    by_cases hk : k' = k
    · rw [if_pos hk, Option.some.injEq] at h
      rw [put, if_pos hk, h]
    · rw [if_neg hk] at h
      rw [put, if_neg hk, ih h]

theorem put_eq_append {k : String} (v : α) (h : k ∉ keys m) : put m k v = m ++ [(k, v)] := by
  induction m with
  | nil => rfl
  | cons e m ih =>
    simp only [keys_cons, List.mem_cons, not_or] at h
    simp [put, Ne.symm h.1, ih h.2]

theorem put_eq_map {k : String} (v : α) (hm : (keys m).Nodup) (h : k ∈ keys m) :
    put m k v = m.map fun e => if e.1 = k then (e.1, v) else e := by
  induction m with
  | nil => simp at h
  | cons e m ih =>
    simp only [keys_cons, List.nodup_cons] at hm
    by_cases he : e.1 = k
    · -- no later entry has the key, so the rest is left as it is
      have hrest : m.map (fun e => if e.1 = k then (e.1, v) else e) = m := by
        refine (List.map_congr_left fun d hd => if_neg fun hdk => hm.1 ?_).trans (List.map_id m)
        rw [he, ← hdk]
        exact List.mem_map_of_mem hd
      simp [put, he, hrest]
    · have hk : k ∈ keys m := by simpa [Ne.symm he] using h
      simp [put, he, ih hm.2 hk]

theorem get?_eq_some {k : String} {v : α} (hm : (keys m).Nodup) : get? m k = some v ↔ (k, v) ∈ m := by
  induction m with
  | nil => simp [get?]
  | cons e m ih =>
    simp only [keys_cons, List.nodup_cons] at hm
    by_cases he : e.1 = k
    · have hnot : (k, v) ∉ m := fun h => hm.1 (he ▸ mem_keys.2 ⟨v, h⟩)
      obtain ⟨k', v'⟩ := e
      simp only at he
      subst he
      simp [get?, hnot, eq_comm]
    · have hne : (k, v) ≠ e := fun h => he (h ▸ rfl)
      simpa [get?, he, hne] using ih hm.2

theorem get?_eq_none {k : String} : get? m k = none ↔ k ∉ keys m := by
  rw [get?, Option.map_eq_none_iff, List.find?_eq_none, keys, List.mem_map, not_exists]
  exact forall_congr' fun e => by simp

theorem mem_of_get? {k : String} {v : α} (h : get? m k = some v) : (k, v) ∈ m := by
  obtain ⟨e, he, rfl⟩ := Option.map_eq_some_iff.1 h
  obtain rfl : e.1 = k := by simpa using List.find?_some he
  exact List.mem_of_find?_eq_some he

theorem exists_get? {k : String} (h : k ∈ keys m) : ∃ v, get? m k = some v :=
  Option.ne_none_iff_exists'.1 fun hnone => get?_eq_none.1 hnone h

theorem has_iff {k : String} : has m k ↔ k ∈ keys m := by
  simp [has, keys]

theorem get?_append (m' : Fields α) (k : String) :
    get? (m ++ m' : List (String × α)) k = (get? m k).or (get? m' k) := by
  rw [get?, List.find?_append]
  cases h : m.find? (·.1 = k) <;> simp [get?, h]

theorem get?_append_of_some {k : String} {v : α} (more : Fields α) (h : get? m k = some v) :
    get? (m ++ more : List (String × α)) k = some v := by
  obtain ⟨e, he, rfl⟩ := Option.map_eq_some_iff.1 h
  rw [get?, List.find?_append, he]
  rfl

theorem get?_perm {m' : Fields α} (h : m'.Perm m) (hm : (keys m).Nodup) (k : String) :
    get? m' k = get? m k := by
  have hm' : (keys m').Nodup := (h.map Prod.fst).nodup_iff.2 hm
  ext v
  rw [get?_eq_some hm, get?_eq_some hm', h.mem_iff]

theorem get?_map {β : Type} (f : α → β) (k : String) :
    get? (m.map fun e => (e.1, f e.2)) k = (get? m k).map f := by
  rw [get?, get?, List.find?_map, Option.map_map, Option.map_map]
  rfl

theorem map_put {β : Type} (f : α → β) (m : Fields α) (k : String) (v : α) :
    (put m k v).map (fun e => (e.1, f e.2)) = put (m.map fun e => (e.1, f e.2)) k (f v) := by
  induction m with
  | nil => rfl
  | cons e m ih =>
    obtain ⟨k', v'⟩ := e
    by_cases hk : k' = k
    · rw [put, if_pos hk, List.map_cons, List.map_cons, put, if_pos hk]
    · rw [put, if_neg hk, List.map_cons, List.map_cons, put, if_neg hk, ih]

theorem nodup_keys_put (hm : (keys m).Nodup) (k : String) (v : α) : (keys (put m k v)).Nodup := by
  rw [keys_put]
  split_ifs with h
  · exact hm
  · exact List.nodup_append.2 ⟨hm, by simp, by simpa using fun k hk => ne_of_mem_of_not_mem hk h⟩

theorem keys_foldl_put (pairs : List (String × α)) (hm : (keys m).Nodup) :
    (keys (pairs.foldl (fun m p => put m p.1 p.2) m)).Nodup := by
  induction pairs generalizing m with
  | nil => exact hm
  | cons p pairs ih => exact ih (nodup_keys_put hm p.1 p.2)

theorem nodup_keys_ofPairs (pairs : List (String × α)) : (keys (ofPairs pairs)).Nodup :=
  keys_foldl_put pairs List.nodup_nil

theorem mem_foldl_put {pairs : List (String × α)} {e : String × α}
    (h : e ∈ pairs.foldl (fun m p => put m p.1 p.2) m) : e ∈ m ∨ e ∈ pairs := by
  induction pairs generalizing m with
  | nil => exact Or.inl h
  | cons p pairs ih =>
    rcases ih h with h | h
    · rcases mem_put h with rfl | h
      · exact Or.inr List.mem_cons_self
      · exact Or.inl h
    · exact Or.inr (List.mem_cons_of_mem p h)

theorem mem_of_mem_ofPairs {pairs : List (String × α)} {e : String × α} (h : e ∈ ofPairs pairs) :
    e ∈ pairs := by
  simpa using mem_foldl_put h

theorem foldl_put_eq_append {pairs : List (String × α)} (h : (keys (m ++ pairs)).Nodup) :
    pairs.foldl (fun m p => put m p.1 p.2) m = m ++ pairs := by
  induction pairs generalizing m with
  | nil => simp
  | cons p pairs ih =>
    have hp : p.1 ∉ keys m := by
      simp only [keys, List.map_append, List.map_cons, List.nodup_append] at h
      exact fun hk => h.2.2 _ hk p.1 (by simp) rfl
    rw [List.foldl_cons, put_eq_append p.2 hp, ih (by simpa using h)]
    simp

theorem ofPairs_eq_self {pairs : List (String × α)} (h : (keys pairs).Nodup) : ofPairs pairs = pairs :=
  foldl_put_eq_append (m := []) h

theorem mem_keys_foldl_put {pairs : List (String × α)} {k : String} :
    k ∈ keys (pairs.foldl (fun m p => put m p.1 p.2) m) ↔ k ∈ keys m ∨ k ∈ keys pairs := by
  induction pairs generalizing m with
  | nil => simp
  | cons p pairs ih =>
    rw [List.foldl_cons, ih, keys_put]
    split_ifs with h
    · simp only [keys_cons, List.mem_cons]
      constructor
      · exact fun hk => hk.imp_right Or.inr
      · rintro (hk | rfl | hk)
        · exact Or.inl hk
        · exact Or.inl h
        · exact Or.inr hk
    · simp [or_assoc]

theorem mem_keys_ofPairs {pairs : List (String × α)} {k : String} :
    k ∈ keys (ofPairs pairs) ↔ k ∈ keys pairs := by
  rw [ofPairs, mem_keys_foldl_put]
  simp

end HuntDraw.Fields
