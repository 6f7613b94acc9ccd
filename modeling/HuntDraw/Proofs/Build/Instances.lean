import HuntDraw.Proofs.Build.Upheld

/-! How instances are found and changed. A change of one instance leaves the others, and finds no more instances than
were there before it. -/

namespace HuntDraw

open HuntDraw.Action Attempt

variable {T : Type}

namespace Store

variable {s s' : Store} {id : String} {i : Instance} {j : Job} {change : InstanceChange}

theorem find_eq_ok {α : Type} {entity : String} {key : α → String} {rows : List α} {row : α} :
    find entity key rows id = .ok row ↔ rows.find? (key · = id) = some row := by
  rw [find]
  cases rows.find? (key · = id) <;> simp

theorem getInstance_eq_ok : s.getInstance id = .ok i ↔ s.instances.find? (·.id = id) = some i := find_eq_ok

theorem getJob_eq_ok : s.getJob id = .ok j ↔ s.jobs.find? (·.id = id) = some j := find_eq_ok

theorem getInstance_congr (h : s'.instances = s.instances) (id : String) : s'.getInstance id = s.getInstance id := by
  rw [getInstance, getInstance, h]

theorem id_of_getInstance (h : s.getInstance id = .ok i) : i.id = id := by
  simpa using List.find?_some (getInstance_eq_ok.1 h)

theorem find?_of_mem {α : Type} {key : α → String} {rows : List α} (h : ∃ row ∈ rows, key row = id) :
    ∃ row, rows.find? (key · = id) = some row := by
  obtain ⟨row, hrow, hkey⟩ := h
  exact Option.isSome_iff_exists.1 (List.find?_isSome.2 ⟨row, hrow, by simpa using hkey⟩)

/-- A record that is found after a change of one that keeps its id. -/
theorem find?_changed {α : Type} {key : α → String} {f : α → α} (hf : ∀ row, key (f row) = key row) (rows : List α)
    (id id' : String) : (rows.map fun row => if key row = id then f row else row).find? (key · = id') =
      (rows.find? (key · = id')).map fun row => if key row = id then f row else row := by
  have hkey : (fun row => decide (key row = id')) ∘ (fun row => if key row = id then f row else row) =
      fun row => decide (key row = id') := by
    funext row
    by_cases h : key row = id <;> simp [h, hf]
  rw [List.find?_map, hkey]

theorem change_eq_ok {α : Type} {entity : String} {key : α → String} {f : α → α} {rows rows' : List α}
    (h : Store.change entity key rows id f = .ok rows') :
    ∃ row, rows.find? (key · = id) = some row ∧ rows' = rows.map fun row => if key row = id then f row else row := by
  obtain ⟨row, hrow, h⟩ := bind_eq_ok.1 h
  exact ⟨row, find_eq_ok.1 hrow, (Except.ok.inj h).symm⟩

/-- The record of an id that was changed is found as it was changed. -/
theorem find?_of_change {α : Type} {entity : String} {key : α → String} {f : α → α} {rows rows' : List α}
    (h : Store.change entity key rows id f = .ok rows') (hf : ∀ row, key (f row) = key row) :
    ∃ row, rows.find? (key · = id) = some row ∧ rows'.find? (key · = id) = some (f row) := by
  obtain ⟨row, hrow, rfl⟩ := change_eq_ok h
  have hid : key row = id := by simpa using List.find?_some hrow
  exact ⟨row, hrow, by rw [find?_changed hf, hrow, Option.map_some, if_pos hid]⟩

theorem getJob_of_mem (h : ∃ j ∈ s.jobs, j.id = id) : ∃ j, s.getJob id = .ok j := by
  obtain ⟨j, hj⟩ := find?_of_mem h
  exact ⟨j, getJob_eq_ok.2 hj⟩

theorem updateInstance_of_getInstance (h : s.getInstance id = .ok i) (change : InstanceChange) :
    s.updateInstance id change = .ok { s with
      instances := s.instances.map fun i => if i.id = id then change.apply i else i } := by
  rw [getInstance] at h
  rw [updateInstance, Store.change, h]
  rfl

theorem updateJob_of_getJob (h : s.getJob id = .ok j) (change : JobChange) :
    s.updateJob id change = .ok { s with jobs := s.jobs.map fun j => if j.id = id then change.apply j else j } := by
  rw [getJob] at h
  rw [updateJob, Store.change, h]
  rfl

end Store

namespace World

variable {w : World T} {id id' : String} {i i' : Instance} {change : Store.InstanceChange}

def amended (w : World T) (id : String) (change : Store.InstanceChange) : World T :=
  { w with store := { w.store with
      instances := w.store.instances.map fun i => if i.id = id then change.apply i else i } }

theorem find?_amended (w : World T) (id : String) (change : Store.InstanceChange) (id' : String) :
    (w.amended id change).store.instances.find? (·.id = id') =
      (w.store.instances.find? (·.id = id')).map fun i => if i.id = id then change.apply i else i := by
  have hid : ∀ i, (change.apply i).id = i.id := fun _ => rfl
  exact Store.find?_changed hid w.store.instances id id'

theorem getInstance_amended_self (h : w.store.getInstance id = .ok i) (change : Store.InstanceChange) :
    (w.amended id change).store.getInstance id = .ok (change.apply i) := by
  rw [Store.getInstance_eq_ok, find?_amended, Store.getInstance_eq_ok.1 h, Option.map_some,
    if_pos (Store.id_of_getInstance h)]

theorem getInstance_amended (h : (w.amended id change).store.getInstance id' = .ok i') :
    ∃ i, w.store.getInstance id' = .ok i ∧ i' = if id' = id then change.apply i else i := by
  rw [Store.getInstance_eq_ok, find?_amended, Option.map_eq_some_iff] at h
  obtain ⟨i, hi, rfl⟩ := h
  have hfound := Store.getInstance_eq_ok.2 hi
  exact ⟨i, hfound, by rw [Store.id_of_getInstance hfound]⟩

theorem getInstance_amended_of_ne (h : id' ≠ id) (w : World T) (change : Store.InstanceChange) :
    (w.amended id change).store.getInstance id' = w.store.getInstance id' := by
  rw [Store.getInstance, Store.find, find?_amended, Store.getInstance, Store.find]
  cases hi : w.store.instances.find? (·.id = id') with
  | none => rfl
  | some i =>
    have hid : i.id = id' := by simpa using List.find?_some hi
    simp [hid, h]

theorem amended_amended {change' both : Store.InstanceChange} (h : ∀ i, change'.apply (change.apply i) = both.apply i)
    (w : World T) (id : String) : (w.amended id change).amended id change' = w.amended id both := by
  have hrows : (fun i : Instance => if i.id = id then change'.apply i else i) ∘
      (fun i => if i.id = id then change.apply i else i) = fun i => if i.id = id then both.apply i else i := by
    funext i
    by_cases hid : i.id = id
    · have hkept : (change.apply i).id = id := hid
      simp only [Function.comp_apply, if_pos hid, if_pos hkept, h]
    · simp only [Function.comp_apply, if_neg hid]
  simp only [amended, List.map_map, hrows]

theorem mem_amended (h : i ∈ (w.amended id change).store.instances) (hid : i.id = id) :
    ∃ j ∈ w.store.instances, j.id = id ∧ i = change.apply j := by
  obtain ⟨j, hj, rfl⟩ := List.mem_map.1 h
  by_cases hj' : j.id = id
  · exact ⟨j, hj, hj', if_pos hj'⟩
  · rw [if_neg hj'] at hid
    exact absurd hid hj'

theorem amended_eq_self (h : ∀ i ∈ w.store.instances, i.id = id → change.apply i = i) : w.amended id change = w := by
  have hrows : (w.store.instances.map fun i => if i.id = id then change.apply i else i) = w.store.instances := by
    refine (List.map_congr_left fun i hi => ?_).trans (List.map_id _)
    split_ifs with hid
    · exact h i hi hid
    · rfl
  rw [amended, hrows]

theorem amended_missing (h : ∀ i, w.store.getInstance id ≠ .ok i) (change : Store.InstanceChange) :
    w.amended id change = w := by
  refine amended_eq_self fun i hi hid => ?_
  obtain ⟨i', hi'⟩ := Store.find?_of_mem ⟨i, hi, hid⟩
  exact absurd (Store.getInstance_eq_ok.2 hi') (h i')

end World

namespace Action

variable {w : World T} {id : String} {i : Instance}

theorem runIn_updateInstance (h : w.store.getInstance id = .ok i) (change : Store.InstanceChange) :
    runIn w (alter fun s => s.updateInstance id change) = (.ok (), w.amended id change) :=
  runIn_alter (Store.updateInstance_of_getInstance h change)

theorem updateInstance_missing (h : ∀ i, w.store.getInstance id ≠ .ok i) (change : Store.InstanceChange) :
    ∃ f, runIn w (alter fun s => s.updateInstance id change) = (.error f, w) := by
  cases hfound : w.store.getInstance id with
  | ok i => exact absurd hfound (h i)
  | error f =>
    refine ⟨.store f, runIn_alter_error ?_⟩
    rw [Store.getInstance] at hfound
    rw [Store.updateInstance, Store.change, hfound]
    rfl

end Action
end HuntDraw
