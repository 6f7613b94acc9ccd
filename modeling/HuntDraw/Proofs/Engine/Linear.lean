import HuntDraw.Engine.Resource
import HuntDraw.Proofs.Data.Attempt
import HuntDraw.Proofs.Data.Fields
import Mathlib.Data.List.Perm.Subperm

/-! What the engine accepts. In a chain without problems the tasks stand in one line: what each of them goes on to comes
next, the line ends at the only terminal task, and no task is left out or met twice. -/

namespace HuntDraw

/-- A list in which each element tells the next one, up to an end, holds none of them twice. -/
theorem nodup_of_next {α : Type} {l : List α} (next : α → Option α)
    (h : ∀ i x, l[i]? = some x → l[i + 1]? = next x) : l.Nodup := by
  rw [List.nodup_iff_getElem?_ne_getElem?]
  intro i j hij hj heq
  -- what is the same at two places stays the same behind them, but the later one comes to the end first
  have hshift : ∀ k, l[i + k]? = l[j + k]? := by
    intro k
    induction k with
    | zero => exact heq
    | succ k ih =>
      cases hx : l[j + k]? with
      | none =>
        have hi := ih.trans hx
        rw [List.getElem?_eq_none_iff] at hx hi
        rw [List.getElem?_eq_none (by omega), List.getElem?_eq_none (by omega)]
      | some x => exact (h _ x (ih.trans hx)).trans (h _ x hx).symm
  have hend := hshift (l.length - j)
  rw [List.getElem?_eq_none (by omega : l.length ≤ j + (l.length - j)), List.getElem?_eq_none_iff] at hend
  omega

namespace TaskChain

variable {c : TaskChain} {resources left : List String} {current : Option String} {id : String} {task : Task} {i : Nat}

/-- A chain in one line. Going from task to task from the start, each task is met once, up to the only terminal one;
and for every task there is a handler. -/
structure Linear (c : TaskChain) (resources : List String) : Prop where
  perm : c.ordered.Perm c.tasks.keys
  nodup : c.ordered.Nodup
  start : c.ordered.head? = some c.start
  places : ∀ i id, c.ordered[i]? = some id → ∃ task, c.tasks.get? id = some task ∧ task.next = c.ordered[i + 1]? ∧
    (task.terminal ↔ i + 1 = c.ordered.length) ∧ task.resource ∈ resources

theorem follow_subperm (left : List String) (current : Option String) : (c.follow left current).Subperm left := by
  fun_induction follow c left current with
  | case2 left id hmem task _ ih =>
    exact ((List.subperm_cons id).2 ih).trans (List.perm_cons_erase hmem).symm.subperm
  | _ => exact List.nil_subperm

theorem follow_head (h : (c.follow left current).head? = some id) : current = some id := by
  fun_induction follow c left current with
  | case2 => exact congrArg some (Option.some.inj h)
  | _ => exact nomatch h

theorem follow_next (h : (c.follow left current)[i]? = some id) : ∃ task, c.tasks.get? id = some task ∧
    ∀ next, (c.follow left current)[i + 1]? = some next → task.next = some next := by
  fun_induction follow c left current generalizing i with
  | case2 left id' hmem task htask ih =>
    cases i with
    | zero =>
      obtain rfl : id' = id := Option.some.inj h
      exact ⟨task, htask, fun next hnext => follow_head (by simpa [List.head?_eq_getElem?] using hnext)⟩
    | succ i => simpa using ih (i := i) (by simpa using h)
  | _ => exact absurd h (by simp)

theorem follow_eq {ids : List String}
    (hplaces : ∀ i id, ids[i]? = some id → ∃ task, c.tasks.get? id = some task ∧ task.next = ids[i + 1]?)
    (hnodup : ids.Nodup) (hleft : ∀ id ∈ ids, id ∈ left) : c.follow left ids.head? = ids := by
  induction ids generalizing left with
  | nil => rw [List.head?_nil, follow]
  | cons id ids ih =>
    obtain ⟨hgone, hnodup⟩ := List.nodup_cons.1 hnodup
    obtain ⟨hid, hids⟩ := List.forall_mem_cons.1 hleft
    obtain ⟨task, htask, hnext⟩ := hplaces 0 id rfl
    have hrest : ∀ k ∈ ids, k ∈ left.erase id := fun k hk =>
      (List.mem_erase_of_ne (ne_of_mem_of_not_mem hk hgone)).2 (hids k hk)
    rw [List.head?_cons, follow, dif_pos hid, htask]
    simp only [hnext]
    rw [List.getElem?_cons_succ, ← List.head?_eq_getElem?, ih (fun i => hplaces (i + 1)) hnodup hrest]

theorem taskProblems_eq_nil (h : c.taskProblems resources id task = []) : task.resource ∈ resources ∧
    (task.terminal ↔ task.next = none) ∧ ∀ next, task.next = some next → next ∈ c.tasks.keys := by
  simp only [taskProblems, List.append_eq_nil_iff] at h
  obtain ⟨⟨⟨hresource, hterminal⟩, hends⟩, hnext⟩ := h
  refine ⟨by simpa using hresource, ⟨fun ht => by simpa [ht] using hterminal, fun hn => ?_⟩, fun next hn => ?_⟩
  · simpa [hn] using hends
  · rw [hn] at hnext
    simpa [Fields.has_iff] using hnext

theorem start_mem (h : c.partProblems resources = []) : c.start ∈ c.tasks.keys := by
  simp only [partProblems, List.append_eq_nil_iff] at h
  simpa [Fields.has_iff] using h.1

/-- A chain without problems starts at a task, has none with problems, and ends where all were met. -/
theorem problems_eq_nil (h : c.problems resources = []) : c.start ∈ c.tasks.keys ∧
    (∀ e ∈ c.tasks, c.taskProblems resources e.1 e.2 = []) ∧ c.orderProblems = [] := by
  have hparts : c.partProblems resources = [] := by
    by_contra hne
    rw [problems, if_neg (by simpa using hne)] at h
    exact hne h
  have hstart := start_mem hparts
  rw [problems, hparts] at h
  simp only [partProblems, List.append_eq_nil_iff, List.flatMap_eq_nil_iff] at hparts
  exact ⟨hstart, hparts.2, h⟩

/-- Without problems in its order, a chain ends at a terminal task, and all tasks are met. -/
theorem orderProblems_eq_nil {last : String} (h : c.orderProblems = []) (hlast : c.ordered.getLast? = some last)
    (htask : c.tasks.get? last = some task) : task.terminal ∧ c.ordered.length = c.tasks.length := by
  simp only [orderProblems, hlast, Option.bind_some, htask] at h
  split_ifs at h with hterminal hlength
  exact ⟨by simpa using hterminal, hlength⟩

theorem head_ordered (h : c.start ∈ c.tasks.keys) : c.ordered.head? = some c.start := by
  obtain ⟨task, htask⟩ := Fields.exists_get? h
  rw [ordered, follow, dif_pos h, htask]
  rfl

theorem exists_last (h : c.start ∈ c.tasks.keys) :
    ∃ last task, c.ordered.getLast? = some last ∧ c.tasks.get? last = some task := by
  have hhead := head_ordered h
  obtain ⟨last, hlast⟩ : ∃ last, c.ordered.getLast? = some last :=
    Option.ne_none_iff_exists'.1 fun hnone => by simp [List.getLast?_eq_none_iff.1 hnone] at hhead
  obtain ⟨task, htask, -⟩ := follow_next (List.getLast?_eq_getElem? ▸ hlast)
  exact ⟨last, task, hlast, htask⟩

/-- Tasks that name each other in turn, with a handler for each of them. -/
inductive Line (c : TaskChain) (resources : List String) : List String → Prop
  | nil : Line c resources []
  | cons {id : String} {task : Task} {ids : List String} (htask : c.tasks.get? id = some task)
      (hnext : task.next = ids.head?) (hresource : task.resource ∈ resources) (hrest : Line c resources ids) :
      Line c resources (id :: ids)

theorem line_of_places {ids : List String} (h : ∀ i id, ids[i]? = some id → ∃ task, c.tasks.get? id = some task ∧
    task.next = ids[i + 1]? ∧ task.resource ∈ resources) : c.Line resources ids := by
  induction ids with
  | nil => exact .nil
  | cons id ids ih =>
    obtain ⟨task, htask, hnext, hresource⟩ := h 0 id rfl
    refine .cons htask ?_ hresource (ih fun i id hid => h (i + 1) id hid)
    simpa [List.head?_eq_getElem?] using hnext

theorem Line.of_head {ids : List String} (h : c.Line resources ids) (hhead : ids.head? = some id) :
    ∃ task rest, ids = id :: rest ∧ c.tasks.get? id = some task ∧ task.next = rest.head? ∧
      task.resource ∈ resources ∧ c.Line resources rest := by
  cases h with
  | nil => exact nomatch hhead
  | cons htask hnext hresource hrest =>
    obtain rfl := Option.some.inj hhead
    exact ⟨_, _, rfl, htask, hnext, hresource, hrest⟩

theorem Linear.line (h : c.Linear resources) : c.Line resources c.ordered :=
  line_of_places fun i id hid =>
    let ⟨task, htask, hnext, _, hresource⟩ := h.places i id hid
    ⟨task, htask, hnext, hresource⟩

theorem linear_of_problems (h : c.problems resources = []) : c.Linear resources := by
  obtain ⟨hstart, htasks, horder⟩ := problems_eq_nil h
  have hhead := head_ordered hstart
  obtain ⟨last, lastTask, hlast, hlastTask⟩ := exists_last hstart
  obtain ⟨hterminal, hlength⟩ := orderProblems_eq_nil horder hlast hlastTask
  have hsound : ∀ {id task}, c.tasks.get? id = some task → _ := fun htask =>
    taskProblems_eq_nil (htasks _ (Fields.mem_of_get? htask))
  have hnext : ∀ i id, c.ordered[i]? = some id → ∃ task, c.tasks.get? id = some task ∧
      task.next = c.ordered[i + 1]? := by
    intro i id hid
    obtain ⟨task, htask, hafter⟩ := follow_next hid
    refine ⟨task, htask, ?_⟩
    cases hplace : c.ordered[i + 1]? with
    | some next => exact hafter next hplace
    | none =>
      -- nothing is met behind the last task, and as a terminal one it names none
      have hi : i = c.ordered.length - 1 := by
        have := (List.getElem?_eq_some_iff.1 hid).1
        have := List.getElem?_eq_none_iff.1 hplace
        omega
      obtain rfl : id = last := by
        rw [List.getLast?_eq_getElem?, ← hi, hid] at hlast
        exact Option.some.inj hlast
      obtain rfl : task = lastTask := Option.some.inj (htask.symm.trans hlastTask)
      exact (hsound htask).2.1.1 hterminal
  refine ⟨?_, ?_, hhead, ?_⟩
  · have hall : c.tasks.keys.length = c.ordered.length := by rw [hlength, Fields.keys, List.length_map]
    exact (follow_subperm _ _).perm_of_length_le (Nat.le_of_eq hall)
  · refine nodup_of_next (fun id => (c.tasks.get? id).bind Task.next) fun i id hid => ?_
    obtain ⟨task, htask, hafter⟩ := hnext i id hid
    rw [htask, Option.bind_some, hafter]
  · intro i id hid
    obtain ⟨task, htask, hafter⟩ := hnext i id hid
    refine ⟨task, htask, hafter, ?_, (hsound htask).1⟩
    have hi := (List.getElem?_eq_some_iff.1 hid).1
    rw [(hsound htask).2.1, hafter, List.getElem?_eq_none_iff]
    omega

theorem problems_of_linear (hkeys : c.tasks.keys.Nodup) (h : c.Linear resources) : c.problems resources = [] := by
  have hhas : ∀ {id}, id ∈ c.ordered → c.tasks.has id := fun hid => Fields.has_iff.2 (h.perm.mem_iff.1 hid)
  have hparts : c.partProblems resources = [] := by
    rw [partProblems, if_pos (hhas (List.mem_of_head? h.start)), List.nil_append, List.flatMap_eq_nil_iff]
    intro e he
    obtain ⟨i, hi⟩ := List.getElem?_of_mem (h.perm.mem_iff.2 (List.mem_map_of_mem (f := Prod.fst) he))
    obtain ⟨task, htask, hnext, hterminal, hresource⟩ := h.places i e.1 hi
    obtain rfl : task = e.2 := Fields.eq_of_mem hkeys (Fields.mem_of_get? htask) he
    rw [taskProblems, if_pos (by simpa using hresource)]
    cases hplace : c.ordered[i + 1]? with
    | none =>
      rw [List.getElem?_eq_none_iff] at hplace
      have hlast : e.2.terminal := hterminal.2 (Nat.le_antisymm (List.getElem?_eq_some_iff.1 hi).1 hplace)
      simp [hnext, hplace, hlast]
    | some next =>
      have hnot : e.2.terminal = false := by
        rw [← Bool.not_eq_true, hterminal]
        exact Nat.ne_of_lt (List.getElem?_eq_some_iff.1 hplace).1
      simp [hnext, hplace, hnot, hhas (List.mem_of_getElem? hplace)]
  obtain ⟨last, hlast⟩ : ∃ last, c.ordered.getLast? = some last :=
    Option.ne_none_iff_exists'.1 fun hnone => by simpa [List.getLast?_eq_none_iff.1 hnone] using h.start
  obtain ⟨task, htask, -, hterminal, -⟩ := h.places _ last (List.getLast?_eq_getElem? ▸ hlast)
  have hpositive : 0 < c.ordered.length := List.length_pos_of_mem (List.mem_of_getLast? hlast)
  have hlength : c.ordered.length = c.tasks.length := h.perm.length_eq.trans (List.length_map _)
  rw [problems, hparts]
  simp only [List.isEmpty_nil, if_true, orderProblems, hlast, Option.bind_some, htask,
    hterminal.2 (Nat.sub_add_cancel hpositive), Bool.not_true, Bool.false_eq_true, if_false, hlength]

/-- What is met depends on what the tasks go on to, and not on the order in which they are listed. -/
theorem follow_perm {c' : TaskChain} {left' : List String} (hleft : left'.Perm left)
    (hnext : ∀ id, (c'.tasks.get? id).map Task.next = (c.tasks.get? id).map Task.next) :
    c'.follow left' current = c.follow left current := by
  fun_induction follow c left current generalizing left' with
  | case1 => rw [follow]
  | case2 left id hmem task htask ih =>
    have hnext' := hnext id
    rw [htask, Option.map_some] at hnext'
    obtain ⟨task', htask', hsame⟩ := Option.map_eq_some_iff.1 hnext'
    rw [follow, dif_pos (hleft.mem_iff.2 hmem), htask']
    simp only [hsame, ih (hleft.erase id)]
  | case3 left id hmem hnone =>
    have hnext' := hnext id
    rw [hnone, Option.map_none, Option.map_eq_none_iff] at hnext'
    rw [follow, dif_pos (hleft.mem_iff.2 hmem), hnext']
  | case4 left id hmem => rw [follow, dif_neg fun hmem' => hmem (hleft.mem_iff.1 hmem')]

end TaskChain

namespace Engine

variable {T : Type} {e : Engine T} {definition : Json} {c : TaskChain}

theorem accept_linear (h : e.accept definition = .ok c) : c.Linear e.handlers.keys := by
  rw [accept] at h
  split at h
  · exact nomatch h
  · rename_i found _
    by_cases hnone : found.problems e.handlers.keys = []
    · obtain rfl : found = c := by simpa [hnone] using h
      exact TaskChain.linear_of_problems hnone
    · simp [hnone] at h

end Engine
end HuntDraw
