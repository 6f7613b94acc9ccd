import HuntDraw.Graph.Compile
import HuntDraw.Proofs.Data.Fields
import HuntDraw.Proofs.Graph.Flow

/-! The walk of the compiler. Each task that it makes goes on to the only node that the flow leads to, the last
one is terminal, and no node is walked through twice. A task belongs to a task node and runs on the resource of its
type, with the data supplied to the node among its parameters. -/

namespace HuntDraw

open Attempt

def Resources.Given (r : Resources) (resource : String) : Prop := resource ≠ "" ∧ resource ∈ r.map Prod.snd

/-- A node that has a resource is a task node, and the resource is that of its type. -/
theorem Resources.resolve_eq_ok {r : Resources} {n : GraphNode} {resource : String}
    (h : r.resolve n = .ok resource) :
    ∃ type, n.type = .task type ∧ r.get? type = some resource ∧ resource ≠ "" := by
  simp only [resolve] at h
  split at h
  · rename_i found hfound
    split_ifs at h with hempty
    obtain rfl := Except.ok.inj h
    split at hfound
    · rename_i type htype
      exact ⟨type, htype, hfound, fun hblank => hempty (by rw [hblank]; rfl)⟩
    · cases hfound
  · cases h

theorem Resources.given_of_resolve {r : Resources} {n : GraphNode} {resource : String}
    (h : r.resolve n = .ok resource) : r.Given resource := by
  obtain ⟨type, -, hget, hfilled⟩ := resolve_eq_ok h
  obtain ⟨e, he, rfl⟩ := Option.map_eq_some_iff.1 hget
  exact ⟨hfilled, List.mem_map_of_mem (List.mem_of_find?_eq_some he)⟩

namespace Graph

inductive Traced (g : Graph) (r : Resources) : Fields Task → Prop
  | last {id : String} {task : Task} (htargets : g.targets id = []) (hnext : task.next = none)
    (hterminal : task.terminal = true) (hgiven : r.Given task.resource) : Traced g r [(id, task)]
  | step {id next : String} {task after : Task} {more : Fields Task} (htargets : g.targets id = [next])
    (hnext : task.next = some next) (hterminal : task.terminal = false) (hgiven : r.Given task.resource)
    (hmore : Traced g r ((next, after) :: more)) : Traced g r ((id, task) :: (next, after) :: more)

variable {g : Graph} {t : Target} {r : Resources} {first : Bool} {left rest : List String} {id : String}
  {tasks : Fields Task} {c : Compilation}

theorem task_eq_ok {n : GraphNode} {next : Option String} {task : Task} (h : g.task t first n next = .ok task) :
    task.next = next ∧ task.terminal = next.isNone ∧ t.resources.Given task.resource := by
  simp only [Graph.task, bind_eq_ok, pure_eq_ok, mapError_eq_ok] at h
  obtain ⟨resource, hresource, supplied, -, rfl⟩ := h
  exact ⟨rfl, rfl, Resources.given_of_resolve hresource⟩

/-- A walk that ends starts where it is told to and makes tasks in a row, of different nodes. -/
theorem walk_traced (hleft : left.Nodup) (h : g.walk t first left id = .ok (tasks, rest)) :
    (∃ task more, tasks = (id, task) :: more) ∧ Traced g t.resources tasks ∧ tasks.keys.Nodup ∧
      ∀ k ∈ tasks.keys, k ∈ left := by
  fun_induction walk g t first left id generalizing tasks rest with
  | case1 => cases h
  | case2 first left id n hn hmem htargets =>
    obtain ⟨task, htask, hpair⟩ := bind_eq_ok.1 h
    obtain ⟨rfl, rfl⟩ := Prod.mk.inj (pure_eq_ok.1 hpair)
    obtain ⟨hnext, hterminal, hgiven⟩ := task_eq_ok htask
    refine ⟨⟨task, [], rfl⟩, .last htargets hnext hterminal hgiven, List.nodup_singleton _, ?_⟩
    simpa using hmem
  | case3 first left id n hn hmem next htargets ih =>
    obtain ⟨task, htask, hpair⟩ := bind_eq_ok.1 h
    obtain ⟨⟨more, rest'⟩, hwalk, hpair⟩ := bind_eq_ok.1 hpair
    obtain ⟨rfl, rfl⟩ := Prod.mk.inj (pure_eq_ok.1 hpair)
    obtain ⟨hnext, hterminal, hgiven⟩ := task_eq_ok htask
    obtain ⟨⟨after, more, rfl⟩, htraced, hnodup, hwithin⟩ := ih (hleft.erase id) hwalk
    refine ⟨⟨task, _, rfl⟩, .step htargets hnext hterminal hgiven htraced, ?_, ?_⟩
    · -- what follows is walked among the nodes that are left, and this one is not
      have hgone : id ∉ Fields.keys ((next, after) :: more) := fun hback =>
        ((List.Nodup.mem_erase_iff hleft).1 (hwithin id hback)).1 rfl
      exact List.nodup_cons.2 ⟨hgone, hnodup⟩
    · exact List.forall_mem_cons.2 ⟨hmem, fun k hk => List.mem_of_mem_erase (hwithin k hk)⟩
  | case4 => cases h
  | case5 => cases h

theorem sources_start {s : String} (h : g.start = .ok s) : g.sources s = [] := by
  have hstarts : s ∈ g.tasks.filter fun n => (g.sources n).isEmpty := by
    simp only [start] at h
    split at h
    · cases h
    · rename_i s' hs
      split_ifs at h
      rw [hs, Except.ok.inj h]
      exact List.mem_singleton_self _
    · cases h
  exact List.isEmpty_iff.1 (List.mem_filter.1 hstarts).2

theorem compile_traced (hids : g.ids.Nodup) (h : g.compile t = .ok c) : g.sources c.chain.start = [] ∧
    (∃ task more, c.chain.tasks = (c.chain.start, task) :: more) ∧ Traced g t.resources c.chain.tasks ∧
      c.chain.tasks.keys.Nodup := by
  simp only [compile, bind_eq_ok, pure_eq_ok, mapError_eq_ok] at h
  obtain ⟨s, hs, ⟨tasks, rest⟩, hwalk, rfl⟩ := h
  obtain ⟨hhead, htraced, hnodup, -⟩ := walk_traced hids hwalk
  exact ⟨sources_start hs, hhead, htraced, hnodup⟩

namespace Traced

theorem given (h : Traced g r tasks) {e : String × Task} (he : e ∈ tasks) : r.Given e.2.resource := by
  induction h with
  | last _ _ _ hgiven => exact List.mem_singleton.1 he ▸ hgiven
  | step _ _ _ hgiven _ ih =>
    rcases List.mem_cons.1 he with rfl | he
    · exact hgiven
    · exact ih he

/-- The task at each place goes on to the node at the next place, which is all that the flow leads to, and only the
task at the last place is terminal. -/
theorem places (h : Traced g r tasks) {i : Nat} {n : String} (hn : tasks.keys[i]? = some n) :
    ∃ task, (n, task) ∈ tasks ∧ task.next = tasks.keys[i + 1]? ∧ (task.terminal ↔ i + 1 = tasks.keys.length) ∧
      g.targets n = tasks.keys[i + 1]?.toList := by
  induction h generalizing i with
  | @last id task htargets hnext hterminal =>
    obtain ⟨rfl, rfl⟩ : i = 0 ∧ id = n := by
      cases i with
      | zero => exact ⟨rfl, by simpa using hn⟩
      | succ i => simp at hn
    exact ⟨task, List.mem_cons_self, hnext, by simp [hterminal], htargets⟩
  | @step id next task after more htargets hnext hterminal _ _ ih =>
    cases i with
    | zero =>
      obtain rfl : id = n := by simpa using hn
      exact ⟨task, List.mem_cons_self, hnext, by simp [hterminal], htargets⟩
    | succ i =>
      obtain ⟨task', hmem, hnext', hterminal', htargets'⟩ := ih (i := i) (by simpa using hn)
      refine ⟨task', List.mem_cons_of_mem _ hmem, by simpa using hnext', ?_, by simpa using htargets'⟩
      rw [hterminal']
      simp only [Fields.keys_cons, List.length_cons]
      omega

end Traced

variable {task : Task} {type : TaskType} {data : List NodeData}

structure Assigned (g : Graph) (t : Target) (first : Bool) (id : String) (task : Task) (type : TaskType)
    (data : List NodeData) : Prop where
  node : (g.node? id).map GraphNode.type = some (.task type)
  resource : t.resources.get? type = some task.resource
  supplied : g.supplied t id = .ok data
  parameters : task.parameters = Graph.parameters t first id data

theorem task_assigned {n : GraphNode} {next : Option String} (hn : g.node? id = some n)
    (h : g.task t first n next = .ok task) : ∃ type data, g.Assigned t first id task type data := by
  simp only [Graph.task, bind_eq_ok, pure_eq_ok, mapError_eq_ok] at h
  obtain ⟨resource, hresource, data, hdata, rfl⟩ := h
  obtain ⟨type, htype, hget, -⟩ := Resources.resolve_eq_ok hresource
  obtain rfl : n.id = id := (mem_of_node? hn).2
  exact ⟨type, data, by rw [hn, Option.map_some, htype], hget, hdata, rfl⟩

/-- A walk starts with the task of its first node; the tasks behind it are not first ones. -/
theorem walk_assigned (h : g.walk t first left id = .ok (tasks, rest)) :
    ∃ task more, tasks = (id, task) :: more ∧ (∃ type data, g.Assigned t first id task type data) ∧
      ∀ e ∈ more, ∃ type data, g.Assigned t false e.1 e.2 type data := by
  fun_induction walk g t first left id generalizing tasks rest with
  | case1 => cases h
  | case2 first left id n hn hmem htargets =>
    obtain ⟨task, htask, hpair⟩ := bind_eq_ok.1 h
    obtain ⟨rfl, rfl⟩ := Prod.mk.inj (pure_eq_ok.1 hpair)
    exact ⟨task, [], rfl, task_assigned hn htask, by simp⟩
  | case3 first left id n hn hmem next htargets ih =>
    obtain ⟨task, htask, hpair⟩ := bind_eq_ok.1 h
    obtain ⟨⟨more, rest'⟩, hwalk, hpair⟩ := bind_eq_ok.1 hpair
    obtain ⟨rfl, rfl⟩ := Prod.mk.inj (pure_eq_ok.1 hpair)
    obtain ⟨after, more, rfl, hafter, hmore⟩ := ih hwalk
    exact ⟨task, _, rfl, task_assigned hn htask, List.forall_mem_cons.2 ⟨hafter, hmore⟩⟩
  | case4 => cases h
  | case5 => cases h

/-- The nodes that a walk does not come to are left in their order. -/
theorem walk_rest (hleft : left.Nodup) (h : g.walk t first left id = .ok (tasks, rest)) :
    rest = left.filter (· ∉ tasks.keys) := by
  fun_induction walk g t first left id generalizing tasks rest with
  | case1 => cases h
  | case2 first left id n hn hmem htargets =>
    obtain ⟨task, -, hpair⟩ := bind_eq_ok.1 h
    obtain ⟨rfl, rfl⟩ := Prod.mk.inj (pure_eq_ok.1 hpair)
    rw [hleft.erase_eq_filter]
    exact List.filter_congr fun n _ => by simp [bne, beq_eq_decide]
  | case3 first left id n hn hmem next htargets ih =>
    obtain ⟨task, -, hpair⟩ := bind_eq_ok.1 h
    obtain ⟨⟨more, rest'⟩, hwalk, hpair⟩ := bind_eq_ok.1 hpair
    obtain ⟨rfl, rfl⟩ := Prod.mk.inj (pure_eq_ok.1 hpair)
    rw [ih (hleft.erase id) hwalk, hleft.erase_eq_filter, List.filter_filter]
    exact List.filter_congr fun n _ => by simp [bne, beq_eq_decide, Bool.and_comm]
  | case4 => cases h
  | case5 => cases h

/-- A chain is what is walked through from the start node among all nodes. -/
theorem compile_eq_ok (h : g.compile t = .ok c) : g.start = .ok c.chain.start ∧
    ∃ rest, g.walk t true g.ids c.chain.start = .ok (c.chain.tasks, rest) ∧ c.skipped = rest.filter g.isTask := by
  simp only [compile, bind_eq_ok, pure_eq_ok, mapError_eq_ok] at h
  obtain ⟨s, hs, ⟨tasks, rest⟩, hwalk, rfl⟩ := h
  exact ⟨hs, rest, hwalk, rfl⟩

theorem Assigned.isTask (h : g.Assigned t first id task type data) : g.isTask id := by
  obtain ⟨n, hn, htype⟩ := Option.map_eq_some_iff.1 h.node
  rw [Graph.isTask, hn, Option.any_some, htype]
  rfl

end Graph
end HuntDraw
