import HuntDraw.Proofs.Engine.Linear
import HuntDraw.Proofs.Schema.Checked

/-! Which definitions the engine finds no fault in. They are the ones whose tasks can be listed one after the other from
the start, each going on to the one behind it, and the list can only be the order that the tasks are met in. -/

namespace HuntDraw

open Checked

theorem Task.telling_check (v : Json) : (Task.check v).Telling := by
  refine (Check.telling_record _ v).andThen fun fs => ?_
  have hparameters := Check.telling_mapping Check.telling_text Telling.valid
  exact ((((Check.telling_required Check.telling_filledText).map.seq (Check.telling_optional Check.telling_text)).seq
    (Check.telling_optional hparameters)).seq
    (Check.telling_optional (Check.telling_nullable Check.telling_text))).seq
    (Check.telling_optional Check.telling_flag)

namespace TaskChain

variable {c : TaskChain} {resources ids : List String}

theorem telling_check (v : Json) : (TaskChain.check v).Telling :=
  (Check.telling_record _ v).andThen fun _ => (Check.telling_required Check.telling_text).map.seq
    (Check.telling_required (Check.telling_mapping Check.telling_text Task.telling_check))

/-- The tasks stand in the list, each of them once. The first one is the start, each goes on to the one behind it and is
not terminal, and the last one is terminal and goes on to none. -/
structure Chained (c : TaskChain) (ids : List String) : Prop where
  distinct : ids.Nodup
  covers : ids.Perm c.tasks.keys
  start : ids.head? = some c.start
  places : ∀ i id, ids[i]? = some id → ∃ task, c.tasks.get? id = some task ∧ task.next = ids[i + 1]? ∧
    (task.terminal ↔ i + 1 = ids.length)

/-- There is no other list than the order in which the tasks are met. -/
theorem Chained.ordered_eq (h : c.Chained ids) : c.ordered = ids := by
  rw [ordered, ← h.start]
  refine follow_eq (fun i id hid => ?_) h.distinct fun id hid => h.covers.mem_iff.1 hid
  obtain ⟨task, htask, hnext, -⟩ := h.places i id hid
  exact ⟨task, htask, hnext⟩

theorem Chained.linear (h : c.Chained ids) (hresources : ∀ p ∈ c.tasks, p.2.resource ∈ resources) :
    c.Linear resources := by
  rw [← h.ordered_eq] at h
  refine ⟨h.covers, h.distinct, h.start, fun i id hid => ?_⟩
  obtain ⟨task, htask, hnext, hterminal⟩ := h.places i id hid
  exact ⟨task, htask, hnext, hterminal, hresources _ (Fields.mem_of_get? htask)⟩

theorem Linear.chained (h : c.Linear resources) : c.Chained c.ordered := by
  refine ⟨h.nodup, h.perm, h.start, fun i id hid => ?_⟩
  obtain ⟨task, htask, hnext, hterminal, -⟩ := h.places i id hid
  exact ⟨task, htask, hnext, hterminal⟩

theorem Linear.resources_mem (h : c.Linear resources) : ∀ p ∈ c.tasks, p.2.resource ∈ resources := by
  intro p hp
  obtain ⟨i, hi⟩ := List.getElem?_of_mem (h.perm.mem_iff.2 (List.mem_map_of_mem (f := Prod.fst) hp))
  obtain ⟨task, htask, -, -, hresource⟩ := h.places i p.1 hi
  obtain rfl : task = p.2 := Fields.eq_of_mem (h.perm.nodup_iff.1 h.nodup) (Fields.mem_of_get? htask) hp
  exact hresource

/-- A chain has no problems if its tasks have handlers and can be listed. -/
theorem problems_eq_nil_iff : c.problems resources = [] ↔
    (∀ p ∈ c.tasks, p.2.resource ∈ resources) ∧ ∃ ids, c.Chained ids := by
  constructor
  · intro h
    have hlinear := linear_of_problems h
    exact ⟨hlinear.resources_mem, _, hlinear.chained⟩
  · rintro ⟨hresources, ids, h⟩
    exact problems_of_linear (h.covers.nodup_iff.1 h.distinct) (h.linear hresources)

end TaskChain

variable {T : Type}

/-- The engine finds no fault in a definition exactly if it has the shape of one, there is a handler for each of its
tasks, and the tasks can be listed one after the other; they are met in the order of the list. Whatever the tasks are,
there is a last one wherever the engine looks for it. -/
theorem Engine.problems_iff_chained [Timeline T] (e : Engine T) (definition : Json) :
    (e.problems definition = [] ↔ ∃ c ids, TaskChain.check definition = .valid c ∧
      (∀ p ∈ c.tasks, p.2.resource ∈ e.handlers.keys) ∧ c.Chained ids) ∧
    (∀ c ids, TaskChain.check definition = .valid c → c.Chained ids → c.ordered = ids) ∧
    (∀ c, TaskChain.check definition = .valid c → c.partProblems e.handlers.keys = [] →
      ∃ last task, c.ordered.getLast? = some last ∧ c.tasks.get? last = some task) := by
  refine ⟨?_, fun c ids _ h => h.ordered_eq, fun c _ h => TaskChain.exists_last (TaskChain.start_mem h)⟩
  rw [problems]
  cases hcheck : TaskChain.check definition with
  | faulty faults =>
    have htold : faults ≠ [] := fun hnone => TaskChain.telling_check definition (hnone ▸ hcheck)
    simp [htold]
  | valid c =>
    simp only [TaskChain.problems_eq_nil_iff, valid.injEq]
    constructor
    · rintro ⟨hresources, ids, h⟩
      exact ⟨c, ids, rfl, hresources, h⟩
    · rintro ⟨c', ids, rfl, hresources, h⟩
      exact ⟨hresources, ids, h⟩

def pairChain : TaskChain :=
  ⟨"b", [("a", { resource := "noop", terminal := true }), ("b", { resource := "noop", next := some "a" })]⟩

def noopEngine : Engine Binary64 := ⟨[("noop", fun state => pure state)], .zero false⟩

theorem Engine.problems_iff_chained_pair : TaskChain.check pairChain.toJson = .valid pairChain ∧
    pairChain.Chained ["b", "a"] ∧ noopEngine.problems pairChain.toJson = [] ∧ pairChain.ordered = ["b", "a"] := by
  have hcheck : TaskChain.check pairChain.toJson = .valid pairChain := rfl
  have hchained : pairChain.Chained ["b", "a"] := by
    refine ⟨by decide, by decide, rfl, fun i id hid => ?_⟩
    obtain ⟨rfl, rfl⟩ | ⟨rfl, rfl⟩ : i = 0 ∧ id = "b" ∨ i = 1 ∧ id = "a" := by
      match i with
      | 0 => simpa using hid.symm
      | 1 => simpa using hid.symm
      | i + 2 => simp at hid
    · exact ⟨_, rfl, rfl, by decide⟩
    · exact ⟨_, rfl, rfl, by decide⟩
  obtain ⟨hnone, hordered, -⟩ := problems_iff_chained noopEngine pairChain.toJson
  exact ⟨hcheck, hchained, hnone.2 ⟨_, _, hcheck, by decide, hchained⟩, hordered _ _ hcheck hchained⟩

end HuntDraw
