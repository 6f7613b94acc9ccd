import HuntDraw.Proofs.Data.Ring
import HuntDraw.Proofs.Graph.Walk

/-! The nodes that a compilation leaves out. They are the task nodes that are no tasks, in their order, and they are
left out only where the flow runs in a loop: going backwards from one of them never ends. -/

namespace HuntDraw

open Attempt

def Compilation.WarnsOf (c : Compilation) (ids : List String) : Prop :=
  (c.warnings = [] ↔ ids = []) ∧ ∀ w ∈ c.warnings,
    w.get? "code" = some (.text "UNREACHABLE_NODES") ∧ w.get? "node_ids" = some (Json.ofTexts ids)

theorem Compilation.warnsOf_skipped (c : Compilation) : c.WarnsOf c.skipped := by
  rw [WarnsOf, warnings]
  split_ifs with hnone
  · exact ⟨by simpa using hnone, by simp⟩
  · refine ⟨by simpa using hnone, fun w hw => ?_⟩
    obtain rfl := List.mem_singleton.1 hw
    exact ⟨rfl, rfl⟩

namespace Graph

variable {g : Graph} {t : Target} {c : Compilation} {nodes : List NodeRecord} {edges : List EdgeRecord}
  {documents : List DocumentRecord} {s n : String}

/-- A way along the flow, through different nodes, that comes back to where it started. -/
structure Loop (g : Graph) (ring : Cycle String) : Prop where
  nonempty : ring ≠ Cycle.nil
  distinct : ring.Nodup
  flow : ring.Chain g.Flow

def Acyclic (g : Graph) : Prop := ∀ ring, ¬g.Loop ring

theorem start_eq_ok (h : g.start = .ok s) : ∀ n ∈ g.tasks, g.sources n = [] → n = s := by
  simp only [start] at h
  split at h
  · cases h
  · rename_i s' hs
    split_ifs at h
    obtain rfl := Except.ok.inj h
    intro n hn hnone
    exact List.mem_singleton.1 (hs ▸ List.mem_filter.2 ⟨hn, by simp [hnone]⟩)
  · cases h

theorem skipped_eq (hids : g.ids.Nodup) (hc : g.compile t = .ok c) :
    c.skipped = g.tasks.filter (· ∉ c.chain.tasks.keys) := by
  obtain ⟨-, rest, hwalk, hskipped⟩ := compile_eq_ok hc
  rw [hskipped, walk_rest hids hwalk, tasks_eq hids, List.filter_comm]

theorem tasks_of_compiled (hc : g.compile t = .ok c) (hn : n ∈ c.chain.tasks.keys) : n ∈ g.tasks := by
  obtain ⟨-, rest, hwalk, -⟩ := compile_eq_ok hc
  obtain ⟨task, more, htasks, ⟨_, _, hfirst⟩, hmore⟩ := walk_assigned hwalk
  rw [htasks] at hn
  obtain ⟨e, he, rfl⟩ := List.mem_map.1 hn
  rcases List.mem_cons.1 he with rfl | he
  · exact mem_tasks_of_isTask hfirst.isTask
  · obtain ⟨_, _, hassigned⟩ := hmore e he
    exact mem_tasks_of_isTask hassigned.isTask

theorem compiled_perm (hids : g.ids.Nodup) (hc : g.compile t = .ok c) :
    (c.chain.tasks.keys ++ c.skipped).Perm g.tasks := by
  obtain ⟨-, -, -, hkeys⟩ := compile_traced hids hc
  have htasks : g.tasks.Nodup := tasks_eq hids ▸ hids.filter _
  have hcompiled : c.chain.tasks.keys.Perm (g.tasks.filter (· ∈ c.chain.tasks.keys)) := by
    refine (List.perm_ext_iff_of_nodup hkeys (htasks.filter _)).2 fun n => ?_
    rw [List.mem_filter, decide_eq_true_eq]
    exact ⟨fun hn => ⟨tasks_of_compiled hc hn, hn⟩, And.right⟩
  rw [skipped_eq hids hc]
  refine (hcompiled.append_right _).trans ?_
  simpa using List.filter_append_perm (fun n => decide (n ∈ c.chain.tasks.keys)) g.tasks

theorem compiled_of_flow (hids : g.ids.Nodup) (hc : g.compile t = .ok c) {a b : String}
    (ha : a ∈ c.chain.tasks.keys) (h : g.Flow a b) : b ∈ c.chain.tasks.keys := by
  obtain ⟨-, -, htraced, -⟩ := compile_traced hids hc
  obtain ⟨i, hi⟩ := List.getElem?_of_mem ha
  obtain ⟨_, _, _, _, htargets⟩ := htraced.places hi
  have hb : b ∈ c.chain.tasks.keys[i + 1]?.toList := htargets ▸ mem_targets.2 h
  exact List.mem_of_getElem? (Option.mem_toList.1 hb)

theorem skipped_before (hids : g.ids.Nodup) (hg : g.Settled) (hc : g.compile t = .ok c)
    (hn : n ∈ c.skipped) : ∃ m ∈ c.skipped, g.Flow m n := by
  obtain ⟨hstart, -⟩ := compile_eq_ok hc
  obtain ⟨-, ⟨task, more, hhead⟩, -, -⟩ := compile_traced hids hc
  rw [skipped_eq hids hc] at hn ⊢
  obtain ⟨htask, hout⟩ := List.mem_filter.1 hn
  have hne : g.sources n ≠ [] := by
    intro hnone
    obtain rfl := start_eq_ok hstart n htask hnone
    rw [hhead] at hout
    simp at hout
  obtain ⟨m, hm⟩ := List.exists_mem_of_ne_nil _ hne
  have hflow : g.Flow m n := mem_sources.1 hm
  refine ⟨m, List.mem_filter.2 ⟨hg.mem_tasks hflow, ?_⟩, hflow⟩
  rw [decide_eq_true_eq] at hout ⊢
  exact fun hcompiled => hout (compiled_of_flow hids hc hcompiled hflow)

/-- What is compiled from stored records and what the warnings name are together the task nodes, each of them once.
Nodes are left out only where the flow runs in a loop among them, so that nothing is left out of an acyclic graph. -/
theorem compile_covers (hg : ofRecords nodes edges documents = .ok g) (hc : g.compile t = .ok c) :
    g.tasks.Nodup ∧ (c.chain.tasks.keys ++ c.skipped).Perm g.tasks ∧ c.WarnsOf c.skipped ∧
      c.skipped = g.tasks.filter (· ∉ c.chain.tasks.keys) ∧
      (c.skipped ≠ [] → ∃ ring, g.Loop ring ∧ ∀ n ∈ ring, n ∈ c.skipped) ∧
      (g.Acyclic → c.skipped = [] ∧ c.chain.tasks.keys.Perm g.tasks) := by
  have hids : g.ids.Nodup := nodup_ofRecords hg
  have hperm := compiled_perm hids hc
  have hloop : c.skipped ≠ [] → ∃ ring, g.Loop ring ∧ ∀ n ∈ ring, n ∈ c.skipped := by
    intro hne
    obtain ⟨ring, hnonempty, hdistinct, hflow, hwithin⟩ :=
      exists_ring hne fun n hn => skipped_before hids (settled_ofRecords hg) hc hn
    exact ⟨ring, ⟨hnonempty, hdistinct, hflow⟩, hwithin⟩
  refine ⟨tasks_eq hids ▸ hids.filter _, hperm, c.warnsOf_skipped, skipped_eq hids hc, hloop, fun hacyclic => ?_⟩
  have hnone : c.skipped = [] := by
    by_contra hne
    obtain ⟨ring, hring, -⟩ := hloop hne
    exact hacyclic ring hring
  exact ⟨hnone, by simpa [hnone] using hperm⟩

def noopTarget : Target := ⟨"org", [(.noop, "noop")], .ok⟩

def noopRecord (id : String) : NodeRecord := ⟨id, "I", "WorkflowNoopNode", none⟩

/-- One node that can be compiled, beside two that lead to each other. -/
def ringRecords : List NodeRecord := [noopRecord "a", noopRecord "c", noopRecord "d"]

def ringEdges : List EdgeRecord := [⟨"E1", "I", "c", "d"⟩, ⟨"E2", "I", "d", "c"⟩]

def ringGraph : Graph :=
  { nodes := [⟨"a", .task .noop, none⟩, ⟨"c", .task .noop, none⟩, ⟨"d", .task .noop, none⟩]
    edges := [⟨"E1", "c", "d", .flow⟩, ⟨"E2", "d", "c", .flow⟩] }

theorem compile_covers_ring : ofRecords ringRecords ringEdges [] = .ok ringGraph ∧
    ∃ c, ringGraph.compile noopTarget = .ok c ∧ c.skipped = ["c", "d"] ∧
      ∃ ring, ringGraph.Loop ring ∧ ∀ n ∈ ring, n = "c" ∨ n = "d" := by
  have hg : ofRecords ringRecords ringEdges [] = .ok ringGraph := by decide +kernel
  have hout : (fun c : Compilation => c.skipped) <$> ringGraph.compile noopTarget = .ok ["c", "d"] := by
    decide +kernel
  obtain ⟨c, hc, hskipped⟩ := map_eq_ok.1 hout
  obtain ⟨-, -, -, -, hloop, -⟩ := compile_covers hg hc
  obtain ⟨ring, hring, hwithin⟩ := hloop (by simp [hskipped])
  refine ⟨hg, c, hc, hskipped, ring, hring, fun n hn => ?_⟩
  simpa [hskipped] using hwithin n hn

end Graph
end HuntDraw
