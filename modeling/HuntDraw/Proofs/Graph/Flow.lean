import HuntDraw.Proofs.Graph.Records

/-! The flow of a graph. What follows a node and what comes before it are the two ends of the same edges, and in the
graph of stored records the flow leaves task nodes only. -/

namespace HuntDraw

theorem grouped_perm {α : Type} (key : α → String) (xs : List α) : (grouped key xs).Perm xs := by
  refine (flatMap_filter_key_perm (nodup_eraseDups _) xs).trans (.of_eq (List.filter_eq_self.2 fun x hx => ?_))
  exact decide_eq_true (List.mem_eraseDups.2 (List.mem_map_of_mem hx))

theorem mem_grouped {α : Type} {key : α → String} {xs : List α} {x : α} : x ∈ grouped key xs ↔ x ∈ xs :=
  (grouped_perm key xs).mem_iff

namespace Graph

open Attempt

variable {g h : Graph} {nodes : List NodeRecord} {edges : List EdgeRecord} {documents : List DocumentRecord}
  {a b n : String}

def Flow (g : Graph) (a b : String) : Prop := ∃ e ∈ g.edges, e.kind = .flow ∧ e.source = a ∧ e.target = b

theorem mem_targets : b ∈ g.targets a ↔ g.Flow a b := by
  simp only [targets, outEdges, List.mem_map, List.mem_filter, mem_grouped, decide_eq_true_eq, Flow]
  constructor
  · rintro ⟨e, ⟨⟨he, hsource⟩, hkind⟩, htarget⟩
    exact ⟨e, he, hkind, hsource, htarget⟩
  · rintro ⟨e, he, hkind, hsource, htarget⟩
    exact ⟨e, ⟨⟨he, hsource⟩, hkind⟩, htarget⟩

theorem mem_sources : a ∈ g.sources b ↔ g.Flow a b := by
  simp only [sources, inEdges, List.mem_map, List.mem_filter, mem_grouped, decide_eq_true_eq, Flow]
  constructor
  · rintro ⟨e, ⟨⟨he, htarget⟩, hkind⟩, hsource⟩
    exact ⟨e, he, hkind, hsource, htarget⟩
  · rintro ⟨e, he, hkind, hsource, htarget⟩
    exact ⟨e, ⟨⟨he, htarget⟩, hkind⟩, hsource⟩

theorem mem_of_node? {m : GraphNode} (h : g.node? n = some m) : m ∈ g.nodes ∧ m.id = n :=
  ⟨List.mem_of_find?_eq_some h, by simpa using List.find?_some h⟩

theorem mem_tasks_of_isTask (h : g.isTask n) : n ∈ g.tasks := by
  obtain ⟨m, hm, htask⟩ := (Option.any_eq_true _ _).1 h
  obtain ⟨hmem, rfl⟩ := mem_of_node? hm
  exact List.mem_map_of_mem (List.mem_filter.2 ⟨hmem, htask⟩)

theorem exists_node?_of_mem (h : n ∈ g.ids) : ∃ m, g.node? n = some m := by
  rw [← Option.isSome_iff_exists, node?, List.find?_isSome]
  simpa [ids] using h

theorem node?_of_mem (hids : g.ids.Nodup) {m : GraphNode} (hm : m ∈ g.nodes) : g.node? m.id = some m := by
  cases hfound : g.node? m.id with
  | none => simpa using List.find?_eq_none.1 hfound m hm
  | some m' =>
    obtain ⟨hm', hid⟩ := mem_of_node? hfound
    rw [List.inj_on_of_nodup_map hids hm' hm hid]

theorem tasks_eq (hids : g.ids.Nodup) : g.tasks = g.ids.filter g.isTask := by
  rw [tasks, ids, List.filter_map]
  refine congrArg (List.map GraphNode.id) (List.filter_congr fun m hm => ?_)
  rw [Function.comp_apply, isTask, node?_of_mem hids hm]
  rfl

theorem mem_putEdge {e f : GraphEdge} {es : List GraphEdge} (h : f ∈ putEdge e es) : f = e ∨ f ∈ es := by
  induction es with
  | nil => exact Or.inl (by simpa [putEdge] using h)
  | cons e' es ih =>
    rw [putEdge] at h
    split_ifs at h
    · exact (List.mem_cons.1 h).imp_right (List.mem_cons_of_mem _)
    · rcases List.mem_cons.1 h with rfl | h
      · exact Or.inr List.mem_cons_self
      · exact (ih h).imp_right (List.mem_cons_of_mem _)

theorem edges_attachRecord (g : Graph) (d : DocumentRecord) : (g.attachRecord d).edges = g.edges := by
  rw [attachRecord]
  split <;> rfl

theorem has_iff : g.has n ↔ n ∈ g.ids := by
  simp [has, ids]

/-- What adding an edge does: both its ends are there, and the edges of the graph are joined by it. -/
theorem addEdge_eq_ok {id source target : String} {kind : EdgeKind}
    (hadd : g.addEdge id source target = .ok (h, kind)) : source ∈ g.ids ∧ target ∈ g.ids ∧
      h = { g with edges := putEdge ⟨id, source, target, g.kindFrom source⟩ g.edges } := by
  rw [addEdge] at hadd
  split_ifs at hadd with hsource htarget
  rw [Except.ok.injEq, Prod.mk.injEq] at hadd
  exact ⟨has_iff.1 (by simpa using hsource), has_iff.1 (by simpa using htarget), hadd.1.symm⟩

def Closed (g : Graph) : Prop := ∀ e ∈ g.edges, e.source ∈ g.ids ∧ e.target ∈ g.ids

theorem closed_ofRecords (hg : ofRecords nodes edges documents = .ok g) : g.Closed := by
  refine ofRecords_preserves Closed (by simp [Closed]) (fun _ hnone _ => by simp [Closed, hnone])
    (fun hadd hg => ?_) (fun d hg => ?_) hg
  · obtain ⟨hsource, htarget, rfl⟩ := addEdge_eq_ok hadd
    intro e he
    rcases mem_putEdge he with rfl | he
    · exact ⟨hsource, htarget⟩
    · exact hg e he
  · rw [Closed, edges_attachRecord, ids_attachRecord]
    exact hg

def GraphEdge.key (e : GraphEdge) : String × String × String := (e.id, e.source, e.target)

theorem GraphEdge.same_iff {e f : GraphEdge} : GraphEdge.same e f ↔ GraphEdge.key e = GraphEdge.key f := by
  simp [GraphEdge.same, GraphEdge.key, and_assoc]

/-- An edge takes the place of the one that is told by the same, or stands behind the others. -/
theorem keys_putEdge (e : GraphEdge) (es : List GraphEdge) : (putEdge e es).map GraphEdge.key =
    if GraphEdge.key e ∈ es.map GraphEdge.key then es.map GraphEdge.key
    else es.map GraphEdge.key ++ [GraphEdge.key e] := by
  induction es with
  | nil => rfl
  | cons f es ih =>
    by_cases hf : GraphEdge.key f = GraphEdge.key e
    · simp [putEdge, GraphEdge.same_iff, hf]
    · have hf' : ¬GraphEdge.key e = GraphEdge.key f := fun heq => hf heq.symm
      simp only [putEdge, GraphEdge.same_iff, if_neg hf, List.map_cons, ih, List.mem_cons, hf', false_or]
      split_ifs <;> rfl

def EdgeRecord.key (e : EdgeRecord) : String × String × String := (e.id, e.source, e.target)

/-- Records that tell of the same edge make one edge, in the place of the first of them. -/
theorem keys_ofRecords (hg : ofRecords nodes edges documents = .ok g) :
    g.edges.map GraphEdge.key = (edges.map EdgeRecord.key).eraseDups := by
  obtain ⟨noded, hnoded, edged, hedged, rfl⟩ := ofRecords_eq_ok.1 hg
  have hdocuments : (documents.foldl attachRecord edged).edges = edged.edges :=
    List.foldlRecOn (motive := fun g : Graph => g.edges = edged.edges) documents attachRecord rfl
      fun g hg d _ => (edges_attachRecord g d).trans hg
  rw [hdocuments]
  refine foldlM_eraseDups (fun g : Graph => g.edges.map GraphEdge.key) EdgeRecord.key (fun g e h hadd => ?_) hedged
    (by rw [edges_addRecords hnoded]; rfl)
  obtain ⟨⟨h, kind⟩, hput, rfl⟩ := map_eq_ok.1 hadd
  obtain ⟨-, -, rfl⟩ := addEdge_eq_ok hput
  exact keys_putEdge _ _

theorem distinct_ofRecords (hg : ofRecords nodes edges documents = .ok g) : (g.edges.map GraphEdge.key).Nodup :=
  keys_ofRecords hg ▸ nodup_eraseDups _

/-- The kind of each edge is the one that its source settles. -/
def Settled (g : Graph) : Prop := ∀ e ∈ g.edges, e.kind = g.kindFrom e.source

theorem Settled.addEdge {id source target : String} {kind : EdgeKind} (hg : g.Settled)
    (hadd : g.addEdge id source target = .ok (h, kind)) : h.Settled := by
  obtain ⟨-, -, rfl⟩ := addEdge_eq_ok hadd
  intro e he
  rcases mem_putEdge he with rfl | he
  · rfl
  · exact hg e he

theorem node?_attach (g : Graph) (linked : String) (d : DocumentRecord) (id : String) : (g.attach linked d).node? id =
    (g.node? id).map fun n => if n.id = linked then { n with document := some d } else n := by
  rw [node?, attach, List.find?_map, node?]
  congr 2
  funext n
  simp only [Function.comp_apply]
  split_ifs <;> rfl

/-- The document becomes that of the node which it is linked to, and the other nodes stay as they are. -/
theorem node?_attachRecord (g : Graph) (d : DocumentRecord) (id : String) : (g.attachRecord d).node? id =
    (g.node? id).map fun n => if d.nodeId = some n.id then { n with document := some d } else n := by
  rw [attachRecord]
  split
  · rename_i linked hlinked
    simp only [node?_attach, hlinked, Option.some.injEq, eq_comm]
  · rename_i hlinked
    simp [hlinked]

theorem isTask_attachRecord (g : Graph) (d : DocumentRecord) : (g.attachRecord d).isTask = g.isTask := by
  funext id
  rw [isTask, node?_attachRecord, isTask, Option.any_map]
  congr 1
  funext n
  split_ifs <;> rfl

theorem Settled.attachRecord (hg : g.Settled) (d : DocumentRecord) : (g.attachRecord d).Settled := by
  intro e he
  rw [kindFrom, isTask_attachRecord]
  exact hg e (edges_attachRecord g d ▸ he)

theorem settled_ofRecords (hg : ofRecords nodes edges documents = .ok g) : g.Settled := by
  -- nodes are added before there is any edge, so no edge outlives a change of its source
  exact ofRecords_preserves Settled (by simp [Settled]) (fun _ hnone _ => by simp [Settled, hnone])
    (fun hadd hg => hg.addEdge hadd) (fun d hg => hg.attachRecord d) hg

theorem Settled.mem_tasks (hg : g.Settled) (h : g.Flow a b) : a ∈ g.tasks := by
  obtain ⟨e, he, hkind, rfl, -⟩ := h
  have hflow : g.kindFrom e.source = .flow := (hg e he).symm.trans hkind
  rw [kindFrom] at hflow
  split_ifs at hflow with htask
  exact mem_tasks_of_isTask htask

end Graph
end HuntDraw
