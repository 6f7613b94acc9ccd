import HuntDraw.Proofs.Graph.Flow

/-! The views of a graph and the records that it is made of. A node is what its last record and its last document say,
and what it leads to and what leads to it are the two ends of the same edges, each of which is seen once at its
target. -/

namespace HuntDraw

open Attempt

theorem Worded.text_of_ofText? {α : Type} [Worded α] {s : String} {a : α} (h : Worded.ofText? s = some a) :
    Worded.text a = s := by
  simpa using List.find?_some h

theorem NodeType.text_of_ofText? {s : String} {type : NodeType} (h : NodeType.ofText? s = some type) :
    type.text = s := by
  rcases Option.or_eq_some_iff.1 h with h | ⟨-, h⟩
  · obtain ⟨t, ht, rfl⟩ := Option.map_eq_some_iff.1 h
    exact Worded.text_of_ofText? ht
  · obtain ⟨t, ht, rfl⟩ := Option.map_eq_some_iff.1 h
    exact Worded.text_of_ofText? ht

theorem NodeType.read_eq_ok {node s : String} {type : NodeType} :
    NodeType.read node s = .ok type ↔ NodeType.ofText? s = some type := by
  rw [NodeType.read]
  cases NodeType.ofText? s <;> simp

namespace Graph

variable {g h : Graph} {nodes : List NodeRecord} {edges : List EdgeRecord} {documents : List DocumentRecord}
  {id : String}

/-- A graph that has the nodes of records, and along whose edges one sees what their records tell of. -/
structure Shows (g : Graph) (nodes : List NodeRecord) (edges : List EdgeRecord) (documents : List DocumentRecord) :
    Prop where
  /-- Nodes stand in the order in which they are first told of. -/
  ids : g.ids = (nodes.map NodeRecord.id).eraseDups
  /-- Of the records of a node the last one tells its type, and of the documents linked to it the last one is its own. -/
  node : ∀ id ∈ g.ids, ∃ r type, (nodes.filter (·.id = id)).getLast? = some r ∧ type.text = r.type ∧
    g.node? id = some ⟨id, type, (documents.filter (·.nodeId = some id)).getLast?⟩
  /-- A task node leads along every edge that leaves it, a data node nowhere. -/
  targets : ∀ id ∈ g.ids, (g.targets id).Perm
    (if g.isTask id then (edges.filter (·.source = id)).map EdgeRecord.target else [])
  /-- Of the nodes that edges come from, the task nodes come before a node and the data nodes feed it. -/
  sources : ∀ id ∈ g.ids, (g.sources id).Perm (((edges.filter (·.target = id)).map EdgeRecord.source).filter g.isTask)
  overrides : ∀ id ∈ g.ids, (g.overrides id).Perm
    (((edges.filter (·.target = id)).map EdgeRecord.source).filter (!g.isTask ·))
  /-- Every edge is seen at its target, once. -/
  seen : (g.ids.flatMap fun id => (g.sources id ++ g.overrides id).map (·, id)).Perm
    (edges.map fun e => (e.source, e.target))
  /-- Flow is seen as often where it leaves as where it enters. -/
  matched : ∀ s ∈ g.ids, ∀ t ∈ g.ids, (g.targets s).count t = (g.sources t).count s

theorem find?_putNode (n : GraphNode) (ns : List GraphNode) (id : String) :
    (putNode n ns).find? (·.id = id) = if n.id = id then some n else ns.find? (·.id = id) := by
  induction ns with
  | nil => by_cases hn : n.id = id <;> simp [putNode, hn]
  | cons m ns ih =>
    by_cases hm : m.id = n.id
    · by_cases hn : n.id = id <;> simp [putNode, hm, hn]
    · rw [putNode, if_neg hm]
      by_cases hid : m.id = id
      · have hn : ¬n.id = id := fun hn => hm (hid.trans hn.symm)
        simp [hid, hn]
      · simp [hid, ih]

theorem node?_addRecord {r : NodeRecord} (hadd : g.addRecord r = .ok h) (id : String) : h.node? id =
    if r.id = id then (NodeType.ofText? r.type).map fun type => ⟨r.id, type, none⟩ else g.node? id := by
  obtain ⟨type, hread, hnode⟩ := bind_eq_ok.1 hadd
  rw [← pure_eq_ok.1 hnode, NodeType.read_eq_ok.1 hread]
  exact find?_putNode _ _ _

theorem node?_addRecords (h : nodes.foldlM addRecord {} = .ok g) (id : String) : g.node? id =
    (nodes.filter (·.id = id)).getLast?.bind fun r => (NodeType.ofText? r.type).map fun type => ⟨id, type, none⟩ := by
  induction nodes using List.reverseRecOn generalizing g with
  | nil => rw [← pure_eq_ok.1 h]; rfl
  | append_singleton nodes r ih =>
    rw [List.foldlM_append, bind_eq_ok] at h
    obtain ⟨before, hbefore, hlast⟩ := h
    obtain ⟨after, hadd, hpure⟩ := bind_eq_ok.1 hlast
    obtain rfl := pure_eq_ok.1 hpure
    rw [node?_addRecord hadd, List.filter_append]
    -- the record behind the others either is the last one of the node or is of another node
    split_ifs with hr
    · simp [hr]
    · simpa [hr] using ih hbefore

theorem node?_attachRecords (g : Graph) (documents : List DocumentRecord) (id : String) :
    (documents.foldl attachRecord g).node? id = (g.node? id).map fun n =>
      { n with document := (documents.filter (·.nodeId = some n.id)).getLast?.or n.document } := by
  induction documents using List.reverseRecOn with
  | nil => simp
  | append_singleton documents d ih =>
    rw [List.foldl_concat, node?_attachRecord, ih, Option.map_map]
    congr 1
    funext n
    by_cases hd : d.nodeId = some n.id <;> simp [hd]

theorem node?_ofRecords (hg : ofRecords nodes edges documents = .ok g) (id : String) : g.node? id =
    (nodes.filter (·.id = id)).getLast?.bind fun r => (NodeType.ofText? r.type).map fun type =>
      ⟨id, type, (documents.filter (·.nodeId = some id)).getLast?⟩ := by
  obtain ⟨noded, hnoded, edged, hedged, rfl⟩ := ofRecords_eq_ok.1 hg
  have hnodes : edged.nodes = noded.nodes := by
    refine foldlM_preserves (fun g : Graph => g.nodes = noded.nodes) (fun g e h _ hadd hg => ?_) hedged rfl
    obtain ⟨⟨h, kind⟩, hput, rfl⟩ := map_eq_ok.1 hadd
    obtain ⟨-, -, rfl⟩ := addEdge_eq_ok hput
    exact hg
  have hfound : edged.node? id = noded.node? id := by rw [node?, hnodes, node?]
  rw [node?_attachRecords, hfound, node?_addRecords hnoded, Option.map_bind]
  simp [Function.comp_def]

/-- Under different ids, every record makes an edge, whose kind its source settles. -/
theorem edges_ofRecords (hg : ofRecords nodes edges documents = .ok g) (hids : (edges.map EdgeRecord.id).Nodup) :
    g.edges = edges.map fun e => ⟨e.id, e.source, e.target, g.kindFrom e.source⟩ := by
  -- what an edge is told by settles its kind as well, so that the edges are those of the keys
  let settled (key : String × String × String) : GraphEdge := ⟨key.1, key.2.1, key.2.2, g.kindFrom key.2.1⟩
  have hkeys : (edges.map EdgeRecord.key).Nodup := .of_map Prod.fst (by simpa [Function.comp_def, EdgeRecord.key] using hids)
  have hsettled : ∀ e ∈ g.edges, e = settled (GraphEdge.key e) := fun e he => by
    simp only [settled, GraphEdge.key, ← settled_ofRecords hg e he]
  calc g.edges = (g.edges.map GraphEdge.key).map settled := by
        rw [List.map_map]
        exact (List.map_id _).symm.trans (List.map_congr_left hsettled)
    _ = (edges.map EdgeRecord.key).map settled := by rw [keys_ofRecords hg, eraseDups_of_nodup hkeys]
    _ = edges.map fun e => ⟨e.id, e.source, e.target, g.kindFrom e.source⟩ := List.map_map ..

theorem kindFrom_eq_flow {s : String} : g.kindFrom s = .flow ↔ g.isTask s := by
  rw [kindFrom]
  split_ifs with h <;> simp [h]

theorem kindFrom_eq_override {s : String} : g.kindFrom s = .override ↔ ¬g.isTask s := by
  rw [kindFrom]
  split_ifs with h <;> simp [h]

/-- The flow edges from one node to another are counted at either of them. -/
theorem count_targets (g : Graph) (s t : String) : (g.targets s).count t = (g.sources t).count s := by
  have htargets : (g.targets s).Perm (((g.edges.filter (·.source = s)).filter (·.kind = .flow)).map GraphEdge.target) :=
    ((grouped_perm _ _).filter _).map _
  have hsources : (g.sources t).Perm (((g.edges.filter (·.target = t)).filter (·.kind = .flow)).map GraphEdge.source) :=
    ((grouped_perm _ _).filter _).map _
  rw [htargets.count_eq, hsources.count_eq, List.count, List.countP_map, List.countP_filter, List.countP_filter,
    List.count, List.countP_map, List.countP_filter, List.countP_filter]
  refine List.countP_congr fun e _ => ?_
  simp only [Function.comp_apply, Bool.and_eq_true, beq_iff_eq, decide_eq_true_eq]
  tauto

/-- The records of the edges that leave a node are those of its flow if it is a task node. -/
theorem targets_ofRecords (hg : ofRecords nodes edges documents = .ok g) (hids : (edges.map EdgeRecord.id).Nodup)
    (id : String) : (g.targets id).Perm
      (if g.isTask id then (edges.filter (·.source = id)).map EdgeRecord.target else []) := by
  refine (((grouped_perm _ _).filter _).map _).trans (.of_eq ?_)
  simp only [edges_ofRecords hg hids, List.filter_map, List.map_map, Function.comp_def, kindFrom_eq_flow]
  have hsource : ∀ e ∈ edges.filter (·.source = id), e.source = id := fun e he => by
    simpa using (List.mem_filter.1 he).2
  split_ifs with htask
  · rw [List.filter_eq_self.2 fun e he => by simpa [hsource e he] using htask]
  · rw [List.filter_eq_nil_iff.2 fun e he => by simpa [hsource e he] using htask]
    rfl

theorem sources_ofRecords (hg : ofRecords nodes edges documents = .ok g) (hids : (edges.map EdgeRecord.id).Nodup)
    (id : String) : (g.sources id).Perm (((edges.filter (·.target = id)).map EdgeRecord.source).filter g.isTask) := by
  refine (((grouped_perm _ _).filter _).map _).trans (.of_eq ?_)
  simp only [edges_ofRecords hg hids, List.filter_map, List.map_map, Function.comp_def, kindFrom_eq_flow,
    Bool.decide_eq_true]

theorem overrides_ofRecords (hg : ofRecords nodes edges documents = .ok g) (hids : (edges.map EdgeRecord.id).Nodup)
    (id : String) : (g.overrides id).Perm
      (((edges.filter (·.target = id)).map EdgeRecord.source).filter (!g.isTask ·)) := by
  refine (((grouped_perm _ _).filter _).map _).trans (.of_eq ?_)
  simp only [edges_ofRecords hg hids, List.filter_map, List.map_map, Function.comp_def, kindFrom_eq_override,
    decide_not, Bool.decide_eq_true]

/-- The edges that enter a node are its flow and the data that feed it. -/
theorem entering_ofRecords (hg : ofRecords nodes edges documents = .ok g) (hids : (edges.map EdgeRecord.id).Nodup)
    (id : String) : (g.sources id ++ g.overrides id).Perm ((edges.filter (·.target = id)).map EdgeRecord.source) :=
  ((sources_ofRecords hg hids id).append (overrides_ofRecords hg hids id)).trans (List.filter_append_perm ..)

theorem seen_ofRecords (hg : ofRecords nodes edges documents = .ok g) (hids : (edges.map EdgeRecord.id).Nodup) :
    (g.ids.flatMap fun id => (g.sources id ++ g.overrides id).map (·, id)).Perm
      (edges.map fun e => (e.source, e.target)) := by
  have hentering : ∀ id ∈ g.ids, ((g.sources id ++ g.overrides id).map (·, id)).Perm
      ((edges.filter (·.target = id)).map fun e => (e.source, e.target)) := fun id _ => by
    refine ((entering_ofRecords hg hids id).map _).trans (.of_eq ?_)
    rw [List.map_map]
    refine List.map_congr_left fun e he => ?_
    have htarget : e.target = id := by simpa using (List.mem_filter.1 he).2
    rw [Function.comp_apply, htarget]
  have hknown : ∀ e ∈ edges, e.target ∈ g.ids := fun e he =>
    (closed_ofRecords hg _ (edges_ofRecords hg hids ▸ List.mem_map_of_mem he)).2
  refine (List.Perm.flatMap_left _ hentering).trans ?_
  rw [← List.map_flatMap]
  refine ((flatMap_filter_key_perm (nodup_ofRecords hg) edges).map _).trans (.of_eq ?_)
  rw [List.filter_eq_self.2 fun e he => decide_eq_true (hknown e he)]

/-- The graph of stored records shows them. -/
theorem ofRecords_shows (hg : ofRecords nodes edges documents = .ok g) (hids : (edges.map EdgeRecord.id).Nodup) :
    g.Shows nodes edges documents where
  ids := ids_ofRecords hg
  node := fun id hid => by
    obtain ⟨n, hn⟩ := exists_node?_of_mem hid
    rw [node?_ofRecords hg] at hn ⊢
    obtain ⟨r, hr, hn⟩ := Option.bind_eq_some_iff.1 hn
    obtain ⟨type, htype, rfl⟩ := Option.map_eq_some_iff.1 hn
    refine ⟨r, type, hr, NodeType.text_of_ofText? htype, ?_⟩
    rw [hr, Option.bind_some, htype, Option.map_some]
  targets := fun id _ => targets_ofRecords hg hids id
  sources := fun id _ => sources_ofRecords hg hids id
  overrides := fun id _ => overrides_ofRecords hg hids id
  seen := seen_ofRecords hg hids
  matched := fun s _ t _ => count_targets g s t

/-- A node is told of again as one of another type, with two edges between the same nodes, an edge from a node to itself
and one into a data node. -/
def tangledRecords : List NodeRecord :=
  [⟨"a", "I", "WorkflowDrawDataNode", none⟩, ⟨"b", "I", "WorkflowNoopNode", none⟩,
    ⟨"a", "I", "WorkflowNoopNode", none⟩, ⟨"data", "I", "WorkflowDrawDataNode", none⟩]

def tangledEdges : List EdgeRecord :=
  [⟨"E1", "I", "a", "b"⟩, ⟨"E2", "I", "a", "data"⟩, ⟨"E3", "I", "data", "b"⟩, ⟨"E4", "I", "b", "b"⟩,
    ⟨"E5", "I", "a", "b"⟩]

def codesDocument (id : String) (node : Option String) : DocumentRecord :=
  ⟨id, "org", "codes", "codes.csv", "text/csv", "org/codes.csv", .huntCodes, .pending, node⟩

def tangledDocuments : List DocumentRecord :=
  [codesDocument "D1" (some "data"), codesDocument "D2" (some "data"), codesDocument "D3" (some "elsewhere"),
    codesDocument "D4" none]

def tangledGraph : Graph :=
  { nodes := [⟨"a", .task .noop, none⟩, ⟨"b", .task .noop, none⟩,
      ⟨"data", .data .huntCodes, some (codesDocument "D2" (some "data"))⟩]
    edges := [⟨"E1", "a", "b", .flow⟩, ⟨"E2", "a", "data", .flow⟩, ⟨"E3", "data", "b", .override⟩,
      ⟨"E4", "b", "b", .flow⟩, ⟨"E5", "a", "b", .flow⟩] }

theorem ofRecords_shows_tangled : ofRecords tangledRecords tangledEdges tangledDocuments = .ok tangledGraph ∧
    (tangledEdges.map EdgeRecord.id).Nodup ∧ tangledGraph.Shows tangledRecords tangledEdges tangledDocuments ∧
    (tangledGraph.targets "a").Perm ["b", "data", "b"] ∧ (tangledGraph.sources "b").Perm ["a", "b", "a"] ∧
    (tangledGraph.overrides "b").Perm ["data"] ∧ (tangledGraph.targets "data").Perm [] := by
  have hg : ofRecords tangledRecords tangledEdges tangledDocuments = .ok tangledGraph := by decide +kernel
  have hids : (tangledEdges.map EdgeRecord.id).Nodup := by decide
  have hshows : tangledGraph.Shows tangledRecords tangledEdges tangledDocuments := ofRecords_shows hg hids
  exact ⟨hg, hids, hshows, hshows.targets "a" (by decide), hshows.sources "b" (by decide),
    hshows.overrides "b" (by decide), hshows.targets "data" (by decide)⟩

end Graph
end HuntDraw
