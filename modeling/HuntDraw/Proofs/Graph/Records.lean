import HuntDraw.Graph.Basic
import HuntDraw.Proofs.Data.Keys

/-! The graph of stored records has one node for each id, in the order in which the ids first appear. -/

namespace HuntDraw.Graph

open Attempt

variable {g h : Graph} {nodes : List NodeRecord} {edges : List EdgeRecord} {documents : List DocumentRecord}

/-- A node takes the place of one with its id, or stands behind the others. -/
theorem ids_putNode (n : GraphNode) (ns : List GraphNode) : (putNode n ns).map GraphNode.id =
    if n.id ∈ ns.map GraphNode.id then ns.map GraphNode.id else ns.map GraphNode.id ++ [n.id] := by
  induction ns with
  | nil => rfl
  | cons m ns ih =>
    by_cases hm : m.id = n.id
    · simp [putNode, hm]
    · have hm' : ¬n.id = m.id := fun heq => hm heq.symm
      simp only [putNode, if_neg hm, List.map_cons, ih, List.mem_cons, hm', false_or]
      split_ifs <;> rfl

theorem ids_addRecord {r : NodeRecord} (hadd : g.addRecord r = .ok h) :
    h.ids = if r.id ∈ g.ids then g.ids else g.ids ++ [r.id] := by
  obtain ⟨type, -, hnode⟩ := bind_eq_ok.1 hadd
  rw [← pure_eq_ok.1 hnode]
  exact ids_putNode _ _

theorem edges_addRecord {r : NodeRecord} (hadd : g.addRecord r = .ok h) : h.edges = g.edges := by
  obtain ⟨type, -, hnode⟩ := bind_eq_ok.1 hadd
  rw [← pure_eq_ok.1 hnode]
  rfl

theorem ids_addEdge {id source target : String} {kind : EdgeKind}
    (hadd : g.addEdge id source target = .ok (h, kind)) : h.ids = g.ids := by
  rw [addEdge] at hadd
  split_ifs at hadd
  rw [Except.ok.injEq, Prod.mk.injEq] at hadd
  rw [← hadd.1]
  rfl

theorem ids_attachRecord (g : Graph) (d : DocumentRecord) : (g.attachRecord d).ids = g.ids := by
  rw [attachRecord]
  split
  · rw [ids, attach, List.map_map]
    refine List.map_congr_left fun n _ => ?_
    simp only [Function.comp_apply]
    split_ifs <;> rfl
  · rfl

/-- The nodes come first, then the edges between them, and the documents last. -/
theorem ofRecords_eq_ok : ofRecords nodes edges documents = .ok g ↔
    ∃ noded, nodes.foldlM addRecord {} = .ok noded ∧
      ∃ edged, edges.foldlM (fun g e => (·.1) <$> g.addEdge e.id e.source e.target) noded = .ok edged ∧
        documents.foldl attachRecord edged = g := by
  simp only [ofRecords, bind_eq_ok, pure_eq_ok]

theorem edges_addRecords (h : nodes.foldlM addRecord {} = .ok g) : g.edges = [] :=
  foldlM_preserves (fun g : Graph => g.edges = []) (fun _ _ _ _ hadd hg => (edges_addRecord hadd).trans hg) h rfl

/-- What holds of the empty graph and is kept by each node, edge and document holds of the graph of records. All nodes
are added before there is an edge. -/
theorem ofRecords_preserves (P : Graph → Prop) (hempty : P {})
    (hnode : ∀ {g h : Graph} {r : NodeRecord}, g.addRecord r = .ok h → h.edges = [] → P g → P h)
    (hedge : ∀ {g h : Graph} {id source target : String} {kind : EdgeKind},
      g.addEdge id source target = .ok (h, kind) → P g → P h)
    (hdocument : ∀ {g : Graph} (d : DocumentRecord), P g → P (g.attachRecord d))
    (hg : ofRecords nodes edges documents = .ok g) : P g := by
  obtain ⟨noded, hnoded, edged, hedged, rfl⟩ := ofRecords_eq_ok.1 hg
  have hnodes : noded.edges = [] ∧ P noded := by
    refine foldlM_preserves (fun g : Graph => g.edges = [] ∧ P g) (fun g r h _ hadd hg => ?_) hnoded ⟨rfl, hempty⟩
    have hnone : h.edges = [] := (edges_addRecord hadd).trans hg.1
    exact ⟨hnone, hnode hadd hnone hg.2⟩
  have hedges : P edged := by
    refine foldlM_preserves P (fun g e h _ hadd hg => ?_) hedged hnodes.2
    obtain ⟨⟨h, kind⟩, hput, rfl⟩ := map_eq_ok.1 hadd
    exact hedge hput hg
  exact List.foldlRecOn (motive := P) documents attachRecord hedges fun g hg d _ => hdocument d hg

theorem ids_ofRecords (hg : ofRecords nodes edges documents = .ok g) : g.ids = (nodes.map NodeRecord.id).eraseDups := by
  obtain ⟨noded, hnoded, edged, hedged, rfl⟩ := ofRecords_eq_ok.1 hg
  have hedges : edged.ids = noded.ids := by
    refine foldlM_preserves (fun g : Graph => g.ids = noded.ids) (fun g e h _ hadd hg => ?_) hedged rfl
    obtain ⟨⟨h, kind⟩, hput, rfl⟩ := map_eq_ok.1 hadd
    exact (ids_addEdge hput).trans hg
  have hdocuments : (documents.foldl attachRecord edged).ids = edged.ids :=
    List.foldlRecOn (motive := fun g : Graph => g.ids = edged.ids) documents attachRecord rfl
      fun g hg d _ => (ids_attachRecord g d).trans hg
  rw [hdocuments, hedges]
  exact foldlM_eraseDups ids NodeRecord.id (fun _ _ _ hadd => ids_addRecord hadd) hnoded rfl

theorem nodup_ofRecords (hg : ofRecords nodes edges documents = .ok g) : g.ids.Nodup :=
  ids_ofRecords hg ▸ nodup_eraseDups _

end HuntDraw.Graph
