import HuntDraw.Proofs.Store.Database
import Mathlib.Logic.Function.Basic

/-! What a store is: records that are found by their ids, configurations that are found by their nodes, and lists of
records that only grow. Its tables give the answers of this store to every sequence of calls. -/

namespace HuntDraw

open Attempt
open Function (update)

structure Registry where
  instances : String → Option Instance := fun _ => none
  jobs : String → Option Job := fun _ => none
  sorts : String → Option DrawSort := fun _ => none
  configs : String → Option DrawConfig := fun _ => none
  logs : List JobLog := []
  nodes : List NodeRecord := []
  edges : List EdgeRecord := []
  documents : List DocumentRecord := []
  results : List NodeResult := []

namespace Registry

variable {α : Type}

def found (entity id : String) : Option α → Except StoreFault α
  | some a => .ok a
  | none => .error (.notFound entity id)

open Classical in
noncomputable def unused (column : String) (used : Prop) : Except StoreFault Unit :=
  if used then .error (.taken column) else .ok ()

def parent (a : Option α) : Except StoreFault Unit := if a.isSome then .ok () else .error .noParent

open Classical in
noncomputable def attempt (r : Registry) : StoreCall → Except StoreFault (StoreAnswer × Registry)
  | .createInstance i => do
    unused "workflow_instances.instance_id" (r.instances i.id).isSome
    return (.oneInstance i, { r with instances := update r.instances i.id (some i) })
  | .getInstance id => do return (.oneInstance (← found "WorkflowInstance" id (r.instances id)), r)
  | .updateInstance id change => do
    let i ← found "WorkflowInstance" id (r.instances id)
    return (.oneInstance (change.apply i), { r with instances := update r.instances id (some (change.apply i)) })
  | .createJob j => do
    unused "workflow_jobs.job_id" (r.jobs j.id).isSome
    parent (r.instances j.instanceId)
    return (.oneJob j, { r with jobs := update r.jobs j.id (some j) })
  | .getJob id => do return (.oneJob (← found "WorkflowJob" id (r.jobs id)), r)
  | .updateJob id change => do
    let j ← found "WorkflowJob" id (r.jobs id)
    return (.oneJob (change.apply j), { r with jobs := update r.jobs id (some (change.apply j)) })
  | .appendLog l => do
    unused "workflow_job_logs.log_id" (l.id ∈ r.logs.map JobLog.id)
    parent (r.jobs l.jobId)
    return (.done, { r with logs := r.logs ++ [l] })
  | .listLogs job => .ok (.logs (r.logs.filter (·.jobId = job)), r)
  | .addNode n => do
    unused "workflow_nodes.node_id" (n.id ∈ r.nodes.map NodeRecord.id)
    return (.done, { r with nodes := r.nodes ++ [n] })
  | .listNodes id => .ok (.nodes (r.nodes.filter (·.instanceId = id)), r)
  | .addEdge e => do
    unused "workflow_edges.edge_id" (e.id ∈ r.edges.map EdgeRecord.id)
    return (.done, { r with edges := r.edges ++ [e] })
  | .listEdges id => .ok (.edges (r.edges.filter (·.instanceId = id)), r)
  | .createDocument d => do
    unused "draw_documents.document_id" (d.id ∈ r.documents.map DocumentRecord.id)
    return (.oneDocument d, { r with documents := r.documents ++ [d] })
  | .getDocument id => do return (.oneDocument (← found "DrawDocument" id (r.documents.find? (·.id = id))), r)
  | .listDocuments nodes => .ok (.documents (r.documents.filter fun d => ∃ node ∈ nodes, d.nodeId = some node), r)
  | .createResult x => do
    unused "workflow_node_results.result_id" (x.id ∈ r.results.map NodeResult.id)
    parent (r.jobs x.jobId)
    return (.done, { r with results := r.results ++ [x] })
  | .listResults job => .ok (.results (r.results.filter (·.jobId = job)), r)
  | .putConfig node c _ => do
    unused "draw_configs.config_id" (∃ other d, other ≠ node ∧ r.configs other = some d ∧ d.id = c.id)
    return (.done, { r with configs := update r.configs node (some c) })
  | .getConfig node => .ok (.config (r.configs node), r)
  | .putSort s => .ok (.done, { r with sorts := update r.sorts s.id (some s) })
  | .getSort id => .ok (.sort (r.sorts id), r)

noncomputable def answers (r : Registry) : List StoreCall → List (Except StoreFault StoreAnswer)
  | [] => []
  | call :: calls =>
    match r.attempt call with
    | .ok (answer, r') => .ok answer :: r'.answers calls
    | .error f => .error f :: r.answers calls

end Registry

namespace Store

variable {s : Store}

def registry (s : Store) : Registry where
  instances id := s.instances.find? (·.id = id)
  jobs id := s.jobs.find? (·.id = id)
  sorts := s.getSort
  configs := s.getConfig
  logs := s.logs
  nodes := s.nodes
  edges := s.edges
  documents := s.documents
  results := s.results

open Registry

section Records

variable {α : Type} {key : α → String} {rows rows' : List α} {f : α → α} {a : α} {entity column id : String}

theorem find_eq_found : find entity key rows id = found entity id (rows.find? (key · = id)) := by
  rw [find]
  cases rows.find? (key · = id) <;> rfl

theorem any_eq_isSome : rows.any (key · = id) = (rows.find? (key · = id)).isSome := by
  rw [Bool.eq_iff_iff, List.any_eq_true, List.find?_isSome]

theorem ite_eq_unused {used : Bool} {p : Prop} (h : used = true ↔ p) :
    (if used then .error (.taken column) else .ok ()) = unused column p := by
  rw [unused]
  by_cases hp : p
  · rw [if_pos (h.2 hp), if_pos hp]
  · rw [if_neg (mt h.1 hp), if_neg hp]

theorem fresh_eq_unused : fresh column key rows id = unused column (rows.find? (key · = id)).isSome :=
  ite_eq_unused (by rw [any_eq_isSome])

theorem fresh_eq_unused_mem : fresh column key rows id = unused column (id ∈ rows.map key) :=
  ite_eq_unused (by simp)

theorem belongs_eq_parent : belongs key rows id = parent (rows.find? (key · = id)) := by
  rw [belongs, parent, any_eq_isSome]

theorem find?_append_new (h : fresh column key rows (key a) = .ok ()) :
    (fun id => (rows ++ [a]).find? (key · = id)) = update (fun id => rows.find? (key · = id)) (key a) (some a) := by
  have hnone : rows.find? (key · = key a) = none := by
    rw [fresh, any_eq_isSome] at h
    split_ifs at h with hsome
    simpa using hsome
  funext id
  rw [List.find?_append]
  by_cases hid : id = key a
  · subst hid
    rw [hnone, Function.update_self]
    simp
  · rw [Function.update_of_ne hid]
    simp [Ne.symm hid]

theorem find?_changed_eq (h : Store.change entity key rows id f = .ok rows') (hf : ∀ a, key (f a) = key a) :
    ∃ a, rows.find? (key · = id) = some a ∧
      (fun id' => rows'.find? (key · = id')) = update (fun id' => rows.find? (key · = id')) id (some (f a)) := by
  obtain ⟨a, ha, rfl⟩ := change_eq_ok h
  have hid : key a = id := by simpa using List.find?_some ha
  refine ⟨a, ha, funext fun id' => ?_⟩
  rw [find?_changed hf]
  by_cases hsame : id' = id
  · subst hsame
    rw [ha, Function.update_self, Option.map_some, if_pos hid]
  · rw [Function.update_of_ne hsame]
    cases hother : rows.find? (key · = id') with
    | none => rfl
    | some b =>
      have hb : key b = id' := by simpa using List.find?_some hother
      rw [Option.map_some, if_neg (hb ▸ hsame)]

theorem change_of_find? (h : rows.find? (key · = id) = some a) (f : α → α) : Store.change entity key rows id f =
    .ok (rows.map fun row => if key row = id then f row else row) := by
  rw [Store.change, find_eq_found, h]
  rfl

theorem change_eq_error (h : rows.find? (key · = id) = none) (f : α → α) :
    Store.change entity key rows id f = .error (.notFound entity id) := by
  rw [Store.change, find_eq_found, h]
  rfl

end Records

theorem map_create (unused parent : Except StoreFault Unit) (s' : Store) (r' : Registry) (answer : StoreAnswer)
    (h : unused = .ok () → s'.registry = r') :
    (fun p => (p.1, p.2.registry)) <$> (do return (answer, ← (do unused; parent; return s'))) =
      (do unused; parent; return (answer, r')) := by
  rcases unused with e | ⟨⟩
  · rfl
  · rcases parent with e | ⟨⟩
    · rfl
    · exact congrArg (fun r => Except.ok (answer, r)) (h rfl)

theorem map_read {r : Except StoreFault α} (g : α → StoreAnswer) :
    (fun p => (p.1, p.2.registry)) <$> (do return (g (← r), s)) = (do return (g (← r), s.registry)) := by
  cases r <;> rfl

theorem map_update {entity id : String} {key : α → String} {rows : List α} {f : α → α} (next : List α → Store)
    (read : Store → Except StoreFault α) (r' : α → Registry) (g : α → StoreAnswer) (hf : ∀ a, key (f a) = key a)
    (hread : ∀ rows', read (next rows') = find entity key rows' id)
    (hnext : ∀ rows' a, (fun id' => rows'.find? (key · = id')) =
      update (fun id' => rows.find? (key · = id')) id (some (f a)) → (next rows').registry = r' a) :
    (fun p => (p.1, p.2.registry)) <$> (do
        let s' ← next <$> Store.change entity key rows id f
        return (g (← read s'), s')) =
      (do
        let a ← found entity id (rows.find? (key · = id))
        return (g (f a), r' a)) := by
  cases hfind : rows.find? (key · = id) with
  | none =>
    rw [change_eq_error hfind]
    rfl
  | some a =>
    have hchange : Store.change entity key rows id f = _ := change_of_find? hfind f
    obtain ⟨b, hb, hrows⟩ := find?_changed_eq hchange hf
    obtain ⟨c, hc, hbehind⟩ := find?_of_change hchange hf
    obtain rfl := Option.some.inj (hfind.symm.trans hb)
    obtain rfl := Option.some.inj (hfind.symm.trans hc)
    rw [hchange]
    change (fun p => (p.1, p.2.registry)) <$> (do return (g (← read (next _)), next _)) = _
    rw [hread, find_eq_ok.2 hbehind]
    exact congrArg (fun r => Except.ok (g (f a), r)) (hnext _ a hrows)

theorem getConfig_put (s : Store) (node : String) (c : DrawConfig) :
    getConfig { s with configs := s.configs.put node c } = update s.getConfig node (some c) := by
  funext node'
  by_cases h : node' = node
  · rw [h, Function.update_self]
    exact Fields.get?_put_self node c
  · rw [Function.update_of_ne h]
    exact Fields.get?_put_of_ne c h

/-- An id of a configuration is in use when another node has a configuration of this id. -/
theorem any_config_iff (hnodup : s.configs.keys.Nodup) (node : String) (c : DrawConfig) :
    (s.configs.any fun p => p.1 ≠ node && p.2.id = c.id) ↔
      ∃ other d, other ≠ node ∧ s.getConfig other = some d ∧ d.id = c.id := by
  rw [List.any_eq_true]
  constructor
  · rintro ⟨⟨other, d⟩, hmem, h⟩
    simp only [ne_eq, decide_not, Bool.and_eq_true, Bool.not_eq_true', decide_eq_false_iff_not, decide_eq_true_iff] at h
    exact ⟨other, d, h.1, (Fields.get?_eq_some hnodup).2 hmem, h.2⟩
  · rintro ⟨other, d, hother, hget, hid⟩
    exact ⟨(other, d), Fields.mem_of_get? hget, by simp [hother, hid]⟩

theorem putConfig_eq (hnodup : s.configs.keys.Nodup) (node : String) (c : DrawConfig) :
    s.putConfig node c = (do
      unused "draw_configs.config_id" (∃ other d, other ≠ node ∧ s.getConfig other = some d ∧ d.id = c.id)
      return { s with configs := s.configs.put node c }) := by
  rw [← ite_eq_unused (any_config_iff hnodup node c), putConfig]
  split_ifs <;> rfl

theorem getSort_putSort (s : Store) (t : DrawSort) : (s.putSort t).getSort = update s.getSort t.id (some t) := by
  rw [putSort]
  split_ifs with hthere
  · obtain ⟨u, hu⟩ := Option.isSome_iff_exists.1 (any_eq_isSome.symm.trans hthere)
    have hchange : Store.change "DrawSort" DrawSort.id s.sorts t.id (fun u => { t with id := u.id }) = _ :=
      change_of_find? hu _
    obtain ⟨v, hv, hsorts⟩ := find?_changed_eq hchange fun _ => rfl
    have hid : v.id = t.id := by simpa using List.find?_some hv
    have hset : (s.sorts.map fun u => if u.id = t.id then { t with id := u.id } else u) =
        s.sorts.map fun u => if u.id = t.id then t else u :=
      List.map_congr_left fun u _ => by by_cases h : u.id = t.id <;> simp [h]
    rw [hset, hid] at hsorts
    exact hsorts
  · have hnew : fresh "draw_sorts.sort_id" DrawSort.id s.sorts t.id = .ok () := if_neg hthere
    exact find?_append_new hnew

/-- A call comes to the same for the records of a store and for what the store holds. -/
theorem attempt_registry (hnodup : s.configs.keys.Nodup) (call : StoreCall) :
    (fun p => (p.1, p.2.registry)) <$> s.attempt call = s.registry.attempt call := by
  cases call with
  | createInstance i =>
    refine (map_create (fresh "workflow_instances.instance_id" Instance.id s.instances i.id) (.ok ())
      { s with instances := s.instances ++ [i] }
      { s.registry with instances := update s.registry.instances i.id (some i) } (.oneInstance i)
      fun hfresh => by rw [registry, find?_append_new hfresh]; rfl).trans ?_
    rw [fresh_eq_unused]
    rfl
  | getInstance id =>
    refine (map_read StoreAnswer.oneInstance).trans ?_
    rw [getInstance, find_eq_found]
    rfl
  | updateInstance id c =>
    exact map_update (fun rows => { s with instances := rows }) (fun s' => s'.getInstance id)
      (fun i => { s.registry with instances := update s.registry.instances id (some (c.apply i)) }) .oneInstance
      (fun _ => rfl) (fun _ => rfl) fun rows' i h => by rw [registry, h]; rfl
  | createJob j =>
    refine (map_create (fresh "workflow_jobs.job_id" Job.id s.jobs j.id) (belongs Instance.id s.instances j.instanceId)
      { s with jobs := s.jobs ++ [j] } { s.registry with jobs := update s.registry.jobs j.id (some j) } (.oneJob j)
      fun hfresh => by rw [registry, find?_append_new hfresh]; rfl).trans ?_
    rw [fresh_eq_unused, belongs_eq_parent]
    rfl
  | getJob id =>
    refine (map_read StoreAnswer.oneJob).trans ?_
    rw [getJob, find_eq_found]
    rfl
  | updateJob id c =>
    exact map_update (fun rows => { s with jobs := rows }) (fun s' => s'.getJob id)
      (fun j => { s.registry with jobs := update s.registry.jobs id (some (c.apply j)) }) .oneJob
      (fun _ => rfl) (fun _ => rfl) fun rows' j h => by rw [registry, h]; rfl
  | appendLog l =>
    refine (map_create (fresh "workflow_job_logs.log_id" JobLog.id s.logs l.id) (belongs Job.id s.jobs l.jobId)
      { s with logs := s.logs ++ [l] } { s.registry with logs := s.logs ++ [l] } .done fun _ => rfl).trans ?_
    rw [fresh_eq_unused_mem, belongs_eq_parent]
    rfl
  | addNode n =>
    refine (map_create (fresh "workflow_nodes.node_id" NodeRecord.id s.nodes n.id) (.ok ())
      { s with nodes := s.nodes ++ [n] } { s.registry with nodes := s.nodes ++ [n] } .done fun _ => rfl).trans ?_
    rw [fresh_eq_unused_mem]
    rfl
  | addEdge e =>
    refine (map_create (fresh "workflow_edges.edge_id" EdgeRecord.id s.edges e.id) (.ok ())
      { s with edges := s.edges ++ [e] } { s.registry with edges := s.edges ++ [e] } .done fun _ => rfl).trans ?_
    rw [fresh_eq_unused_mem]
    rfl
  | createDocument d =>
    refine (map_create (fresh "draw_documents.document_id" DocumentRecord.id s.documents d.id) (.ok ())
      { s with documents := s.documents ++ [d] } { s.registry with documents := s.documents ++ [d] } (.oneDocument d)
      fun _ => rfl).trans ?_
    rw [fresh_eq_unused_mem]
    rfl
  | getDocument id =>
    refine (map_read StoreAnswer.oneDocument).trans ?_
    rw [getDocument, find_eq_found]
    rfl
  | createResult r =>
    refine (map_create (fresh "workflow_node_results.result_id" NodeResult.id s.results r.id)
      (belongs Job.id s.jobs r.jobId) { s with results := s.results ++ [r] }
      { s.registry with results := s.results ++ [r] } .done fun _ => rfl).trans ?_
    rw [fresh_eq_unused_mem, belongs_eq_parent]
    rfl
  | listDocuments nodes =>
    have hnode : ∀ d : DocumentRecord, d.nodeId.any nodes.contains = decide (∃ node ∈ nodes, d.nodeId = some node) := by
      intro d
      cases d.nodeId <;> simp
    exact congrArg (fun p => Except.ok (StoreAnswer.documents (s.documents.filter p), s.registry)) (funext hnode)
  | putConfig node c valid =>
    change (fun p => (p.1, p.2.registry)) <$> (do return (StoreAnswer.done, ← s.putConfig node c)) = _
    rw [putConfig_eq hnodup]
    exact map_create _ (.ok ()) { s with configs := s.configs.put node c }
      { s.registry with configs := update s.getConfig node (some c) } .done fun _ => by
        rw [registry, getConfig_put]
        rfl
  | putSort t =>
    have hregistry : (s.putSort t).registry = { s.registry with sorts := update s.getSort t.id (some t) } := by
      rw [registry, getSort_putSort, putSort]
      split_ifs <;> rfl
    exact congrArg (fun r => Except.ok (StoreAnswer.done, r)) hregistry
  | listLogs | listNodes | listEdges | listResults | getConfig | getSort => rfl

/-- The configurations stay as they are, but for the one that a call puts. -/
theorem configs_attempt {call : StoreCall} {answer : StoreAnswer} {s' : Store} (h : s.attempt call = .ok (answer, s')) :
    s'.configs = s.configs ∨ ∃ node c, c.IsValid ∧ s'.configs = s.configs.put node c := by
  cases call with
  | putConfig node c valid =>
    obtain ⟨s₁, hput, h⟩ := bind_eq_ok.1 h
    obtain ⟨-, rfl⟩ := Prod.mk.inj (Except.ok.inj h)
    rw [putConfig] at hput
    split_ifs at hput
    exact .inr ⟨node, c, valid, (congrArg configs (Except.ok.inj hput)).symm⟩
  | createInstance | addNode | addEdge | createDocument =>
    simp only [attempt, createInstance, addNode, addEdge, createDocument, bind_eq_ok, pure_eq_ok, Prod.mk.injEq] at h
    obtain ⟨s₁, ⟨-, -, rfl⟩, -, rfl⟩ := h
    exact .inl rfl
  | createJob | appendLog | createResult =>
    simp only [attempt, createJob, appendLog, createResult, bind_eq_ok, pure_eq_ok, Prod.mk.injEq] at h
    obtain ⟨s₁, ⟨-, -, -, -, rfl⟩, -, rfl⟩ := h
    exact .inl rfl
  | updateInstance | updateJob =>
    simp only [attempt, updateInstance, updateJob, bind_eq_ok, map_eq_ok, pure_eq_ok, Prod.mk.injEq] at h
    obtain ⟨s₁, ⟨rows, -, rfl⟩, -, -, -, rfl⟩ := h
    exact .inl rfl
  | putSort t =>
    obtain ⟨-, rfl⟩ := Prod.mk.inj (Except.ok.inj h)
    left
    rw [putSort]
    split_ifs <;> rfl
  | getInstance | getJob | getDocument =>
    simp only [attempt, bind_eq_ok, pure_eq_ok, Prod.mk.injEq] at h
    obtain ⟨-, -, -, rfl⟩ := h
    exact .inl rfl
  | listLogs | listNodes | listEdges | listDocuments | listResults | getConfig | getSort =>
    obtain ⟨-, rfl⟩ := Prod.mk.inj (Except.ok.inj h)
    exact .inl rfl

/-- A call keeps the configurations valid, each under the node that it is of. -/
theorem sound_attempt (hsound : Sql.Sound s) {call : StoreCall} {answer : StoreAnswer} {s' : Store}
    (h : s.attempt call = .ok (answer, s')) : Sql.Sound s' := by
  rcases configs_attempt h with hsame | ⟨node, c, hvalid, hput⟩
  · exact ⟨hsame ▸ hsound.nodup, hsame ▸ hsound.valid⟩
  · refine ⟨hput ▸ Fields.nodup_keys_put hsound.nodup node c, fun p hp => ?_⟩
    rcases Fields.mem_put (hput ▸ hp) with rfl | hp
    · exact hvalid
    · exact hsound.valid p hp

end Store

namespace Sql

/-- The calls to the tables of a store are answered as those to its records, and these as the store holds it. -/
theorem answers_tables {s : Store} (hsound : Sound s) (calls : List StoreCall) :
    s.tables.answers calls = (s.registry.answers calls).map (Except.mapError .store) ∧
      s.answers calls = s.registry.answers calls := by
  induction calls generalizing s with
  | nil => exact ⟨rfl, rfl⟩
  | cons call calls ih =>
    have hrun := answer_comesTo hsound call
    have hregistry := Store.attempt_registry hsound.nodup call
    rw [Database.answers, Registry.answers, Store.answers, ← hregistry]
    cases hattempt : s.attempt call with
    | error f =>
      rw [hattempt] at hrun
      change runIn _ _ = _ at hrun
      obtain ⟨htables, hrecords⟩ := ih hsound
      rw [hrun, htables, hrecords]
      exact ⟨rfl, rfl⟩
    | ok p =>
      obtain ⟨answer, s'⟩ := p
      rw [hattempt] at hrun
      change runIn _ _ = _ at hrun
      obtain ⟨htables, hrecords⟩ := ih (Store.sound_attempt hsound hattempt)
      rw [hrun]
      exact ⟨congrArg (List.cons _) htables, congrArg (List.cons _) hrecords⟩

/-- Calls lead from the tables of a store to the tables of a store. -/
theorem after_tables {s : Store} (hsound : Sound s) (calls : List StoreCall) :
    ∃ s', Sound s' ∧ s.tables.after calls = s'.tables := by
  induction calls generalizing s with
  | nil => exact ⟨s, hsound, rfl⟩
  | cons call calls ih =>
    have hrun := answer_comesTo hsound call
    rw [Database.after, List.foldl_cons]
    cases hattempt : s.attempt call with
    | error f =>
      rw [hattempt] at hrun
      change runIn _ _ = _ at hrun
      rw [hrun]
      exact ih hsound
    | ok p =>
      rw [hattempt] at hrun
      change runIn _ _ = _ at hrun
      rw [hrun]
      exact ih (Store.sound_attempt hsound hattempt)

theorem sound_empty : Sound {} := ⟨List.nodup_nil, nofun⟩

end Sql

namespace Database

theorem tables_empty : ({} : Store).tables = empty := by
  funext t
  cases t <;> rfl

/-- To every sequence of calls, an empty database gives the answers of an empty store of mappings and growing lists, and
so do the records that the store is kept as in between. A call that fails leaves the tables as they were. -/
theorem answers_eq_registry (calls : List StoreCall) :
    empty.answers calls = (Registry.answers {} calls).map (Except.mapError .store) ∧
    Store.answers {} calls = Registry.answers {} calls ∧
    ∀ before call, (∃ answer, ((Sql.answer call).runIn (empty.after before)).1 = .ok answer) ∨
      empty.after (before ++ [call]) = empty.after before := by
  obtain ⟨htables, hrecords⟩ := Sql.answers_tables Sql.sound_empty calls
  rw [tables_empty] at htables
  refine ⟨htables, hrecords, fun before call => ?_⟩
  obtain ⟨s, hsound, hs⟩ := Sql.after_tables Sql.sound_empty before
  have hrun := Sql.answer_comesTo hsound call
  rw [tables_empty] at hs
  have hbehind : empty.after (before ++ [call]) = ((Sql.answer call).runIn (empty.after before)).2 :=
    List.foldl_concat _ _ _ _
  rw [hbehind, hs]
  cases hattempt : s.attempt call with
  | error f =>
    rw [hattempt] at hrun
    exact .inr (congrArg Prod.snd hrun)
  | ok p =>
    rw [hattempt] at hrun
    exact .inl ⟨p.1, congrArg Prod.fst hrun⟩

end Database
end HuntDraw
