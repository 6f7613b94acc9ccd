import HuntDraw.Proofs.Blob.Address
import HuntDraw.Proofs.Engine.Along
import HuntDraw.Proofs.Store.Registry
import HuntDraw.Workflow.Import

/-! What an import leaves behind. It takes steps, and each of them either stores one record as a whole or leaves the
records as they were. An import that returns has stored all of its file. One that fails has stored what the steps before
the failing one are for, and this stays. -/

namespace HuntDraw

open HuntDraw.Action Attempt

variable {T : Type}

inductive ImportStep where
  | header (i : Instance)
  | sort (s : DrawSort)
  | node (n : NodeRecord)
  | config (id : String) (c : DrawConfig)
  | document (id : String) (d : DocumentEntry)
  | edge (e : String × String)

namespace ImportStep

def run (f : WorkflowFile) (read : FileReader) : ImportStep → Action T Unit
  | header i => Action.alter fun s => s.createInstance i
  | sort t => Action.alter fun s => .ok (s.putSort t)
  | node n => Action.alter fun s => s.addNode n
  | config id c => Action.alter fun s => s.putConfig id c
  | document id d => d.store read f.organization id
  | edge e => WorkflowFile.storeEdge f.instanceId e

def header? : ImportStep → Option Instance
  | header i => some i
  | _ => none

def sort? : ImportStep → Option DrawSort
  | sort s => some s
  | _ => none

def node? : ImportStep → Option NodeRecord
  | node n => some n
  | _ => none

def config? : ImportStep → Option (String × DrawConfig)
  | config id c => some (id, c)
  | _ => none

def document? : ImportStep → Option (String × DocumentEntry)
  | document id d => some (id, d)
  | _ => none

def edge? : ImportStep → Option (String × String)
  | edge e => some e
  | _ => none

end ImportStep

/-- What is to be stored for a node: the node, then its configuration, then its document. -/
def NodeEntry.steps (n : NodeEntry) (instanceId : String) : List ImportStep :=
  .node (n.record instanceId) :: (n.config.map (.config n.id)).toList ++ (n.document.map (.document n.id)).toList

def WorkflowFile.steps (f : WorkflowFile) : List ImportStep :=
  .header f.toInstance :: f.sorts.map .sort ++ f.nodes.flatMap (·.steps f.instanceId) ++ f.edges.map .edge

variable {f : WorkflowFile} {read : FileReader} {w w₁ w' : World T}

theorem NodeEntry.store_eq_steps (n : NodeEntry) :
    (n.store read f.organization f.instanceId : Action T Unit) =
      (n.steps f.instanceId).forM (ImportStep.run f read) := by
  rw [store, steps]
  rcases n.config with _ | c <;> rcases n.document with _ | d <;> simp [ImportStep.run]

theorem WorkflowFile.store_eq_steps (f : WorkflowFile) (read : FileReader) :
    (f.store read : Action T Instance) = (do f.steps.forM (ImportStep.run f read); return f.toInstance) := by
  have hnodes (ns : List NodeEntry) : forM (ns.flatMap (·.steps f.instanceId)) (ImportStep.run f read) =
      (forM ns fun n => n.store read f.organization f.instanceId : Action T Unit) := by
    induction ns with
    | nil => rfl
    | cons n ns ih =>
      rw [List.flatMap_cons, List.forM_append, List.forM_cons, ih, n.store_eq_steps, List.forM_eq_forM]
  rw [store, steps]
  simp [hnodes, ImportStep.run]

/-- From one world to a later one. Documents that the organization was given ids for stay in their places. -/
structure World.Advances (organization : String) (w w' : World T) : Prop where
  ids : w.ids ≤ w'.ids
  blobs : ∀ n ≤ w.ids, ∀ filename, w'.blobs.blobs.get? (Draft.key organization (idText n) filename) =
    w.blobs.blobs.get? (Draft.key organization (idText n) filename)

instance (organization : String) : IsPreorder (World T) (World.Advances organization) where
  refl _ := ⟨le_refl _, fun _ _ _ => rfl⟩
  trans _ _ _ h h' := ⟨h.ids.trans h'.ids, fun n hn filename =>
    (h'.blobs n (hn.trans h.ids) filename).trans (h.blobs n hn filename)⟩

/-- A record of a document, whose place holds what its file held. -/
structure DocumentEntry.Kept (d : DocumentEntry) (read : FileReader) (organization node : String) (w : World T)
    (r : DocumentRecord) : Prop where
  record : ∃ n ≤ w.ids, r = d.record organization node (idText n)
  content : ∃ content, read d.path = .ok content ∧ w.blobs.read r.blobKey = .ok content
  type : w.blobs.typeOf r.blobKey = .ok d.mime.text

theorem DocumentEntry.Kept.advances {d : DocumentEntry} {organization node : String} {r : DocumentRecord}
    (h : d.Kept read organization node w r) (hw : w.Advances organization w') : d.Kept read organization node w' r := by
  obtain ⟨n, hn, rfl⟩ := h.record
  obtain ⟨content, hfile, hread⟩ := h.content
  have hget : w'.blobs.blobs.get? (d.record organization node (idText n)).blobKey = w.blobs.blobs.get? _ :=
    hw.blobs n hn d.path.name
  refine ⟨⟨n, hn.trans hw.ids, rfl⟩, ⟨content, hfile, BlobStore.read_of_get? hread hget⟩, ?_⟩
  rw [BlobStore.typeOf, hget]
  exact h.type

/-- Records that were added behind those that were there, under new ids. -/
structure Appended {α : Type} (key : α → String) (new rows rows' : List α) : Prop where
  behind : rows' = rows ++ new
  fresh : ∀ a ∈ new, key a ∉ rows.map key
  nodup : (new.map key).Nodup

namespace Appended

variable {α : Type} {key : α → String} {new new' rows rows₁ rows' : List α} {a : α}

theorem none (key : α → String) (rows : List α) : Appended key [] rows rows :=
  ⟨(List.append_nil rows).symm, nofun, List.nodup_nil⟩

theorem one {column : String} (h : Store.fresh column key rows (key a) = .ok ()) :
    Appended key [a] rows (rows ++ [a]) := by
  refine ⟨rfl, List.forall_mem_singleton.2 fun hmem => ?_, List.nodup_singleton _⟩
  rw [Store.fresh_eq_unused_mem, Registry.unused, if_pos hmem] at h
  cases h

theorem trans (h : Appended key new rows rows₁) (h' : Appended key new' rows₁ rows') :
    Appended key (new ++ new') rows rows' := by
  have hids : rows₁.map key = rows.map key ++ new.map key := by rw [h.behind, List.map_append]
  have hfresh : ∀ a ∈ new', key a ∉ rows.map key ∧ key a ∉ new.map key := fun a ha => by
    have hnew := h'.fresh a ha
    rwa [hids, List.mem_append, not_or] at hnew
  refine ⟨by rw [h'.behind, h.behind, List.append_assoc], fun a ha => ?_, ?_⟩
  · exact (List.mem_append.1 ha).elim (h.fresh a) fun hlast => (hfresh a hlast).1
  · rw [List.map_append]
    refine h.nodup.append h'.nodup fun id hfirst hlast => ?_
    obtain ⟨b, hb, rfl⟩ := List.mem_map.1 hlast
    exact (hfresh b hb).2 hfirst

end Appended

theorem update_some {α : Type} (g : String → Option α) (k : String) (a : α) (k' : String) :
    Function.update g k (some a) k' = (if k = k' then some a else none).or (g k') := by
  rw [Function.update_apply]
  rcases eq_or_ne k' k with rfl | h
  · simp
  · simp [h, h.symm]

/-- What steps have stored, from one world to another: their records behind those that were there, the last of the sorts
of an id and the last of the configurations of a node in the places of what was there, and nothing else. -/
structure Stored (f : WorkflowFile) (read : FileReader) (steps : List ImportStep) (w w' : World T) : Prop where
  advances : w.Advances f.organization w'
  instances : Appended Instance.id (steps.filterMap ImportStep.header?) w.store.instances w'.store.instances
  sorts : ∀ id, w'.store.getSort id =
    ((steps.filterMap ImportStep.sort?).reverse.find? (·.id = id)).or (w.store.getSort id)
  nodes : Appended NodeRecord.id (steps.filterMap ImportStep.node?) w.store.nodes w'.store.nodes
  configs : ∀ node, w'.store.getConfig node =
    (Fields.get? (steps.filterMap ImportStep.config?).reverse node).or (w.store.getConfig node)
  documents : ∃ records, Appended DocumentRecord.id records w.store.documents w'.store.documents ∧
    List.Forall₂ (fun p => p.2.Kept read f.organization p.1 w') (steps.filterMap ImportStep.document?) records
  edges : ∃ records, Appended EdgeRecord.id records w.store.edges w'.store.edges ∧
    List.Forall₂ (fun e r => r.instanceId = f.instanceId ∧ (r.source, r.target) = e)
      (steps.filterMap ImportStep.edge?) records
  jobs : w'.store.jobs = w.store.jobs
  logs : w'.store.logs = w.store.logs
  results : w'.store.results = w.store.results

namespace Stored

variable {steps steps' : List ImportStep}

theorem nothing (hstore : w'.store = w.store) (hw : w.Advances f.organization w') : Stored f read [] w w' where
  advances := hw
  instances := hstore ▸ .none _ _
  sorts _ := by rw [hstore]; rfl
  nodes := hstore ▸ .none _ _
  configs _ := by rw [hstore]; rfl
  documents := ⟨[], hstore ▸ .none _ _, .nil⟩
  edges := ⟨[], hstore ▸ .none _ _, .nil⟩
  jobs := by rw [hstore]
  logs := by rw [hstore]
  results := by rw [hstore]

theorem trans (h : Stored f read steps w w₁) (h' : Stored f read steps' w₁ w') :
    Stored f read (steps ++ steps') w w' where
  advances := trans_of _ h.advances h'.advances
  instances := by
    rw [List.filterMap_append]
    exact h.instances.trans h'.instances
  sorts id := by rw [h'.sorts, h.sorts, List.filterMap_append, List.reverse_append, List.find?_append, Option.or_assoc]
  nodes := by
    rw [List.filterMap_append]
    exact h.nodes.trans h'.nodes
  configs node := by
    rw [h'.configs, h.configs, List.filterMap_append, List.reverse_append, Fields.get?_append, Option.or_assoc]
  documents := by
    obtain ⟨records, hrecords, hkept⟩ := h.documents
    obtain ⟨records', hrecords', hkept'⟩ := h'.documents
    rw [List.filterMap_append]
    exact ⟨_, hrecords.trans hrecords',
      List.rel_append (hkept.imp fun _ _ hdocument => hdocument.advances h'.advances) hkept'⟩
  edges := by
    obtain ⟨records, hrecords, hedges⟩ := h.edges
    obtain ⟨records', hrecords', hedges'⟩ := h'.edges
    rw [List.filterMap_append]
    exact ⟨_, hrecords.trans hrecords', List.rel_append hedges hedges'⟩
  jobs := h'.jobs.trans h.jobs
  logs := h'.logs.trans h.logs
  results := h'.results.trans h.results

theorem keep (h : Stored f read steps w w₁) (hstore : w'.store = w₁.store) (hw : w₁.Advances f.organization w') :
    Stored f read steps w w' := by
  have hall := h.trans (nothing hstore hw)
  rwa [List.append_nil] at hall

end Stored

namespace ImportStep

/-- How a step ends: its record is stored, or the step fails and the records are as they were. -/
def Ends (f : WorkflowFile) (read : FileReader) (step : ImportStep) (w : World T) :
    Except Failure Unit × World T → Prop
  | (.ok _, w') => Stored f read [step] w w'
  | (.error _, w') => w'.store = w.store ∧ w.Advances f.organization w'

theorem ends_alter {step : ImportStep} {change : Store → Except StoreFault Store} (hstore : w₁.store = w.store)
    (hw : w.Advances f.organization w₁)
    (h : ∀ s, change w.store = .ok s → Stored f read [step] w { w₁ with store := s }) :
    step.Ends f read w (runIn w₁ (Action.alter change)) := by
  rw [← hstore] at h
  cases hchange : change w₁.store with
  | error e =>
    rw [runIn_alter_error hchange]
    exact ⟨hstore, hw⟩
  | ok s =>
    rw [runIn_alter hchange]
    exact h s hchange

theorem ends_document (f : WorkflowFile) (read : FileReader) (id : String) (d : DocumentEntry) (w : World T) :
    (document id d).Ends f read w (runIn w (d.store read f.organization id)) := by
  have hnumbered : w.Advances f.organization w.numbered := ⟨Nat.le_succ _, fun _ _ _ => rfl⟩
  rw [DocumentEntry.store, runIn_bind_ok runIn_newId]
  cases hread : read d.path with
  | error e => exact ⟨rfl, hnumbered⟩
  | ok content =>
    rw [runIn_bind_ok (runIn_lift_ok rfl), runIn_bind, runIn_write]
    cases hwrite : w.numbered.blobs.write (d.record f.organization id (idText (w.ids + 1))).blobKey content
        d.mime.text with
    | error e => exact ⟨rfl, hnumbered⟩
    | ok written =>
      obtain ⟨hkey, -, hblobs, -⟩ := BlobStore.write_eq_ok hwrite
      have hget : written.1.blobs.get? (d.record f.organization id (idText (w.ids + 1))).blobKey =
          some ⟨content, d.mime.text⟩ := by
        rw [hblobs]
        exact Fields.get?_put_self _ _
      have hw : w.Advances f.organization { w.numbered with blobs := written.1 } := by
        -- the blob has an id of its own in its key, so it is written over no other document
        refine ⟨Nat.le_succ _, fun n hn filename => ?_⟩
        change written.1.blobs.get? _ = _
        rw [hblobs]
        exact Fields.get?_put_of_ne _ (Blob.documentKey_ne (by omega))
      refine ends_alter rfl hw fun s hs => ?_
      obtain ⟨⟨⟩, hfresh, hs⟩ := bind_eq_ok.1 hs
      obtain rfl := Except.ok.inj hs
      have hkept : d.Kept read f.organization id { w.numbered with blobs := written.1 }
          (d.record f.organization id (idText (w.ids + 1))) := by
        refine ⟨⟨_, le_refl _, rfl⟩, ⟨content, hread, BlobStore.read_eq_ok.2 ⟨hkey, _, hget⟩⟩, ?_⟩
        change BlobStore.typeOf written.1 _ = _
        rw [BlobStore.typeOf, hget]
      exact ⟨⟨hw.ids, hw.blobs⟩, .none _ _, fun _ => rfl, .none _ _, fun _ => rfl,
        ⟨_, .one hfresh, .cons ⟨hkept.record, hkept.content, hkept.type⟩ .nil⟩, ⟨[], .none _ _, .nil⟩, rfl, rfl, rfl⟩

theorem ends_run (f : WorkflowFile) (read : FileReader) (step : ImportStep) (w : World T) :
    step.Ends f read w (runIn w (step.run f read)) := by
  have hrecords (s : Store) : w.Advances f.organization { w with store := s } := ⟨le_refl _, fun _ _ _ => rfl⟩
  cases step with
  | header i =>
    refine ends_alter rfl (refl_of _ w) fun s hs => ?_
    obtain ⟨⟨⟩, hfresh, hs⟩ := bind_eq_ok.1 hs
    obtain rfl := Except.ok.inj hs
    exact ⟨hrecords _, .one hfresh, fun _ => rfl, .none _ _, fun _ => rfl, ⟨[], .none _ _, .nil⟩,
      ⟨[], .none _ _, .nil⟩, rfl, rfl, rfl⟩
  | sort t =>
    refine ends_alter rfl (refl_of _ w) fun s hs => ?_
    obtain rfl := Except.ok.inj hs
    have hput : w.store.putSort t = { w.store with sorts := (w.store.putSort t).sorts } := by
      rw [Store.putSort]
      split_ifs <;> rfl
    have hsorts : ∀ id, (w.store.putSort t).getSort id = ([t].find? (·.id = id)).or (w.store.getSort id) := fun id => by
      rw [Store.getSort_putSort, update_some, List.find?_singleton]
      simp
    rw [hput] at hsorts ⊢
    exact ⟨hrecords _, .none _ _, hsorts, .none _ _, fun _ => rfl, ⟨[], .none _ _, .nil⟩,
      ⟨[], .none _ _, .nil⟩, rfl, rfl, rfl⟩
  | node n =>
    refine ends_alter rfl (refl_of _ w) fun s hs => ?_
    obtain ⟨⟨⟩, hfresh, hs⟩ := bind_eq_ok.1 hs
    obtain rfl := Except.ok.inj hs
    exact ⟨hrecords _, .none _ _, fun _ => rfl, .one hfresh, fun _ => rfl, ⟨[], .none _ _, .nil⟩,
      ⟨[], .none _ _, .nil⟩, rfl, rfl, rfl⟩
  | config id c =>
    refine ends_alter rfl (refl_of _ w) fun s hs => ?_
    rw [Store.putConfig] at hs
    split_ifs at hs
    obtain rfl := Except.ok.inj hs
    have hconfigs : ∀ node, Store.getConfig { w.store with configs := w.store.configs.put id c } node =
        (Fields.get? [(id, c)] node).or (w.store.getConfig node) := fun node => by
      rw [Store.getConfig_put, update_some, Fields.get?_cons, Fields.get?_nil]
    exact ⟨hrecords _, .none _ _, fun _ => rfl, .none _ _, hconfigs, ⟨[], .none _ _, .nil⟩,
      ⟨[], .none _ _, .nil⟩, rfl, rfl, rfl⟩
  | document id d => exact ends_document f read id d w
  | edge e =>
    have hw : w.Advances f.organization w.numbered := ⟨Nat.le_succ _, fun _ _ _ => rfl⟩
    rw [run, WorkflowFile.storeEdge, runIn_bind_ok runIn_newId]
    refine ends_alter rfl hw fun s hs => ?_
    obtain ⟨⟨⟩, hfresh, hs⟩ := bind_eq_ok.1 hs
    obtain rfl := Except.ok.inj hs
    exact ⟨⟨hw.ids, hw.blobs⟩, .none _ _, fun _ => rfl, .none _ _, fun _ => rfl, ⟨[], .none _ _, .nil⟩,
      ⟨_, .one hfresh, .cons ⟨rfl, rfl⟩ .nil⟩, rfl, rfl, rfl⟩

end ImportStep

namespace Store

variable {s s' : Store} {id : String}

theorem mem_instances_iff : id ∈ s.instances.map Instance.id ↔ ∃ i, s.getInstance id = .ok i := by
  constructor
  · intro h
    obtain ⟨i, hi⟩ := find?_of_mem (List.mem_map.1 h)
    exact ⟨i, getInstance_eq_ok.2 hi⟩
  · rintro ⟨i, hi⟩
    exact List.mem_map.2 ⟨i, List.mem_of_find?_eq_some (getInstance_eq_ok.1 hi), id_of_getInstance hi⟩

theorem getInstance_of_sameReads (h : s.SameReads s') (id : String) : s.getInstance id = s'.getInstance id := by
  have hanswer (t : Store) : t.answers [.getInstance id] = [StoreAnswer.oneInstance <$> t.getInstance id] := by
    have hattempt : t.attempt (.getInstance id) = (fun i => (StoreAnswer.oneInstance i, t)) <$> t.getInstance id :=
      (map_eq_pure_bind _ _).symm
    rw [answers, hattempt]
    cases t.getInstance id <;> rfl
  have hsame := h [.getInstance id] (List.forall_mem_singleton.2 rfl)
  rw [hanswer, hanswer, List.singleton_inj] at hsame
  cases hi : s.getInstance id <;> cases hi' : s'.getInstance id <;> rw [hi, hi'] at hsame <;> cases hsame <;> rfl

end Store

theorem Stored.of_run {steps : List ImportStep}
    (h : runIn w (steps.forM (ImportStep.run f read)) = (.ok (), w')) : Stored f read steps w w' := by
  induction steps generalizing w with
  | nil =>
    obtain ⟨-, rfl⟩ := Prod.mk.inj h
    exact .nothing rfl (refl_of _ w)
  | cons step steps ih =>
    obtain ⟨⟨⟩, w₁, hstep, hsteps⟩ := bind_runIn_eq_ok h
    have hends := step.ends_run f read w
    rw [hstep] at hends
    have hfirst : Stored f read [step] w w₁ := hends
    exact hfirst.trans (ih hsteps)

theorem ImportStep.filterMap_cons {α : Type} (kind : ImportStep → Option α) (step : ImportStep)
    (steps : List ImportStep) : (step :: steps).filterMap kind = (kind step).toList ++ steps.filterMap kind := by
  cases h : kind step <;> simp [h]

theorem NodeEntry.filterMap_steps {α : Type} (n : NodeEntry) (instanceId : String) (kind : ImportStep → Option α) :
    (n.steps instanceId).filterMap kind = (kind (.node (n.record instanceId))).toList ++
      (n.config.bind fun c => kind (.config n.id c)).toList ++
        (n.document.bind fun d => kind (.document n.id d)).toList := by
  rw [steps]
  cases n.config <;> cases n.document <;> simp [ImportStep.filterMap_cons]

namespace WorkflowFile

theorem filterMap_steps {α : Type} (f : WorkflowFile) (kind : ImportStep → Option α) :
    f.steps.filterMap kind = (kind (.header f.toInstance)).toList ++ f.sorts.filterMap (fun s => kind (.sort s)) ++
      f.nodes.flatMap (fun n => (n.steps f.instanceId).filterMap kind) ++
        f.edges.filterMap (fun e => kind (.edge e)) := by
  rw [steps]
  simp [ImportStep.filterMap_cons, List.filterMap_flatMap, List.filterMap_map]

theorem header_steps (f : WorkflowFile) : f.steps.filterMap ImportStep.header? = [f.toInstance] := by
  simp [filterMap_steps, NodeEntry.filterMap_steps, ImportStep.header?]

theorem node_steps (f : WorkflowFile) : f.steps.filterMap ImportStep.node? = f.nodes.map (·.record f.instanceId) := by
  simp [filterMap_steps, NodeEntry.filterMap_steps, ImportStep.node?, List.map_eq_flatMap]

theorem config_steps (f : WorkflowFile) :
    f.steps.filterMap ImportStep.config? = f.nodes.flatMap fun n => (n.config.map (n.id, ·)).toList := by
  simp [filterMap_steps, NodeEntry.filterMap_steps, ImportStep.config?, Option.map_eq_bind]

theorem getInstance_of_stored (h : Stored f read f.steps w w') :
    w'.store.getInstance f.instanceId = .ok f.toInstance := by
  have hrows := h.instances.behind
  have hnew := h.instances.fresh
  rw [header_steps] at hrows hnew
  have hfree : w.store.instances.find? (·.id = f.instanceId) = none := by
    simpa [toInstance] using hnew
  rw [Store.getInstance_eq_ok, hrows, List.find?_append, hfree]
  simp [toInstance]

theorem keys_configs_sublist (ns : List NodeEntry) :
    (Fields.keys (ns.flatMap fun n => (n.config.map (n.id, ·)).toList)).Sublist (ns.map NodeEntry.id) := by
  induction ns with
  | nil => exact .slnil
  | cons n ns ih =>
    rw [List.flatMap_cons, List.map_cons]
    cases n.config with
    | none => exact ih.cons n.id
    | some c => exact ih.cons_cons n.id

/-- Each node of a file that was stored has its configuration: no two nodes have one id. -/
theorem getConfig_of_stored (h : Stored f read f.steps w w') {n : NodeEntry} (hn : n ∈ f.nodes) {c : DrawConfig}
    (hc : n.config = some c) : w'.store.getConfig n.id = some c := by
  have hnodup : (f.nodes.map NodeEntry.id).Nodup := by
    have hnodes := h.nodes.nodup
    rw [node_steps, List.map_map] at hnodes
    exact hnodes
  have hkeys : (Fields.keys (f.nodes.flatMap fun n => (n.config.map (n.id, ·)).toList)).Nodup :=
    hnodup.sublist (keys_configs_sublist f.nodes)
  have hmem : (n.id, c) ∈ f.nodes.flatMap fun n => (n.config.map (n.id, ·)).toList :=
    List.mem_flatMap.2 ⟨n, hn, by simp [hc]⟩
  rw [h.configs, config_steps, Fields.get?_perm (List.reverse_perm _) hkeys, (Fields.get?_eq_some hkeys).2 hmem]
  rfl

/-- The id of an instance that is there already cannot be imported under again. -/
theorem store_taken (f : WorkflowFile) (read : FileReader) (h : f.instanceId ∈ w.store.instances.map Instance.id) :
    runIn w (f.store read) = (.error (.store (.taken "workflow_instances.instance_id")), w) := by
  have hcreate : w.store.createInstance f.toInstance = .error (.taken "workflow_instances.instance_id") := by
    rw [Store.createInstance, Store.fresh_eq_unused_mem, Registry.unused]
    exact congrArg (· >>= _) (if_pos h)
  rw [store, runIn_bind_error (runIn_alter_error hcreate)]

/-- A step that fails comes behind steps that stored their records. -/
theorem store_error {e : Failure} (h : runIn w (f.store read) = (.error e, w')) :
    ∃ done step rest w₁, f.steps = done ++ step :: rest ∧
      runIn w (done.forM (ImportStep.run f read)) = (.ok (), w₁) ∧
      runIn w₁ (step.run f read) = (.error e, w') ∧ w'.store = w₁.store ∧ Stored f read done w w' := by
  rw [store_eq_steps] at h
  rcases bind_runIn_eq_error h with hsteps | ⟨⟨⟩, w₁, -, hreturn⟩
  · obtain ⟨done, step, rest, w₁, hall, hdone, hstep⟩ := forM_runIn_eq_error hsteps
    have hends := step.ends_run f read w₁
    rw [hstep] at hends
    exact ⟨done, step, rest, w₁, hall, hdone, hstep, hends.1, (Stored.of_run hdone).keep hends.1 hends.2⟩
  · exact nomatch (Prod.mk.inj hreturn).1

/-- However an import fails, the id of its instance is in use from then on. -/
theorem mem_instances_of_error {e : Failure} (h : runIn w (f.store read) = (.error e, w')) :
    f.instanceId ∈ w'.store.instances.map Instance.id := by
  by_cases hthere : f.instanceId ∈ w.store.instances.map Instance.id
  · obtain rfl : w = w' := congrArg Prod.snd ((store_taken f read hthere).symm.trans h)
    exact hthere
  · obtain ⟨done, step, rest, w₁, hall, hdone, hstep, -, hstored⟩ := store_error h
    cases done with
    | nil =>
      -- the first step stores the instance, which nothing is in the way of
      obtain ⟨rfl, -⟩ := List.cons.inj hall
      obtain rfl : w = w₁ := congrArg Prod.snd hdone
      have hfresh :
          Store.fresh "workflow_instances.instance_id" Instance.id w.store.instances f.instanceId = .ok () := by
        rw [Store.fresh_eq_unused_mem, Registry.unused, if_neg hthere]
      have hcreate : w.store.createInstance f.toInstance = .ok _ := congrArg (· >>= _) hfresh
      obtain ⟨hended, -⟩ := Prod.mk.inj (hstep.symm.trans (runIn_alter hcreate))
      cases hended
    | cons first done =>
      obtain ⟨rfl, -⟩ := List.cons.inj hall
      rw [hstored.instances.behind, List.map_append]
      exact List.mem_append_right _ List.mem_cons_self

/-- What an import comes to. Either it returns the instance, and all of the file is stored. Or a step of it fails: then
what the steps before it are for is stored, as a whole and to stay, and nothing else. All that can be read is as it was
before exactly when the id of the instance was there already. Either way this id cannot be imported under again. -/
theorem store_stores_steps (f : WorkflowFile) (read : FileReader) (w : World T) :
    match runIn w (f.store read) with
    | (.ok i, w') => i = f.toInstance ∧ Stored f read f.steps w w' ∧ w'.store.getInstance f.instanceId = .ok i ∧
        ∀ n ∈ f.nodes, ∀ c, n.config = some c → w'.store.getConfig n.id = some c
    | (.error e, w') =>
      (∃ done step rest w₁, f.steps = done ++ step :: rest ∧
        runIn w (done.forM (ImportStep.run f read)) = (.ok (), w₁) ∧
        runIn w₁ (step.run f read) = (.error e, w') ∧ w'.store = w₁.store ∧ Stored f read done w w') ∧
      (w.store.SameReads w'.store ↔ f.instanceId ∈ w.store.instances.map Instance.id) ∧
      ∀ (g : WorkflowFile) (reread : FileReader), g.instanceId = f.instanceId →
        runIn w' (g.store reread) = (.error (.store (.taken "workflow_instances.instance_id")), w') := by
  rcases hrun : runIn w (f.store read) with ⟨e | i, w'⟩
  · obtain ⟨done, step, rest, w₁, hall, hdone, hstep, hstore, hstored⟩ := store_error hrun
    refine ⟨⟨done, step, rest, w₁, hall, hdone, hstep, hstore, hstored⟩, ?_, fun g reread hg => ?_⟩
    · have hthere := mem_instances_of_error hrun
      constructor
      · intro hsame
        obtain ⟨i, hi⟩ := Store.mem_instances_iff.1 hthere
        exact Store.mem_instances_iff.2 ⟨i, (Store.getInstance_of_sameReads hsame _).trans hi⟩
      · intro htaken
        obtain rfl : w = w' := congrArg Prod.snd ((store_taken f read htaken).symm.trans hrun)
        exact fun _ _ => rfl
    · exact store_taken g reread (hg ▸ mem_instances_of_error hrun)
  · rw [store_eq_steps] at hrun
    obtain ⟨⟨⟩, w₁, hsteps, hreturn⟩ := bind_runIn_eq_ok hrun
    obtain ⟨hi, rfl⟩ := Prod.mk.inj hreturn
    obtain rfl := Except.ok.inj hi
    have hstored := Stored.of_run hsteps
    exact ⟨rfl, hstored, getInstance_of_stored hstored, fun n hn c hc => getConfig_of_stored hstored hn hc⟩

def documented : WorkflowFile where
  organization := "org"
  workflow := "wf"
  instanceId := "I"
  nodes := [⟨"a", "WorkflowDrawApplicantDataNode", none, some ⟨⟨"", ["a.csv"]⟩, .applicants, .csv, none⟩, none⟩]

/-- When the file of the document is missing, the import fails, and still the instance can be read from then on. -/
theorem not_store_all_or_nothing : ¬∀ (f : WorkflowFile) (read : FileReader) (w : World Binary64),
    match runIn w (f.store read) with
    | (.ok i, w') => i = f.toInstance ∧ Stored f read f.steps w w'
    | (.error _, w') => w.store.SameReads w'.store := by
  intro h
  have hsame := h documented (fun _ => .error .missing) ⟨{}, ⟨"drawflow", .files, []⟩, ⟨.zero false, []⟩, [], [], 0, []⟩
  have hinstance := Store.getInstance_of_sameReads hsame "I"
  exact nomatch hinstance

end WorkflowFile
end HuntDraw
