import HuntDraw.Proofs.Build.Instances
import HuntDraw.Proofs.Store.Calls
import HuntDraw.Proofs.Store.Rows

/-! What the operations on the tables of a store do: what the operations on its records do, whose rows are in the
tables. -/

namespace HuntDraw

open Attempt

theorem Row.holds_of_get? {row : Row} {column text : String} (h : row.get? column = some (.text text))
    (values : List String) : row.holds column values = values.contains text := by
  rw [Row.holds, h, List.contains_eq_any_beq]
  congr 1
  funext value
  by_cases heq : text = value <;> simp [heq]

theorem Row.holds_of_null {row : Row} {column : String} (h : row.get? column = some .null) (values : List String) :
    row.holds column values = false := by
  simp [Row.holds, h]

namespace Database

@[simp] theorem set_self (db : Database) (t : Table) : db.set t (db t) = db := by
  funext u
  by_cases h : u = t
  · rw [set, if_pos h, h]
  · rw [set, if_neg h]

/-- Which rows of a table keep which records: a column of each row holds the text that the record is asked for by. -/
structure Keeps {α : Type} (db : Database) (t : Table) (column : String) (key : α → String) (row : α → Row)
    (xs : List α) : Prop where
  rows : db t = xs.map row
  key : ∀ a, (row a).get? column = some (.text (key a))

variable {α : Type} {db : Database} {t : Table} {column : String} {key : α → String} {row : α → Row} {xs : List α}

theorem Keeps.holds (h : Keeps db t column key row xs) (id : String) :
    ((fun r : Row => r.holds column [id]) ∘ row) = fun a => decide (key a = id) := by
  funext a
  change (row a).holds column [id] = _
  rw [Row.holds_of_get? (h.key a)]
  by_cases heq : key a = id <;> simp [heq]

theorem Keeps.any_key (h : Keeps db t column key row xs) (id : String) :
    ((db t).any fun r => r.get? column = some (.text id)) = xs.any (key · = id) := by
  rw [h.rows, List.any_map]
  congr 1
  funext a
  simp [h.key]

end Database

namespace Statement

open Database

variable {α : Type} {db : Database} {t : Table} {column : String} {key : α → String} {row : α → Row} {xs : List α}

theorem bind_apply {β : Type} (x : Statement α) (f : α → Statement β) (db : Database) :
    (x >>= f) db = x db >>= fun p => f p.1 p.2 := rfl

theorem discard_apply {x : Statement α} {a : α} {db' : Database} (h : x db = .ok (a, db')) :
    (discard x : Statement PUnit) db = .ok ((), db') := by
  change x db >>= _ = _
  rw [h]
  rfl

theorem select_eq (h : Keeps db t column key row xs) (id : String) :
    select t column [id] db = .ok ((xs.filter (key · = id)).map row, db) := by
  rw [select, h.rows, List.filter_map, h.holds]

/-- A row is added when the column of its id, the one unique column, has not its text already. -/
theorem insert_eq {name : String} (h : Keeps db t column key row xs) (hunique : t.uniques = [column])
    (hname : s!"{t.name}.{column}" = name) (a : α) :
    insert t (row a) db = (do
      Store.fresh name key xs (key a)
      if t.parent?.all fun k => (db k.table).any fun r => r.get? k.key = (row a).get? k.column then
        .ok ((), db.set t ((xs ++ [a]).map row))
      else .error .noParent) := by
  rw [insert, hunique, List.find?_singleton, h.key a, h.any_key, Store.fresh, ← hname]
  by_cases htaken : xs.any (key · = key a)
  · rw [htaken]
    rfl
  · rw [Bool.not_eq_true] at htaken
    rw [htaken, h.rows, List.map_append, List.map_singleton]
    rfl

theorem update_eq {changes : Row} {f : α → α} (h : Keeps db t column key row xs)
    (hunique : ∀ c ∈ t.uniques, changes.has c = false)
    (hchange : ∀ a, changes.foldl (fun r p => r.put p.1 p.2) (row a) = row (f a)) (id : String) :
    update t column id changes db =
      .ok (xs.countP (key · = id), db.set t ((xs.map fun a => if key a = id then f a else a).map row)) := by
  have hfree : t.uniques.find? (fun c => changes.has c && (db t).any fun r =>
      !r.holds column [id] && r.get? c = changes.get? c) = none := by
    rw [List.find?_eq_none]
    intro c hc
    simp [hunique c hc]
  have hrow : ∀ a, (if (row a).holds column [id] then changes.foldl (fun r p => r.put p.1 p.2) (row a) else row a) =
      row (if key a = id then f a else a) := by
    intro a
    rw [Row.holds_of_get? (h.key a), hchange]
    by_cases heq : key a = id <;> simp [heq]
  simp only [update]
  rw [hfree]
  simp only
  rw [h.rows, List.countP_map, h.holds, List.map_map, List.map_map]
  congr 3
  congr 1
  exact funext hrow

end Statement

namespace Sql

variable {α β : Type} {db db' : Database} {x : Sql α} {f : α → Sql β} {a : α} {e : SqlFault}

@[simp] theorem runIn_pure : runIn db (pure a : Sql α) = (.ok a, db) := rfl

theorem runIn_bind : runIn db (x >>= f) =
    match runIn db x with
    | (.ok a, db') => runIn db' (f a)
    | (.error e, db') => (.error e, db') := by
  change StateT.run (ExceptT.bindCont f (runIn db x).1) (runIn db x).2 = _
  rcases runIn db x with ⟨e | a, db'⟩ <;> rfl

theorem runIn_map (g : α → β) : runIn db (g <$> x) = (g <$> (runIn db x).1, (runIn db x).2) := by
  rw [map_eq_pure_bind, runIn_bind]
  rcases runIn db x with ⟨e | a, db'⟩ <;> rfl

theorem runIn_commit (y : Statement α) : runIn db (commit y) =
    match y db with
    | .ok (a, db') => (.ok a, db')
    | .error f => (.error (.store f), db) := rfl

theorem runIn_load {ofRow : Row → Except Unreadable α} {row : Row} (h : ofRow row = .ok a) :
    runIn db (load ofRow row) = (.ok a, db) := by
  rw [load, h]
  rfl

theorem runIn_mapM_load {ofRow : Row → Except Unreadable β} {row : α → Row} {out : α → β} {xs : List α}
    (h : ∀ a ∈ xs, ofRow (row a) = .ok (out a)) :
    runIn db ((xs.map row).mapM (load ofRow)) = (.ok (xs.map out), db) := by
  induction xs with
  | nil => rfl
  | cons a xs ih =>
    rw [List.map_cons, List.mapM_cons, runIn_bind, runIn_load (h a List.mem_cons_self)]
    simp only
    rw [runIn_bind, ih fun b hb => h b (List.mem_cons_of_mem a hb)]
    rfl

section Rows

open Database

variable {t : Table} {column id : String} {key : α → String} {row : α → Row} {xs : List α}
  {ofRow : Row → Except Unreadable β} {out : α → β}

theorem runIn_first? (h : Keeps db t column key row xs) (hrow : ∀ a ∈ xs, ofRow (row a) = .ok (out a)) :
    runIn db (first? t column id ofRow) = (.ok ((xs.find? (key · = id)).map out), db) := by
  rw [first?, runIn_bind, runIn_commit, Statement.select_eq h, ← List.head?_filter]
  cases hfilter : xs.filter (key · = id) with
  | nil => rfl
  | cons a rest =>
    have ha : a ∈ xs := (List.mem_filter.1 (hfilter ▸ List.mem_cons_self)).1
    simp only [List.map_cons]
    rw [runIn_map, runIn_load (hrow a ha)]
    rfl

theorem runIn_list (h : Keeps db t column key row xs) (hrow : ∀ a ∈ xs, ofRow (row a) = .ok (out a)) :
    runIn db (list t column [id] ofRow) = (.ok ((xs.filter (key · = id)).map out), db) := by
  rw [list, runIn_bind, runIn_commit, Statement.select_eq h]
  exact runIn_mapM_load fun a ha => hrow a (List.mem_filter.1 ha).1

theorem runIn_get {ofRow : Row → Except Unreadable α} (h : Keeps db t column key row xs)
    (hrow : ∀ a, ofRow (row a) = .ok a) (entity id : String) :
    runIn db (get entity t column id ofRow) = ((Store.find entity key xs id).mapError .store, db) := by
  have hfirst : runIn db (first? t column id ofRow) = (.ok ((xs.find? (key · = id)).map fun a => a), db) :=
    runIn_first? h fun a _ => hrow a
  rw [get, runIn_bind, hfirst, Store.find]
  cases xs.find? (key · = id) <;> rfl

theorem runIn_alter {changes : Row} {g : α → α} (h : Keeps db t column key row xs)
    (hunique : ∀ c ∈ t.uniques, changes.has c = false)
    (hchange : ∀ a, changes.foldl (fun r p => r.put p.1 p.2) (row a) = row (g a)) (entity id : String) :
    runIn db (alter entity t column id changes) =
      match Store.change entity key xs id g with
      | .ok xs' => (.ok (), db.set t (xs'.map row))
      | .error f => (.error (.store f), db) := by
  rw [alter, runIn_bind, runIn_commit, Statement.update_eq h hunique hchange, Store.change, Store.find]
  simp only
  cases hfind : xs.find? (key · = id) with
  | none =>
    have hnone : ∀ a ∈ xs, ¬key a = id := by simpa using hfind
    have hsame : (xs.map fun a => if key a = id then g a else a) = xs :=
      (List.map_congr_left fun a ha => if_neg (hnone a ha)).trans (List.map_id xs)
    have hcount : xs.countP (key · = id) = 0 := List.countP_eq_zero.2 (by simpa using hnone)
    rw [hcount, if_pos rfl, hsame, ← h.rows, set_self]
    rfl
  | some a =>
    have hcount : xs.countP (key · = id) ≠ 0 := fun hzero =>
      List.countP_eq_zero.1 hzero a (List.mem_of_find?_eq_some hfind) (by simpa using List.find?_some hfind)
    rw [if_neg hcount]
    rfl

end Rows

section Records

open Store Database

variable {s : Store} {r : Except StoreFault (α × Store)} {t : Table} {column id : String} {key : α → String}
  {row : α → Row} {xs : List α}

/-- Whether an operation on the tables of a store comes to what is said: to a value and the tables of a store, or to a
failure that leaves the tables as they were. -/
def ComesTo (s : Store) (x : Sql α) : Except StoreFault (α × Store) → Prop
  | .ok (a, s') => runIn s.tables x = (.ok a, s'.tables)
  | .error f => runIn s.tables x = (.error (.store f), s.tables)

theorem ComesTo.map (h : ComesTo s x r) (g : α → β) : ComesTo s (g <$> x) ((fun p => (g p.1, p.2)) <$> r) := by
  rcases r with e | ⟨a, s'⟩ <;>
    · change runIn _ _ = _ at h ⊢
      rw [runIn_map, h]
      rfl

theorem comesTo_commit {y : Statement α} (h : y s.tables = (fun p => (p.1, p.2.tables)) <$> r) :
    ComesTo s (commit y) r := by
  rcases r with e | ⟨a, s'⟩ <;>
    · change runIn _ _ = _
      rw [runIn_commit, h]
      rfl

/-- A new record, in a table without other constraints than on its ids and on the row that it belongs to. -/
theorem comesTo_insert {name : String} {next : List α → Store}
    (h : s.tables.Keeps t column key row xs) (hunique : t.uniques = [column]) (hname : s!"{t.name}.{column}" = name)
    (hnext : ∀ xs', s.tables.set t (xs'.map row) = (next xs').tables) (a : α) (parent : Except StoreFault Unit)
    (hparent : parent = if t.parent?.all fun k => (s.tables k.table).any fun r => r.get? k.key = (row a).get? k.column
      then .ok () else .error .noParent) :
    ComesTo s (commit (Statement.insert t (row a))) ((fun s' => ((), s')) <$> do
      fresh name key xs (key a)
      parent
      return next (xs ++ [a])) := by
  refine comesTo_commit ?_
  rw [Statement.insert_eq h hunique hname, hparent]
  rcases fresh name key xs (key a) with e | ⟨⟩
  · rfl
  · split_ifs
    · exact congrArg (fun db => Except.ok ((), db)) (hnext _)
    · rfl

/-- What is said of a new record is also said when the record is given back. -/
theorem comesTo_create {x : Sql Unit} {r : Except StoreFault Store} (h : ComesTo s x ((fun s' => ((), s')) <$> r))
    (a : α) (g : α → β) : ComesTo s (g <$> (do x; return a)) (do return (g a, ← r)) := by
  rcases r with e | s' <;>
    · change runIn _ _ = _ at h ⊢
      rw [runIn_map, runIn_bind, h]
      rfl

theorem comesTo_done {x : Sql Unit} {r : Except StoreFault Store} (h : ComesTo s x ((fun s' => ((), s')) <$> r))
    (b : β) : ComesTo s ((fun _ => b) <$> x) (do return (b, ← r)) := by
  rcases r with e | s' <;>
    · change runIn _ _ = _ at h ⊢
      rw [runIn_map, h]
      rfl

theorem comesTo_read {x : Sql α} {r : Except StoreFault α} (h : ComesTo s x ((fun a => (a, s)) <$> r)) (g : α → β) :
    ComesTo s (g <$> x) (do return (g (← r), s)) := by
  have hmap := h.map g
  rcases r with e | a <;> exact hmap

theorem comesTo_alter {changes : Row} {g : α → α} {next : List α → Store}
    (h : s.tables.Keeps t column key row xs) (hunique : ∀ c ∈ t.uniques, changes.has c = false)
    (hchange : ∀ a, changes.foldl (fun r p => r.put p.1 p.2) (row a) = row (g a))
    (hnext : ∀ xs', s.tables.set t (xs'.map row) = (next xs').tables) (entity id : String) :
    ComesTo s (alter entity t column id changes) ((fun s' => ((), s')) <$> next <$> change entity key xs id g) := by
  have hrun := runIn_alter h hunique hchange entity id
  rcases hstore : change entity key xs id g with e | xs' <;> rw [hstore] at hrun
  · exact hrun
  · exact hrun.trans (congrArg (Prod.mk _) (hnext xs'))

theorem comesTo_get {ofRow : Row → Except Unreadable α} (h : s.tables.Keeps t column key row xs)
    (hrow : ∀ a, ofRow (row a) = .ok a) (entity id : String) :
    ComesTo s (get entity t column id ofRow) ((fun a => (a, s)) <$> find entity key xs id) := by
  have hrun := runIn_get h hrow entity id
  rcases hstore : find entity key xs id with e | a <;> rw [hstore] at hrun <;> exact hrun

theorem comesTo_reread {x : Sql Unit} {y : Sql α} {r : Except StoreFault Store} {read : Store → Except StoreFault α}
    (hx : ComesTo s x ((fun s' => ((), s')) <$> r)) (hy : ∀ s', ComesTo s' y ((fun a => (a, s')) <$> read s'))
    (hfound : ∀ s', r = .ok s' → ∃ a, read s' = .ok a) (g : α → β) :
    ComesTo s (g <$> (do x; y)) (do
      let s' ← r
      return (g (← read s'), s')) := by
  rcases r with e | s'
  · change runIn _ _ = _ at hx ⊢
    rw [runIn_map, runIn_bind, hx]
    rfl
  · obtain ⟨a, ha⟩ := hfound s' rfl
    have hread := hy s'
    rw [ha] at hread
    rw [ok_bind, ha]
    change runIn _ _ = _ at hx hread ⊢
    rw [runIn_map, runIn_bind, hx]
    simp only
    rw [hread]
    rfl

theorem comesTo_list {ofRow : Row → Except Unreadable α} (h : s.tables.Keeps t column key row xs)
    (hrow : ∀ a, ofRow (row a) = .ok a) (id : String) :
    ComesTo s (list t column [id] ofRow) (.ok (xs.filter (key · = id), s)) := by
  have hlist : runIn s.tables (list t column [id] ofRow) = (.ok ((xs.filter (key · = id)).map fun a => a), s.tables) :=
    runIn_list h fun a _ => hrow a
  rw [List.map_id'] at hlist
  exact hlist

end Records

section Tables

open Store Database

theorem tables_instances (s : Store) (instances : List Instance) :
    s.tables.set .instances (instances.map Instance.row) = { s with instances := instances }.tables := by
  funext t
  cases t <;> rfl

theorem tables_jobs (s : Store) (jobs : List Job) :
    s.tables.set .jobs (jobs.map Job.row) = { s with jobs := jobs }.tables := by
  funext t
  cases t <;> rfl

theorem tables_logs (s : Store) (logs : List JobLog) :
    s.tables.set .logs (logs.map JobLog.row) = { s with logs := logs }.tables := by
  funext t
  cases t <;> rfl

theorem tables_nodes (s : Store) (nodes : List NodeRecord) :
    s.tables.set .nodes (nodes.map NodeRecord.row) = { s with nodes := nodes }.tables := by
  funext t
  cases t <;> rfl

theorem tables_edges (s : Store) (edges : List EdgeRecord) :
    s.tables.set .edges (edges.map EdgeRecord.row) = { s with edges := edges }.tables := by
  funext t
  cases t <;> rfl

theorem tables_documents (s : Store) (documents : List DocumentRecord) :
    s.tables.set .documents (documents.map DocumentRecord.row) = { s with documents := documents }.tables := by
  funext t
  cases t <;> rfl

theorem tables_results (s : Store) (results : List NodeResult) :
    s.tables.set .results (results.map NodeResult.row) = { s with results := results }.tables := by
  funext t
  cases t <;> rfl

theorem tables_sorts (s : Store) (sorts : List DrawSort) :
    s.tables.set .sorts (sorts.map DrawSort.row) = { s with sorts := sorts }.tables := by
  funext t
  cases t <;> rfl

theorem tables_configs (s : Store) (configs : Fields DrawConfig) :
    s.tables.set .configs (configs.map DrawConfig.row) = { s with configs := configs }.tables := by
  funext t
  cases t <;> rfl

theorem keeps_instances (s : Store) : s.tables.Keeps .instances "instance_id" Instance.id Instance.row s.instances :=
  ⟨rfl, fun _ => rfl⟩

theorem keeps_jobs (s : Store) : s.tables.Keeps .jobs "job_id" Job.id Job.row s.jobs := ⟨rfl, fun _ => rfl⟩

variable {s : Store}

theorem parent_instance (s : Store) (id : String) : belongs Instance.id s.instances id =
    if (s.tables .instances).any fun r => r.get? "instance_id" = some (.text id) then .ok () else .error .noParent := by
  rw [(keeps_instances s).any_key, belongs]

theorem parent_job (s : Store) (id : String) : belongs Job.id s.jobs id =
    if (s.tables .jobs).any fun r => r.get? "job_id" = some (.text id) then .ok () else .error .noParent := by
  rw [(keeps_jobs s).any_key, belongs]

theorem foldl_instanceColumns (c : InstanceChange) (i : Instance) :
    (instanceColumns c).foldl (fun r p => r.put p.1 p.2) i.row = (c.apply i).row := by
  obtain ⟨status, definition, execution⟩ := c
  cases status <;> cases definition <;> cases execution <;> rfl

theorem foldl_jobColumns (c : JobChange) (j : Job) :
    (jobColumns c).foldl (fun r p => r.put p.1 p.2) j.row = (c.apply j).row := by
  obtain ⟨execution, failed⟩ := c
  cases execution <;> cases failed <;> rfl

theorem has_instanceColumns (c : InstanceChange) : Fields.has (instanceColumns c) "instance_id" = false := by
  obtain ⟨status, definition, execution⟩ := c
  cases status <;> cases definition <;> cases execution <;> rfl

theorem has_jobColumns (c : JobChange) : Fields.has (jobColumns c) "job_id" = false := by
  obtain ⟨execution, failed⟩ := c
  cases execution <;> cases failed <;> rfl

theorem getInstance_comesTo (s : Store) (id : String) :
    ComesTo s (getInstance id) ((fun i => (i, s)) <$> s.getInstance id) :=
  comesTo_get (keeps_instances s) Instance.ofRow_row _ id

theorem updateInstance_comesTo (s : Store) (id : String) (c : InstanceChange) :
    ComesTo s (StoreAnswer.oneInstance <$> updateInstance id c) (do
      let s' ← s.updateInstance id c
      return (.oneInstance (← s'.getInstance id), s')) := by
  have hunique : ∀ column ∈ Table.instances.uniques, (instanceColumns c).has column = false := by
    simpa [Table.uniques] using has_instanceColumns c
  refine comesTo_reread (comesTo_alter (keeps_instances s) hunique (foldl_instanceColumns c) (tables_instances s) _ id)
    (fun s' => getInstance_comesTo s' id) (fun s' hs' => ?_) _
  obtain ⟨instances, hinstances, rfl⟩ := map_eq_ok.1 hs'
  obtain ⟨i, -, hi⟩ := find?_of_change hinstances fun _ => rfl
  exact ⟨_, getInstance_eq_ok.2 hi⟩

theorem getJob_comesTo (s : Store) (id : String) : ComesTo s (getJob id) ((fun j => (j, s)) <$> s.getJob id) :=
  comesTo_get (keeps_jobs s) Job.ofRow_row _ id

/-- A change of nothing leaves the jobs as they are, and fails for the same ids as the look at a job. -/
theorem updateJob_nothing (s : Store) (id : String) : s.updateJob id {} = (fun _ => s) <$> s.getJob id := by
  rw [Store.updateJob, Store.getJob, change]
  rcases find "WorkflowJob" Job.id s.jobs id with e | j
  · rfl
  · have hsame : (s.jobs.map fun j => if j.id = id then JobChange.apply {} j else j) = s.jobs :=
      (List.map_congr_left fun j _ => ite_self j).trans (List.map_id _)
    exact congrArg (fun jobs => Except.ok { s with jobs := jobs }) hsame

theorem updateJob_comesTo (s : Store) (id : String) (c : JobChange) :
    ComesTo s (StoreAnswer.oneJob <$> updateJob id c) (do
      let s' ← s.updateJob id c
      return (.oneJob (← s'.getJob id), s')) := by
  have hunique : ∀ column ∈ Table.jobs.uniques, (jobColumns c).has column = false := by
    simpa [Table.uniques] using has_jobColumns c
  by_cases hcolumns : (jobColumns c).isEmpty
  · have hnothing : c = {} := by
      obtain ⟨execution, failed⟩ := c
      cases execution <;> cases failed <;> simp_all [jobColumns]
    subst hnothing
    have hget := comesTo_read (getJob_comesTo s id) StoreAnswer.oneJob
    have hsame : (do
        let s' ← s.updateJob id {}
        return (StoreAnswer.oneJob (← s'.getJob id), s')) = do return (StoreAnswer.oneJob (← s.getJob id), s) := by
      rw [updateJob_nothing]
      cases hjob : s.getJob id with
      | error e => rfl
      | ok j => exact congrArg (fun r => do return (StoreAnswer.oneJob (← r), s)) hjob
    rw [hsame]
    exact hget
  · have halter := comesTo_alter (keeps_jobs s) hunique (foldl_jobColumns c) (tables_jobs s) "WorkflowJob" id
    rw [updateJob, if_pos (by simpa using hcolumns)]
    refine comesTo_reread halter (fun s' => getJob_comesTo s' id) (fun s' hs' => ?_) _
    obtain ⟨jobs, hjobs, rfl⟩ := map_eq_ok.1 hs'
    obtain ⟨j, -, hj⟩ := find?_of_change hjobs fun _ => rfl
    exact ⟨_, getJob_eq_ok.2 hj⟩

/-- Documents are looked up by the nodes that they are of, if they are of one. -/
theorem listDocuments_comesTo (s : Store) (nodes : List String) :
    ComesTo s (listDocuments nodes) (.ok (s.listDocuments nodes, s)) := by
  have hholds : (fun r : Row => r.holds "node_id" nodes) ∘ DocumentRecord.row = fun d => d.nodeId.any nodes.contains := by
    funext d
    cases hnode : d.nodeId with
    | none => exact Row.holds_of_null (by rw [DocumentRecord.row, hnode]; rfl) nodes
    | some node => exact Row.holds_of_get? (by rw [DocumentRecord.row, hnode]; rfl) nodes
  rw [listDocuments]
  split_ifs with hempty
  · have hnone : s.listDocuments nodes = [] := by
      rw [List.isEmpty_iff.1 hempty, Store.listDocuments, List.filter_eq_nil_iff]
      intro d _
      cases d.nodeId <;> simp
    rw [hnone]
    rfl
  · have hselect : Statement.select .documents "node_id" nodes s.tables =
        .ok ((s.listDocuments nodes).map DocumentRecord.row, s.tables) := by
      change Except.ok ((s.documents.map DocumentRecord.row).filter _, s.tables) = _
      rw [List.filter_map, hholds]
      rfl
    change runIn _ _ = _
    rw [list, runIn_bind, runIn_commit, hselect]
    simp only
    rw [runIn_mapM_load fun d _ => d.ofRow_row, List.map_id']

end Tables

section Choices

open Store Database

variable {s : Store}

theorem keeps_sorts (s : Store) : s.tables.Keeps .sorts "sort_id" DrawSort.id DrawSort.row s.sorts :=
  ⟨rfl, fun _ => rfl⟩

theorem keeps_configs (s : Store) : s.tables.Keeps .configs "node_id" Prod.fst DrawConfig.row s.configs :=
  ⟨rfl, fun _ => rfl⟩

theorem getSort_comesTo (s : Store) (id : String) : ComesTo s (getSort id) (.ok (s.getSort id, s)) := by
  have hfirst : runIn s.tables (getSort id) = (.ok ((s.sorts.find? (·.id = id)).map fun t => t), s.tables) :=
    runIn_first? (keeps_sorts s) fun t _ => t.ofRow_row
  rw [Option.map_id'] at hfirst
  exact hfirst

theorem getConfig_comesTo (hvalid : ∀ p ∈ s.configs, p.2.IsValid) (node : String) :
    ComesTo s (getConfig node) (.ok (s.getConfig node, s)) :=
  runIn_first? (keeps_configs s) fun p hp => DrawConfig.ofRow_row (hvalid p hp) p.1

theorem foldl_sortColumns (t u : DrawSort) :
    t.columns.foldl (fun r p => r.put p.1 p.2) u.row = { t with id := u.id }.row := rfl

theorem putSort_comesTo (s : Store) (t : DrawSort) : ComesTo s (putSort t) (.ok ((), s.putSort t)) := by
  refine comesTo_commit ?_
  rw [Statement.bind_apply, Statement.select_eq (keeps_sorts s), ok_bind, Store.putSort]
  by_cases hthere : s.sorts.any (·.id = t.id)
  · obtain ⟨u, more, hfilter⟩ : ∃ u more, s.sorts.filter (·.id = t.id) = u :: more := by
      obtain ⟨u, hu, hid⟩ := List.any_eq_true.1 hthere
      exact List.exists_cons_of_ne_nil (List.ne_nil_of_mem (List.mem_filter.2 ⟨hu, hid⟩))
    have hunique : ∀ column ∈ Table.sorts.uniques, t.columns.has column = false := List.forall_mem_singleton.2 rfl
    have hupdate := Statement.update_eq (keeps_sorts s) hunique (foldl_sortColumns t) t.id
    have hset : (s.sorts.map fun u => if u.id = t.id then { t with id := u.id } else u) =
        s.sorts.map fun u => if u.id = t.id then t else u :=
      List.map_congr_left fun u _ => by by_cases h : u.id = t.id <;> simp [h]
    rw [hset, tables_sorts] at hupdate
    rw [hfilter, if_pos hthere]
    exact Statement.discard_apply hupdate
  · have hnone : s.sorts.filter (·.id = t.id) = [] := by simpa using hthere
    have hfresh : fresh "draw_sorts.sort_id" DrawSort.id s.sorts t.id = .ok () := if_neg hthere
    have hinsert := Statement.insert_eq (keeps_sorts s) rfl rfl t
    rw [hnone, if_neg hthere]
    change Statement.insert .sorts t.row s.tables = _
    rw [hinsert]
    change (do fresh "draw_sorts.sort_id" DrawSort.id s.sorts t.id; _) = _
    rw [hfresh]
    exact congrArg (fun db => Except.ok ((), db)) (tables_sorts s _)

theorem keeps_configIds (s : Store) :
    s.tables.Keeps .configs "config_id" (fun p => p.2.id) DrawConfig.row s.configs := ⟨rfl, fun _ => rfl⟩

theorem foldl_configColumns (c : DrawConfig) (p : String × DrawConfig) :
    c.columns.foldl (fun r p => r.put p.1 p.2) (DrawConfig.row p) = DrawConfig.row (p.1, c) := rfl

theorem find?_pair {p : String → Bool} {a b : String} (hb : p b = false) :
    [a, b].find? p = if p a then some a else none := by
  cases ha : p a <;> simp [ha, hb]

/-- The first configuration of a node has a row of its own, unless its id is taken. -/
theorem insert_config {node : String} (hnone : ∀ p ∈ s.configs, p.1 ≠ node) (c : DrawConfig) :
    Statement.insert .configs (DrawConfig.row (node, c)) s.tables =
      (fun s' => ((), s'.tables)) <$> s.putConfig node c := by
  have hnode : ((s.tables .configs).any fun r => r.get? "node_id" = some (.text node)) = false := by
    rw [(keeps_configs s).any_key]
    simpa using hnone
  have hid : (s.configs.any fun p => p.1 ≠ node && p.2.id = c.id) =
      (s.tables .configs).any fun r => r.get? "config_id" = some (.text c.id) := by
    rw [(keeps_configIds s).any_key, Bool.eq_iff_iff, List.any_eq_true, List.any_eq_true]
    exact exists_congr fun p => and_congr_right fun hp => by simp [hnone p hp]
  have hkeys : node ∉ s.configs.keys := fun h => by
    obtain ⟨p, hp, rfl⟩ := List.mem_map.1 h
    exact hnone p hp rfl
  have hfind : Table.configs.uniques.find? (fun column => (s.tables .configs).any fun r =>
      r.get? column = (DrawConfig.row (node, c)).get? column) =
        if (s.tables .configs).any fun r => r.get? "config_id" = some (.text c.id) then some "config_id" else none :=
    find?_pair hnode
  rw [Store.putConfig, hid, Statement.insert, hfind]
  by_cases htaken : (s.tables .configs).any fun r => r.get? "config_id" = some (.text c.id)
  · rw [if_pos htaken, if_pos htaken]
    rfl
  · rw [if_neg htaken, if_neg htaken]
    have hset := tables_configs s (s.configs ++ [(node, c)])
    rw [List.map_append] at hset
    rw [Fields.put_eq_append c hkeys]
    exact congrArg (fun db => Except.ok ((), db)) hset

/-- A later one is put into the row of the node, unless its id is that of another node. -/
theorem update_config {node : String} (hkeys : s.configs.keys.Nodup) (hnode : node ∈ s.configs.keys) (c : DrawConfig) :
    (discard (Statement.update .configs "node_id" node c.columns) : Statement PUnit) s.tables =
      (fun s' => ((), s'.tables)) <$> s.putConfig node c := by
  have hid : (s.configs.any fun p => p.1 ≠ node && p.2.id = c.id) =
      (s.tables .configs).any fun r => !r.holds "node_id" [node] && r.get? "config_id" = some (.text c.id) := by
    rw [(keeps_configs s).rows, List.any_map]
    congr 1
    funext p
    rw [Function.comp_apply, Row.holds_of_get? ((keeps_configs s).key p), (keeps_configIds s).key p]
    simp
  have hfind : Table.configs.uniques.find? (fun column => c.columns.has column && (s.tables .configs).any fun r =>
      !r.holds "node_id" [node] && r.get? column = c.columns.get? column) =
        if (s.tables .configs).any fun r => !r.holds "node_id" [node] && r.get? "config_id" = some (.text c.id) then
          some "config_id" else none :=
    find?_pair rfl
  have hrows : (s.tables .configs).map (fun r =>
      if r.holds "node_id" [node] then c.columns.foldl (fun r p => r.put p.1 p.2) r else r) =
        (s.configs.put node c).map DrawConfig.row := by
    rw [(keeps_configs s).rows, Fields.put_eq_map c hkeys hnode, List.map_map, List.map_map]
    refine List.map_congr_left fun p _ => ?_
    rw [Function.comp_apply, Function.comp_apply, Row.holds_of_get? ((keeps_configs s).key p), foldl_configColumns]
    by_cases heq : p.1 = node <;> simp [heq]
  have hupdate : Statement.update .configs "node_id" node c.columns s.tables =
      if (s.tables .configs).any fun r => !r.holds "node_id" [node] && r.get? "config_id" = some (.text c.id) then
        .error (.taken "draw_configs.config_id")
      else .ok ((s.tables .configs).countP fun r => r.holds "node_id" [node],
        { s with configs := s.configs.put node c }.tables) := by
    simp only [Statement.update]
    rw [hfind, hrows, tables_configs]
    split_ifs <;> rfl
  rw [Store.putConfig, hid]
  split_ifs at hupdate ⊢
  · change Statement.update .configs "node_id" node c.columns s.tables >>= _ = _
    rw [hupdate]
    rfl
  · exact Statement.discard_apply hupdate

/-- A configuration is put into the row of its node, or into a new one. -/
theorem putConfig_comesTo (hkeys : s.configs.keys.Nodup) (node : String) (c : DrawConfig) :
    ComesTo s (putConfig node c) ((fun s' => ((), s')) <$> s.putConfig node c) := by
  refine comesTo_commit ?_
  rw [Statement.bind_apply, Statement.select_eq (keeps_configs s), ok_bind]
  cases hfilter : s.configs.filter (·.1 = node) with
  | nil =>
    have hnone : ∀ p ∈ s.configs, p.1 ≠ node := by simpa using hfilter
    refine (insert_config hnone c).trans ?_
    rcases s.putConfig node c with e | s' <;> rfl
  | cons p more =>
    have hp : p ∈ s.configs.filter (·.1 = node) := hfilter ▸ List.mem_cons_self
    obtain ⟨hmem, hnode⟩ := List.mem_filter.1 hp
    have hkey : node ∈ s.configs.keys := List.mem_map.2 ⟨p, hmem, by simpa using hnode⟩
    refine (update_config hkeys hkey c).trans ?_
    rcases s.putConfig node c with e | s' <;> rfl

/-- Whether the configurations of a store are valid, each under the node that it is of. -/
structure Sound (s : Store) : Prop where
  nodup : s.configs.keys.Nodup
  valid : ∀ p ∈ s.configs, p.2.IsValid

/-- A call to the tables of a store comes to what the call to its records comes to. -/
theorem answer_comesTo (hsound : Sound s) (call : StoreCall) : ComesTo s (answer call) (s.attempt call) := by
  cases call with
  | createInstance i =>
    exact comesTo_create (comesTo_insert (keeps_instances s) rfl rfl (tables_instances s) i (.ok ()) rfl) i _
  | getInstance id => exact comesTo_read (getInstance_comesTo s id) _
  | updateInstance id change => exact updateInstance_comesTo s id change
  | createJob j =>
    exact comesTo_create (comesTo_insert (keeps_jobs s) rfl rfl (tables_jobs s) j _ (parent_instance s j.instanceId)) j _
  | getJob id => exact comesTo_read (getJob_comesTo s id) _
  | updateJob id change => exact updateJob_comesTo s id change
  | appendLog l =>
    have hkeeps : s.tables.Keeps .logs "log_id" JobLog.id JobLog.row s.logs := ⟨rfl, fun _ => rfl⟩
    exact comesTo_done (comesTo_insert hkeeps rfl rfl (tables_logs s) l _ (parent_job s l.jobId)) _
  | listLogs job =>
    have hkeeps : s.tables.Keeps .logs "job_id" JobLog.jobId JobLog.row s.logs := ⟨rfl, fun _ => rfl⟩
    exact (comesTo_list hkeeps JobLog.ofRow_row job).map StoreAnswer.logs
  | addNode n =>
    have hkeeps : s.tables.Keeps .nodes "node_id" NodeRecord.id NodeRecord.row s.nodes := ⟨rfl, fun _ => rfl⟩
    exact comesTo_done (comesTo_insert hkeeps rfl rfl (tables_nodes s) n (.ok ()) rfl) _
  | listNodes id =>
    have hkeeps : s.tables.Keeps .nodes "instance_id" NodeRecord.instanceId NodeRecord.row s.nodes :=
      ⟨rfl, fun _ => rfl⟩
    exact (comesTo_list hkeeps NodeRecord.ofRow_row id).map StoreAnswer.nodes
  | addEdge e =>
    have hkeeps : s.tables.Keeps .edges "edge_id" EdgeRecord.id EdgeRecord.row s.edges := ⟨rfl, fun _ => rfl⟩
    exact comesTo_done (comesTo_insert hkeeps rfl rfl (tables_edges s) e (.ok ()) rfl) _
  | listEdges id =>
    have hkeeps : s.tables.Keeps .edges "instance_id" EdgeRecord.instanceId EdgeRecord.row s.edges :=
      ⟨rfl, fun _ => rfl⟩
    exact (comesTo_list hkeeps EdgeRecord.ofRow_row id).map StoreAnswer.edges
  | createDocument d =>
    have hkeeps : s.tables.Keeps .documents "document_id" DocumentRecord.id DocumentRecord.row s.documents :=
      ⟨rfl, fun _ => rfl⟩
    exact comesTo_create (comesTo_insert hkeeps rfl rfl (tables_documents s) d (.ok ()) rfl) d _
  | getDocument id =>
    have hkeeps : s.tables.Keeps .documents "document_id" DocumentRecord.id DocumentRecord.row s.documents :=
      ⟨rfl, fun _ => rfl⟩
    exact comesTo_read (comesTo_get hkeeps DocumentRecord.ofRow_row _ id) _
  | listDocuments nodes => exact (listDocuments_comesTo s nodes).map StoreAnswer.documents
  | createResult r =>
    have hkeeps : s.tables.Keeps .results "result_id" NodeResult.id NodeResult.row s.results := ⟨rfl, fun _ => rfl⟩
    exact comesTo_done (comesTo_insert hkeeps rfl rfl (tables_results s) r _ (parent_job s r.jobId)) _
  | listResults job =>
    have hkeeps : s.tables.Keeps .results "job_id" NodeResult.jobId NodeResult.row s.results := ⟨rfl, fun _ => rfl⟩
    exact (comesTo_list hkeeps NodeResult.ofRow_row job).map StoreAnswer.results
  | putConfig node c valid => exact comesTo_done (putConfig_comesTo hsound.nodup node c) _
  | getConfig node => exact (getConfig_comesTo hsound.valid node).map StoreAnswer.config
  | putSort t => exact (putSort_comesTo s t).map fun _ => StoreAnswer.done
  | getSort id => exact (getSort_comesTo s id).map StoreAnswer.sort

end Choices
end Sql
end HuntDraw
