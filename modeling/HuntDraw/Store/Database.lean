import HuntDraw.Store.Basic
import HuntDraw.Store.Rows

/-! The store as a database: tables of rows under constraints. Every operation runs statements in transactions, and a
transaction that fails changes nothing. Rows stand in the order of their creation. When they were created, and changed,
nothing reads; those columns are left out. -/

namespace HuntDraw

inductive Table where
  | instances
  | jobs
  | logs
  | nodes
  | edges
  | documents
  | results
  | sorts
  | configs
  deriving DecidableEq, Repr

/-- A column that refers to the rows of another table, by a column of theirs. -/
structure ForeignKey where
  column : String
  table : Table
  key : String
  deriving DecidableEq, Repr

namespace Table

def all : List Table := [.instances, .jobs, .logs, .nodes, .edges, .documents, .results, .sorts, .configs]

def name : Table → String
  | .instances => "workflow_instances"
  | .jobs => "workflow_jobs"
  | .logs => "workflow_job_logs"
  | .nodes => "workflow_nodes"
  | .edges => "workflow_edges"
  | .documents => "draw_documents"
  | .results => "workflow_node_results"
  | .sorts => "draw_sorts"
  | .configs => "draw_configs"

/-- The columns in which no two rows agree, in the order in which they are checked. -/
def uniques : Table → List String
  | .instances => ["instance_id"]
  | .jobs => ["job_id"]
  | .logs => ["log_id"]
  | .nodes => ["node_id"]
  | .edges => ["edge_id"]
  | .documents => ["document_id"]
  | .results => ["result_id"]
  | .sorts => ["sort_id"]
  | .configs => ["config_id", "node_id"]

def parent? : Table → Option ForeignKey
  | .jobs => some ⟨"instance_id", .instances, "instance_id"⟩
  | .logs | .results => some ⟨"job_id", .jobs, "job_id"⟩
  | _ => none

end Table

abbrev Database := Table → List Row

def Database.empty : Database := fun _ => []

/-- The database with other rows in a table. -/
def Database.set (db : Database) (t : Table) (rows : List Row) : Database := fun u => if u = t then rows else db u

/-- Whether a column holds one of the texts. -/
def Row.holds (row : Row) (column : String) (values : List String) : Bool :=
  values.any fun value => row.get? column = some (.text value)

/-- What runs inside a transaction. -/
abbrev Statement := StateT Database (Except StoreFault)

namespace Statement

/-- The rows in whose column one of the texts stands. -/
def select (t : Table) (column : String) (values : List String) : Statement (List Row) := fun db =>
  .ok ((db t).filter fun r => r.holds column values, db)

/-- Adds a row, unless another one has the same in a unique column, or there is no row that it refers to. -/
def insert (t : Table) (row : Row) : Statement Unit := fun db =>
  match t.uniques.find? fun c => (db t).any fun r => r.get? c = row.get? c with
  | some c => .error (.taken s!"{t.name}.{c}")
  | none =>
    if t.parent?.all fun k => (db k.table).any fun r => r.get? k.key = row.get? k.column then
      .ok ((), db.set t (db t ++ [row]))
    else .error .noParent

/-- Sets columns of the row in whose unique column the text stands, and counts the rows that it finds. No update sets
a column that refers to rows or that rows refer to. -/
def update (t : Table) (column value : String) (changes : Row) : Statement Nat := fun db =>
  let found (r : Row) := r.holds column [value]
  match t.uniques.find? fun c => changes.has c && (db t).any fun r => !found r && r.get? c = changes.get? c with
  | some c => .error (.taken s!"{t.name}.{c}")
  | none => .ok ((db t).countP found, db.set t ((db t).map fun r =>
      if found r then changes.foldl (fun r p => r.put p.1 p.2) r else r))

end Statement

/-- Why an operation fails. -/
inductive SqlFault where
  | store (f : StoreFault)
  | unreadable (u : Unreadable)
  deriving DecidableEq, Repr

/-- An operation: transactions one after the other. What the ones before a failure did stays done. -/
abbrev Sql := ExceptT SqlFault (StateM Database)

namespace Sql

open Statement Store

variable {α : Type}

/-- The outcome of an operation on a database, and the database after it. -/
def runIn (db : Database) (x : Sql α) : Except SqlFault α × Database := x.run.run db

/-- Runs statements as one transaction: all of their changes are kept, or none. -/
def commit (x : Statement α) : Sql α := ExceptT.mk fun db =>
  match x db with
  | .ok (a, db') => (.ok a, db')
  | .error f => (.error (.store f), db)

/-- Reads a row outside of transactions. -/
def load (ofRow : Row → Except Unreadable α) (row : Row) : Sql α :=
  match ofRow row with
  | .ok a => pure a
  | .error u => throw (.unreadable u)

/-- The record of the first row in whose column the text stands. -/
def first? (t : Table) (column value : String) (ofRow : Row → Except Unreadable α) : Sql (Option α) := do
  match ← commit (select t column [value]) with
  | [] => return none
  | row :: _ => some <$> load ofRow row

/-- The records of the rows in whose column one of the texts stands. -/
def list (t : Table) (column : String) (values : List String) (ofRow : Row → Except Unreadable α) : Sql (List α) := do
  (← commit (select t column values)).mapM (load ofRow)

/-- The record of an id. -/
def get (entity : String) (t : Table) (column id : String) (ofRow : Row → Except Unreadable α) : Sql α := do
  match ← first? t column id ofRow with
  | some a => return a
  | none => throw (.store (.notFound entity id))

/-- Sets columns of the row of an id. -/
def alter (entity : String) (t : Table) (column id : String) (changes : Row) : Sql Unit := do
  if (← commit (update t column id changes)) = 0 then throw (.store (.notFound entity id))

def getInstance (id : String) : Sql Instance := get "WorkflowInstance" .instances "instance_id" id Instance.ofRow

def createInstance (i : Instance) : Sql Instance := do
  commit (insert .instances i.row)
  return i

/-- The columns that a change sets. -/
def instanceColumns (c : InstanceChange) : Row :=
  (c.status.map fun s => ("status", RowValue.text s.text)).toList
    ++ (c.definitionKey.map fun k => ("definition_key", RowValue.text k)).toList
    ++ (c.executionHandle.map fun h => ("execution_handle", RowValue.text h)).toList

def updateInstance (id : String) (c : InstanceChange) : Sql Instance := do
  alter "WorkflowInstance" .instances "instance_id" id (instanceColumns c)
  getInstance id

def getJob (id : String) : Sql Job := get "WorkflowJob" .jobs "job_id" id Job.ofRow

def createJob (j : Job) : Sql Job := do
  commit (insert .jobs j.row)
  return j

/-- The columns that a change sets. -/
def jobColumns (c : JobChange) : Row :=
  (c.executionHandle.map fun h => ("execution_handle", RowValue.text h)).toList
    ++ (c.failedBefore.map fun b => ("pre_execution_failure", RowValue.flag b)).toList

/-- A change of nothing runs no statement. -/
def updateJob (id : String) (c : JobChange) : Sql Job := do
  if !(jobColumns c).isEmpty then alter "WorkflowJob" .jobs "job_id" id (jobColumns c)
  getJob id

def appendLog (l : JobLog) : Sql Unit := commit (insert .logs l.row)

def listLogs (job : String) : Sql (List JobLog) := list .logs "job_id" [job] JobLog.ofRow

def addNode (n : NodeRecord) : Sql Unit := commit (insert .nodes n.row)

def listNodes (id : String) : Sql (List NodeRecord) := list .nodes "instance_id" [id] NodeRecord.ofRow

def addEdge (e : EdgeRecord) : Sql Unit := commit (insert .edges e.row)

def listEdges (id : String) : Sql (List EdgeRecord) := list .edges "instance_id" [id] EdgeRecord.ofRow

def createDocument (d : DocumentRecord) : Sql DocumentRecord := do
  commit (insert .documents d.row)
  return d

def getDocument (id : String) : Sql DocumentRecord :=
  get "DrawDocument" .documents "document_id" id DocumentRecord.ofRow

/-- No nodes have no documents, and nothing is looked up for them. -/
def listDocuments (nodes : List String) : Sql (List DocumentRecord) :=
  if nodes.isEmpty then pure [] else list .documents "node_id" nodes DocumentRecord.ofRow

def createResult (r : NodeResult) : Sql Unit := commit (insert .results r.row)

def listResults (job : String) : Sql (List NodeResult) := list .results "job_id" [job] NodeResult.ofRow

/-- Sets the configuration of a node, in the row of the node when there is one. -/
def putConfig (node : String) (c : DrawConfig) : Sql Unit := commit do
  match ← select .configs "node_id" [node] with
  | [] => insert .configs (DrawConfig.row (node, c))
  | _ :: _ => discard (update .configs "node_id" node c.columns)

def getConfig (node : String) : Sql (Option DrawConfig) := first? .configs "node_id" node DrawConfig.ofRow

/-- Sets a sort, in the row of its id when there is one. -/
def putSort (s : DrawSort) : Sql Unit := commit do
  match ← select .sorts "sort_id" [s.id] with
  | [] => insert .sorts s.row
  | _ :: _ => discard (update .sorts "sort_id" s.id s.columns)

def getSort (id : String) : Sql (Option DrawSort) := first? .sorts "sort_id" id DrawSort.ofRow

end Sql

/-- The rows that keep the records of a store. -/
def Store.tables (s : Store) : Database
  | .instances => s.instances.map Instance.row
  | .jobs => s.jobs.map Job.row
  | .logs => s.logs.map JobLog.row
  | .nodes => s.nodes.map NodeRecord.row
  | .edges => s.edges.map EdgeRecord.row
  | .documents => s.documents.map DocumentRecord.row
  | .results => s.results.map NodeResult.row
  | .sorts => s.sorts.map DrawSort.row
  | .configs => s.configs.map DrawConfig.row

/-- The records of all rows. -/
def Database.store (db : Database) : Except Unreadable Store := do
  return {
    instances := ← (db .instances).mapM Instance.ofRow
    jobs := ← (db .jobs).mapM Job.ofRow
    logs := ← (db .logs).mapM JobLog.ofRow
    nodes := ← (db .nodes).mapM NodeRecord.ofRow
    edges := ← (db .edges).mapM EdgeRecord.ofRow
    documents := ← (db .documents).mapM DocumentRecord.ofRow
    results := ← (db .results).mapM NodeResult.ofRow
    sorts := ← (db .sorts).mapM DrawSort.ofRow
    configs := ← (db .configs).mapM fun row =>
      return (← row.read "node_id" RowValue.text?, ← DrawConfig.ofRow row) }

end HuntDraw
