import HuntDraw.Draw.Config
import HuntDraw.Workflow.Records

/-! The store of workflow records: tables in the order of creation. An id is given once, and a job, its
log entries and its results need what they belong to. -/

namespace HuntDraw

inductive StoreFault where
  /-- The value of a column is in use already. -/
  | taken (column : String)
  | noParent
  | notFound (entity id : String)
  /-- There is no place for the file that keeps the store. -/
  | unreachable
  /-- The file that is to keep the store holds something else. -/
  | notStore
  deriving DecidableEq, Repr

namespace StoreFault

def message : StoreFault → String
  | taken column => s!"UNIQUE constraint failed: {column}"
  | noParent => "FOREIGN KEY constraint failed"
  | notFound entity id => s!"{entity} {id} not found"
  | unreachable => "unable to open database file"
  | notStore => "file is not a database"

def kind : StoreFault → String
  | notFound .. => "EntityNotFoundError"
  | unreachable => "OperationalError"
  | notStore => "DatabaseError"
  | taken _ | noParent => "IntegrityError"

end StoreFault

structure Store where
  instances : List Instance := []
  jobs : List Job := []
  logs : List JobLog := []
  nodes : List NodeRecord := []
  edges : List EdgeRecord := []
  documents : List DocumentRecord := []
  results : List NodeResult := []
  sorts : List DrawSort := []
  /-- The draw configuration of each node that has one. -/
  configs : Fields DrawConfig := []
  deriving DecidableEq

namespace Store

variable {α : Type}

/-- Complains of a value of a column that is there already. -/
def fresh (column : String) (key : α → String) (rows : List α) (value : String) :
    Except StoreFault Unit :=
  if rows.any (key · = value) then .error (.taken column) else .ok ()

/-- Complains of a row that belongs to none. -/
def belongs (key : α → String) (rows : List α) (value : String) : Except StoreFault Unit :=
  if rows.any (key · = value) then .ok () else .error .noParent

/-- The row of an id. -/
def find (entity : String) (key : α → String) (rows : List α) (id : String) : Except StoreFault α :=
  match rows.find? (key · = id) with
  | some row => .ok row
  | none => .error (.notFound entity id)

/-- Changes the row of an id. -/
def change (entity : String) (key : α → String) (rows : List α) (id : String) (f : α → α) :
    Except StoreFault (List α) := do
  let _ ← find entity key rows id
  return rows.map fun row => if key row = id then f row else row

def createInstance (s : Store) (i : Instance) : Except StoreFault Store := do
  fresh "workflow_instances.instance_id" Instance.id s.instances i.id
  return { s with instances := s.instances ++ [i] }

def getInstance (s : Store) (id : String) : Except StoreFault Instance :=
  find "WorkflowInstance" Instance.id s.instances id

/-- What to change in an instance; what is not given stays. -/
structure InstanceChange where
  status : Option InstanceStatus := none
  definitionKey : Option String := none
  executionHandle : Option String := none
  deriving DecidableEq, Repr

def InstanceChange.apply (c : InstanceChange) (i : Instance) : Instance :=
  { i with
    status := c.status.getD i.status
    definitionKey := c.definitionKey.or i.definitionKey
    executionHandle := c.executionHandle.or i.executionHandle }

def updateInstance (s : Store) (id : String) (c : InstanceChange) : Except StoreFault Store :=
  (fun rows => { s with instances := rows }) <$>
    change "WorkflowInstance" Instance.id s.instances id c.apply

def createJob (s : Store) (j : Job) : Except StoreFault Store := do
  fresh "workflow_jobs.job_id" Job.id s.jobs j.id
  belongs Instance.id s.instances j.instanceId
  return { s with jobs := s.jobs ++ [j] }

def getJob (s : Store) (id : String) : Except StoreFault Job := find "WorkflowJob" Job.id s.jobs id

/-- What to change in a job; what is not given stays. -/
structure JobChange where
  executionHandle : Option String := none
  failedBefore : Option Bool := none
  deriving DecidableEq, Repr

def JobChange.apply (c : JobChange) (j : Job) : Job :=
  { j with
    executionHandle := c.executionHandle.or j.executionHandle
    failedBefore := c.failedBefore.getD j.failedBefore }

def updateJob (s : Store) (id : String) (c : JobChange) : Except StoreFault Store :=
  (fun rows => { s with jobs := rows }) <$> change "WorkflowJob" Job.id s.jobs id c.apply

def appendLog (s : Store) (l : JobLog) : Except StoreFault Store := do
  fresh "workflow_job_logs.log_id" JobLog.id s.logs l.id
  belongs Job.id s.jobs l.jobId
  return { s with logs := s.logs ++ [l] }

def listLogs (s : Store) (job : String) : List JobLog := s.logs.filter (·.jobId = job)

def addNode (s : Store) (n : NodeRecord) : Except StoreFault Store := do
  fresh "workflow_nodes.node_id" NodeRecord.id s.nodes n.id
  return { s with nodes := s.nodes ++ [n] }

def listNodes (s : Store) (id : String) : List NodeRecord := s.nodes.filter (·.instanceId = id)

def addEdge (s : Store) (e : EdgeRecord) : Except StoreFault Store := do
  fresh "workflow_edges.edge_id" EdgeRecord.id s.edges e.id
  return { s with edges := s.edges ++ [e] }

def listEdges (s : Store) (id : String) : List EdgeRecord := s.edges.filter (·.instanceId = id)

def createDocument (s : Store) (d : DocumentRecord) : Except StoreFault Store := do
  fresh "draw_documents.document_id" DocumentRecord.id s.documents d.id
  return { s with documents := s.documents ++ [d] }

def getDocument (s : Store) (id : String) : Except StoreFault DocumentRecord :=
  find "DrawDocument" DocumentRecord.id s.documents id

/-- The documents of the nodes, in the order of their creation. -/
def listDocuments (s : Store) (nodes : List String) : List DocumentRecord :=
  s.documents.filter fun d => d.nodeId.any nodes.contains

def createResult (s : Store) (r : NodeResult) : Except StoreFault Store := do
  fresh "workflow_node_results.result_id" NodeResult.id s.results r.id
  belongs Job.id s.jobs r.jobId
  return { s with results := s.results ++ [r] }

def listResults (s : Store) (job : String) : List NodeResult := s.results.filter (·.jobId = job)

/-- Sets the configuration of a node. The id of a configuration belongs to one node. -/
def putConfig (s : Store) (node : String) (c : DrawConfig) : Except StoreFault Store :=
  if s.configs.any fun p => p.1 ≠ node && p.2.id = c.id then .error (.taken "draw_configs.config_id")
  else .ok { s with configs := s.configs.put node c }

def getConfig (s : Store) (node : String) : Option DrawConfig := s.configs.get? node

def putSort (s : Store) (sort : DrawSort) : Store :=
  if s.sorts.any (·.id = sort.id) then
    { s with sorts := s.sorts.map fun t => if t.id = sort.id then sort else t }
  else { s with sorts := s.sorts ++ [sort] }

def getSort (s : Store) (id : String) : Option DrawSort := s.sorts.find? (·.id = id)

end Store
end HuntDraw
