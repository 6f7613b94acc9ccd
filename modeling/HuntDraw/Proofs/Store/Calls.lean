import HuntDraw.Proofs.Draw.Config
import HuntDraw.Store.Database

/-! Calls to a store that are made in turn: to its records, or to the tables that keep them. -/

namespace HuntDraw

open Store (InstanceChange JobChange)

/-- A call to a store. A configuration was checked before it is put. -/
inductive StoreCall where
  | createInstance (i : Instance)
  | getInstance (id : String)
  | updateInstance (id : String) (change : InstanceChange)
  | createJob (j : Job)
  | getJob (id : String)
  | updateJob (id : String) (change : JobChange)
  | appendLog (l : JobLog)
  | listLogs (job : String)
  | addNode (n : NodeRecord)
  | listNodes (id : String)
  | addEdge (e : EdgeRecord)
  | listEdges (id : String)
  | createDocument (d : DocumentRecord)
  | getDocument (id : String)
  | listDocuments (nodes : List String)
  | createResult (r : NodeResult)
  | listResults (job : String)
  | putConfig (node : String) (c : DrawConfig) (valid : c.IsValid)
  | getConfig (node : String)
  | putSort (s : DrawSort)
  | getSort (id : String)

def StoreCall.isRead : StoreCall → Bool
  | .getInstance _ | .getJob _ | .listLogs _ | .listNodes _ | .listEdges _ | .getDocument _ | .listDocuments _
  | .listResults _ | .getConfig _ | .getSort _ => true
  | _ => false

inductive StoreAnswer where
  | done
  | oneInstance (i : Instance)
  | oneJob (j : Job)
  | logs (logs : List JobLog)
  | nodes (nodes : List NodeRecord)
  | edges (edges : List EdgeRecord)
  | oneDocument (d : DocumentRecord)
  | documents (documents : List DocumentRecord)
  | results (results : List NodeResult)
  | config (c : Option DrawConfig)
  | sort (s : Option DrawSort)

namespace Store

def attempt (s : Store) : StoreCall → Except StoreFault (StoreAnswer × Store)
  | .createInstance i => do return (.oneInstance i, ← s.createInstance i)
  | .getInstance id => do return (.oneInstance (← s.getInstance id), s)
  | .updateInstance id change => do
    let s' ← s.updateInstance id change
    return (.oneInstance (← s'.getInstance id), s')
  | .createJob j => do return (.oneJob j, ← s.createJob j)
  | .getJob id => do return (.oneJob (← s.getJob id), s)
  | .updateJob id change => do
    let s' ← s.updateJob id change
    return (.oneJob (← s'.getJob id), s')
  | .appendLog l => do return (.done, ← s.appendLog l)
  | .listLogs job => .ok (.logs (s.listLogs job), s)
  | .addNode n => do return (.done, ← s.addNode n)
  | .listNodes id => .ok (.nodes (s.listNodes id), s)
  | .addEdge e => do return (.done, ← s.addEdge e)
  | .listEdges id => .ok (.edges (s.listEdges id), s)
  | .createDocument d => do return (.oneDocument d, ← s.createDocument d)
  | .getDocument id => do return (.oneDocument (← s.getDocument id), s)
  | .listDocuments nodes => .ok (.documents (s.listDocuments nodes), s)
  | .createResult r => do return (.done, ← s.createResult r)
  | .listResults job => .ok (.results (s.listResults job), s)
  | .putConfig node c _ => do return (.done, ← s.putConfig node c)
  | .getConfig node => .ok (.config (s.getConfig node), s)
  | .putSort sort => .ok (.done, s.putSort sort)
  | .getSort id => .ok (.sort (s.getSort id), s)

/-- What calls to the records give that are made in turn; one that fails leaves the records as they were. -/
def answers (s : Store) : List StoreCall → List (Except StoreFault StoreAnswer)
  | [] => []
  | call :: calls =>
    match s.attempt call with
    | .ok (answer, s') => .ok answer :: s'.answers calls
    | .error f => .error f :: s.answers calls

/-- All that can be read of two stores is the same. -/
def SameReads (s s' : Store) : Prop :=
  ∀ calls : List StoreCall, (∀ call ∈ calls, call.isRead) → s.answers calls = s'.answers calls

end Store

namespace Sql

def answer : StoreCall → Sql StoreAnswer
  | .createInstance i => .oneInstance <$> createInstance i
  | .getInstance id => .oneInstance <$> getInstance id
  | .updateInstance id change => .oneInstance <$> updateInstance id change
  | .createJob j => .oneJob <$> createJob j
  | .getJob id => .oneJob <$> getJob id
  | .updateJob id change => .oneJob <$> updateJob id change
  | .appendLog l => (fun _ => .done) <$> appendLog l
  | .listLogs job => .logs <$> listLogs job
  | .addNode n => (fun _ => .done) <$> addNode n
  | .listNodes id => .nodes <$> listNodes id
  | .addEdge e => (fun _ => .done) <$> addEdge e
  | .listEdges id => .edges <$> listEdges id
  | .createDocument d => .oneDocument <$> createDocument d
  | .getDocument id => .oneDocument <$> getDocument id
  | .listDocuments nodes => .documents <$> listDocuments nodes
  | .createResult r => (fun _ => .done) <$> createResult r
  | .listResults job => .results <$> listResults job
  | .putConfig node c _ => (fun _ => .done) <$> putConfig node c
  | .getConfig node => .config <$> getConfig node
  | .putSort s => (fun _ => .done) <$> putSort s
  | .getSort id => .sort <$> getSort id

end Sql

namespace Database

def answers (db : Database) : List StoreCall → List (Except SqlFault StoreAnswer)
  | [] => []
  | call :: calls => ((Sql.answer call).runIn db).1 :: answers ((Sql.answer call).runIn db).2 calls

def after (db : Database) (calls : List StoreCall) : Database :=
  calls.foldl (fun db call => ((Sql.answer call).runIn db).2) db

end Database

end HuntDraw
