import HuntDraw.Proofs.Engine.Acceptance
import HuntDraw.Proofs.Engine.Calls
import HuntDraw.Proofs.Graph.Parameters
import HuntDraw.Proofs.Node.Handling

/-! How results go through a run. Each node is told what all the nodes before it made, in their order, and what it makes
itself is stored and handed on; the first failure ends the run. -/

namespace HuntDraw

open HuntDraw.Action Engine

variable {T : Type}

structure NodeCall where
  type : TaskType
  payload : Payload
  outcome : Except Failure (List NodeData)

def visited (nodes : List NodeCall) : List String := nodes.map fun n => n.payload.node

/-- What nodes made, in order; a node that failed made nothing. -/
def madeBy (nodes : List NodeCall) : NodeTable :=
  nodes.flatMap fun n => (n.outcome.toOption.map fun results => (n.payload.node, results)).toList

/-- A call of a handler by the engine and the one call of the function of its node that it consists in. -/
structure Handles (works : TaskType → NodeWork T) (call : Call T) (n : NodeCall) : Prop where
  task : call.task = n.payload.node
  read : Payload.read (.object call.given) = .ok n.payload
  handler : runIn call.before (handler (works n.type) (.object call.given)) = (call.outcome, call.after)
  work : ∃ w, runIn (call.before.logged [nodeStarted n.payload]) (works n.type (nodeBound n.payload) n.payload) =
    (n.outcome, w)
  outcome : call.outcome = settled n.payload n.outcome

namespace Graph

/-- How a run goes from node to node: from what a node is told of those before it, to its end, with what is stored and
logged on the way. -/
inductive Threads (g : Graph) (t : Target) (job : String) : Option String → NodeTable → Json → List String →
    List NodeCall → Except (String × Failure) Json → List NodeResult → List JobLog → Prop
  | done {previous : Option String} {results : NodeTable} {state : Json} :
      Threads g t job previous results state [] [] (.ok state) [] []
  | failed {previous : Option String} {results : NodeTable} {state : Json} {id logId : String} {ids : List String}
      {type : TaskType} {data : List NodeData} {f : Failure}
      (htype : (g.node? id).map GraphNode.type = some (.task type)) (hdata : g.supplied t id = .ok data) :
      Threads g t job previous results state (id :: ids) [⟨type, t.payload job id previous results data, .error f⟩]
        (.error (id, .node id (some f))) []
        (loggedFailures logId (t.payload job id previous results data) (.error f))
  | passed {previous : Option String} {results : NodeTable} {state : Json} {id resultId : String} {ids : List String}
      {type : TaskType} {data made : List NodeData} {nodes : List NodeCall}
      {ended : Except (String × Failure) Json} {stored : List NodeResult} {logs : List JobLog}
      (htype : (g.node? id).map GraphNode.type = some (.task type)) (hdata : g.supplied t id = .ok data)
      (hrest : Threads g t job (some id) (results ++ [(id, made)])
        ((t.payload job id previous results data).after made).toJson ids nodes ended stored logs) :
      Threads g t job previous results state (id :: ids)
        (⟨type, t.payload job id previous results data, .ok made⟩ :: nodes) ended (⟨resultId, job, id, made⟩ :: stored)
        logs

/-- Tasks in a line that were compiled from nodes, with the wrapped functions of the nodes as their handlers. -/
inductive Staffed (g : Graph) (t : Target) (e : Engine T) (works : TaskType → NodeWork T) (c : TaskChain) :
    Bool → List String → Prop
  | nil {first : Bool} : Staffed g t e works c first []
  | cons {first : Bool} {id : String} {ids : List String} {task : Task} {type : TaskType} {data : List NodeData}
      (htask : c.tasks.get? id = some task) (hnext : task.next = ids.head?)
      (hassigned : g.Assigned t first id task type data)
      (hhandler : e.handlers.get? task.resource = some (handler (works type))) (hunmarked : ¬Misread id data)
      (hrest : Staffed g t e works c false ids) : Staffed g t e works c first (id :: ids)

/-- A state that tells every task what it is to be told: of the job, of the node before it and of what was made. -/
def Informs (t : Target) (first : Bool) (state : Json) (job : String) (previous : Option String)
    (results : NodeTable) : Prop :=
  ∀ (task : Task) (id : String) (data : List NodeData), task.parameters = parameters t first id data →
    ¬Misread id data → task.payload state = .ok (t.payload job id previous results data)

variable {g : Graph} {t : Target} {e : Engine T} {works : TaskType → NodeWork T} {c : TaskChain} {first : Bool}
  {job : String} {previous : Option String} {results : NodeTable} {state : Json} {ids : List String}
  {nodes : List NodeCall} {ended : Except (String × Failure) Json} {stored : List NodeResult} {logs : List JobLog}

theorem informs_first (h : state.TellsJob job) : Informs t true state job none [] :=
  fun _ _ _ hparameters hunmarked => by rw [payload_first hparameters h, if_neg hunmarked]

theorem informs_next {p : Payload} {node : String} (h : p.previous = some node) :
    Informs t false p.toJson p.job (some node) p.results :=
  fun _ _ _ hparameters hunmarked => by rw [payload_next hparameters h, if_neg hunmarked]

theorem runs_threads {bound : Fields Json} {w w' : World T} {calls : List (Call T)}
    (hworks : ∀ type bound p, (works type bound p).Sparing) (hstaffed : g.Staffed t e works c first ids)
    (hstate : Informs t first state job previous results) (hready : w.Ready job) (hnodup : ids.Nodup)
    (hfresh : ∀ id ∈ ids, id ∉ results.keys) (h : e.Runs bound c ids.head? state w calls ended w') :
    ∃ nodes stored logs, List.Forall₂ (Handles works) calls nodes ∧
      g.Threads t job previous results state ids nodes ended stored logs ∧ w.Adds w' stored logs := by
  induction hstaffed generalizing previous results state w calls with
  | nil =>
    cases h with
    | ended => exact ⟨[], [], [], .nil, .done, .refl _⟩
  | @cons first id ids task type data htask hnext hassigned hhandler hunmarked _ ih =>
    have hpayload := hstate task id data hassigned.parameters hunmarked
    obtain ⟨given, hgiven, hread⟩ := Attempt.bind_eq_ok.1 hpayload
    rw [Attempt.mapError_eq_ok] at hgiven
    obtain ⟨outcome, w₁, w₂, recordId, hwork, hcall, hadds, hready₂⟩ :=
      handler_cases (hworks type) (hready.spared (.logged w [taskStarted bound id task])) hread
    have hstarted := World.Adds.logged w [taskStarted bound id task]
    have hhandle : Handles works ⟨id, given, w.logged [taskStarted bound id task], _, w₂⟩
        ⟨type, t.payload job id previous results data, outcome⟩ := ⟨rfl, hread, hcall, ⟨w₁, hwork⟩, rfl⟩
    cases outcome with
    | error f =>
      obtain ⟨_, hf, rfl, rfl, rfl⟩ | ⟨_, _, hnone, -⟩ := h.of_call htask hhandler hgiven hcall
      · obtain rfl := Except.error.inj hf
        exact ⟨_, [], _, .cons hhandle .nil, .failed hassigned.node hassigned.supplied, hstarted.trans hadds⟩
      · exact nomatch hnone
    | ok made =>
      obtain ⟨_, hnone, -⟩ | ⟨next, rest, hmade, rfl, hrest⟩ := h.of_call htask hhandler hgiven hcall
      · exact nomatch hnone
      obtain rfl := Except.ok.inj hmade
      obtain ⟨hid, hnodup⟩ := List.nodup_cons.1 hnodup
      -- no node has made something before under this id, so what it made goes behind the rest
      have hresults : ((t.payload job id previous results data).after made).results = results ++ [(id, made)] :=
        Fields.put_eq_append made (hfresh id List.mem_cons_self)
      have hstate' : Informs t false ((t.payload job id previous results data).after made).toJson job (some id)
          (results ++ [(id, made)]) := hresults ▸ informs_next rfl
      have hfresh' : ∀ n ∈ ids, n ∉ Fields.keys (results ++ [(id, made)] : NodeTable) := fun n hn hkey => by
        rw [Fields.keys, List.map_append] at hkey
        rcases List.mem_append.1 hkey with hkey | hkey
        · exact hfresh n (List.mem_cons_of_mem id hn) hkey
        · obtain rfl : n = id := List.mem_singleton.1 hkey
          exact hid hn
      obtain ⟨nodes, stored, logs, hhandles, hthreads, hadds'⟩ := ih hstate' hready₂ hnodup hfresh' (hnext ▸ hrest)
      exact ⟨_, _, logs, .cons hhandle hhandles, .passed hassigned.node hassigned.supplied hthreads,
        (hstarted.trans hadds).trans hadds'⟩

namespace Threads

theorem inOrder (h : g.Threads t job previous results state ids nodes ended stored logs) : visited nodes <+: ids := by
  induction h with
  | done => exact List.nil_prefix
  | failed => exact List.cons_prefix_cons.2 ⟨rfl, List.nil_prefix⟩
  | passed _ _ _ ih => exact List.cons_prefix_cons.2 ⟨rfl, ih⟩

/-- Every node is told of the node before it and of all that was made so far. -/
theorem told (h : g.Threads t job previous results state ids nodes ended stored logs) {i : Nat} {n : NodeCall}
    (hn : nodes[i]? = some n) : ∃ data, g.supplied t n.payload.node = .ok data ∧
      (g.node? n.payload.node).map GraphNode.type = some (.task n.type) ∧
      n.payload = t.payload job n.payload.node (if i = 0 then previous else ids[i - 1]?)
        (results ++ madeBy (nodes.take i)) data := by
  induction h generalizing i with
  | done => exact nomatch hn
  | failed htype hdata =>
    cases i with
    | zero =>
      obtain rfl := Option.some.inj hn
      exact ⟨_, hdata, htype, by simp [madeBy, Target.payload]⟩
    | succ i => simp at hn
  | @passed previous results state id resultId ids type data made nodes ended stored logs htype hdata _ ih =>
    cases i with
    | zero =>
      obtain rfl := Option.some.inj hn
      exact ⟨_, hdata, htype, by simp [madeBy, Target.payload]⟩
    | succ i =>
      obtain ⟨data', hdata', htype', hpayload⟩ := ih (i := i) (by simpa using hn)
      refine ⟨data', hdata', htype', hpayload.trans ?_⟩
      have hbefore : (if i = 0 then some id else ids[i - 1]?) = (id :: ids)[i]? := by cases i <;> rfl
      rw [if_neg (Nat.succ_ne_zero i), hbefore, List.append_assoc]
      rfl

theorem before_passed (h : g.Threads t job previous results state ids nodes ended stored logs) :
    ∀ n ∈ nodes.dropLast, n.outcome.isOk := by
  induction h with
  | done | failed => simp
  | @passed _ _ _ _ _ _ _ _ _ nodes _ _ _ _ _ _ ih =>
    cases nodes with
    | nil => simp
    | cons n nodes => exact List.forall_mem_cons.2 ⟨rfl, ih⟩

theorem stored_eq (h : g.Threads t job previous results state ids nodes ended stored logs) :
    stored.map (fun r => (r.jobId, r.nodeId, r.results)) = (madeBy nodes).map fun e => (job, e.1, e.2) := by
  induction h with
  | done | failed => rfl
  | passed _ _ _ ih => exact congrArg _ ih

/-- A run whose last node did not fail went through all of them, and its output is what that node left. -/
theorem completed {last : NodeCall} {made : List NodeData}
    (h : g.Threads t job previous results state ids nodes ended stored logs) (hlast : nodes.getLast? = some last)
    (hmade : last.outcome = .ok made) :
    visited nodes = ids ∧ logs = [] ∧ ended = .ok (last.payload.after made).toJson := by
  induction h with
  | done => exact nomatch hlast
  | failed =>
    obtain rfl := Option.some.inj hlast
    exact nomatch hmade
  | @passed _ _ _ _ _ _ _ _ _ nodes _ _ _ _ _ hrest ih =>
    cases nodes with
    | nil =>
      obtain rfl := Option.some.inj hlast
      obtain rfl := Except.ok.inj hmade
      cases hrest
      exact ⟨rfl, rfl, rfl⟩
    | cons n nodes =>
      obtain ⟨hvisited, hrest⟩ := ih (by simpa using hlast)
      exact ⟨congrArg _ hvisited, hrest⟩

/-- A run whose last node failed ends with the failure of that node. -/
theorem stopped {last : NodeCall} {f : Failure}
    (h : g.Threads t job previous results state ids nodes ended stored logs) (hlast : nodes.getLast? = some last)
    (hfailed : last.outcome = .error f) : ended = .error (last.payload.node, .node last.payload.node (some f)) ∧
      ∃ id, logs = loggedFailures id last.payload (.error f) := by
  induction h with
  | done => exact nomatch hlast
  | failed =>
    obtain rfl := Option.some.inj hlast
    obtain rfl := Except.error.inj hfailed
    exact ⟨rfl, _, rfl⟩
  | @passed _ _ _ _ _ _ _ _ _ nodes _ _ _ _ _ _ ih =>
    cases nodes with
    | nil =>
      obtain rfl := Option.some.inj hlast
      exact nomatch hfailed
    | cons n nodes => exact ih (by simpa using hlast)

theorem ne_nil {id : String} (h : g.Threads t job previous results state ids nodes ended stored logs)
    (hids : ids.head? = some id) : nodes ≠ [] := by
  cases h with
  | done => cases hids
  | failed | passed => exact List.cons_ne_nil _ _

end Threads

theorem Staffed.line (h : g.Staffed t e works c first ids) : c.Line e.handlers.keys ids := by
  induction h with
  | nil => exact .nil
  | cons htask hnext _ hhandler _ _ ih =>
    exact .cons htask hnext (Fields.mem_keys.2 ⟨_, Fields.mem_of_get? hhandler⟩) ih

variable {r : Resources} {tasks : Fields Task} {compiled : Compilation}

/-- Compiled tasks are in a line, and staffed where the resource of each type has the wrapped function of the type. -/
theorem Traced.staffed (h : Traced g r tasks) (hget : ∀ p ∈ tasks, c.tasks.get? p.1 = some p.2)
    (hfirst : ∀ p, tasks.head? = some p → ∃ type data, g.Assigned t first p.1 p.2 type data)
    (hmore : ∀ p ∈ tasks.tail, ∃ type data, g.Assigned t false p.1 p.2 type data)
    (hhandlers : ∀ type resource, t.resources.get? type = some resource →
      e.handlers.get? resource = some (handler (works type)))
    (hunmarked : ∀ id ∈ tasks.keys, ¬Reference.isMarked id) : g.Staffed t e works c first tasks.keys := by
  induction h generalizing first with
  | last _ hnext =>
    obtain ⟨type, data, hassigned⟩ := hfirst _ rfl
    exact .cons (hget _ List.mem_cons_self) hnext hassigned (hhandlers _ _ hassigned.resource)
      (fun hmisread => hunmarked _ List.mem_cons_self hmisread.2) .nil
  | step _ hnext _ _ _ ih =>
    obtain ⟨type, data, hassigned⟩ := hfirst _ rfl
    obtain ⟨hid, hunmarked⟩ := List.forall_mem_cons.1 hunmarked
    obtain ⟨htask, hget⟩ := List.forall_mem_cons.1 hget
    refine .cons htask hnext hassigned (hhandlers _ _ hassigned.resource) (fun hmisread => hid hmisread.2)
      (ih hget (fun p hp => ?_) (fun p hp => hmore p (List.mem_of_mem_tail hp)) hunmarked)
    obtain rfl := Option.some.inj hp
    exact hmore _ List.mem_cons_self

/-- Nodes that were called in the order of a chain, each of them told of the one before it and of all that was made. -/
structure Threaded (g : Graph) (t : Target) (job : String) (ids : List String) (nodes : List NodeCall) : Prop where
  inOrder : visited nodes <+: ids
  told : ∀ i n, nodes[i]? = some n → ∃ data, g.supplied t n.payload.node = .ok data ∧
    (g.node? n.payload.node).map GraphNode.type = some (.task n.type) ∧
    n.payload = t.payload job n.payload.node (if i = 0 then none else ids[i - 1]?) (madeBy (nodes.take i)) data
  before_passed : ∀ n ∈ nodes.dropLast, n.outcome.isOk
  whole : (∀ n ∈ nodes, n.outcome.isOk) → visited nodes = ids

/-- What is kept of the calls of nodes: their results, the entry of the job log for a failure that is for the author to
know, and the record of the execution. -/
structure Kept (job : String) (nodes : List NodeCall) (stored : List NodeResult) (logs : List JobLog) (x : Execution) :
    Prop where
  stored : stored.map (fun r => (r.jobId, r.nodeId, r.results)) = (madeBy nodes).map fun e => (job, e.1, e.2)
  failed : ∀ last f, nodes.getLast? = some last → last.outcome = .error f →
    x.status = .failed ∧ x.failedTask = some last.payload.node ∧ ∃ id, logs = loggedFailures id last.payload (.error f)
  succeeded : (∀ n ∈ nodes, n.outcome.isOk) → x.status = .succeeded ∧ logs = [] ∧
    ∃ last made, nodes.getLast? = some last ∧ last.outcome = .ok made ∧ x.output = some (last.payload.after made).toJson

theorem Threads.last_passed {id : String} (h : g.Threads t job previous results state ids nodes ended stored logs)
    (hids : ids.head? = some id) (hall : ∀ n ∈ nodes, n.outcome.isOk) :
    ∃ last made, nodes.getLast? = some last ∧ last.outcome = .ok made := by
  obtain ⟨last, hlast⟩ := Option.ne_none_iff_exists'.1 fun hnone => h.ne_nil hids (List.getLast?_eq_none_iff.1 hnone)
  obtain ⟨made, hmade⟩ := Attempt.isOk_iff.1 (hall last (List.mem_of_getLast? hlast))
  exact ⟨last, made, hlast, hmade⟩

theorem Threads.threaded {id : String} (h : g.Threads t job none [] state ids nodes ended stored logs)
    (hids : ids.head? = some id) : g.Threaded t job ids nodes := by
  refine ⟨h.inOrder, fun i n hn => by simpa using h.told hn, h.before_passed, fun hall => ?_⟩
  obtain ⟨last, made, hlast, hmade⟩ := h.last_passed hids hall
  exact (h.completed hlast hmade).1

theorem Threads.kept {id : String} (h : g.Threads t job none [] state ids nodes ended stored logs)
    (hids : ids.head? = some id) (execution resource : String) :
    Kept job nodes stored logs (record execution resource ended) := by
  refine ⟨h.stored_eq, fun last f hlast hfailed => ?_, fun hall => ?_⟩
  · obtain ⟨rfl, hlogs⟩ := h.stopped hlast hfailed
    exact ⟨rfl, rfl, hlogs⟩
  · obtain ⟨last, made, hlast, hmade⟩ := h.last_passed hids hall
    obtain ⟨-, rfl, rfl⟩ := h.completed hlast hmade
    exact ⟨rfl, rfl, last, made, hlast, hmade, rfl⟩

theorem Threaded.last_failed (h : g.Threaded t job ids nodes) (hfailed : ¬∀ n ∈ nodes, n.outcome.isOk) :
    ∃ last f, nodes.getLast? = some last ∧ last.outcome = .error f := by
  rcases List.eq_nil_or_concat nodes with rfl | ⟨before, last, rfl⟩
  · exact absurd (by simp) hfailed
  · have hbefore : ∀ n ∈ before, n.outcome.isOk := by simpa using h.before_passed
    cases houtcome : last.outcome with
    | ok made => exact absurd (by simpa [or_imp, forall_and, houtcome, Except.isOk, Except.toBool] using hbefore) hfailed
    | error f => exact ⟨last, f, by simp, houtcome⟩

theorem Threaded.job_eq (h : g.Threaded t job ids nodes) {n : NodeCall} (hn : n ∈ nodes) : n.payload.job = job := by
  obtain ⟨i, hi⟩ := List.mem_iff_getElem?.1 hn
  obtain ⟨_, -, -, hpayload⟩ := h.told i n hi
  rw [hpayload]
  rfl

/-- What is compiled is staffed, where no node that it comes to has a marked id. -/
theorem compile_staffed (hids : g.ids.Nodup) (hc : g.compile t = .ok compiled)
    (hhandlers : ∀ type resource, t.resources.get? type = some resource →
      e.handlers.get? resource = some (handler (works type)))
    (hunmarked : ∀ id ∈ compiled.chain.ordered, ¬Reference.isMarked id) :
    g.Staffed t e works compiled.chain true compiled.chain.ordered ∧ compiled.chain.ordered.Nodup ∧
      compiled.chain.ordered.head? = some compiled.chain.start := by
  obtain ⟨-, hstart, htraced, hnodup⟩ := compile_traced hids hc
  obtain ⟨-, rest, hwalk, -⟩ := compile_eq_ok hc
  obtain ⟨task, more, htasks, hfirst, hmore⟩ := walk_assigned hwalk
  have hordered := htraced.ordered_eq hstart hnodup
  rw [hordered] at hunmarked ⊢
  refine ⟨htraced.staffed (fun p hp => (Fields.get?_eq_some hnodup).2 hp) (fun p hp => ?_) (fun p hp => ?_) hhandlers
    hunmarked, hnodup, by rw [htasks]; rfl⟩
  · rw [htasks] at hp
    obtain rfl := Option.some.inj hp
    exact hfirst
  · rw [htasks] at hp
    exact hmore p hp

/-- An execution of a compiled workflow threads the results of its nodes. Whatever the functions of the nodes do, as
long as they leave the records of jobs alone, each of them is called once, in the order of the chain and up to the first
that fails, and is told of the node before it and of all that was made; what was made is stored, a failure that is for
the author to know is logged, and the record tells how it ended. -/
theorem start_threads [Timeline T] {w : World T} {handle : String} {resource : Resource T} {input : Json}
    (hids : g.ids.Nodup) (hc : g.compile t = .ok compiled)
    (hunmarked : ∀ id ∈ compiled.chain.ordered, ¬Reference.isMarked id)
    (hhandlers : ∀ type resource, t.resources.get? type = some resource →
      e.handlers.get? resource = some (handler (works type)))
    (hworks : ∀ type bound p, (works type bound p).Sparing)
    (hresource : w.resources.get? handle = some resource) (hchain : resource.chain = compiled.chain)
    (hactive : Timeline.le resource.activeAt w.clock.now) (hinput : input.TellsJob job) (hready : w.Ready job) :
    ∃ calls ended w' execution w'' x nodes stored logs,
      e.Started w handle resource input calls ended w' ∧ runIn w (e.start handle input) = (.ok execution, w'') ∧
      w''.executions.get? execution = some x ∧ List.Forall₂ (Handles works) calls nodes ∧
      g.Threaded t job compiled.chain.ordered nodes ∧ w.Adds w'' stored logs ∧ Kept job nodes stored logs x := by
  obtain ⟨hstaffed, hnodup, hhead⟩ := compile_staffed hids hc hhandlers hunmarked
  rw [← hchain] at hstaffed hnodup hhead ⊢
  obtain ⟨calls, ended, w', hstarted, hrun⟩ := runIn_start hresource hactive hhead hstaffed.line input
  have hbefore : w.Adds (w.numbered.logged
      [executionStarted (executionHandle handle (w.ids + 1)) resource.chain]) [] [] := .of_store rfl (Nat.le_succ _)
  obtain ⟨nodes, stored, logs, hhandles, hthreads, hadds⟩ := runs_threads hworks hstaffed (informs_first hinput)
    (hready.spared hbefore) hnodup (by simp) (hhead ▸ hstarted.runs)
  have hafter : w'.Adds (afterwards w w' handle ended) [] [] := .of_store rfl (Nat.le_refl _)
  refine ⟨calls, ended, w', _, _, record (executionHandle handle (w.ids + 1)) handle ended, nodes, stored, logs,
    hstarted, hrun, afterwards_record _ _ _ _, hhandles, hthreads.threaded hhead, ?_, hthreads.kept hhead _ _⟩
  simpa using (hbefore.trans hadds).trans hafter

def threadedJob : Job := ⟨"J", "org", "I", none, false⟩

def threadedWorld (c : TaskChain) : World Binary64 :=
  { store := { jobs := [threadedJob] }, blobs := ⟨"bucket", .memory, []⟩, clock := ⟨.zero false, []⟩
    resources := [("flow", ⟨"flow", c, .zero false⟩)] }

def threadedInput : Json := .object [("context", .object [("workflow_job_id", .text "J")])]

def passingEngine : Engine Binary64 := ⟨[("noop", handler passOn)], .zero false⟩

def refuseLater : NodeWork Binary64 := fun _ p =>
  if p.previous.isNone then return (p.overrides.get? p.node).getD [] else throw (.graph (.noDocument p.node))

theorem refuseLater_sparing (bound : Fields Json) (p : Payload) : (refuseLater bound p).Sparing := fun w => by
  rw [refuseLater]
  split_ifs <;> exact .refl w

theorem refuseLater_error {w w' : World Binary64} {bound : Fields Json} {p : Payload} {f : Failure}
    (h : runIn w (refuseLater bound p) = (.error f, w')) : f = .graph (.noDocument p.node) := by
  rw [refuseLater] at h
  split_ifs at h
  · exact nomatch (Prod.mk.inj h).1
  · exact (Except.error.inj (Prod.mk.inj h).1).symm

def refusingEngine : Engine Binary64 := ⟨[("noop", handler refuseLater)], .zero false⟩

def endOf (e : Engine Binary64) : Except CompileFault (List (ExecutionStatus × Option String)) :=
  (fun c : Compilation => (runIn (threadedWorld c.chain) (e.start "flow" threadedInput)).2.executions.map fun p =>
    (p.2.status, p.2.failedTask)) <$> (suppliedGraph "first").compile suppliedTarget

/-- Two nodes hand on what there is; or the second one fails, and the author is told why. -/
theorem start_threads_supplied : ∃ compiled : Compilation,
    (suppliedGraph "first").compile suppliedTarget = .ok compiled ∧
    (∃ (execution : String) (w : World Binary64) (x : Execution) (nodes : List NodeCall) (stored : List NodeResult)
      (logs : List JobLog),
        runIn (threadedWorld compiled.chain) (passingEngine.start "flow" threadedInput) = (.ok execution, w) ∧
        w.executions.get? execution = some x ∧ x.status = .succeeded ∧
        (suppliedGraph "first").Threaded suppliedTarget "J" ["first", "next"] nodes ∧ Kept "J" nodes stored logs x) ∧
    ∃ (execution : String) (w : World Binary64) (x : Execution) (nodes : List NodeCall) (stored : List NodeResult)
      (id : String),
        runIn (threadedWorld compiled.chain) (refusingEngine.start "flow" threadedInput) = (.ok execution, w) ∧
        w.executions.get? execution = some x ∧ x.status = .failed ∧ x.failedTask = some "next" ∧
        (suppliedGraph "first").Threaded suppliedTarget "J" ["first", "next"] nodes ∧
        w.store.logs = [⟨id, "J", .error, .noDocument, [("workflowNodeId", "next")], some "next"⟩] ∧
        Kept "J" nodes stored w.store.logs x := by
  have hordered : (fun c : Compilation => c.chain.ordered) <$> (suppliedGraph "first").compile suppliedTarget =
      .ok ["first", "next"] := by decide +kernel
  obtain ⟨compiled, hc, hids⟩ := Attempt.map_eq_ok.1 hordered
  have hready : (threadedWorld compiled.chain).Ready "J" :=
    ⟨⟨threadedJob, List.mem_singleton_self _, rfl⟩, by simp [threadedWorld], by simp [threadedWorld]⟩
  have hunmarked : ∀ id ∈ compiled.chain.ordered, ¬Reference.isMarked id := by
    rw [hids]
    decide +kernel
  have hactive : Timeline.le (Binary64.zero false) (.zero false) := by decide +kernel
  have hresource : (threadedWorld compiled.chain).resources.get? "flow" =
      some ⟨"flow", compiled.chain, .zero false⟩ := rfl
  have hinput : threadedInput.TellsJob "J" := ⟨_, rfl, rfl⟩
  have hended : ∀ {e : Engine Binary64} {status task execution w x}, endOf e = .ok [(status, task)] →
      runIn (threadedWorld compiled.chain) (e.start "flow" threadedInput) = (.ok execution, w) →
      w.executions.get? execution = some x → x.status = status ∧ x.failedTask = task := by
    intro e status task execution w x hend hrun hx
    obtain ⟨c, hc', hone⟩ := Attempt.map_eq_ok.1 hend
    obtain rfl := Except.ok.inj (hc.symm.trans hc')
    rw [hrun] at hone
    have hmem := List.mem_map_of_mem (f := fun p : String × Execution => (p.2.status, p.2.failedTask))
      (Fields.mem_of_get? hx)
    exact Prod.mk.inj (List.mem_singleton.1 (hone ▸ hmem))
  refine ⟨compiled, hc, ?_, ?_⟩
  · have hhandlers : suppliedTarget.resources.handlers {} = .ok passingEngine.handlers := rfl
    obtain ⟨-, -, -, execution, w, x, nodes, stored, logs, -, hrun, hx, -, hthreaded, -, hkept⟩ :=
      start_threads (by decide +kernel) hc hunmarked (fun _ _ => Resources.get?_handlers hhandlers)
        (fun type bound p => type.work_sparing {} bound p) hresource rfl hactive hinput hready
    have hend : endOf passingEngine = .ok [(.succeeded, none)] := by decide +kernel
    exact ⟨execution, w, x, nodes, stored, logs, hrun, hx, (hended hend hrun hx).1, hids ▸ hthreaded, hkept⟩
  · have hhandlers : ∀ type resource, suppliedTarget.resources.get? type = some resource →
        refusingEngine.handlers.get? resource = some (handler refuseLater) := by
      intro type resource h
      cases type <;> cases h
      rfl
    obtain ⟨calls, -, -, execution, w, x, nodes, stored, logs, -, hrun, hx, hhandles, hthreaded, hadds, hkept⟩ :=
      start_threads (by decide +kernel) hc hunmarked hhandlers
        (fun _ => refuseLater_sparing) hresource rfl hactive hinput hready
    have hend : endOf refusingEngine = .ok [(.failed, some "next")] := by decide +kernel
    obtain ⟨hstatus, hfailed⟩ := hended hend hrun hx
    obtain ⟨last, f, hlast, hf⟩ := hthreaded.last_failed fun hall =>
      nomatch hstatus.symm.trans (hkept.succeeded hall).1
    obtain ⟨-, htask, id, rfl⟩ := hkept.failed last f hlast hf
    have hnode : last.payload.node = "next" := Option.some.inj (htask.symm.trans hfailed)
    have hjob : last.payload.job = "J" := hthreaded.job_eq (List.mem_of_getLast? hlast)
    have hreason : f = .graph (.noDocument last.payload.node) := by
      obtain ⟨i, hi, rfl⟩ := List.mem_iff_getElem.1 (List.mem_of_getLast? hlast)
      obtain ⟨_, hwork⟩ := (hhandles.get (hhandles.length_eq ▸ hi) hi).work
      exact refuseLater_error (hwork.trans (congrArg (·, _) hf))
    have hlogs : loggedFailures id last.payload (.error f) =
        [⟨id, "J", .error, .noDocument, [("workflowNodeId", "next")], some "next"⟩] := by
      rw [hreason, loggedFailures_of_loggable (.graph _), hjob, hnode]
      rfl
    have hstored : w.store.logs = loggedFailures id last.payload (.error f) := hadds.logs
    rw [← hstored] at hkept hlogs
    exact ⟨execution, w, x, nodes, stored, id, hrun, hx, hstatus, hfailed, hids ▸ hthreaded, hlogs, hkept⟩

end Graph
end HuntDraw
