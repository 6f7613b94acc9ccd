import HuntDraw.Proofs.Graph.Walk
import HuntDraw.Proofs.Node.Payload

/-! What a compiled task is started with. Its parameters refer to the state that the task before it left, and are read
as the payload of its node. The data supplied to a node stand under its id, where a marked id is taken for a
reference. -/

namespace HuntDraw

namespace Reference

variable {state v w : Json} {done : Fields Json} {rest : List (String × Json)} {key path : String}
  {steps : List String} {f : ReferenceFault}

theorem resolveFields_plain (hkey : isMarked key = false) (hv : resolveValue state v = .ok w) :
    resolveFields state done ((key, v) :: rest) = resolveFields state (done.put key w) rest := by
  rw [resolveFields, hkey, hv]
  rfl

/-- A reference is replaced by what it stands for, under the name before the mark. -/
theorem resolveFields_reference (name : String) (hkey : isMarked key = true) (hname : unmarked key = name)
    (hpath : resolve state path = .ok w) :
    resolveFields state done ((key, .text path) :: rest) = resolveFields state (done.put name w) rest := by
  rw [resolveFields, hkey, lookUp, hpath, hname]
  rfl

theorem resolveFields_last (hkey : isMarked key = false) :
    resolveFields state done [(key, v)] = done.put key <$> resolveValue state v := by
  rw [resolveFields, hkey]
  cases resolveValue state v <;> rfl

theorem resolveValue_object {fields given : List (String × Json)} (h : resolveFields state [] fields = .ok given) :
    resolveValue state (.object fields) = .ok (.object given) := by
  rw [resolveValue, h]
  rfl

theorem resolveFields_fault (hkey : isMarked key = true) (hv : lookUp state v = .error f) :
    resolveFields state done ((key, v) :: rest) = .error f := by
  rw [resolveFields, hkey, hv]
  rfl

theorem resolve_eq_ok (hwhole : path ≠ "$") (hstart : Text.startsWith path "$." = true)
    (hsteps : Text.split '.' (path.drop 2).toString = steps) (hfound : descend state steps = some w) :
    resolve state path = .ok w := by
  rw [resolve, if_neg hwhole, hstart, hsteps, hfound]
  rfl

theorem resolve_job {context : Json} (hcontext : state.get? "context" = some context)
    (hjob : context.get? "workflow_job_id" = some w) : resolve state "$.context.workflow_job_id" = .ok w := by
  have hsteps : Text.split '.' ("$.context.workflow_job_id".drop 2).toString = ["context", "workflow_job_id"] := by
    decide +kernel
  refine resolve_eq_ok (by decide) (by decide +kernel) hsteps ?_
  rw [descend, hcontext, Option.bind_some, descend, hjob]
  rfl

theorem resolve_previous {context : Json} (hcontext : state.get? "context" = some context)
    (hprevious : context.get? "previous_node_id" = some w) :
    resolve state "$.context.previous_node_id" = .ok w := by
  have hsteps : Text.split '.' ("$.context.previous_node_id".drop 2).toString = ["context", "previous_node_id"] := by
    decide +kernel
  refine resolve_eq_ok (by decide) (by decide +kernel) hsteps ?_
  rw [descend, hcontext, Option.bind_some, descend, hprevious]
  rfl

theorem resolve_results (hresults : state.get? "node_result_data" = some w) :
    resolve state "$.node_result_data" = .ok w := by
  have hsteps : Text.split '.' ("$.node_result_data".drop 2).toString = ["node_result_data"] := by decide +kernel
  refine resolve_eq_ok (by decide) (by decide +kernel) hsteps ?_
  rw [descend, hresults]
  rfl

end Reference

def Task.payload (task : Task) (state : Json) : Except Failure Payload := do
  let given ← (Reference.parameters state task.parameters).mapError .reference
  Payload.read (.object given)

def Json.TellsJob (state : Json) (job : String) : Prop :=
  ∃ context, state.get? "context" = some context ∧ context.get? "workflow_job_id" = some (.text job)

namespace Graph

open Attempt Reference

variable {g : Graph} {t : Target} {c : Compilation} {state : Json} {job id previous : String} {results : NodeTable}
  {data : List NodeData}

def suppliedTo (id : String) (data : List NodeData) : NodeTable := if data.isEmpty then [] else [(id, data)]

/-- What a node is to be told: for whom and on which job it works, what was made before it and what is supplied. -/
def Target.payload (t : Target) (job id : String) (previous : Option String) (results : NodeTable)
    (data : List NodeData) : Payload :=
  { organization := t.organization, job, node := id, previous, overrides := suppliedTo id data, results }

/-- Data under a marked id are taken for a path. -/
def Misread (id : String) (data : List NodeData) : Prop := data ≠ [] ∧ isMarked id

instance : Decidable (Misread id data) := inferInstanceAs (Decidable (_ ∧ _))

theorem tableJson_suppliedTo (id : String) (data : List NodeData) : Payload.tableJson (suppliedTo id data) =
    .object (if data.isEmpty then [] else [(id, Json.list (data.map NodeData.toJson))]) := by
  cases data <;> rfl

theorem resolve_suppliedTo (state : Json) (id : String) (data : List NodeData) :
    resolveValue state (Payload.tableJson (suppliedTo id data)) =
      if Misread id data then .error (.notAPath "list") else .ok (Payload.tableJson (suppliedTo id data)) := by
  cases data with
  | nil => rfl
  | cons d data =>
    change Json.object <$> resolveFields state [] [(id, .list ((d :: data).map NodeData.toJson))] = _
    by_cases hmarked : isMarked id
    · rw [resolveFields_fault hmarked rfl, if_pos ⟨List.cons_ne_nil d data, hmarked⟩]
      rfl
    · rw [resolveFields_plain (by simpa using hmarked) rfl, if_neg fun hmisread => hmarked hmisread.2]
      rfl

/-- Once the data supplied to the node are all that is left to resolve, they decide whether there is a payload. -/
theorem payload_of_supplied {task : Task} {done : Fields Json} {p : Payload}
    (hgiven : Reference.parameters state task.parameters =
      done.put "node_override_data" <$> resolveValue state (Payload.tableJson (suppliedTo id data)))
    (hread : Payload.read (.object (done.put "node_override_data" (Payload.tableJson (suppliedTo id data)))) = .ok p) :
    task.payload state = if Misread id data then .error (.reference (.notAPath "list")) else .ok p := by
  rw [Task.payload, hgiven, resolve_suppliedTo]
  split_ifs
  · rfl
  · exact hread

/-- The first task finds the job in the state, and nothing that was made before. -/
theorem payload_first {task : Task} (hparameters : task.parameters = parameters t true id data)
    (hjob : state.TellsJob job) : task.payload state =
      if Misread id data then .error (.reference (.notAPath "list")) else .ok (t.payload job id none [] data) := by
  obtain ⟨context, hcontext, hjob⟩ := hjob
  have hstate : resolveValue state (.object [("organization_id", .text t.organization),
      ("workflow_job_id.$", .text "$.context.workflow_job_id"), ("node_id", .text id)]) =
        .ok (.object [("organization_id", .text t.organization), ("workflow_job_id", .text job),
          ("node_id", .text id)]) := by
    refine resolveValue_object ?_
    refine (resolveFields_plain (by decide +kernel) rfl).trans ?_
    refine (resolveFields_reference "workflow_job_id" (by decide +kernel) (by decide +kernel)
      (resolve_job hcontext hjob)).trans ?_
    exact (resolveFields_plain (by decide +kernel) rfl).trans rfl
  have hgiven : Reference.parameters state task.parameters =
      Fields.put [("context", .object [("organization_id", .text t.organization), ("workflow_job_id", .text job),
        ("node_id", .text id)]), ("node_result_data", .object [])] "node_override_data" <$>
          resolveValue state (Payload.tableJson (suppliedTo id data)) := by
    rw [hparameters, tableJson_suppliedTo]
    refine (resolveFields_plain (by decide +kernel) hstate).trans ?_
    refine (resolveFields_plain (by decide +kernel) rfl).trans ?_
    exact resolveFields_last (by decide +kernel)
  exact payload_of_supplied hgiven (Payload.read_eq_ok rfl rfl rfl rfl rfl rfl rfl)

/-- A later task finds in the state the job, the node before it, and what was made so far. -/
theorem payload_next {task : Task} {p : Payload} (hparameters : task.parameters = parameters t false id data)
    (hprevious : p.previous = some previous) : task.payload p.toJson =
      if Misread id data then .error (.reference (.notAPath "list"))
      else .ok (t.payload p.job id (some previous) p.results data) := by
  have hcontext : p.toJson.get? "context" = some (.object [("organization_id", .text p.organization),
      ("workflow_job_id", .text p.job), ("node_id", .text p.node), ("previous_node_id", .text previous)]) := by
    rw [Payload.toJson, hprevious]
    rfl
  have hstate : resolveValue p.toJson (.object [("organization_id", .text t.organization),
      ("workflow_job_id.$", .text "$.context.workflow_job_id"), ("node_id", .text id),
      ("previous_node_id.$", .text "$.context.previous_node_id")]) =
        .ok (.object [("organization_id", .text t.organization), ("workflow_job_id", .text p.job),
          ("node_id", .text id), ("previous_node_id", .text previous)]) := by
    refine resolveValue_object ?_
    refine (resolveFields_plain (by decide +kernel) rfl).trans ?_
    refine (resolveFields_reference "workflow_job_id" (by decide +kernel) (by decide +kernel)
      (resolve_job hcontext rfl)).trans ?_
    refine (resolveFields_plain (by decide +kernel) rfl).trans ?_
    exact (resolveFields_reference "previous_node_id" (by decide +kernel) (by decide +kernel)
      (resolve_previous hcontext rfl)).trans rfl
  have hgiven : Reference.parameters p.toJson task.parameters =
      Fields.put [("context", .object [("organization_id", .text t.organization), ("workflow_job_id", .text p.job),
        ("node_id", .text id), ("previous_node_id", .text previous)]),
        ("node_result_data", Payload.tableJson p.results)] "node_override_data" <$>
          resolveValue p.toJson (Payload.tableJson (suppliedTo id data)) := by
    rw [hparameters, tableJson_suppliedTo]
    refine (resolveFields_plain (by decide +kernel) hstate).trans ?_
    refine (resolveFields_reference "node_result_data" (by decide +kernel) (by decide +kernel)
      (resolve_results rfl)).trans ?_
    exact resolveFields_last (by decide +kernel)
  exact payload_of_supplied hgiven (Payload.read_eq_ok rfl rfl rfl rfl rfl rfl rfl)

/-- The first task is that of the start node, the others are not first ones. -/
theorem compile_assigned (hc : g.compile t = .ok c) {i : Nat} {task : Task}
    (htask : c.chain.tasks[i]? = some (id, task)) : (i = 0 → id = c.chain.start) ∧
      ∃ type data, g.Assigned t (i = 0) id task type data := by
  obtain ⟨-, rest, hwalk, -⟩ := compile_eq_ok hc
  obtain ⟨start, more, htasks, hfirst, hmore⟩ := walk_assigned hwalk
  rw [htasks] at htask
  cases i with
  | zero =>
    obtain ⟨rfl, rfl⟩ : c.chain.start = id ∧ start = task := by simpa using htask
    exact ⟨fun _ => rfl, by simpa using hfirst⟩
  | succ i =>
    have hmem : (id, task) ∈ more := List.mem_of_getElem? (by simpa using htask)
    exact ⟨fun h => absurd h (Nat.succ_ne_zero i), by simpa using hmore _ hmem⟩

/-- A compiled task is told what it has to know of its node, of the job and of what was made before, whatever the ids
of the nodes are: the first task by any state that tells the job, the others by the payload that the task before them
left. The only exceptions are tasks with data under an id that ends in the mark of references, which never start. -/
theorem compile_payloads (hc : g.compile t = .ok c) {i : Nat} {task : Task}
    (htask : c.chain.tasks[i]? = some (id, task)) : ∃ data, g.supplied t id = .ok data ∧
      (i = 0 → id = c.chain.start ∧ ∀ state job, state.TellsJob job → task.payload state =
        if Misread id data then .error (.reference (.notAPath "list")) else .ok (t.payload job id none [] data)) ∧
      (i ≠ 0 → ∀ (p : Payload) previous, p.previous = some previous → task.payload p.toJson =
        if Misread id data then .error (.reference (.notAPath "list"))
        else .ok (t.payload p.job id (some previous) p.results data)) := by
  obtain ⟨hstart, type, data, hassigned⟩ := compile_assigned hc htask
  refine ⟨data, hassigned.supplied, fun hi => ⟨hstart hi, fun state job hjob => ?_⟩, fun hi p previous hp => ?_⟩
  · exact payload_first (by simpa [hi] using hassigned.parameters) hjob
  · exact payload_next (by simpa [hi] using hassigned.parameters) hp

def applicantDocument : DocumentRecord :=
  { id := "D", organization := "org", name := "a", filename := "a.csv", contentType := "text/csv", blobKey := "a.csv"
    type := .applicants, nodeId := some "data" }

def applicantData : NodeData := ⟨"a.csv", ⟨.csv, .draw, "APPLICANTS"⟩⟩

/-- Two nodes in a row that are supplied with the same data, the first one of any id. -/
def suppliedGraph (id : String) : Graph :=
  { nodes := [⟨"data", .data .applicants, some applicantDocument⟩, ⟨id, .task .noop, none⟩, ⟨"next", .task .noop, none⟩]
    edges := [⟨"E1", "data", id, .override⟩, ⟨"E2", id, "next", .flow⟩, ⟨"E3", "data", "next", .override⟩] }

def suppliedTarget : Target := ⟨"org", [(.noop, "noop")], .ok⟩

def firstLeft : Payload := (suppliedTarget.payload "J" "first" none [] [applicantData]).after [applicantData]

theorem task_of_keys {m : Fields Task} {i : Nat} (h : m.keys[i]? = some id) : ∃ task, m[i]? = some (id, task) := by
  obtain ⟨e, he, rfl⟩ := Option.map_eq_some_iff.1 ((List.getElem?_map ..).symm.trans h)
  exact ⟨e.2, he⟩

theorem compile_payloads_second : ∃ c task, (suppliedGraph "first").compile suppliedTarget = .ok c ∧
    c.chain.tasks[1]? = some ("next", task) ∧ task.payload firstLeft.toJson =
      .ok (suppliedTarget.payload "J" "next" (some "first") [("first", [applicantData])] [applicantData]) := by
  have hkeys : (fun c : Compilation => c.chain.tasks.keys) <$> (suppliedGraph "first").compile suppliedTarget =
      .ok ["first", "next"] := by decide +kernel
  obtain ⟨c, hc, htasks⟩ := map_eq_ok.1 hkeys
  obtain ⟨task, htask⟩ : ∃ task, c.chain.tasks[1]? = some ("next", task) := task_of_keys (by rw [htasks]; rfl)
  have hdata : (suppliedGraph "first").supplied suppliedTarget "next" = .ok [applicantData] := by decide +kernel
  obtain ⟨data, hsupplied, -, hnext⟩ := compile_payloads hc htask
  obtain rfl := Except.ok.inj (hdata.symm.trans hsupplied)
  refine ⟨c, task, hc, htask, (hnext (by decide) firstLeft "first" rfl).trans ?_⟩
  rw [if_neg (by decide +kernel)]
  rfl

/-- The first task of a compiled graph may never start: data are supplied to a node whose id ends in the mark of
references. -/
theorem not_compile_payloads : ¬∀ (g : Graph) (t : Target) (c : Compilation), g.compile t = .ok c →
    ∀ id task, c.chain.tasks[0]? = some (id, task) → ∀ (state : Json) (job : String), state.TellsJob job →
      ∃ p, task.payload state = .ok p := by
  intro hall
  have hkeys : (fun c : Compilation => c.chain.tasks.keys) <$> (suppliedGraph "first.$").compile suppliedTarget =
      .ok ["first.$", "next"] := by decide +kernel
  obtain ⟨c, hc, htasks⟩ := map_eq_ok.1 hkeys
  obtain ⟨task, htask⟩ : ∃ task, c.chain.tasks[0]? = some ("first.$", task) := task_of_keys (by rw [htasks]; rfl)
  have hdata : (suppliedGraph "first.$").supplied suppliedTarget "first.$" = .ok [applicantData] := by decide +kernel
  obtain ⟨-, type, data, hassigned⟩ := compile_assigned hc htask
  obtain rfl := Except.ok.inj (hdata.symm.trans hassigned.supplied)
  have hjob : (Json.object [("context", .object [("workflow_job_id", .text "J")])]).TellsJob "J" := ⟨_, rfl, rfl⟩
  obtain ⟨p, hp⟩ := hall _ _ _ hc _ _ htask _ _ hjob
  rw [payload_first (by simpa using hassigned.parameters) hjob, if_pos (by decide +kernel)] at hp
  cases hp

end Graph
end HuntDraw
