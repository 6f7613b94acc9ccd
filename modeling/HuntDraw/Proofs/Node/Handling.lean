import HuntDraw.Proofs.Data.Fields
import HuntDraw.Proofs.Engine.Ids
import HuntDraw.Proofs.Node.Documented

/-! Handlers of nodes. There is one under the resource of each type of task. With one call it reads the payload, does
the work of the node once, and stores either the results or, where it is for the author to know, the failure. -/

namespace HuntDraw

open HuntDraw.Action

variable {T : Type} {w w' : World T} {work : NodeWork T} {event : Json} {p : Payload} {job : String}

def nodeBound (p : Payload) : Fields Json := [("workflow_job_id", .text p.job), ("node_id", .text p.node)]

def nodeStarted (p : Payload) : LogEvent :=
  ⟨.info, "node_started", nodeBound p ++ [("previous_node_id", Json.ofText? p.previous)]⟩

def nodeCompleted (p : Payload) (results : List NodeData) : LogEvent :=
  ⟨.info, "node_completed", nodeBound p ++ [("results", .nat results.length)]⟩

def settled (p : Payload) : Except Failure (List NodeData) → Except Failure Json
  | .ok results => .ok (p.after results).toJson
  | .error f => .error (.node p.node (some f))

def storedResults (id : String) (p : Payload) : Except Failure (List NodeData) → List NodeResult
  | .ok results => [⟨id, p.job, p.node, results⟩]
  | .error _ => []

/-- The entries of the job log after the work of a node: a failure that is for the author to know. -/
def loggedFailures (id : String) (p : Payload) : Except Failure (List NodeData) → List JobLog
  | .ok _ => []
  | .error f => (f.report?.map fun (key, params) =>
      { id, jobId := p.job, level := .error, key, params, nodeId := some p.node }).toList

theorem loggedFailures_of_loggable {f : Failure} {key : MessageKey} {params : List (String × String)}
    (h : f.Loggable key params) (id : String) (p : Payload) : loggedFailures id p (.error f) =
      [{ id, jobId := p.job, level := .error, key, params, nodeId := some p.node }] := by
  rw [loggedFailures, Failure.report?_eq_some.2 h]
  rfl

namespace World

/-- A world in which records of a job can be stored: the job is there, and the ids that are still to be given out are
those of no record. -/
structure Ready (w : World T) (job : String) : Prop where
  job : ∃ j ∈ w.store.jobs, j.id = job
  results : ∀ r ∈ w.store.results, ∀ n, r.id = idText n → n ≤ w.ids
  logs : ∀ l ∈ w.store.logs, ∀ n, l.id = idText n → n ≤ w.ids

theorem Ready.adds {results : List NodeResult} {logs : List JobLog} (h : w.Ready job) (hadds : w.Adds w' results logs)
    (hresults : ∀ r ∈ results, ∀ n, r.id = idText n → n ≤ w'.ids)
    (hlogs : ∀ l ∈ logs, ∀ n, l.id = idText n → n ≤ w'.ids) : w'.Ready job := by
  refine ⟨hadds.jobs ▸ h.job, ?_, ?_⟩
  · rw [hadds.results]
    exact List.forall_mem_append.2 ⟨fun r hr n hn => Nat.le_trans (h.results r hr n hn) hadds.ids, hresults⟩
  · rw [hadds.logs]
    exact List.forall_mem_append.2 ⟨fun l hl n hn => Nat.le_trans (h.logs l hl n hn) hadds.ids, hlogs⟩

theorem Ready.spared (h : w.Ready job) (hadds : w.Adds w' [] []) : w'.Ready job :=
  h.adds hadds (by simp) (by simp)

end World

theorem Store.createResult_eq_ok {s : Store} {r : NodeResult} (hid : ∀ r' ∈ s.results, r'.id ≠ r.id)
    (hjob : ∃ j ∈ s.jobs, j.id = r.jobId) : s.createResult r = .ok { s with results := s.results ++ [r] } := by
  have hfresh : fresh "workflow_node_results.result_id" NodeResult.id s.results r.id = .ok () :=
    if_neg (by simpa using hid)
  have hbelongs : belongs Job.id s.jobs r.jobId = .ok () := if_pos (by simpa using hjob)
  rw [createResult, hfresh, hbelongs]
  rfl

theorem Store.appendLog_eq_ok {s : Store} {l : JobLog} (hid : ∀ l' ∈ s.logs, l'.id ≠ l.id)
    (hjob : ∃ j ∈ s.jobs, j.id = l.jobId) : s.appendLog l = .ok { s with logs := s.logs ++ [l] } := by
  have hfresh : fresh "workflow_job_logs.log_id" JobLog.id s.logs l.id = .ok () := if_neg (by simpa using hid)
  have hbelongs : belongs Job.id s.jobs l.jobId = .ok () := if_pos (by simpa using hjob)
  rw [appendLog, hfresh, hbelongs]
  rfl

/-- A failure is recorded under a new id, where it is for the author to know. -/
theorem recordNodeFailure_adds (hready : w.Ready p.job) (f : Failure) : ∃ w', runIn w (recordNodeFailure p f) =
    (.ok (), w') ∧ w.Adds w' [] (loggedFailures (idText (w.ids + 1)) p (.error f)) ∧ w'.Ready p.job := by
  rw [recordNodeFailure, loggedFailures]
  cases f.report? with
  | none => exact ⟨w, rfl, .refl w, hready⟩
  | some report =>
    obtain ⟨key, params⟩ := report
    have hnew : ∀ l ∈ w.numbered.store.logs, l.id ≠ idText (w.ids + 1) := fun l hl heq =>
      absurd (hready.logs l hl _ heq) (Nat.not_succ_le_self _)
    refine ⟨_, (runIn_bind_ok runIn_newId).trans (runIn_alter (Store.appendLog_eq_ok hnew hready.job)), ?_⟩
    have hadds : w.Adds { w.numbered with store := { w.store with logs := w.store.logs ++ [{
        id := idText (w.ids + 1), jobId := p.job, level := .error, key, params, nodeId := some p.node }] } } []
        [{ id := idText (w.ids + 1), jobId := p.job, level := .error, key, params, nodeId := some p.node }] :=
      ⟨rfl, by simp, rfl, Nat.le_succ _⟩
    refine ⟨hadds, hready.adds hadds (by simp) fun l hl n hn => ?_⟩
    obtain rfl := List.mem_singleton.1 hl
    exact Nat.le_of_eq (idText_injective hn).symm

theorem createResult_adds (hready : w.Ready p.job) (results : List NodeData) : ∃ w',
    runIn w.numbered (alter fun s => s.createResult ⟨idText (w.ids + 1), p.job, p.node, results⟩) = (.ok (), w') ∧
      w.Adds w' (storedResults (idText (w.ids + 1)) p (.ok results)) [] ∧ w'.Ready p.job := by
  have hnew : ∀ r ∈ w.numbered.store.results, r.id ≠ idText (w.ids + 1) := fun r hr heq =>
    absurd (hready.results r hr _ heq) (Nat.not_succ_le_self _)
  refine ⟨_, runIn_alter (Store.createResult_eq_ok hnew hready.job), ?_⟩
  have hadds : w.Adds { w.numbered with store := { w.store with results := w.store.results ++
      [⟨idText (w.ids + 1), p.job, p.node, results⟩] } } [⟨idText (w.ids + 1), p.job, p.node, results⟩] [] :=
    ⟨rfl, rfl, by simp, Nat.le_succ _⟩
  refine ⟨hadds, hready.adds hadds (fun r hr n hn => ?_) (by simp)⟩
  obtain rfl := List.mem_singleton.1 hr
  exact Nat.le_of_eq (idText_injective hn).symm

theorem runIn_attempt_ok {bound : Fields Json} {results : List NodeData}
    (h : runIn w (work bound p) = (.ok results, w')) : runIn w (attempt work bound p) = (.ok results, w') := by
  rw [attempt, runIn_bind_outcome h]
  rfl

/-- Work that fails is the failure of its node, and recorded as one. -/
theorem runIn_attempt_error {bound : Fields Json} {f : Failure} (h : runIn w (work bound p) = (.error f, w'))
    (hready : w'.Ready p.job) : ∃ w'', runIn w (attempt work bound p) = (.error (.node p.node (some f)), w'') ∧
      w'.Adds w'' [] (loggedFailures (idText (w'.ids + 1)) p (.error f)) ∧ w''.Ready p.job := by
  obtain ⟨w'', hrecord, hadds, hready''⟩ := recordNodeFailure_adds (hready.spared (.logged w'
    [⟨.error, "node_failed", bound ++ [("error", .text f.shown), ("error_type", .text f.kind)]⟩])) f
  refine ⟨w'', ?_, (World.Adds.logged _ _).trans hadds, hready''⟩
  rw [attempt, runIn_bind_outcome h]
  exact (runIn_bind_ok (runIn_log ..)).trans ((runIn_bind_ok hrecord).trans rfl)

/-- A call of a handler, with the one call of the work that it consists in. -/
theorem handler_cases (hwork : ∀ bound p, (work bound p).Sparing) (hready : w.Ready p.job)
    (hread : Payload.read event = .ok p) : ∃ outcome w₁ w₂ id,
      runIn (w.logged [nodeStarted p]) (work (nodeBound p) p) = (outcome, w₁) ∧
      runIn w (handler work event) = (settled p outcome, w₂) ∧
      w.Adds w₂ (storedResults id p outcome) (loggedFailures id p outcome) ∧ w₂.Ready p.job := by
  have hp : runIn w (Action.lift id (Payload.read event)) = (.ok p, w) := by
    rw [runIn_lift, hread]
    rfl
  -- the work adds nothing itself, so that whatever is added comes from the handler
  have hspared : ∀ {outcome w₁}, runIn (w.logged [nodeStarted p]) (work (nodeBound p) p) = (outcome, w₁) →
      w.Adds w₁ [] [] := by
    intro outcome w₁ hrun
    have hadds := hwork (nodeBound p) p (w.logged [nodeStarted p])
    rw [hrun] at hadds
    exact (World.Adds.logged w _).trans hadds
  rw [handler, runIn_bind_ok hp, runIn_bind_ok (runIn_log ..)]
  rcases hrun : runIn (w.logged [nodeStarted p]) (work (nodeBound p) p) with ⟨f | results, w₁⟩
  · obtain ⟨w₂, hattempt, hadds, hready₂⟩ := runIn_attempt_error hrun (hready.spared (hspared hrun))
    exact ⟨.error f, w₁, w₂, _, rfl, runIn_bind_error hattempt, (hspared hrun).trans hadds, hready₂⟩
  · obtain ⟨w₂, hcreate, hadds, hready₂⟩ := createResult_adds (hready.spared (hspared hrun)) results
    have hlogged := World.Adds.logged w₂ [nodeCompleted p results]
    refine ⟨.ok results, w₁, _, _, rfl, ?_, ((hspared hrun).trans hadds).trans hlogged, hready₂.spared hlogged⟩
    refine (runIn_bind_ok (runIn_attempt_ok hrun)).trans ?_
    rw [runIn_bind_ok runIn_newId]
    exact (runIn_bind_ok hcreate).trans rfl

theorem Resources.nodup_of_shared? {r : Resources} (h : r.shared? = none) : (r.map Prod.snd).Nodup := by
  have hgo : ∀ (rest seen : Resources), shared?.go seen rest = none →
      (rest.map Prod.snd).Nodup ∧ ∀ p ∈ rest, ∀ q ∈ seen, q.2 ≠ p.2 := by
    intro rest
    induction rest with
    | nil => simp
    | cons p rest ih =>
      intro seen hnone
      rw [shared?.go] at hnone
      split at hnone
      · cases hnone
      · rename_i hfind
        obtain ⟨hnodup, hother⟩ := ih _ hnone
        have hseen : ∀ q ∈ seen, q.2 ≠ p.2 := by simpa using hfind
        refine ⟨List.nodup_cons.2 ⟨fun hmem => ?_, hnodup⟩, List.forall_mem_cons.2 ⟨hseen, fun q hq s hs =>
          hother q hq s (List.mem_append_left _ hs)⟩⟩
        obtain ⟨q, hq, heq⟩ := List.mem_map.1 hmem
        exact hother q hq p (by simp) heq.symm
  exact (hgo r [] h).1

/-- The handler under the resource of a type is that of the work of the type. -/
theorem Resources.get?_handlers {r : Resources} {draw : DrawSettings} {handlers : Fields (Handler T)}
    (h : r.handlers draw = .ok handlers) {type : TaskType} {resource : String} (hget : r.get? type = some resource) :
    handlers.get? resource = some (handler (type.work draw)) := by
  rw [Resources.handlers] at h
  split at h
  · exact nomatch h
  · rename_i hshared
    obtain rfl := Except.ok.inj h
    obtain ⟨p, hp, rfl⟩ := Option.map_eq_some_iff.1 hget
    obtain rfl : p.1 = type := by simpa using List.find?_some hp
    refine (Fields.get?_eq_some ?_).2 (List.mem_map_of_mem (List.mem_of_find?_eq_some hp))
    rw [Fields.keys, List.map_map]
    exact Resources.nodup_of_shared? hshared

end HuntDraw
