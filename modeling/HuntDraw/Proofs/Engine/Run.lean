import HuntDraw.Engine.Execution
import HuntDraw.Proofs.Engine.Action
import HuntDraw.Proofs.Engine.Linear

/-! Runs of a chain. `Engine.Runs` is the loop that goes from each task to the one it names, with nothing that would
bound it: it may come to an undefined task, and need not come to an end. On a chain in one line it does end, and the
engine goes through the tasks of the line as that loop does. -/

namespace HuntDraw

open HuntDraw.Action

variable {T : Type}

/-- A call of the handler of a task, in the world that the handler found and up to the one that it left. -/
structure Call (T : Type) where
  task : String
  given : Fields Json
  before : World T
  outcome : Except Failure Json
  after : World T

/-- The state behind some calls: what the last handler that returned gave. -/
def leftBy (state : Json) (calls : List (Call T)) : Json :=
  calls.foldl (fun state call => call.outcome.toOption.getD state) state

theorem leftBy_cons {state next : Json} {call : Call T} (h : call.outcome = .ok next) (calls : List (Call T)) :
    leftBy state (call :: calls) = leftBy next calls := by
  rw [leftBy, List.foldl_cons, h]
  rfl

namespace Engine

variable {e : Engine T} {bound : Fields Json} {c : TaskChain} {id : String} {current : Option String} {task : Task}
  {handler : Handler T} {given : Fields Json} {state next : Json} {w w' : World T} {calls : List (Call T)}
  {ended : Except (String × Failure) Json} {ids : List String}

def taskStarted (bound : Fields Json) (id : String) (t : Task) : LogEvent :=
  ⟨.debug, "task_started", bound ++ [("task_id", .text id), ("resource_ref", .text t.resource)]⟩

/-- The loop of an execution: from the task that it has come to, on a state and in a world, to its end, with the calls
of handlers on the way. -/
inductive Runs (e : Engine T) (bound : Fields Json) (c : TaskChain) : Option String → Json → World T →
    List (Call T) → Except (String × Failure) Json → World T → Prop
  | ended {state : Json} {w : World T} : Runs e bound c none state w [] (.ok state) w
  | undefined {id : String} {state : Json} {w : World T} (htask : c.tasks.get? id = none) :
      Runs e bound c (some id) state w [] (.error (id, .noKey id)) w
  | unhandled {id : String} {task : Task} {state : Json} {w : World T} (htask : c.tasks.get? id = some task)
      (hhandler : e.handlers.get? task.resource = none) :
      Runs e bound c (some id) state w [] (.error (id, .noKey task.resource)) (w.logged [taskStarted bound id task])
  | unresolved {id : String} {task : Task} {handler : Handler T} {state : Json} {w : World T} {f : ReferenceFault}
      (htask : c.tasks.get? id = some task) (hhandler : e.handlers.get? task.resource = some handler)
      (hgiven : Reference.parameters state task.parameters = .error f) :
      Runs e bound c (some id) state w [] (.error (id, .reference f)) (w.logged [taskStarted bound id task])
  | failed {id : String} {task : Task} {handler : Handler T} {state : Json} {given : Fields Json} {w w' : World T}
      {f : Failure} (htask : c.tasks.get? id = some task) (hhandler : e.handlers.get? task.resource = some handler)
      (hgiven : Reference.parameters state task.parameters = .ok given)
      (hcall : runIn (w.logged [taskStarted bound id task]) (handler (.object given)) = (.error f, w')) :
      Runs e bound c (some id) state w [⟨id, given, w.logged [taskStarted bound id task], .error f, w'⟩]
        (.error (id, f)) w'
  | passed {id : String} {task : Task} {handler : Handler T} {state next : Json} {given : Fields Json}
      {w w' w'' : World T} {calls : List (Call T)} {ended : Except (String × Failure) Json}
      (htask : c.tasks.get? id = some task) (hhandler : e.handlers.get? task.resource = some handler)
      (hgiven : Reference.parameters state task.parameters = .ok given)
      (hcall : runIn (w.logged [taskStarted bound id task]) (handler (.object given)) = (.ok next, w'))
      (hrest : Runs e bound c task.next next w' calls ended w'') :
      Runs e bound c (some id) state w (⟨id, given, w.logged [taskStarted bound id task], .ok next, w'⟩ :: calls)
        ended w''

theorem runIn_runTask (hhandler : e.handlers.get? task.resource = some handler) :
    runIn w (e.runTask task state) =
      match Reference.parameters state task.parameters with
      | .error f => (.error (.reference f), w)
      | .ok given => runIn w (handler (.object given)) := by
  simp only [runTask, hhandler]
  cases Reference.parameters state task.parameters <;> rfl

/-- A task that starts, and what follows it when it has an outcome. -/
theorem runIn_runTasks_cons (htask : c.tasks.get? id = some task) :
    runIn w (e.runTasks bound c (id :: ids) state) =
      match runIn (w.logged [taskStarted bound id task]) (e.runTask task state) with
      | (.ok next, w') => runIn w' (e.runTasks bound c ids next)
      | (.error f, w') => (.ok (.error (id, f)), w') := by
  simp only [runTasks, htask]
  rw [runIn_bind_ok (runIn_log ..), ← taskStarted]
  rcases hrun : runIn (w.logged [taskStarted bound id task]) (e.runTask task state) with ⟨f | next, w'⟩
  · rw [runIn_bind_outcome hrun, runIn_pure]
  · rw [runIn_bind_outcome hrun]

theorem runTasks_runs (hids : c.Line e.handlers.keys ids) (bound : Fields Json) (state : Json) (w : World T) :
    ∃ calls ended w', runIn w (e.runTasks bound c ids state) = (.ok ended, w') ∧
      e.Runs bound c ids.head? state w calls ended w' := by
  induction hids generalizing state w with
  | nil => exact ⟨[], .ok state, w, rfl, .ended⟩
  | @cons id task ids htask hnext hresource _ ih =>
    obtain ⟨handler, hhandler⟩ := Fields.exists_get? hresource
    rw [runIn_runTasks_cons htask, runIn_runTask hhandler]
    cases hgiven : Reference.parameters state task.parameters with
    | error f => exact ⟨_, _, _, rfl, .unresolved htask hhandler hgiven⟩
    | ok given =>
      rcases hcall : runIn (w.logged [taskStarted bound id task]) (handler (.object given)) with ⟨f | next, w'⟩
      · simp only [hcall]
        exact ⟨_, _, _, rfl, .failed htask hhandler hgiven hcall⟩
      · obtain ⟨calls, ended, w'', hrun, hruns⟩ := ih next w'
        simp only [hcall]
        exact ⟨_, ended, w'', hrun, .passed htask hhandler hgiven hcall (hnext ▸ hruns)⟩

/-- At a task whose handler is called, a run ends with the call or goes on behind it. -/
theorem Runs.of_call {outcome : Except Failure Json} {w₁ : World T}
    (h : e.Runs bound c (some id) state w calls ended w') (htask : c.tasks.get? id = some task)
    (hhandler : e.handlers.get? task.resource = some handler)
    (hgiven : Reference.parameters state task.parameters = .ok given)
    (hcall : runIn (w.logged [taskStarted bound id task]) (handler (.object given)) = (outcome, w₁)) :
    (∃ f, outcome = .error f ∧ calls = [⟨id, given, w.logged [taskStarted bound id task], outcome, w₁⟩] ∧
      ended = .error (id, f) ∧ w' = w₁) ∨
    ∃ next rest, outcome = .ok next ∧ calls = ⟨id, given, w.logged [taskStarted bound id task], outcome, w₁⟩ :: rest ∧
      e.Runs bound c task.next next w₁ rest ended w' := by
  cases h with
  | undefined htask' => exact nomatch htask.symm.trans htask'
  | unhandled htask' hhandler' =>
    obtain rfl := Option.some.inj (htask.symm.trans htask')
    exact nomatch hhandler.symm.trans hhandler'
  | unresolved htask' _ hgiven' =>
    obtain rfl := Option.some.inj (htask.symm.trans htask')
    exact nomatch hgiven.symm.trans hgiven'
  | failed htask' hhandler' hgiven' hcall' =>
    obtain rfl := Option.some.inj (htask.symm.trans htask')
    obtain rfl := Option.some.inj (hhandler.symm.trans hhandler')
    obtain rfl := Except.ok.inj (hgiven.symm.trans hgiven')
    obtain ⟨rfl, rfl⟩ := Prod.mk.inj (hcall.symm.trans hcall')
    exact .inl ⟨_, rfl, rfl, rfl, rfl⟩
  | passed htask' hhandler' hgiven' hcall' hrest =>
    obtain rfl := Option.some.inj (htask.symm.trans htask')
    obtain rfl := Option.some.inj (hhandler.symm.trans hhandler')
    obtain rfl := Except.ok.inj (hgiven.symm.trans hgiven')
    obtain ⟨rfl, rfl⟩ := Prod.mk.inj (hcall.symm.trans hcall')
    exact .inr ⟨_, _, rfl, rfl, hrest⟩

theorem Runs.made (h : e.Runs bound c current state w calls ended w') : ∀ call ∈ calls,
    ∃ task handler, c.tasks.get? call.task = some task ∧ e.handlers.get? task.resource = some handler ∧
      runIn call.before (handler (.object call.given)) = (call.outcome, call.after) := by
  induction h with
  | ended | undefined | unhandled | unresolved => simp
  | failed htask hhandler _ hcall => exact List.forall_mem_singleton.2 ⟨_, _, htask, hhandler, hcall⟩
  | passed htask hhandler _ hcall _ ih => exact List.forall_mem_cons.2 ⟨⟨_, _, htask, hhandler, hcall⟩, ih⟩

theorem Runs.relates {R : World T → World T → Prop} (hrefl : ∀ w, R w w)
    (htrans : ∀ {w₁ w₂ w₃}, R w₁ w₂ → R w₂ w₃ → R w₁ w₃) (hlogged : ∀ w events, R w (w.logged events))
    (h : e.Runs bound c current state w calls ended w') (hcalls : ∀ call ∈ calls, R call.before call.after) :
    R w w' := by
  induction h with
  | ended | undefined => exact hrefl _
  | unhandled | unresolved => exact hlogged _ _
  | failed => exact htrans (hlogged _ _) (hcalls _ List.mem_cons_self)
  | passed _ _ _ _ _ ih =>
    obtain ⟨hcall, hrest⟩ := List.forall_mem_cons.1 hcalls
    exact htrans (htrans (hlogged _ _) hcall) (ih hrest)

/-- How a run through tasks ends: behind the last task, at one whose parameters refer to what is not there, or at one
whose handler failed. -/
inductive Ended (c : TaskChain) (ids : List String) (state : Json) :
    List (Call T) → Except (String × Failure) Json → Prop
  | completed {calls : List (Call T)} (htasks : calls.map Call.task = ids)
      (hpassed : ∀ call ∈ calls, call.outcome.isOk) : Ended c ids state calls (.ok (leftBy state calls))
  | unresolved (calls : List (Call T)) {id : String} {task : Task} {f : ReferenceFault}
      (htasks : calls.map Call.task ++ [id] <+: ids) (hpassed : ∀ call ∈ calls, call.outcome.isOk)
      (htask : c.tasks.get? id = some task)
      (hgiven : Reference.parameters (leftBy state calls) task.parameters = .error f) :
      Ended c ids state calls (.error (id, .reference f))
  | failed (calls : List (Call T)) {call : Call T} {f : Failure} (htasks : (calls ++ [call]).map Call.task <+: ids)
      (hpassed : ∀ call ∈ calls, call.outcome.isOk) (hfailed : call.outcome = .error f) :
      Ended c ids state (calls ++ [call]) (.error (call.task, f))

theorem Ended.cons (call : Call T) (hcall : call.outcome = .ok next) (h : Ended c ids next calls ended) :
    Ended c (call.task :: ids) state (call :: calls) ended := by
  have hok : call.outcome.isOk := Attempt.isOk_iff.2 ⟨next, hcall⟩
  cases h with
  | completed htasks hpassed =>
    rw [← leftBy_cons hcall]
    exact .completed (congrArg _ htasks) (List.forall_mem_cons.2 ⟨hok, hpassed⟩)
  | unresolved _ htasks hpassed htask hgiven =>
    exact .unresolved _ (List.cons_prefix_cons.2 ⟨rfl, htasks⟩) (List.forall_mem_cons.2 ⟨hok, hpassed⟩) htask
      (by rw [leftBy_cons hcall, hgiven])
  | failed calls htasks hpassed hfailed =>
    exact .failed (call :: calls) (List.cons_prefix_cons.2 ⟨rfl, htasks⟩)
      (List.forall_mem_cons.2 ⟨hok, hpassed⟩) hfailed

theorem Runs.ends (h : e.Runs bound c current state w calls ended w') (hcurrent : ids.head? = current)
    (hids : c.Line e.handlers.keys ids) : Ended c ids state calls ended := by
  -- along the run: the task that the loop has come to is the next one of the line
  induction h generalizing ids with
  | ended =>
    rw [List.head?_eq_none_iff.1 hcurrent]
    exact .completed rfl (by simp)
  | undefined htask =>
    obtain ⟨_, _, -, htask', -⟩ := hids.of_head hcurrent
    exact nomatch htask.symm.trans htask'
  | unhandled htask hhandler =>
    obtain ⟨_, _, -, htask', -, hresource, -⟩ := hids.of_head hcurrent
    obtain rfl := Option.some.inj (htask.symm.trans htask')
    exact absurd hresource (Fields.get?_eq_none.1 hhandler)
  | unresolved htask _ hgiven =>
    obtain ⟨_, rest, rfl, -⟩ := hids.of_head hcurrent
    exact .unresolved [] (List.cons_prefix_cons.2 ⟨rfl, List.nil_prefix⟩) (by simp) htask hgiven
  | failed =>
    obtain ⟨_, rest, rfl, -⟩ := hids.of_head hcurrent
    exact .failed [] (List.cons_prefix_cons.2 ⟨rfl, List.nil_prefix⟩) (by simp) rfl
  | passed htask _ _ _ _ ih =>
    obtain ⟨_, rest, rfl, htask', hnext, -, hrest⟩ := hids.of_head hcurrent
    obtain rfl := Option.some.inj (htask.symm.trans htask')
    exact .cons ⟨_, _, _, .ok _, _⟩ rfl (ih hnext.symm hrest)

def Completed (c : TaskChain) (calls : List (Call T)) : Prop :=
  calls.map Call.task = c.ordered ∧ ∀ call ∈ calls, call.outcome.isOk

/-- A task stopped an execution: its parameters did not resolve behind the calls before it, or the last call was that of
its handler, and failed. -/
def StoppedBy (c : TaskChain) (input : Json) (calls : List (Call T)) (id : String) : Prop :=
  (calls.map Call.task ++ [id] <+: c.ordered ∧ (∀ call ∈ calls, call.outcome.isOk) ∧
    ∃ task f, c.tasks.get? id = some task ∧ Reference.parameters (leftBy input calls) task.parameters = .error f) ∨
  ∃ call f, calls.getLast? = some call ∧ call.task = id ∧ call.outcome = .error f

structure Reports (c : TaskChain) (input : Json) (calls : List (Call T)) (x : Execution) : Prop where
  inOrder : calls.map Call.task <+: c.ordered
  once : (calls.map Call.task).Nodup
  bounded : calls.length ≤ c.tasks.length
  passed : ∀ call ∈ calls.dropLast, call.outcome.isOk
  succeeded : Completed c calls → x.status = .succeeded ∧ x.failedTask = none ∧
    ∃ last output, calls.getLast? = some last ∧ last.outcome = .ok output ∧ x.output = some output
  failed : ¬Completed c calls → x.status = .failed ∧ x.output = none ∧
    ∃ id, x.failedTask = some id ∧ StoppedBy c input calls id

theorem Ended.inOrder (h : Ended c ids state calls ended) : calls.map Call.task <+: ids := by
  cases h with
  | completed htasks => exact htasks ▸ List.prefix_refl _
  | unresolved _ htasks => exact (List.prefix_append _ _).trans htasks
  | failed _ htasks => exact htasks

theorem leftBy_of_getLast? {call : Call T} (hlast : calls.getLast? = some call) (h : call.outcome = .ok next) :
    leftBy state calls = next := by
  obtain ⟨before, rfl⟩ := List.getLast?_eq_some_iff.1 hlast
  rw [leftBy, List.foldl_append, List.foldl_cons, List.foldl_nil, h]
  rfl

theorem Ended.reports (hlinear : c.Linear e.handlers.keys) (h : Ended c c.ordered state calls ended)
    (execution resource : String) : Reports c state calls (record execution resource ended) := by
  have hbounded : calls.length ≤ c.tasks.length := by
    have hlength := h.inOrder.length_le
    rwa [List.length_map, hlinear.perm.length_eq, Fields.keys, List.length_map] at hlength
  refine ⟨h.inOrder, hlinear.nodup.sublist h.inOrder.sublist, hbounded, ?_, ?_, ?_⟩
  · cases h with
    | completed _ hpassed | unresolved _ _ hpassed =>
      exact fun call hcall => hpassed call (List.dropLast_subset _ hcall)
    | failed _ _ hpassed => simpa using hpassed
  · rintro ⟨hall, hok⟩
    cases h with
    | completed =>
      obtain ⟨last, hlast⟩ : ∃ last, calls.getLast? = some last := by
        refine Option.ne_none_iff_exists'.1 fun hnone => ?_
        have hstart := hlinear.start
        rw [← hall, List.getLast?_eq_none_iff.1 hnone] at hstart
        cases hstart
      obtain ⟨output, houtput⟩ := Attempt.isOk_iff.1 (hok last (List.mem_of_getLast? hlast))
      exact ⟨rfl, rfl, last, output, hlast, houtput, congrArg some (leftBy_of_getLast? hlast houtput)⟩
    | unresolved _ htasks =>
      -- the task that stopped the run stands behind all that were called
      have hlength := htasks.length_le
      rw [hall, List.length_append, List.length_singleton] at hlength
      omega
    | @failed _ call _ _ _ hfailed =>
      obtain ⟨output, houtput⟩ := Attempt.isOk_iff.1 (hok call (by simp))
      rw [hfailed] at houtput
      cases houtput
  · intro hnot
    cases h with
    | completed htasks hpassed => exact absurd ⟨htasks, hpassed⟩ hnot
    | unresolved _ htasks hpassed htask hgiven =>
      exact ⟨rfl, rfl, _, rfl, .inl ⟨htasks, hpassed, _, _, htask, hgiven⟩⟩
    | failed _ _ _ hfailed => exact ⟨rfl, rfl, _, rfl, .inr ⟨_, _, by simp, rfl, hfailed⟩⟩

end Engine
end HuntDraw
