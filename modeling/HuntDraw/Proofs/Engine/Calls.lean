import HuntDraw.Proofs.Engine.Ids
import HuntDraw.Proofs.Engine.Run

/-! What calls to an engine do. A resource is stored or nothing changes, and an execution of an active resource goes
through the loop and leaves a record. -/

namespace HuntDraw

open HuntDraw.Action

variable {T : Type}

namespace World

def holding (w : World T) (handle : String) (r : Resource T) : World T :=
  { w with resources := w.resources.put handle r }

def recorded (w : World T) (x : Execution) : World T := { w with executions := w.executions.put x.handle x }

end World

def LogEvent.created? (e : LogEvent) : Option String :=
  if e.name = "resource_created" then
    match e.fields.get? "resource_handle" with
    | some (.text handle) => some handle
    | _ => none
  else none

abbrev LogEvent.Quiet (e : LogEvent) : Prop := e.name ≠ "resource_created"

namespace World

/-- The handles of the resources that were made, one for each time that the engine made one. -/
def created (w : World T) : List String := w.journal.filterMap LogEvent.created?

theorem created_logged (w : World T) (events : List LogEvent) :
    (w.logged events).created = w.created ++ events.filterMap LogEvent.created? :=
  List.filterMap_append

theorem created_quiet {events : List LogEvent} (h : ∀ e ∈ events, e.Quiet) (w : World T) :
    (w.logged events).created = w.created := by
  have hnone : events.filterMap LogEvent.created? = [] := List.filterMap_eq_nil_iff.2 fun e he => if_neg (h e he)
  rw [created_logged, hnone, List.append_nil]

end World

namespace Engine

variable [Timeline T] {e : Engine T} {w : World T} {name handle : String} {definition input : Json} {r : Resource T}

def resourceAt (e : Engine T) (w : World T) (name : String) (c : TaskChain) : Resource T :=
  ⟨name, c, Timeline.add w.clock.now e.delay⟩

def resourceStored (event handle : String) (c : TaskChain) : LogEvent :=
  ⟨.info, event, [("resource_handle", .text handle), ("tasks", .nat c.tasks.length)]⟩

theorem runIn_create (e : Engine T) (w : World T) (name : String) (definition : Json) :
    runIn w (e.create name definition) =
      match e.accept definition with
      | .error f => (.error f, w)
      | .ok c =>
        if w.resources.has (handleOf name) then (.error (.engine (.resourceExists name)), w)
        else (.ok (handleOf name), (w.holding (handleOf name) (e.resourceAt w name c)).logged
          [resourceStored "resource_created" (handleOf name) c]) := by
  rw [create, runIn_bind, runIn_lift]
  cases e.accept definition with
  | error f => rfl
  | ok c =>
    simp only [Except.mapError]
    rw [runIn_bind_ok runIn_get]
    by_cases hhas : w.resources.has (handleOf name)
    · rw [if_pos hhas, if_pos hhas]
      rfl
    · rw [if_neg hhas, if_neg hhas]
      rfl

theorem create_cases (e : Engine T) (w : World T) (name : String) (definition : Json) :
    (∃ f, runIn w (e.create name definition) = (.error f, w)) ∨
    ∃ c, e.accept definition = .ok c ∧ runIn w (e.create name definition) =
      (.ok (handleOf name), (w.holding (handleOf name) (e.resourceAt w name c)).logged
        [resourceStored "resource_created" (handleOf name) c]) := by
  rw [runIn_create]
  cases e.accept definition with
  | error f => exact .inl ⟨f, rfl⟩
  | ok c =>
    by_cases hhas : w.resources.has (handleOf name)
    · exact .inl ⟨_, if_pos hhas⟩
    · exact .inr ⟨c, rfl, if_neg hhas⟩

theorem runIn_update (e : Engine T) (w : World T) (handle : String) (definition : Json) :
    runIn w (e.update handle definition) =
      match e.accept definition, nameOf? handle with
      | .error f, _ => (.error f, w)
      | .ok _, none => (.error (.engine (.unknownResource handle)), w)
      | .ok c, some name => (.ok (), (w.holding handle (e.resourceAt w name c)).logged
          [resourceStored "resource_updated" handle c]) := by
  rw [update, runIn_bind, runIn_lift]
  cases e.accept definition with
  | error f => rfl
  | ok c => cases nameOf? handle <;> rfl

/-- A resource is replaced as it was asked for, or nothing changes. -/
theorem update_cases (e : Engine T) (w : World T) (handle : String) (definition : Json) :
    (∃ f, runIn w (e.update handle definition) = (.error f, w)) ∨
    ∃ c name, e.accept definition = .ok c ∧ nameOf? handle = some name ∧ runIn w (e.update handle definition) =
      (.ok (), (w.holding handle (e.resourceAt w name c)).logged [resourceStored "resource_updated" handle c]) := by
  rw [runIn_update]
  cases e.accept definition with
  | error f => exact .inl ⟨f, rfl⟩
  | ok c =>
    cases nameOf? handle with
    | none => exact .inl ⟨_, rfl⟩
    | some name => exact .inr ⟨c, name, rfl, rfl, rfl⟩

omit [Timeline T] in
theorem runIn_resource (handle : String) : runIn w (resource handle) =
    ((w.resources.get? handle).elim (.error (.engine (.unknownResource handle))) .ok, w) := by
  rw [resource, runIn_bind_ok runIn_get]
  cases w.resources.get? handle <;> rfl

theorem runIn_describe (handle : String) : runIn w (describe handle) =
    ((w.resources.get? handle).elim (.error (.engine (.unknownResource handle)))
      fun r => .ok (if Timeline.le r.activeAt w.clock.now then .active else .creating), w) := by
  rw [describe, runIn_bind, runIn_resource]
  cases w.resources.get? handle <;> rfl

omit [Timeline T] in
theorem runIn_definitionOf (hr : w.resources.get? handle = some r) :
    runIn w (definitionOf handle) = (.ok r.chain, w) := by
  rw [definitionOf, runIn_bind, runIn_resource, hr]
  rfl

def executionBound (execution : String) : Fields Json := [("execution_handle", .text execution)]

def executionStarted (execution : String) (c : TaskChain) : LogEvent :=
  ⟨.info, "execution_started", executionBound execution ++ [("tasks", .nat c.tasks.length)]⟩

def executionEnded (execution : String) : Except (String × Failure) Json → LogEvent
  | .ok _ => ⟨.info, "execution_succeeded", executionBound execution⟩
  | .error (task, f) => ⟨.warning, "execution_failed", executionBound execution ++
      [("task_id", .text task), ("error", .text f.shown), ("error_type", .text f.kind)]⟩

/-- An execution that was started on an active resource, with the calls that it made and up to the world at the end of
its loop. -/
structure Started (e : Engine T) (w : World T) (handle : String) (r : Resource T) (input : Json)
    (calls : List (Call T)) (ended : Except (String × Failure) Json) (w' : World T) : Prop where
  stored : w.resources.get? handle = some r
  active : Timeline.le r.activeAt w.clock.now
  runs : e.Runs (executionBound (executionHandle handle (w.ids + 1))) r.chain (some r.chain.start) input
    (w.numbered.logged [executionStarted (executionHandle handle (w.ids + 1)) r.chain]) calls ended w'

def afterwards (w w' : World T) (handle : String) (ended : Except (String × Failure) Json) : World T :=
  (w'.logged [executionEnded (executionHandle handle (w.ids + 1)) ended]).recorded
    (record (executionHandle handle (w.ids + 1)) handle ended)

omit [Timeline T] in
theorem record_handle (execution handle : String) (ended : Except (String × Failure) Json) :
    (record execution handle ended).handle = execution := by
  cases ended <;> rfl

omit [Timeline T] in
theorem afterwards_record (w w' : World T) (handle : String) (ended : Except (String × Failure) Json) :
    (afterwards w w' handle ended).executions.get? (executionHandle handle (w.ids + 1)) =
      some (record (executionHandle handle (w.ids + 1)) handle ended) := by
  rw [afterwards, World.recorded, record_handle]
  exact Fields.get?_put_self _ _

/-- An execution of an active resource consists in the run of its tasks. -/
theorem runIn_start_active {ended : Except (String × Failure) Json} {w' : World T}
    (hr : w.resources.get? handle = some r) (hactive : Timeline.le r.activeAt w.clock.now)
    (hrun : runIn (w.numbered.logged [executionStarted (executionHandle handle (w.ids + 1)) r.chain])
      (e.runTasks (executionBound (executionHandle handle (w.ids + 1))) r.chain r.chain.ordered input) =
        (.ok ended, w')) :
    runIn w (e.start handle input) = (.ok (executionHandle handle (w.ids + 1)), afterwards w w' handle ended) := by
  have hdescribe : runIn w (describe handle) = (.ok .active, w) := by
    rw [runIn_describe, hr, Option.elim_some, if_pos hactive]
  rw [start, runIn_bind_ok hdescribe, if_neg (by simp)]
  refine (runIn_bind_ok (runIn_definitionOf hr)).trans ?_
  rw [runIn_bind_ok runIn_newId, runIn_bind_ok (runIn_log ..)]
  refine (runIn_bind_ok hrun).trans ?_
  rcases ended with ⟨task, f⟩ | output <;> rfl

/-- An execution of an active resource whose tasks are in a line runs through its loop, and its record is kept. -/
theorem runIn_start (hr : w.resources.get? handle = some r) (hactive : Timeline.le r.activeAt w.clock.now)
    (hstart : r.chain.ordered.head? = some r.chain.start) (hline : r.chain.Line e.handlers.keys r.chain.ordered)
    (input : Json) : ∃ calls ended w',
      e.Started w handle r input calls ended w' ∧
        runIn w (e.start handle input) = (.ok (executionHandle handle (w.ids + 1)), afterwards w w' handle ended) := by
  obtain ⟨calls, ended, w', hrun, hruns⟩ :=
    runTasks_runs hline (executionBound (executionHandle handle (w.ids + 1))) input
      (w.numbered.logged [executionStarted (executionHandle handle (w.ids + 1)) r.chain])
  rw [hstart] at hruns
  exact ⟨calls, ended, w', ⟨hr, hactive, hruns⟩, runIn_start_active hr hactive hrun⟩

theorem runIn_start_refused (h : ∀ r, w.resources.get? handle = some r → ¬Timeline.le r.activeAt w.clock.now)
    (input : Json) : (runIn w (e.start handle input)).2 = w := by
  rw [start, runIn_bind, runIn_describe]
  cases hr : w.resources.get? handle with
  | none => rfl
  | some r =>
    simp only [Option.elim_some, if_neg (h r hr)]
    rfl

end Engine
end HuntDraw
