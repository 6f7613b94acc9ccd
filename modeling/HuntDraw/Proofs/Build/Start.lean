import HuntDraw.Build.Stages
import HuntDraw.Proofs.Build.Instances

/-! What waiting and triggering do. Waiting spends time until the resource of the instance is active; triggering starts
an execution and notes it down in the job. -/

namespace HuntDraw

open HuntDraw.Action Engine Attempt
open Waiter (here)

variable {T : Type}

/-- From one world to the next, time passes and is told of in the log. -/
def World.Waited (w w' : World T) : Prop :=
  ∃ clock events, (∀ e ∈ events, LogEvent.Quiet e) ∧ w' = { w with clock, journal := w.journal ++ events }

instance : IsPreorder (World T) World.Waited where
  refl w := ⟨w.clock, [], by simp, by rw [List.append_nil]⟩
  trans := by
    rintro w _ _ ⟨clock, events, hquiet, rfl⟩ ⟨clock', events', hquiet', rfl⟩
    exact ⟨clock', events ++ events', List.forall_mem_append.2 ⟨hquiet, hquiet'⟩, by rw [List.append_assoc]⟩

theorem World.Waited.clock (w : World T) (clock : Clock T) : w.Waited { w with clock } :=
  ⟨clock, [], by simp, by rw [List.append_nil]⟩

theorem World.Waited.upholds {w w' : World T} (h : w.Waited w') : w.Upholds w' := by
  obtain ⟨clock, events, hquiet, rfl⟩ := h
  exact ⟨rfl, fun j hj => ⟨j, hj, rfl⟩, fun _ => rfl, rfl, created_quiet hquiet w⟩

namespace Builder

variable [Timeline T] {b : Builder T} {c : BuildContext} {w w' : World T}

/-- What can come of waiting: the instance is ready, or nothing but time was spent. -/
inductive Awaits (c : BuildContext) (w : World T) : Except Failure Unit → World T → Prop
  | failed {f : Failure} {w' : World T} (hwaited : w.Waited w') : Awaits c w (.error f) w'
  | ready {i : Instance} {handle : String} {w' : World T} (hfound : w.store.getInstance c.instanceId = .ok i)
      (hhandle : i.executionHandle = some handle) (hwaited : w.Waited w') :
      Awaits c w (.ok ()) (w'.amended c.instanceId { status := some .ready })

theorem isActive_waited (handle : String) : (here.isActive handle : Action T Bool).Along World.Waited := fun w => by
  rw [Waiter.isActive, here, runIn_bind, runIn_describe]
  cases w.resources.get? handle <;> exact refl w

theorem pause_waited (s : BuildSettings) (c : BuildContext) (handle : String) (number : Nat) :
    (here.pause s c handle number : Action T Unit).Along World.Waited := by
  have hlog : (Action.log .debug "execution_resource_not_ready"
      ([("resource_handle", .text handle), ("attempt", .nat number)] ++ c.fields) : Action T Unit).Along World.Waited :=
    .log fun w => ⟨w.clock, _, List.forall_mem_singleton.2
      (by decide : "execution_resource_not_ready" ≠ "resource_created"), rfl⟩
  refine .bind hlog fun _ => .bind (.modify fun w => .clock w _) fun _ => .bind .get fun w => ?_
  cases w.clock.advance (Timeline.ofNumber s.poll) with
  | none => exact .throw _
  | some clock => exact .modify fun w => .clock w clock

theorem awaitBody_active {i : Instance} {handle : String} {count : Int} {r : Resource T}
    (hfound : w.store.getInstance c.instanceId = .ok i) (hhandle : i.executionHandle = some handle)
    (hcount : attempts (T := T) b.settings.build = .ok count) (hr : w.resources.get? handle = some r)
    (hactive : Timeline.le r.activeAt w.clock.now) :
    runIn w (b.awaitBody c) = (.ok (), w.amended c.instanceId { status := some .ready }) := by
  have hcheck : runIn w (here.isActive handle) = (.ok true, w) := by
    rw [Waiter.isActive, here, runIn_bind, runIn_describe, hr, Option.elim_some, if_pos hactive]
    rfl
  have hpoll : ∀ more, runIn w (poll (here.isActive handle) (here.pause b.settings.build c handle) 1 more) =
      (.ok true, w)
    | 0 => hcheck
    | more + 1 => runIn_bind_ok hcheck
  rw [awaitBody, Waiter.wait, runIn_bind, runIn_ask, hfound]
  simp only [Except.mapError, hhandle]
  rw [runIn_bind, runIn_lift, hcount]
  simp only [Except.mapError]
  rw [runIn_bind_ok (hpoll _)]
  exact runIn_updateInstance hfound _

theorem awaitBody_awaits (b : Builder T) (c : BuildContext) (w : World T) :
    ∃ outcome w', runIn w (b.awaitBody c) = (outcome, w') ∧ Awaits c w outcome w' := by
  rw [awaitBody, Waiter.wait, runIn_bind, runIn_ask]
  cases hfound : w.store.getInstance c.instanceId with
  | error f => exact ⟨_, _, rfl, .failed (refl w)⟩
  | ok i =>
    simp only [Except.mapError]
    cases hhandle : i.executionHandle with
    | none => exact ⟨_, _, rfl, .failed (refl w)⟩
    | some handle =>
      simp only
      rw [runIn_bind, runIn_lift]
      cases attempts (T := T) b.settings.build with
      | error f => exact ⟨_, _, rfl, .failed (refl w)⟩
      | ok count =>
        have hpoll := Action.Along.poll (isActive_waited (T := T) handle) (pause_waited b.settings.build c handle) 1
          (count - 1).toNat w
        simp only [Except.mapError]
        rw [runIn_bind]
        rcases hrun : runIn w (poll (here.isActive handle) (here.pause b.settings.build c handle) 1 (count - 1).toNat)
          with ⟨f | active, w'⟩ <;> rw [hrun] at hpoll
        · exact ⟨_, _, rfl, .failed hpoll⟩
        · cases active with
          | false => exact ⟨_, _, rfl, .failed hpoll⟩
          | true =>
            have hfound' : w'.store.getInstance c.instanceId = .ok i := by
              obtain ⟨_, _, -, rfl⟩ := hpoll
              exact hfound
            exact ⟨_, _, runIn_updateInstance hfound' _, .ready hfound hhandle hpoll⟩

end Builder

def World.assigned (w : World T) (job : String) (change : Store.JobChange) : World T :=
  { w with store := { w.store with jobs := w.store.jobs.map fun j => if j.id = job then change.apply j else j } }

theorem runIn_updateJob {w : World T} {job : String} {j : Job} (h : w.store.getJob job = .ok j)
    (change : Store.JobChange) : runIn w (alter fun s => s.updateJob job change) = (.ok (), w.assigned job change) :=
  runIn_alter (Store.updateJob_of_getJob h change)

theorem World.Upholds.assigned (w : World T) (job : String) (change : Store.JobChange) :
    w.Upholds (w.assigned job change) := by
  refine .of_store rfl fun j hj => ⟨_, List.mem_map_of_mem hj, ?_⟩
  split_ifs <;> rfl

theorem updateJob_upholds (job : String) (change : Store.JobChange) :
    (Action.alter fun s => s.updateJob job change : Action T Unit).Along World.Upholds := by
  refine .alter fun w s hs => ?_
  obtain ⟨rows, hrows, rfl⟩ := map_eq_ok.1 hs
  obtain ⟨-, -, hpure⟩ := bind_eq_ok.1 hrows
  obtain rfl := pure_eq_ok.1 hpure
  exact .assigned w job change

namespace Builder

variable [Timeline T] {b : Builder T} {c : BuildContext} {w w' : World T}

/-- What can come of triggering: nothing without a job, an execution that is noted down in the job, or a failure. Only
where the job is gone after the execution has anything changed by then. -/
inductive Triggers (b : Builder T) (c : BuildContext) (w : World T) : Except Failure (Option String) → World T → Prop
  | skipped (hjob : c.job = none) :
      Triggers b c w (.ok none) (w.logged [⟨.info, "trigger_skipped_no_job", c.fields⟩])
  | refused {job : String} {f : Failure} (hjob : c.job = some job) : Triggers b c w (.error f) w
  | unrecorded {job resource handle : String} {f : Failure} {w' : World T} (hjob : c.job = some job)
      (hstarted : runIn w (b.engine.start resource (startState c job)) = (.ok handle, w'))
      (hgone : ∀ j, w'.store.getJob job ≠ .ok j) : Triggers b c w (.error f) w'
  | started {job resource handle : String} {i : Instance} {j : Job} {w' : World T} (hjob : c.job = some job)
      (hfound : w.store.getInstance c.instanceId = .ok i) (hready : i.status = .ready)
      (hhandle : i.executionHandle = some resource)
      (hstarted : runIn w (b.engine.start resource (startState c job)) = (.ok handle, w'))
      (hpresent : w'.store.getJob job = .ok j) :
      Triggers b c w (.ok (some handle)) (w'.assigned job { executionHandle := some handle })

theorem startJob_active (hhandlers : b.engine.Upholding) {job resource : String} {r : Resource T}
    (hr : w.resources.get? resource = some r) (hactive : Timeline.le r.activeAt w.clock.now)
    (hpresent : ∃ j ∈ w.store.jobs, j.id = job) :
    ∃ handle w', runIn w (b.startJob c job resource) = (.ok handle, w') := by
  obtain ⟨ended, w', hrun⟩ := runTasks_ok b.engine (executionBound (executionHandle resource (w.ids + 1))) r.chain
    r.chain.ordered (startState c job)
    (w.numbered.logged [executionStarted (executionHandle resource (w.ids + 1)) r.chain])
  have hstart := runIn_start_active hr hactive hrun
  have hupholds := hhandlers.start resource (startState c job) w
  rw [hstart] at hupholds
  obtain ⟨j, hj, rfl⟩ := hpresent
  obtain ⟨j', hj'⟩ := Store.getJob_of_mem (hupholds.jobs j hj)
  exact ⟨_, _, (runIn_bind_ok hstart).trans (runIn_bind_ok (runIn_updateJob hj' _))⟩

theorem runIn_triggerBody {i : Instance} {job resource : String} (hjob : c.job = some job)
    (hfound : w.store.getInstance c.instanceId = .ok i) (hready : i.status = .ready)
    (hhandle : i.executionHandle = some resource) : runIn w (b.triggerBody c) =
      match runIn w (b.startJob c job resource) with
      | (.ok handle, w') => (.ok (some handle), w')
      | (.error f, w') => (.error (.trigger s!"Failed to start execution for job {job}" (some f)), w') := by
  rw [triggerBody, hjob]
  simp only
  rw [runIn_bind, runIn_ask, hfound]
  simp only [Except.mapError, hready, hhandle]
  rcases hrun : runIn w (b.startJob c job resource) with ⟨f | handle, w'⟩ <;> exact runIn_bind_outcome hrun

theorem triggerBody_triggers (b : Builder T) (c : BuildContext) (w : World T) :
    ∃ outcome w', runIn w (b.triggerBody c) = (outcome, w') ∧ b.Triggers c w outcome w' := by
  cases hjob : c.job with
  | none =>
    rw [triggerBody, hjob]
    exact ⟨_, _, rfl, .skipped hjob⟩
  | some job =>
    by_cases hstartable : ∃ i resource, w.store.getInstance c.instanceId = .ok i ∧ i.status = .ready ∧
        i.executionHandle = some resource
    · obtain ⟨i, resource, hfound, hready, hhandle⟩ := hstartable
      rw [runIn_triggerBody hjob hfound hready hhandle]
      rcases hstart : runIn w (b.engine.start resource (startState c job)) with ⟨f | handle, w'⟩
      · obtain rfl := start_error hstart
        have hjobRun : runIn w' (b.startJob c job resource) = (.error f, w') := runIn_bind_error hstart
        rw [hjobRun]
        exact ⟨_, _, rfl, .refused hjob⟩
      · -- the execution has ended; what remains is to note it down in the job
        cases hpresent : w'.store.getJob job with
        | ok j =>
          have hjobRun : runIn w (b.startJob c job resource) = (.ok handle, _) :=
            (runIn_bind_ok hstart).trans (runIn_bind_ok (runIn_updateJob hpresent _))
          rw [hjobRun]
          exact ⟨_, _, rfl, .started hjob hfound hready hhandle hstart hpresent⟩
        | error f =>
          have hrefused : w'.store.updateJob job { executionHandle := some handle } = .error f := by
            rw [Store.getJob] at hpresent
            rw [Store.updateJob, Store.change, hpresent]
            rfl
          have hjobRun : runIn w (b.startJob c job resource) = (.error (.store f), w') :=
            (runIn_bind_ok hstart).trans (runIn_bind_error (runIn_alter_error hrefused))
          rw [hjobRun]
          exact ⟨_, _, rfl, .unrecorded hjob hstart fun j hj => by simp [hpresent] at hj⟩
    · rw [triggerBody, hjob]
      simp only
      rw [runIn_bind, runIn_ask]
      cases hfound : w.store.getInstance c.instanceId with
      | error f => exact ⟨_, _, rfl, .refused hjob⟩
      | ok i =>
        simp only [Except.mapError]
        split
        · rename_i resource hready hhandle
          exact absurd ⟨i, resource, hfound, hready, hhandle⟩ hstartable
        · exact ⟨_, _, rfl, .refused hjob⟩

theorem triggerBody_upholds (hhandlers : b.engine.Upholding) (c : BuildContext) :
    (b.triggerBody c).Along World.Upholds := by
  intro w
  have hstart : ∀ {resource input handle w'}, runIn w (b.engine.start resource input) = (.ok handle, w') →
      w.Upholds w' := by
    intro resource input handle w' hrun
    have hupholds := hhandlers.start resource input w
    rwa [hrun] at hupholds
  obtain ⟨outcome, w', hrun, htriggers⟩ := triggerBody_triggers b c w
  rw [hrun]
  cases htriggers with
  | skipped =>
    exact .logged_event (by decide : "trigger_skipped_no_job" ≠ "resource_created") w
  | refused => exact refl w
  | unrecorded _ hstarted => exact hstart hstarted
  | started _ _ _ _ hstarted => exact trans_of World.Upholds (hstart hstarted) (.assigned _ _ _)

end Builder
end HuntDraw
