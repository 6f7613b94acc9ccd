import HuntDraw.Proofs.Build.Register
import HuntDraw.Proofs.Build.Start

/-! What a stage does around its body. It logs where it starts and how it ends, and records a failure. -/

namespace HuntDraw

open HuntDraw.Action Engine Attempt

variable {T : Type}

namespace Builder

variable {b : Builder T} {c : BuildContext} {w w' : World T} {s : BuildStage} {α : Type} {body : Action T α} {a : α}
  {f : Failure}

def stageBound (s : BuildStage) (c : BuildContext) : Fields Json := ("stage", .text s.text) :: c.fields

def stageStarted (s : BuildStage) (c : BuildContext) : LogEvent := ⟨.info, "build_stage_started", stageBound s c⟩

def stageCompleted (s : BuildStage) (c : BuildContext) : LogEvent := ⟨.info, "build_stage_completed", stageBound s c⟩

def stageFailed (s : BuildStage) (c : BuildContext) (f : Failure) : LogEvent :=
  ⟨.error, "build_stage_failed", stageBound s c ++ [("error", .text f.shown), ("error_type", .text f.kind)]⟩

theorem stageStarted_quiet (s : BuildStage) (c : BuildContext) : (stageStarted s c).Quiet :=
  (by decide : "build_stage_started" ≠ "resource_created")

theorem stageCompleted_quiet (s : BuildStage) (c : BuildContext) : (stageCompleted s c).Quiet :=
  (by decide : "build_stage_completed" ≠ "resource_created")

def stageEvents (s : BuildStage) (c : BuildContext) (events : List LogEvent) : List LogEvent :=
  [stageStarted s c] ++ events ++ [stageCompleted s c]

theorem stageEvents_quiet {events : List LogEvent} (h : ∀ e ∈ events, e.Quiet) :
    ∀ e ∈ stageEvents s c events, e.Quiet :=
  List.forall_mem_append.2 ⟨List.forall_mem_cons.2 ⟨stageStarted_quiet s c, h⟩,
    List.forall_mem_singleton.2 (stageCompleted_quiet s c)⟩

theorem runIn_stage_ok (h : runIn (w.logged [stageStarted s c]) body = (.ok a, w')) :
    runIn w (stage s c body) = (.ok a, w'.logged [stageCompleted s c]) := by
  rw [stage, runIn_bind_ok (runIn_log ..)]
  exact runIn_bind_outcome h

theorem runIn_stage_error (h : runIn (w.logged [stageStarted s c]) body = (.error f, w')) :
    runIn w (stage s c body) = runIn (w'.logged [stageFailed s c f]) (recordFailure s c f >>= fun _ => throw f) := by
  rw [stage, runIn_bind_ok (runIn_log ..)]
  exact runIn_bind_outcome h

theorem stage_eq_ok (h : runIn w (stage s c body) = (.ok a, w')) :
    ∃ w₁, runIn (w.logged [stageStarted s c]) body = (.ok a, w₁) ∧ w' = w₁.logged [stageCompleted s c] := by
  rcases hbody : runIn (w.logged [stageStarted s c]) body with ⟨f | a', w₁⟩
  · rw [runIn_stage_error hbody, runIn_bind] at h
    rcases hrecord : runIn (w₁.logged [stageFailed s c f]) (recordFailure s c f) with ⟨e | _, w₂⟩ <;> rw [hrecord] at h
    · exact nomatch (Prod.mk.inj h).1
    · have hthrown : ((.error f, w₂) : Except Failure α × World T) = (.ok a, w') := h
      exact nomatch (Prod.mk.inj hthrown).1
  · rw [runIn_stage_ok hbody] at h
    obtain ⟨ha, rfl⟩ := Prod.mk.inj h
    exact ⟨w₁, by rw [Except.ok.inj ha], rfl⟩

def recordInJob (c : BuildContext) (f : Failure) : Action T Unit :=
  match c.job with
  | none => pure ()
  | some job => do
    match f.report? with
    | none => pure ()
    | some (key, params) => do
      let id ← Action.newId
      Action.alter fun s => s.appendLog { id, jobId := job, level := .error, key, params }
    Action.alter fun s => s.updateJob job { failedBefore := some true }

theorem recordFailure_eq (s : BuildStage) (c : BuildContext) (f : Failure) :
    (recordFailure s c f : Action T Unit) = (if s.failsBuild then
      Action.alter fun s => s.updateInstance c.instanceId { status := some .buildFailed } else pure ()) >>= fun _ =>
        recordInJob c f := by
  rw [recordFailure, recordInJob]
  cases s.failsBuild <;> cases c.job <;> rfl

theorem recordInJob_upholds (c : BuildContext) (f : Failure) :
    (recordInJob c f : Action T Unit).Along World.Upholds := by
  rw [recordInJob]
  split
  · exact .pure _
  · rename_i job hjob
    have hmarked : (Action.alter fun s => s.updateJob job { failedBefore := some true } : Action T Unit).Along
        World.Upholds := updateJob_upholds _ _
    split
    · exact hmarked
    · refine .bind (.newId .numbered) fun _ => .bind (alter_upholds fun _ _ hs => ?_) fun _ => hmarked
      rw [Store.appendLog_change hs]
      exact ⟨rfl, rfl⟩

/-- The world with an instance whose build has failed, if the stage is one whose failure is that of the build. -/
def blamed (s : BuildStage) (c : BuildContext) (w : World T) : World T :=
  if s.failsBuild then w.amended c.instanceId { status := some .buildFailed } else w

theorem blamed_eq (s : BuildStage) (c : BuildContext) (w : World T) : blamed s c w = { w with store := { w.store with
    instances := if s.failsBuild then
        w.store.instances.map fun i => if i.id = c.instanceId then { i with status := .buildFailed } else i
      else w.store.instances } } := by
  rw [blamed]
  split_ifs <;> rfl

/-- Nothing else is recorded of a failure than the status of the instance and what belongs to the job. -/
theorem recordFailure_upholds (s : BuildStage) (c : BuildContext) (f : Failure) (w : World T) :
    (blamed s c w).Upholds (runIn w (recordFailure s c f)).2 := by
  rw [recordFailure_eq, blamed]
  cases s.failsBuild with
  | false => exact recordInJob_upholds c f w
  | true =>
    simp only [if_true]
    by_cases hfound : ∃ i, w.store.getInstance c.instanceId = .ok i
    · obtain ⟨i, hi⟩ := hfound
      rw [runIn_bind_ok (runIn_updateInstance hi _)]
      exact recordInJob_upholds c f _
    · have hmissing : ∀ i, w.store.getInstance c.instanceId ≠ .ok i := fun i hi => hfound ⟨i, hi⟩
      obtain ⟨e, he⟩ := updateInstance_missing hmissing { status := some .buildFailed }
      rw [runIn_bind_error he, World.amended_missing hmissing]
      exact refl w

/-- A stage that fails has a body that fails, and records nothing else of it than the status of the instance and what
belongs to the job. -/
theorem stage_error (h : runIn w (stage s c body) = (.error f, w')) : ∃ cause w₁,
    runIn (w.logged [stageStarted s c]) body = (.error cause, w₁) ∧
      (blamed s c (w₁.logged [stageFailed s c cause])).Upholds w' := by
  rcases hbody : runIn (w.logged [stageStarted s c]) body with ⟨cause | a, w₁⟩
  · have hrecorded := recordFailure_upholds s c cause (w₁.logged [stageFailed s c cause])
    rw [runIn_stage_error hbody, runIn_bind] at h
    rcases hrecord : runIn (w₁.logged [stageFailed s c cause]) (recordFailure s c cause) with ⟨e | _, w₂⟩ <;>
      rw [hrecord] at h hrecorded <;> obtain ⟨-, rfl⟩ := Prod.mk.inj h <;> exact ⟨cause, w₁, rfl, hrecorded⟩
  · rw [runIn_stage_ok hbody] at h
    exact nomatch (Prod.mk.inj h).1

/-- What holds along the body of a stage and along the recording of its failure, and of logging, holds along it. -/
theorem stage_along {R : World T → World T → Prop} [IsPreorder (World T) R] (hbody : body.Along R)
    (hrecord : ∀ f, (recordFailure s c f : Action T Unit).Along R)
    (hlogged : ∀ w event, LogEvent.Quiet event → R w (World.logged w [event])) : (stage s c body).Along R := by
  refine .bind (.log fun w => hlogged w _ (stageStarted_quiet s c)) fun _ => .bind hbody.outcome fun outcome => ?_
  cases outcome with
  | ok a =>
    exact .bind (.log fun w => hlogged w _ (stageCompleted_quiet s c)) fun _ => .pure _
  | error f =>
    exact .bind (.log fun w => hlogged w _ (by decide : "build_stage_failed" ≠ "resource_created")) fun _ =>
      .bind (hrecord f) fun _ => .throw _

variable [Timeline T]

def call (b : Builder T) (c : BuildContext) : BuildStage → Action T Unit
  | .compile => discard (b.compile c)
  | .register => discard (b.register c)
  | .awaitReady => discard (b.awaitReady c)
  | .trigger => discard (b.trigger c)

def bodyOf (b : Builder T) (c : BuildContext) : BuildStage → Action T Unit
  | .compile => discard (b.compileBody c)
  | .register => discard (b.registerBody c)
  | .awaitReady => discard (b.awaitBody c)
  | .trigger => discard (b.triggerBody c)

omit [Timeline T] in
theorem runIn_stage_discard : runIn w (stage s c (discard body)) = runIn w (discard (stage s c body)) := by
  rcases hbody : runIn (w.logged [stageStarted s c]) body with ⟨f | a, w₁⟩
  · have hdiscarded : runIn (w.logged [stageStarted s c]) (discard body) = (.error f, w₁) := by
      rw [runIn_discard, hbody]
      rfl
    rw [runIn_stage_error hdiscarded, runIn_discard, runIn_stage_error hbody, runIn_bind, runIn_bind]
    rcases runIn (w₁.logged [stageFailed s c f]) (recordFailure s c f) with ⟨e | _, w₂⟩ <;> rfl
  · have hdiscarded : runIn (w.logged [stageStarted s c]) (discard body) = (.ok (), w₁) := by
      rw [runIn_discard, hbody]
      rfl
    rw [runIn_stage_ok hdiscarded, runIn_discard, runIn_stage_ok hbody]
    rfl

theorem runIn_call (b : Builder T) (c : BuildContext) (s : BuildStage) (w : World T) :
    runIn w (b.call c s) = runIn w (stage s c (b.bodyOf c s)) := by
  cases s <;> exact runIn_stage_discard.symm

theorem runIn_run (b : Builder T) (c : BuildContext) (w : World T) :
    runIn w (discard (b.run c)) = runIn w (BuildStage.all.forM (b.call c)) :=
  runIn_discard_bind fun _ _ => runIn_discard_bind fun _ _ => runIn_discard_bind fun _ _ =>
    runIn_discard_bind fun _ _ => rfl

theorem run_eq_ok {built : BuildResult} (h : runIn w (b.run c) = (.ok built, w')) : ∃ w₁ w₂ w₃,
    runIn w (b.compile c) = (.ok built.compiled, w₁) ∧ runIn w₁ (b.register c) = (.ok built.resource, w₂) ∧
      runIn w₂ (b.awaitReady c) = (.ok (), w₃) ∧ runIn w₃ (b.trigger c) = (.ok built.execution, w') := by
  obtain ⟨compiled, w₁, hcompile, h⟩ := bind_runIn_eq_ok h
  obtain ⟨resource, w₂, hregister, h⟩ := bind_runIn_eq_ok h
  obtain ⟨⟨⟩, w₃, hawait, h⟩ := bind_runIn_eq_ok h
  obtain ⟨execution, w₄, htrigger, h⟩ := bind_runIn_eq_ok h
  obtain ⟨hbuilt, rfl⟩ := Prod.mk.inj h
  obtain rfl := Except.ok.inj hbuilt
  exact ⟨w₁, w₂, w₃, hcompile, hregister, hawait, htrigger⟩

end Builder
end HuntDraw
