import HuntDraw.Proofs.Build.Failure
import HuntDraw.Proofs.Engine.Failing

/-! Which failure of a stage its caller gets to see. It is that of the body where the failure can be recorded; where
there is no such job as the one in scope, the record is refused, and the refusal is passed on in its place. -/

namespace HuntDraw

open HuntDraw.Action Engine Attempt

variable {T : Type}

namespace Store

variable {s : Store} {id : String} {f : StoreFault}

theorem getInstance_error (h : s.getInstance id = .error f) : f = .notFound "WorkflowInstance" id := by
  rw [getInstance, find] at h
  split at h
  · cases h
  · exact (Except.error.inj h).symm

theorem updateInstance_error {change : InstanceChange} (h : s.updateInstance id change = .error f) :
    f = .notFound "WorkflowInstance" id := by
  rw [updateInstance, Store.change] at h
  cases hfound : find "WorkflowInstance" Instance.id s.instances id with
  | ok i =>
    rw [hfound] at h
    cases h
  | error e =>
    rw [hfound] at h
    obtain rfl := Except.error.inj h
    exact getInstance_error hfound

theorem getInstance_missing (h : ∀ i, s.getInstance id ≠ .ok i) :
    s.getInstance id = .error (.notFound "WorkflowInstance" id) := by
  cases hfound : s.getInstance id with
  | ok i => exact absurd hfound (h i)
  | error f => rw [getInstance_error hfound]

theorem updateInstance_missing (h : ∀ i, s.getInstance id ≠ .ok i) (change : InstanceChange) :
    s.updateInstance id change = .error (.notFound "WorkflowInstance" id) := by
  have hmissing := getInstance_missing h
  rw [getInstance] at hmissing
  rw [updateInstance, Store.change, hmissing]
  rfl

theorem updateJob_missing (h : ∀ j ∈ s.jobs, j.id ≠ id) (change : JobChange) :
    s.updateJob id change = .error (.notFound "WorkflowJob" id) := by
  have hmissing : s.jobs.find? (·.id = id) = none := List.find?_eq_none.2 fun j hj => by simpa using h j hj
  rw [updateJob, Store.change, find, hmissing]
  rfl

theorem appendLog_missing {l : JobLog} (hnew : ∀ l' ∈ s.logs, l'.id ≠ l.id) (h : ∀ j ∈ s.jobs, j.id ≠ l.jobId) :
    s.appendLog l = .error .noParent := by
  have hfresh : fresh "workflow_job_logs.log_id" JobLog.id s.logs l.id = .ok () :=
    if_neg (by simpa using hnew)
  have hbelongs : belongs Job.id s.jobs l.jobId = .error .noParent := if_neg (by simpa using h)
  rw [appendLog, hfresh, hbelongs]
  rfl

end Store

namespace BuildContext

/-- A failure that the records have no part in, unless it is that there is no such instance. -/
def Passes (c : BuildContext) (f : Failure) : Prop :=
  ∀ e, f = .store e → e = .notFound "WorkflowInstance" c.instanceId

/-- The failures of a stage are told: its job, if any, is there to record them, or nothing was to be found in the first
place. -/
def Heard (c : BuildContext) (s : BuildStage) (w : World T) : Prop :=
  (∀ job, c.job = some job → ∃ j ∈ w.store.jobs, j.id = job) ∨
    s.failsBuild ∧ ∀ i, w.store.getInstance c.instanceId ≠ .ok i

end BuildContext

/-- What is passed on in place of a failure that cannot be recorded in its job. -/
def Failure.unrecorded (f : Failure) (job : String) : Failure :=
  .store (if f.isReported then .noParent else .notFound "WorkflowJob" job)

namespace Builder

variable {b : Builder T} {c : BuildContext} {s : BuildStage} {f : Failure} {w w' : World T}

theorem passes_of_ne (h : ∀ e, f ≠ .store e) : c.Passes f := fun e he => absurd he (h e)

theorem ask_passes : (Action.ask fun s => s.getInstance c.instanceId : Action T Instance).FailsOnly c.Passes :=
  .ask fun _ _ h _ he => (Failure.store.inj he).symm.trans (Store.getInstance_error h)

theorem alter_passes (change : Store.InstanceChange) :
    (Action.alter fun s => s.updateInstance c.instanceId change : Action T Unit).FailsOnly c.Passes :=
  .alter fun _ _ h _ he => (Failure.store.inj he).symm.trans (Store.updateInstance_error h)

theorem lift_passes {ε α : Type} {wrap : ε → Failure} (h : ∀ e e', wrap e ≠ .store e') (r : Except ε α) :
    (Action.lift wrap r : Action T α).FailsOnly c.Passes :=
  .lift fun e _ e' he => absurd he (h e e')

theorem loadDefinition_passes : (loadDefinition c : Action T Json).FailsOnly c.Passes := by
  refine .bind ask_passes fun i => ?_
  cases i.definitionKey with
  | none => exact .throw (passes_of_ne (by simp))
  | some key =>
    refine .bind (.look _ fun _ => passes_of_ne (by simp)) fun held => ?_
    cases held with
    | false => exact .throw (passes_of_ne (by simp))
    | true =>
      refine .bind (.look _ fun _ => passes_of_ne (by simp)) fun content => .lift fun f hparse => ?_
      cases content with
      | archive => exact Except.error.inj hparse ▸ passes_of_ne (by simp)
      | bytes bs =>
        have hparsed : ((Text.decodeDocument bs).mapError Failure.notText >>= fun text =>
            (Json.read text).mapError fun f => Failure.notJson (f.message text)) = _ := hparse
        rcases bind_eq_error.1 hparsed with htext | ⟨text, -, htext⟩
        · cases hdecoded : Text.decodeDocument bs <;> rw [hdecoded] at htext <;> cases htext
          exact passes_of_ne (by simp)
        · cases hread : Json.read text <;> rw [hread] at htext <;> cases htext
          exact passes_of_ne (by simp)

theorem compileBody_passes (b : Builder T) : (b.compileBody c).FailsOnly c.Passes := by
  have hgraph : (graph c.instanceId : Action T Graph).FailsOnly c.Passes :=
    .bind .get fun _ => lift_passes (by simp) _
  have hcompile : ∀ g, (b.compileGraph c.organization g).FailsOnly c.Passes := fun g =>
    .bind .get fun _ => .bind (lift_passes (fun e _ => by cases e <;> simp [Failure.ofCompile]) _) fun _ =>
      .bind (.modify _) fun _ => .pure _
  have hkeep : ∀ compiled, (b.keep c compiled).FailsOnly c.Passes := by
    intro compiled
    have hrest : (do
        let bytes ← Action.lift .canonical compiled.chain.toJson.canonicalBytes
        let _ ← Action.write c.definitionKey (.bytes bytes) "application/json"
        Action.alter fun s => s.updateInstance c.instanceId { definitionKey := some c.definitionKey }
        let digest ← Action.lift .canonical compiled.chain.toJson.digest
        Action.log .info "task_chain_compiled" ([
          ("definition_key", .text c.definitionKey), ("definition_hash", .text digest),
          ("task_count", .nat compiled.chain.tasks.length)] ++ c.fields)
        return ⟨c.definitionKey, digest, compiled.chain.tasks.length, compiled.warnings⟩ :
          Action T CompileResult).FailsOnly c.Passes :=
      .bind (lift_passes (by simp) _) fun _ => .bind (.write _ _ _ fun _ => passes_of_ne (by simp)) fun _ =>
        .bind (alter_passes _) fun _ => .bind (lift_passes (by simp) _) fun _ =>
        .bind (.log _ _ _) fun _ => .pure _
    rw [keep]
    split_ifs
    · exact .bind (.throw (passes_of_ne (by simp))) fun _ => hrest
    · exact hrest
  rw [compileBody_eq]
  exact .bind (alter_passes _) fun _ => .bind (.bind hgraph hcompile) hkeep

variable [Timeline T]

omit [Timeline T] in
theorem accept_passes (d : Json) : (Action.lift id (b.engine.accept d) : Action T TaskChain).FailsOnly c.Passes := by
  refine .lift fun f hf => ?_
  rw [accept] at hf
  split at hf
  · rw [← Except.error.inj hf]
    exact passes_of_ne (by simp)
  · simp only at hf
    split_ifs at hf
    rw [← Except.error.inj hf]
    exact passes_of_ne (by simp)

theorem create_passes (name : String) (d : Json) : (b.engine.create name d).FailsOnly c.Passes := by
  refine .bind (accept_passes d) fun chain => .bind .get fun w => ?_
  have hput : (do
      b.engine.put (handleOf name) name chain
      logPut "resource_created" (handleOf name) chain
      return handleOf name : Action T String).FailsOnly c.Passes :=
    .bind (.modify _) fun _ => .bind (.log _ _ _) fun _ => .pure _
  by_cases hhas : w.resources.has (handleOf name)
  · simp only [if_pos hhas]
    exact .bind (.throw (passes_of_ne (by simp))) fun _ => hput
  · simp only [if_neg hhas]
    exact hput

theorem update_passes (handle : String) (d : Json) : (b.engine.update handle d).FailsOnly c.Passes := by
  refine .bind (accept_passes d) fun chain => ?_
  cases nameOf? handle with
  | none => exact .throw (passes_of_ne (by simp))
  | some name => exact .bind (.modify _) fun _ => .log _ _ _

theorem registerBody_passes (b : Builder T) : (b.registerBody c).FailsOnly c.Passes := by
  refine .bind loadDefinition_passes fun d => .bind ask_passes fun i => ?_
  cases i.executionHandle with
  | none =>
    exact .bind (create_passes _ d) fun _ => .bind (alter_passes _) fun _ => .bind (.log _ _ _) fun _ => .pure _
  | some handle => exact .bind (update_passes _ d) fun _ => .bind (.log _ _ _) fun _ => .pure _

theorem awaitBody_passes (b : Builder T) : (b.awaitBody c).FailsOnly c.Passes := by
  have hactive : ∀ handle, (Waiter.here.isActive handle : Action T Bool).FailsOnly c.Passes := by
    refine fun handle => .bind (.bind (.bind .get fun w => ?_) fun _ => .bind .get fun _ => .pure _) fun _ => .pure _
    cases w.resources.get? handle with
    | none => exact .throw (passes_of_ne (by simp))
    | some r => exact .pure r
  have hpause : ∀ s handle number, (Waiter.here.pause s c handle number : Action T Unit).FailsOnly c.Passes := by
    refine fun s handle number => .bind (.log _ _ _) fun _ => .bind (.modify _) fun _ => .bind .get fun w => ?_
    cases w.clock.advance (Timeline.ofNumber s.poll) with
    | none => exact .throw (passes_of_ne (by simp))
    | some clock => exact .modify _
  refine .bind ask_passes fun i => ?_
  cases i.executionHandle with
  | none => exact .throw (passes_of_ne (by simp))
  | some handle =>
    refine .bind (lift_passes (by simp) _) fun count =>
      .bind (.poll (hactive handle) (hpause _ handle) _ _) fun active => ?_
    cases active with
    | true => exact alter_passes _
    | false => exact .throw (passes_of_ne (by simp))

/-- Whatever happens while a job is started, the failure of triggering is no more for the author to know. -/
theorem triggerBody_fails {P : Failure → Prop} (b : Builder T)
    (hmissing : P (.store (.notFound "WorkflowInstance" c.instanceId)))
    (hready : ∀ status, P (.notReady c.instanceId status)) (hstart : ∀ message cause, P (.trigger message cause)) :
    (b.triggerBody c).FailsOnly P := by
  rw [triggerBody]
  cases c.job with
  | none => exact .bind (.log _ _ _) fun _ => .pure _
  | some job =>
    refine .bind (.ask fun s e he => by rwa [Store.getInstance_error he]) fun i => ?_
    split
    · refine .bind (.outcome _) fun outcome => ?_
      cases outcome with
      | ok handle => exact .pure _
      | error f => exact .throw (hstart _ _)
    · exact .throw (hready _)

theorem bodyOf_passes (b : Builder T) (c : BuildContext) (s : BuildStage) : (b.bodyOf c s).FailsOnly c.Passes := by
  cases s with
  | compile => exact (compileBody_passes b).discard
  | register => exact (registerBody_passes b).discard
  | awaitReady => exact (awaitBody_passes b).discard
  | trigger =>
    exact (triggerBody_fails b (fun _ h => (Failure.store.inj h).symm) (fun _ => nofun) fun _ _ => nofun).discard

/-- Where there is no such instance, this is what a stage fails with, at its start. -/
theorem bodyOf_missing (b : Builder T) (hmissing : ∀ i, w.store.getInstance c.instanceId ≠ .ok i)
    (hs : s.failsBuild ∨ c.job ≠ none) :
    runIn w (b.bodyOf c s) = (.error (.store (.notFound "WorkflowInstance" c.instanceId)), w) := by
  have hask : runIn w (Action.ask fun s => s.getInstance c.instanceId) =
      (.error (.store (.notFound "WorkflowInstance" c.instanceId)), w) := by
    rw [runIn_ask, Store.getInstance_missing hmissing]
    rfl
  cases s with
  | compile =>
    rw [bodyOf, runIn_discard, compileBody_eq, runIn_bind_error (runIn_alter_error
      (Store.updateInstance_missing hmissing { status := some .buildStarted }))]
    rfl
  | register =>
    have hloaded : runIn w (loadDefinition c : Action T Json) =
        (.error (.store (.notFound "WorkflowInstance" c.instanceId)), w) := runIn_bind_error hask
    rw [bodyOf, runIn_discard, registerBody, runIn_bind_error hloaded]
    rfl
  | awaitReady =>
    rw [bodyOf, runIn_discard, awaitBody, Waiter.wait, runIn_bind_error hask]
    rfl
  | trigger =>
    obtain ⟨job, hjob⟩ := Option.ne_none_iff_exists'.1 (hs.resolve_left (by simp [BuildStage.failsBuild]))
    rw [bodyOf, runIn_discard, triggerBody, hjob]
    simp only
    rw [runIn_bind_error hask]
    rfl

omit [Timeline T] in
theorem runIn_recordInJob_gone {job : String} (hjob : c.job = some job) (hgone : ∀ j ∈ w.store.jobs, j.id ≠ job)
    (hlogs : f.isReported → ∀ l ∈ w.store.logs, ∀ n, l.id = idText n → n ≤ w.ids) :
    ∃ w', runIn w (recordInJob c f) = (.error (f.unrecorded job), w') := by
  rw [recordInJob, hjob, Failure.unrecorded]
  cases hreport : f.report? with
  | none =>
    have hsilent : ¬f.isReported := by simp [Failure.isReported, hreport]
    rw [if_neg hsilent]
    exact ⟨_, runIn_alter_error (Store.updateJob_missing hgone _)⟩
  | some report =>
    have hreported : f.isReported := by simp [Failure.isReported, hreport]
    have hnew : ∀ l ∈ w.numbered.store.logs, l.id ≠ idText (w.ids + 1) := fun l hl heq =>
      absurd (hlogs hreported l hl _ heq) (Nat.not_succ_le_self _)
    rw [if_pos hreported]
    refine ⟨w.numbered, (runIn_bind_ok runIn_newId).trans (runIn_bind_error ?_)⟩
    exact runIn_alter_error (Store.appendLog_missing hnew hgone)

/-- A body that fails makes no jobs; and what it fails with is for the author to know only where it logged nothing. -/
theorem bodyOf_gone {job : String} (hjob : c.job = some job) (hgone : ∀ j ∈ w.store.jobs, j.id ≠ job)
    (hlogs : ∀ l ∈ w.store.logs, ∀ n, l.id = idText n → n ≤ w.ids)
    (h : runIn w (b.bodyOf c s) = (.error f, w')) :
    (∀ j ∈ w'.store.jobs, j.id ≠ job) ∧
      (f.isReported → ∀ l ∈ w'.store.logs, ∀ n, l.id = idText n → n ≤ w'.ids) := by
  by_cases hs : s.failsBuild
  · have hunstarted := bodyOf_unstarted b c hs w
    rw [h] at hunstarted
    rw [hunstarted.jobs, hunstarted.logs, hunstarted.ids]
    exact ⟨hgone, fun _ => hlogs⟩
  · obtain rfl : s = .trigger := by cases s <;> first | rfl | exact absurd rfl hs
    have hrun := discard_runIn_eq_error h
    have hsilent : ¬f.isReported := triggerBody_fails (P := fun f => ¬f.isReported) b nofun (fun _ => nofun)
      (fun _ _ => nofun) w f w' hrun
    cases of_runIn (triggerBody_triggers b c w) hrun with
    | refused => exact ⟨hgone, fun _ => hlogs⟩
    | unrecorded hjob' _ hmissing =>
      obtain rfl := Option.some.inj (hjob.symm.trans hjob')
      refine ⟨fun j hj hid => ?_, fun hreported => absurd hreported hsilent⟩
      obtain ⟨j', hj'⟩ := Store.getJob_of_mem ⟨j, hj, hid⟩
      exact hmissing j' hj'

/-- Where the failure can be recorded, or there is nothing to record it in, it is passed on. -/
theorem call_heard (hhandlers : b.engine.Upholding) (hheard : c.Heard s w)
    (hlogs : ∀ l ∈ w.store.logs, ∀ n, l.id = idText n → n ≤ w.ids) {w₁ : World T}
    (h : runIn (w.logged [stageStarted s c]) (b.bodyOf c s) = (.error f, w₁)) :
    ∃ w', runIn w (b.call c s) = (.error f, w') := by
  by_cases hfound : (∃ i, w.store.getInstance c.instanceId = .ok i) ∧
      ∀ job, c.job = some job → ∃ j ∈ w.store.jobs, j.id = job
  · obtain ⟨w', hcall, -⟩ := call_failed hhandlers ⟨hfound.1, hfound.2, hlogs⟩ h
    exact ⟨w', hcall⟩
  -- the instance is missing, which is what the body has failed with
  have hmissing : ∀ i, w.store.getInstance c.instanceId ≠ .ok i := fun i hi =>
    hheard.elim (fun hjob => hfound ⟨⟨i, hi⟩, hjob⟩) fun hmissing => hmissing.2 i hi
  have hs : s.failsBuild ∨ c.job ≠ none := by
    by_contra hskipped
    obtain ⟨hs, hjob⟩ := not_or.1 hskipped
    obtain rfl : s = .trigger := by cases s <;> first | rfl | exact absurd rfl hs
    rw [bodyOf, runIn_discard, triggerBody, not_not.1 hjob] at h
    cases (Prod.mk.inj h).1
  have hbody := bodyOf_missing (w := w.logged [stageStarted s c]) b hmissing hs
  obtain ⟨hf, rfl⟩ := Prod.mk.inj (h.symm.trans hbody)
  obtain rfl := Except.error.inj hf
  rw [runIn_call, runIn_stage_error hbody, recordFailure_eq]
  by_cases hbuild : s.failsBuild
  · rw [if_pos hbuild]
    exact ⟨_, runIn_bind_error (runIn_bind_error (runIn_alter_error (Store.updateInstance_missing hmissing _)))⟩
  · rw [if_neg hbuild]
    obtain ⟨w', hrecord, -⟩ := runIn_recordInJob (c := c)
      (w := (w.logged [stageStarted s c]).logged [stageFailed s c _])
      (hheard.resolve_right fun hbuilt => hbuild hbuilt.1) hlogs (.store (.notFound "WorkflowInstance" c.instanceId))
    exact ⟨w', runIn_bind_ok hrecord⟩

theorem call_unheard (hunheard : ¬c.Heard s w) (hlogs : ∀ l ∈ w.store.logs, ∀ n, l.id = idText n → n ≤ w.ids)
    {w₁ : World T} (h : runIn (w.logged [stageStarted s c]) (b.bodyOf c s) = (.error f, w₁)) :
    ∃ job w', c.job = some job ∧ runIn w (b.call c s) = (.error (f.unrecorded job), w') := by
  obtain ⟨hjobs, hinstance⟩ := not_or.1 hunheard
  push Not at hjobs hinstance
  obtain ⟨job, hjob, hgone⟩ := hjobs
  obtain ⟨hgone', hlogs'⟩ := bodyOf_gone (w := w.logged [stageStarted s c]) hjob hgone hlogs h
  obtain ⟨w', hrecord⟩ := runIn_recordInJob_gone (w := blamed s c (w₁.logged [stageFailed s c f])) hjob
    (by rw [blamed_eq]; exact hgone') (by rw [blamed_eq]; exact hlogs')
  refine ⟨job, w', hjob, ?_⟩
  rw [runIn_call, runIn_stage_error h, recordFailure_eq]
  refine runIn_bind_error ((runIn_bind_ok (x := ()) ?_).trans hrecord)
  by_cases hs : s.failsBuild
  · obtain ⟨i, hi⟩ := hinstance hs
    have hunstarted := bodyOf_unstarted b c hs (w.logged [stageStarted s c])
    rw [h] at hunstarted
    obtain ⟨i', hi'⟩ := hunstarted.found _ i hi
    rw [if_pos hs, blamed, if_pos hs]
    exact runIn_updateInstance (w := w₁.logged [stageFailed s c f]) hi' _
  · rw [if_neg hs, blamed, if_neg hs]
    rfl

theorem ne_unrecorded (h : runIn w (b.bodyOf c s) = (.error f, w')) (job : String) : f ≠ f.unrecorded job := by
  intro hf
  by_cases hreported : f.isReported
  · rw [Failure.unrecorded, if_pos hreported] at hf
    rw [hf] at hreported
    exact nomatch hreported
  · rw [Failure.unrecorded, if_neg hreported] at hf
    have hpasses := bodyOf_passes b c s _ f w' h _ hf
    exact absurd (StoreFault.notFound.inj hpasses).1 (by decide)

/-- A stage whose body fails fails as its body does exactly when the job in scope, if any, is there, or when a stage of
the build finds no instance. Otherwise its caller gets to see why the failure could not be recorded. -/
theorem failure_passed_on_iff (hhandlers : b.engine.Upholding)
    (hlogs : ∀ l ∈ w.store.logs, ∀ n, l.id = idText n → n ≤ w.ids) {w₁ : World T}
    (h : runIn (w.logged [stageStarted s c]) (b.bodyOf c s) = (.error f, w₁)) :
    ((∃ w', runIn w (b.call c s) = (.error f, w')) ↔ c.Heard s w) ∧
      (¬c.Heard s w → ∃ job w', c.job = some job ∧ runIn w (b.call c s) = (.error (f.unrecorded job), w')) := by
  refine ⟨⟨?_, fun hheard => call_heard hhandlers hheard hlogs h⟩, fun hunheard => call_unheard hunheard hlogs h⟩
  rintro ⟨w', hcall⟩
  by_contra hunheard
  obtain ⟨job, w'', -, hcall'⟩ := call_unheard hunheard hlogs h
  obtain ⟨hraised, -⟩ := Prod.mk.inj (hcall.symm.trans hcall')
  exact ne_unrecorded h job (Except.error.inj hraised)

/-- An instance that was never compiled. -/
def uncompiled : World Binary64 where
  store := { instances := [⟨"I", "org", "wf", .buildNeeded, none, none⟩] }
  blobs := ⟨"drawflow", .memory, []⟩
  clock := ⟨.zero false, []⟩

/-- Without a job in scope, registering it fails for want of a definition. -/
theorem failure_passed_on_iff_uncompiled : ∃ w', runIn uncompiled (plain.call ⟨"org", "wf", "I", none⟩ .register) =
    (.error (.noDefinition "I"), w') :=
  (failure_passed_on_iff plain_upholding (by simp [uncompiled]) rfl).1.2 (.inl nofun)

/-- With a job in scope that is not there, it fails for want of the job. -/
theorem not_failure_passed_on : ¬∀ (b : Builder Binary64) (c : BuildContext) (s : BuildStage) (f : Failure)
    (w w₁ : World Binary64), b.engine.Upholding → (∀ l ∈ w.store.logs, ∀ n, l.id = idText n → n ≤ w.ids) →
    runIn (w.logged [stageStarted s c]) (b.bodyOf c s) = (.error f, w₁) →
    ∃ w', runIn w (b.call c s) = (.error f, w') := by
  intro h
  obtain ⟨w', hcall⟩ := h plain ⟨"org", "wf", "I", some "job"⟩ .register (.noDefinition "I") uncompiled _
    plain_upholding (by simp [uncompiled]) rfl
  have hraised : (runIn uncompiled (plain.call ⟨"org", "wf", "I", some "job"⟩ .register)).1 =
      .error (.store (.notFound "WorkflowJob" "job")) := rfl
  rw [hcall] at hraised
  exact nomatch hraised

end Builder
end HuntDraw
