import HuntDraw.Proofs.Build.Returns

/-! What a failed stage leaves behind. Wherever its body failed, what was built before is as it was; the failure is
recorded in the status of the instance, if it is one of the build, and in the job; and no later stage is begun. -/

namespace HuntDraw

open HuntDraw.Action Engine Attempt

variable {T : Type}

/-- The instance of a build is there and so is its job, and ids that are given out from now on are those of no entry of
a log. -/
structure BuildContext.Present (c : BuildContext) (w : World T) : Prop where
  found : ∃ i, w.store.getInstance c.instanceId = .ok i
  job : ∀ job, c.job = some job → ∃ j ∈ w.store.jobs, j.id = job
  logs : ∀ l ∈ w.store.logs, ∀ n, l.id = idText n → n ≤ w.ids

/-- What the log of a job gets to know of a failure. -/
def BuildContext.entries (c : BuildContext) (f : Failure) (id : String) : List JobLog :=
  match c.job, f.report? with
  | some job, some (key, params) => [{ id, jobId := job, level := .error, key, params, nodeId := none }]
  | _, _ => []

def World.entered (w : World T) (l : JobLog) : World T :=
  { w with store := { w.store with logs := w.store.logs ++ [l] } }

namespace Builder

/-- From before a stage to after its failure: only the status of the instance, and the log and the flag of the job have
changed among the records, and definitions, resources and executions are what they were. -/
structure Failed (s : BuildStage) (c : BuildContext) (f : Failure) (w w' : World T) : Prop where
  store : w'.store = { w.store with
    instances := if s.failsBuild then
        w.store.instances.map fun i => if i.id = c.instanceId then { i with status := .buildFailed } else i
      else w.store.instances
    jobs := w.store.jobs.map fun j => if c.job = some j.id then { j with failedBefore := true } else j
    logs := w.store.logs ++ c.entries f (idText (w.ids + 1)) }
  blobs : w'.blobs = w.blobs
  resources : w'.resources = w.resources
  executions : w'.executions = w.executions

/-- From before the body of a stage to where it failed: nothing has changed that the recording of the failure leaves. -/
structure Stopped (s : BuildStage) (c : BuildContext) (w w' : World T) : Prop where
  store : (blamed s c w').store = (blamed s c w).store
  blobs : w'.blobs = w.blobs
  resources : w'.resources = w.resources
  executions : w'.executions = w.executions
  ids : w'.ids = w.ids

variable {b : Builder T} {c : BuildContext} {s : BuildStage} {f : Failure} {w w' : World T}

theorem Stopped.of_store (hstore : w'.store = w.store) (hblobs : w'.blobs = w.blobs)
    (hresources : w'.resources = w.resources) (hexecutions : w'.executions = w.executions) (hids : w'.ids = w.ids) :
    Stopped s c w w' := by
  refine ⟨?_, hblobs, hresources, hexecutions, hids⟩
  rw [blamed, blamed]
  split_ifs
  · rw [World.amended, World.amended, hstore]
  · exact hstore

/-- Wherever the body of a stage failed, it has changed nothing but what a failed build changes anyway. -/
theorem body_stopped [Timeline T] (hhandlers : b.engine.Upholding) (hpresent : c.Present w)
    (h : runIn w (b.bodyOf c s) = (.error f, w')) : Stopped s c w w' := by
  cases s with
  | compile =>
    cases of_runIn (compileBody_compiles b c w) (discard_runIn_eq_error h) with
    | failed =>
      -- the first status is overwritten by the second
      have htwice : (w.amended c.instanceId { status := some .buildStarted }).amended c.instanceId
          { status := some .buildFailed } = w.amended c.instanceId { status := some .buildFailed } :=
        World.amended_amended (fun _ => rfl) w c.instanceId
      have hstore := congrArg World.store htwice
      exact ⟨hstore, rfl, rfl, rfl, rfl⟩
  | register =>
    cases of_runIn (registerBody_registers b c w) (discard_runIn_eq_error h) <;> exact .of_store rfl rfl rfl rfl rfl
  | awaitReady =>
    cases of_runIn (awaitBody_awaits b c w) (discard_runIn_eq_error h) with
    | failed hwaited =>
      obtain ⟨clock, events, -, rfl⟩ := hwaited
      exact .of_store rfl rfl rfl rfl rfl
  | trigger =>
    cases of_runIn (triggerBody_triggers b c w) (discard_runIn_eq_error h) with
    | refused => exact .of_store rfl rfl rfl rfl rfl
    | @unrecorded job resource handle _ _ hjob hstarted hgone =>
      -- an execution leaves the jobs where they are
      have hupholds := hhandlers.start resource (startState c job) w
      rw [hstarted] at hupholds
      obtain ⟨j, hj, rfl⟩ := hpresent.job job hjob
      obtain ⟨j', hj'⟩ := Store.getJob_of_mem (hupholds.jobs j hj)
      exact absurd hj' (hgone j')

theorem runIn_recordInJob (hjob : ∀ job, c.job = some job → ∃ j ∈ w.store.jobs, j.id = job)
    (hlogs : ∀ l ∈ w.store.logs, ∀ n, l.id = idText n → n ≤ w.ids) (f : Failure) : ∃ w',
      runIn w (recordInJob c f) = (.ok (), w') ∧ w'.store = { w.store with
        jobs := w.store.jobs.map fun j => if c.job = some j.id then { j with failedBefore := true } else j
        logs := w.store.logs ++ c.entries f (idText (w.ids + 1)) } ∧
      w'.blobs = w.blobs ∧ w'.resources = w.resources ∧ w'.executions = w.executions := by
  rw [recordInJob, BuildContext.entries]
  cases hcase : c.job with
  | none => exact ⟨w, rfl, by simp, rfl, rfl, rfl⟩
  | some job =>
    have hmarked : ∀ j : Job, (if j.id = job then Store.JobChange.apply { failedBefore := some true } j else j) =
        if some job = some j.id then { j with failedBefore := true } else j := fun j =>
      if_congr ⟨fun h => congrArg some h.symm, fun h => (Option.some.inj h).symm⟩ rfl rfl
    obtain ⟨j, hj⟩ := Store.getJob_of_mem (hjob job hcase)
    cases hreport : f.report? with
    | none =>
      refine ⟨_, runIn_updateJob hj _, ?_, rfl, rfl, rfl⟩
      simp only [World.assigned, hmarked, List.append_nil]
    | some report =>
      obtain ⟨key, params⟩ := report
      -- the entry is taken into the log only under an id that is new there
      have hnew : ∀ l ∈ w.numbered.store.logs, l.id ≠ idText (w.ids + 1) := fun l hl heq =>
        absurd (hlogs l hl _ heq) (Nat.not_succ_le_self _)
      have hentered : runIn w.numbered (alter fun s => s.appendLog
          { id := idText (w.ids + 1), jobId := job, level := .error, key, params }) = (.ok (), w.numbered.entered
          { id := idText (w.ids + 1), jobId := job, level := .error, key, params }) :=
        runIn_alter (Store.appendLog_eq_ok hnew (hjob job hcase))
      refine ⟨_, (runIn_bind_ok runIn_newId).trans ((runIn_bind_ok hentered).trans
        (runIn_updateJob (w := w.numbered.entered _) hj _)), ?_, rfl, rfl, rfl⟩
      simp only [World.assigned, hmarked]
      rfl

/-- Where the body of a stage failed, the instance is still there to be blamed. -/
theorem runIn_blame (hpresent : c.Present w) (hstopped : Stopped s c w w') :
    runIn w' (if s.failsBuild then alter fun s => s.updateInstance c.instanceId { status := some .buildFailed }
      else pure ()) = (.ok (), blamed s c w') := by
  have hstore := hstopped.store
  by_cases hs : s.failsBuild = true
  · rw [blamed, blamed, if_pos hs, if_pos hs] at hstore
    rw [blamed, if_pos hs, if_pos hs]
    obtain ⟨i, hi⟩ := hpresent.found
    have hblamed := World.getInstance_amended_self hi { status := some .buildFailed }
    rw [← hstore] at hblamed
    obtain ⟨i', hi', -⟩ := World.getInstance_amended hblamed
    exact runIn_updateInstance hi' _
  · rw [blamed, if_neg hs, if_neg hs]
    rfl

theorem runIn_recordFailure (hpresent : c.Present w) (hstopped : Stopped s c w w') (f : Failure) : ∃ w'',
    runIn w' (recordFailure s c f) = (.ok (), w'') ∧ Failed s c f w w'' := by
  have hstore := hstopped.store
  rw [blamed_eq s c w] at hstore
  obtain ⟨w'', hrecord, hstore', hblobs, hresources, hexecutions⟩ := runIn_recordInJob (c := c) (w := blamed s c w')
    (by rw [hstore]; exact hpresent.job) (by rw [hstore, blamed_eq s c w', hstopped.ids]; exact hpresent.logs) f
  rw [blamed_eq] at hblobs hresources hexecutions
  refine ⟨w'', ?_, ?_, hblobs.trans hstopped.blobs, hresources.trans hstopped.resources,
    hexecutions.trans hstopped.executions⟩
  · rw [recordFailure_eq]
    exact (runIn_bind_ok (runIn_blame hpresent hstopped)).trans hrecord
  · rw [hstore', hstore, blamed_eq s c w', hstopped.ids]

theorem Stopped.logged {events events' : List LogEvent} (h : Stopped s c (w.logged events) w') :
    Stopped s c w (w'.logged events') := by
  refine ⟨?_, h.blobs, h.resources, h.executions, h.ids⟩
  have hstore := h.store
  rw [blamed_eq, blamed_eq] at hstore ⊢
  exact hstore

variable [Timeline T]

/-- A stage whose body fails fails as its body does, and leaves only the record of the failure. -/
theorem call_failed (hhandlers : b.engine.Upholding) (hpresent : c.Present w) {w₁ : World T}
    (h : runIn (w.logged [stageStarted s c]) (b.bodyOf c s) = (.error f, w₁)) :
    ∃ w', runIn w (b.call c s) = (.error f, w') ∧ Failed s c f w w' := by
  have hstopped : Stopped s c w (w₁.logged [stageFailed s c f]) :=
    (body_stopped (w := w.logged [stageStarted s c]) hhandlers ⟨hpresent.found, hpresent.job, hpresent.logs⟩ h).logged
  obtain ⟨w', hrecord, hfailed⟩ := runIn_recordFailure hpresent hstopped f
  refine ⟨w', ?_, hfailed⟩
  rw [runIn_call, runIn_stage_error h]
  exact runIn_bind_ok hrecord

theorem call_error (hhandlers : b.engine.Upholding) (hpresent : c.Present w)
    (h : runIn w (b.call c s) = (.error f, w')) : Failed s c f w w' := by
  rw [runIn_call] at h
  obtain ⟨cause, w₁, hbody, -⟩ := stage_error h
  obtain ⟨w₂, hcall, hfailed⟩ := call_failed hhandlers hpresent hbody
  rw [runIn_call, h] at hcall
  obtain ⟨hcause, rfl⟩ := Prod.mk.inj hcall
  obtain rfl := Except.error.inj hcause
  exact hfailed

end Builder

/-- From one world to the next, instances stay where they are, and nothing becomes of jobs and executions. -/
structure World.Unstarted (w w' : World T) : Prop where
  found : ∀ id i, w.store.getInstance id = .ok i → ∃ i', w'.store.getInstance id = .ok i'
  jobs : w'.store.jobs = w.store.jobs
  logs : w'.store.logs = w.store.logs
  ids : w'.ids = w.ids
  executions : w'.executions = w.executions

namespace World.Unstarted

variable {w w' : World T} {c : BuildContext}

instance : IsPreorder (World T) World.Unstarted where
  refl _ := ⟨fun _ i hi => ⟨i, hi⟩, rfl, rfl, rfl, rfl⟩
  trans _ _ _ h h' := by
    refine ⟨fun id i hi => ?_, h'.jobs.trans h.jobs, h'.logs.trans h.logs, h'.ids.trans h.ids,
      h'.executions.trans h.executions⟩
    obtain ⟨i', hi'⟩ := h.found id i hi
    exact h'.found id i' hi'

theorem of_store (hstore : w'.store = w.store) (hids : w'.ids = w.ids) (hexecutions : w'.executions = w.executions) :
    w.Unstarted w' :=
  ⟨fun _ i hi => ⟨i, hstore ▸ hi⟩, by rw [hstore], by rw [hstore], hids, hexecutions⟩

theorem of_amended (id : String) (change : Store.InstanceChange) (hstore : w'.store = (w.amended id change).store)
    (hids : w'.ids = w.ids) (hexecutions : w'.executions = w.executions) : w.Unstarted w' := by
  refine ⟨fun id' i hi => ?_, by rw [hstore]; rfl, by rw [hstore]; rfl, hids, hexecutions⟩
  rw [hstore]
  by_cases hid : id' = id
  · subst hid
    exact ⟨_, getInstance_amended_self hi change⟩
  · exact ⟨i, (getInstance_amended_of_ne hid w change).trans hi⟩

theorem present (h : w.Unstarted w') (hpresent : c.Present w) : c.Present w' := by
  obtain ⟨i, hi⟩ := hpresent.found
  refine ⟨h.found _ i hi, ?_, ?_⟩
  · rw [h.jobs]
    exact hpresent.job
  · rw [h.logs, h.ids]
    exact hpresent.logs

end World.Unstarted

namespace Builder

variable [Timeline T] {b : Builder T} {c : BuildContext} {s : BuildStage} {f : Failure} {w w' : World T}

theorem bodyOf_unstarted (b : Builder T) (c : BuildContext) (hs : s.failsBuild) :
    (b.bodyOf c s).Along World.Unstarted := by
  cases s with
  | compile =>
    refine .discard fun w => ?_
    obtain ⟨outcome, w', hrun, hcompiles⟩ := compileBody_compiles b c w
    rw [hrun]
    cases hcompiles with
    | failed => exact .of_amended c.instanceId { status := some .buildStarted } rfl rfl rfl
    | defined =>
      exact .of_amended c.instanceId { status := some .buildStarted, definitionKey := some c.definitionKey } rfl rfl rfl
  | register =>
    refine .discard fun w => ?_
    obtain ⟨outcome, w', hrun, hregisters⟩ := registerBody_registers b c w
    rw [hrun]
    cases hregisters with
    | refused | taken => exact refl w
    | created => exact .of_amended c.instanceId { executionHandle := some (handleOf c.instanceId) } rfl rfl rfl
    | updated => exact .of_store rfl rfl rfl
  | awaitReady =>
    refine .discard fun w => ?_
    obtain ⟨outcome, w', hrun, hawaits⟩ := awaitBody_awaits b c w
    rw [hrun]
    cases hawaits with
    | failed hwaited =>
      obtain ⟨clock, events, -, rfl⟩ := hwaited
      exact .of_store rfl rfl rfl
    | ready _ _ hwaited =>
      obtain ⟨clock, events, -, rfl⟩ := hwaited
      exact .of_amended c.instanceId { status := some .ready } rfl rfl rfl
  | trigger => exact nomatch hs

theorem calls_unstarted {stages : List BuildStage} (hs : ∀ s ∈ stages, s.failsBuild)
    (h : runIn w (stages.forM (b.call c)) = (.ok (), w')) : w.Unstarted w' := by
  induction stages generalizing w with
  | nil =>
    obtain ⟨-, rfl⟩ := Prod.mk.inj h
    exact refl w
  | cons s stages ih =>
    obtain ⟨hfirst, hrest⟩ := List.forall_mem_cons.1 hs
    obtain ⟨⟨⟩, w₁, hcall, hmore⟩ := bind_runIn_eq_ok h
    rw [runIn_call] at hcall
    obtain ⟨w₂, hbody, rfl⟩ := stage_eq_ok hcall
    have hunstarted := bodyOf_unstarted b c hfirst (w.logged [stageStarted s c])
    rw [hbody] at hunstarted
    have hstage : w.Unstarted (w₂.logged [stageCompleted s c]) :=
      ⟨hunstarted.found, hunstarted.jobs, hunstarted.logs, hunstarted.ids, hunstarted.executions⟩
    exact trans_of World.Unstarted hstage (ih hrest hmore)

/-- A failure of any stage, wherever in its body, leaves what was built before as it was, and is recorded in the
instance and in the job. In a build, the stages before it have returned, it is the last one to be entered, and nothing
is executed. -/
theorem failure_contained (hhandlers : b.engine.Upholding) (hpresent : c.Present w) :
    (∀ s f w₁, runIn (w.logged [stageStarted s c]) (b.bodyOf c s) = (.error f, w₁) →
      ∃ w', runIn w (b.call c s) = (.error f, w') ∧ Failed s c f w w') ∧
    ∀ f w', runIn w (b.run c) = (.error f, w') → ∃ done s rest w₁, BuildStage.all = done ++ s :: rest ∧
      runIn w (done.forM (b.call c)) = (.ok (), w₁) ∧ runIn w₁ (b.call c s) = (.error f, w') ∧
      Failed s c f w₁ w' ∧ w'.executions = w.executions := by
  refine ⟨fun s f w₁ => call_failed hhandlers hpresent, fun f w' h => ?_⟩
  have hcalls : runIn w (BuildStage.all.forM (b.call c)) = (.error f, w') := by
    rw [← runIn_run, runIn_discard, h]
    rfl
  obtain ⟨done, s, rest, w₁, hall, hdone, hlast⟩ := forM_runIn_eq_error hcalls
  -- what was done before the failure is one of the first three stages, none of which starts an execution
  have htaken : done = BuildStage.all.take done.length := by
    rw [hall, List.take_left]
  have hbefore : ∀ n < 4, ∀ s ∈ BuildStage.all.take n, s.failsBuild := by decide
  have hlength : done.length < 4 := by
    have htotal := congrArg List.length hall
    simp only [BuildStage.all, List.length_append, List.length_cons, List.length_nil] at htotal
    omega
  have hunstarted := calls_unstarted (htaken ▸ hbefore _ hlength) hdone
  have hfailed := call_error hhandlers (hunstarted.present hpresent) hlast
  exact ⟨done, s, rest, w₁, hall, hdone, hlast, hfailed, hfailed.executions.trans hunstarted.executions⟩

def emptied : World Binary64 where
  store := {
    instances := [⟨"I", "org", "wf", .ready, some "org/wf/I/task-chain.json", some "local://resources/I"⟩]
    jobs := [⟨"job", "org", "I", none, false⟩] }
  blobs := ⟨"drawflow", .memory, []⟩
  clock := ⟨.zero false, []⟩

/-- A built instance whose nodes are gone cannot be compiled again, but what it was built to stays. -/
theorem failure_contained_emptied : ∃ w', runIn emptied (plain.call ⟨"org", "wf", "I", some "job"⟩ .compile) =
      (.error (.graph .noStart), w') ∧
    w'.store.instances =
      [⟨"I", "org", "wf", .buildFailed, some "org/wf/I/task-chain.json", some "local://resources/I"⟩] ∧
    w'.store.jobs = [⟨"job", "org", "I", none, true⟩] ∧ w'.store.logs.map JobLog.jobId = ["job"] ∧ w'.executions = [] := by
  have hpresent : (⟨"org", "wf", "I", some "job"⟩ : BuildContext).Present emptied :=
    ⟨⟨_, rfl⟩, by simp [emptied], by simp [emptied]⟩
  obtain ⟨w', hrun, hfailed⟩ := (failure_contained plain_upholding hpresent).1 .compile (.graph .noStart) _ rfl
  refine ⟨w', hrun, ?_, ?_, ?_, hfailed.executions⟩ <;> rw [hfailed.store] <;> rfl

end Builder
end HuntDraw
