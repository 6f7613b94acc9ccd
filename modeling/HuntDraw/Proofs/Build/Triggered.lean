import HuntDraw.Proofs.Build.Failure

/-! What a job shows when it was triggered. It has the handle of its execution, and it looks failed exactly when it did
before or when the failure of an earlier stage was recorded in it: a mark that nothing takes away. -/

namespace HuntDraw

open HuntDraw.Action Engine

variable {T : Type}

namespace Store

variable {s s' : Store} {id id' : String} {j : Job} {change : JobChange}

theorem getJob_congr (h : s'.jobs = s.jobs) (id : String) : s'.getJob id = s.getJob id := by
  rw [getJob, getJob, h]

theorem id_of_getJob (h : s.getJob id = .ok j) : j.id = id := by
  simpa using List.find?_some (getJob_eq_ok.1 h)

end Store

namespace World

def KeepsJobs (w w' : World T) : Prop := w'.store.jobs = w.store.jobs

instance : IsPreorder (World T) KeepsJobs where
  refl _ := rfl
  trans _ _ _ h h' := Eq.trans h' h

variable {w : World T} {job job' : String} {j : Job} {change : Store.JobChange}

theorem find?_assigned (w : World T) (job : String) (change : Store.JobChange) (job' : String) :
    (w.assigned job change).store.jobs.find? (·.id = job') =
      (w.store.jobs.find? (·.id = job')).map fun j => if j.id = job then change.apply j else j := by
  have hid : ∀ j, (change.apply j).id = j.id := fun _ => rfl
  exact Store.find?_changed hid w.store.jobs job job'

theorem getJob_assigned (h : w.store.getJob job' = .ok j) (job : String) (change : Store.JobChange) :
    (w.assigned job change).store.getJob job' = .ok (if job' = job then change.apply j else j) := by
  rw [Store.getJob_eq_ok, find?_assigned, Store.getJob_eq_ok.1 h, Option.map_some, Store.id_of_getJob h]

end World

open World (KeepsJobs)

def Engine.SparesJobs (e : Engine T) : Prop := ∀ p ∈ e.handlers, ∀ given, (p.2 given).Along KeepsJobs

theorem Resources.handlers_sparesJobs {r : Resources} {draw : DrawSettings} {e : Engine T}
    (h : r.handlers draw = .ok e.handlers) : e.SparesJobs := by
  rw [Resources.handlers] at h
  split at h
  · cases h
  · rw [Engine.SparesJobs, ← Except.ok.inj h]
    refine List.forall_mem_map.2 fun p _ given => handler_along (R := KeepsJobs) (fun bound p' => ?_)
      (fun _ _ _ => rfl) (fun _ => rfl) (fun _ _ _ => rfl) given
    exact (p.1.work_documented draw bound p').mono fun _ _ h => h.adds.jobs

theorem Engine.SparesJobs.start [Timeline T] {e : Engine T} (h : e.SparesJobs) (resource : String) (input : Json) :
    (e.start resource input).Along KeepsJobs :=
  start_along h (fun _ _ _ => rfl) (fun _ => rfl) (fun _ _ => rfl) resource input

namespace Builder

variable {b : Builder T} {c : BuildContext} {s : BuildStage} {f : Failure} {w w' : World T} {job : String} {j : Job}

/-- A job after a failure was to be recorded: it is marked if this could be done and it is the job in scope. -/
def MarkedIn (scope : Option String) (job : String) (j : Job) (recorded : Except Failure Unit × World T) : Prop :=
  recorded.2.store.getJob job = .ok
    (if recorded.1.isOk ∧ scope = some job then { j with failedBefore := true } else j)

/-- What is done before a job is marked leaves the jobs as they are. -/
theorem MarkedIn.bind {α : Type} {scope : Option String} {a : Action T α} {mark : α → Action T Unit}
    (ha : a.Along KeepsJobs) (hmark : ∀ x v, v.store.getJob job = .ok j → MarkedIn scope job j (runIn v (mark x)))
    (hj : w.store.getJob job = .ok j) : MarkedIn scope job j (runIn w (a >>= mark)) := by
  have hkept := ha w
  rw [runIn_bind]
  rcases hrun : runIn w a with ⟨e | x, w'⟩ <;> rw [hrun] at hkept
  · have hj' : w'.store.getJob job = .ok j := (Store.getJob_congr hkept job).trans hj
    simpa [MarkedIn, Except.isOk, Except.toBool] using hj'
  · exact hmark x w' ((Store.getJob_congr hkept job).trans hj)

theorem markedIn_updateJob (name : String) (hj : w.store.getJob job = .ok j) : MarkedIn (some name) job j
    (runIn w (alter fun s => s.updateJob name { failedBefore := some true })) := by
  cases hname : w.store.getJob name with
  | ok j' =>
    rw [runIn_updateJob hname, MarkedIn, World.getJob_assigned hj]
    simp only [Except.isOk, Except.toBool, Option.some_inj, true_and, eq_comm]
    rfl
  | error e =>
    have hrefused : w.store.updateJob name { failedBefore := some true } = .error e := by
      rw [Store.getJob] at hname
      rw [Store.updateJob, Store.change, hname]
      rfl
    rw [runIn_alter_error hrefused]
    simpa [MarkedIn, Except.isOk, Except.toBool] using hj

theorem updateInstance_keepsJobs (id : String) (change : Store.InstanceChange) :
    (Action.alter fun s => s.updateInstance id change : Action T Unit).Along KeepsJobs := by
  refine .alter fun w s hs => ?_
  obtain ⟨rows, -, rfl⟩ := Attempt.map_eq_ok.1 hs
  rfl

/-- The last thing that is recorded of a failure is the mark of the job in scope. -/
theorem markedIn_recordFailure (s : BuildStage) (c : BuildContext) (f : Failure) (hj : w.store.getJob job = .ok j) :
    MarkedIn c.job job j (runIn w (recordFailure s c f)) := by
  have hblame : (if s.failsBuild then
      Action.alter fun s => s.updateInstance c.instanceId { status := some .buildFailed } else pure () :
        Action T Unit).Along KeepsJobs := by
    split_ifs
    · exact updateInstance_keepsJobs _ _
    · exact .pure _
  rw [recordFailure_eq]
  refine .bind hblame (fun _ v hv => ?_) hj
  rw [recordInJob]
  cases c.job with
  | none => simpa [MarkedIn] using hv
  | some name =>
    have hentry : ∀ l, (Action.alter fun s => s.appendLog l : Action T Unit).Along KeepsJobs := by
      refine fun l => .alter fun w s hs => ?_
      rw [Store.appendLog_change hs]
      rfl
    cases f.report? with
    | none => exact markedIn_updateJob name hv
    | some report =>
      exact .bind (.newId fun _ => rfl) (fun _ v hv => .bind (hentry _) (fun _ v hv => markedIn_updateJob name hv) hv) hv

variable [Timeline T]

theorem body_error_keepsJobs (hhandlers : b.engine.SparesJobs) (h : runIn w (b.bodyOf c s) = (.error f, w')) :
    w.KeepsJobs w' := by
  by_cases hs : s.failsBuild
  · have hunstarted := bodyOf_unstarted b c hs w
    rw [h] at hunstarted
    exact hunstarted.jobs
  · obtain rfl : s = .trigger := by cases s <;> first | rfl | exact absurd rfl hs
    cases of_runIn (triggerBody_triggers b c w) (discard_runIn_eq_error h) with
    | refused => exact refl w
    | @unrecorded job resource handle _ _ hjob hstarted hgone =>
      have hkept := hhandlers.start resource (startState c job) w
      rwa [hstarted] at hkept

/-- What becomes of a job when one is triggered: it gets the handle of the execution if it is the one in scope. -/
theorem triggerBody_started (hhandlers : b.engine.SparesJobs) {name : String} {execution : Option String}
    (hname : c.job = some name) (h : runIn w (b.triggerBody c) = (.ok execution, w'))
    (hj : w.store.getJob job = .ok j) : ∃ handle, execution = some handle ∧
      w'.store.getJob job = .ok (if job = name then { j with executionHandle := some handle } else j) := by
  cases of_runIn (triggerBody_triggers b c w) h with
  | skipped hnone => exact nomatch hname.symm.trans hnone
  | @started name' resource handle i j' w₁ hname' _ _ _ hstarted _ =>
    obtain rfl := Option.some.inj (hname.symm.trans hname')
    have hkept := hhandlers.start resource (startState c name) w
    rw [hstarted] at hkept
    exact ⟨handle, rfl, World.getJob_assigned ((Store.getJob_congr hkept job).trans hj) _ _⟩

theorem body_ok_job (hhandlers : b.engine.SparesJobs) (h : runIn w (b.bodyOf c s) = (.ok (), w'))
    (hj : w.store.getJob job = .ok j) :
    ∃ j', w'.store.getJob job = .ok j' ∧ j'.failedBefore = j.failedBefore := by
  by_cases hs : s.failsBuild
  · have hunstarted := bodyOf_unstarted b c hs w
    rw [h] at hunstarted
    exact ⟨j, (Store.getJob_congr hunstarted.jobs job).trans hj, rfl⟩
  · obtain rfl : s = .trigger := by cases s <;> first | rfl | exact absurd rfl hs
    have hbody : runIn w (discard (b.triggerBody c)) = (.ok (), w') := h
    rw [runIn_discard] at hbody
    rcases hrun : runIn w (b.triggerBody c) with ⟨f | execution, w₁⟩ <;> rw [hrun] at hbody <;>
      obtain ⟨hreturned, rfl⟩ := Prod.mk.inj hbody
    · exact nomatch hreturned
    cases hname : c.job with
    | none =>
      cases of_runIn (triggerBody_triggers b c w) hrun with
      | skipped => exact ⟨j, hj, rfl⟩
      | started hname' => exact nomatch hname.symm.trans hname'
    | some name =>
      obtain ⟨handle, -, hjob⟩ := triggerBody_started hhandlers hname hrun hj
      refine ⟨_, hjob, ?_⟩
      split_ifs <;> rfl

def records (b : Builder T) (c : BuildContext) (s : BuildStage) (w : World T) : Bool :=
  match runIn (w.logged [stageStarted s c]) (b.bodyOf c s) with
  | (.ok _, _) => false
  | (.error f, w') => (runIn (w'.logged [stageFailed s c f]) (recordFailure s c f)).1.isOk

/-- Whether one of the stages that are called in turn, until one fails, does so with a failure that can be recorded. -/
def recordsAny (b : Builder T) (c : BuildContext) : List BuildStage → World T → Bool
  | [], _ => false
  | s :: stages, w =>
    match runIn w (b.call c s) with
    | (.ok _, w') => b.recordsAny c stages w'
    | (.error _, _) => b.records c s w

/-- A call of a stage marks the job in scope when a failure of it is recorded, and marks no job otherwise. -/
theorem getJob_call (hhandlers : b.engine.SparesJobs) (s : BuildStage) (c : BuildContext)
    (hj : w.store.getJob job = .ok j) : ∃ j', (runIn w (b.call c s)).2.store.getJob job = .ok j' ∧
      j'.failedBefore = (j.failedBefore || (decide (c.job = some job) && b.records c s w)) := by
  rw [runIn_call, records]
  rcases hbody : runIn (w.logged [stageStarted s c]) (b.bodyOf c s) with ⟨f | ⟨⟩, w₁⟩
  · have hkept := body_error_keepsJobs hhandlers hbody
    have hmarked : MarkedIn c.job job j (runIn (w₁.logged [stageFailed s c f]) (recordFailure s c f)) :=
      markedIn_recordFailure s c f ((Store.getJob_congr hkept job).trans hj)
    rw [runIn_stage_error hbody, runIn_bind]
    rcases hrecord : runIn (w₁.logged [stageFailed s c f]) (recordFailure s c f) with ⟨e | ⟨⟩, w₂⟩ <;>
      rw [MarkedIn, hrecord] at hmarked
    · exact ⟨j, by simpa [Except.isOk, Except.toBool] using hmarked, by simp [hrecord, Except.isOk, Except.toBool]⟩
    · refine ⟨_, hmarked, ?_⟩
      by_cases hscope : c.job = some job <;> simp [hscope, hrecord, Except.isOk, Except.toBool]
  · obtain ⟨j', hj', hmark⟩ := body_ok_job hhandlers hbody hj
    rw [runIn_stage_ok hbody]
    exact ⟨j', hj', by rw [hmark, Bool.and_false, Bool.or_false]⟩

theorem getJob_calls (hhandlers : b.engine.SparesJobs) (stages : List BuildStage) (c : BuildContext)
    (hj : w.store.getJob job = .ok j) : ∃ j', (runIn w (stages.forM (b.call c))).2.store.getJob job = .ok j' ∧
      j'.failedBefore = (j.failedBefore || (decide (c.job = some job) && b.recordsAny c stages w)) := by
  induction stages generalizing w j with
  | nil => exact ⟨j, hj, by simp [recordsAny]⟩
  | cons s stages ih =>
    obtain ⟨j₁, hj₁, hmark₁⟩ := getJob_call hhandlers s c hj
    have hturn : runIn w ((s :: stages).forM (b.call c)) =
        runIn w (b.call c s >>= fun _ => stages.forM (b.call c)) := rfl
    rw [hturn, runIn_bind, recordsAny]
    rcases hcall : runIn w (b.call c s) with ⟨f | ⟨⟩, w₁⟩ <;> rw [hcall] at hj₁
    · exact ⟨j₁, hj₁, hmark₁⟩
    · obtain ⟨j₂, hj₂, hmark₂⟩ := ih hj₁
      -- a stage that returns has no failure to record
      have hunrecorded : b.records c s w = false := by
        rw [runIn_call] at hcall
        obtain ⟨w₂, hbody, -⟩ := stage_eq_ok hcall
        rw [records, hbody]
      rw [hunrecorded, Bool.and_false, Bool.or_false] at hmark₁
      exact ⟨j₂, hj₂, by rw [hmark₂, hmark₁]⟩

/-- What may happen to a job, with whether a failure was recorded in it: calls of stages and runs on any contexts,
whatever comes of them, and in between whatever leaves the job alone, such as edits of graphs. -/
inductive JobHistory (b : Builder T) (job : String) : World T → Bool → World T → Prop
  | refl (w : World T) : JobHistory b job w false w
  | call {w w' : World T} {recorded : Bool} (h : JobHistory b job w recorded w') (c : BuildContext) (s : BuildStage) :
      JobHistory b job w (recorded || (decide (c.job = some job) && b.records c s w')) (runIn w' (b.call c s)).2
  | run {w w' : World T} {recorded : Bool} (h : JobHistory b job w recorded w') (c : BuildContext) :
      JobHistory b job w (recorded || (decide (c.job = some job) && b.recordsAny c BuildStage.all w'))
        (runIn w' (b.run c)).2
  | outside {w w' w'' : World T} {recorded : Bool} (h : JobHistory b job w recorded w')
      (hsame : w''.store.getJob job = w'.store.getJob job) : JobHistory b job w recorded w''

/-- A job looks failed when it did from the start, or when a failure was recorded in it. -/
theorem JobHistory.failedBefore {w₀ : World T} {j₀ : Job} {recorded : Bool} (hhandlers : b.engine.SparesJobs)
    (hj₀ : w₀.store.getJob job = .ok j₀) (h : b.JobHistory job w₀ recorded w) :
    ∃ j, w.store.getJob job = .ok j ∧ j.failedBefore = (j₀.failedBefore || recorded) := by
  induction h with
  | refl => exact ⟨j₀, hj₀, by rw [Bool.or_false]⟩
  | call _ c s ih =>
    obtain ⟨j, hj, hmark⟩ := ih
    obtain ⟨j', hj', hmark'⟩ := getJob_call hhandlers s c hj
    exact ⟨j', hj', by rw [hmark', hmark, Bool.or_assoc]⟩
  | run _ c ih =>
    obtain ⟨j, hj, hmark⟩ := ih
    obtain ⟨j', hj', hmark'⟩ := getJob_calls hhandlers BuildStage.all c hj
    rw [← runIn_run, runIn_discard] at hj'
    exact ⟨j', hj', by rw [hmark', hmark, Bool.or_assoc]⟩
  | outside _ hsame ih =>
    obtain ⟨j, hj, hmark⟩ := ih
    exact ⟨j, hsame.trans hj, hmark⟩

/-- Directly after a job was triggered it has the handle of its execution. -/
theorem trigger_started (hhandlers : b.engine.SparesJobs) (hc : c.job = some job) {execution : Option String}
    (h : runIn w (b.trigger c) = (.ok execution, w')) (hj : w.store.getJob job = .ok j) : ∃ handle,
      execution = some handle ∧ w'.store.getJob job = .ok { j with executionHandle := some handle } := by
  obtain ⟨w₁, hbody, rfl⟩ := stage_eq_ok h
  obtain ⟨handle, rfl, hjob⟩ := triggerBody_started hhandlers hc hbody hj
  rw [if_pos rfl] at hjob
  exact ⟨handle, rfl, hjob⟩

/-- A run that returns does nothing to a job before it triggers it. -/
theorem run_started (hhandlers : b.engine.SparesJobs) (hc : c.job = some job) {built : BuildResult}
    (h : runIn w (b.run c) = (.ok built, w')) (hj : w.store.getJob job = .ok j) : ∃ handle,
      built.execution = some handle ∧ w'.store.getJob job = .ok { j with executionHandle := some handle } := by
  obtain ⟨w₁, w₂, w₃, hcompile, hregister, hawait, htrigger⟩ := run_eq_ok h
  have hreturned : ∀ {α : Type} {a : Action T α} {x : α} {v v' : World T}, runIn v a = (.ok x, v') →
      runIn v (discard a) = (.ok (), v') := by
    intro α a x v v' hrun
    rw [runIn_discard, hrun]
    rfl
  have hcalls : runIn w ([BuildStage.compile, .register, .awaitReady].forM (b.call c)) = (.ok (), w₃) :=
    (runIn_bind_ok (hreturned hcompile)).trans ((runIn_bind_ok (hreturned hregister)).trans
      (runIn_bind_ok (hreturned hawait)))
  have hunstarted := calls_unstarted (by decide) hcalls
  exact trigger_started hhandlers hc htrigger ((Store.getJob_congr hunstarted.jobs job).trans hj)

/-- A failure is recorded wherever the instance of the build and the job in scope are there. -/
theorem records_of_present (hhandlers : b.engine.Upholding) (hpresent : c.Present w)
    (h : runIn w (b.call c s) = (.error f, w')) : b.records c s w := by
  rw [runIn_call] at h
  obtain ⟨cause, w₁, hbody, -⟩ := stage_error h
  have hstopped : Stopped s c w (w₁.logged [stageFailed s c cause]) :=
    (body_stopped (w := w.logged [stageStarted s c]) hhandlers ⟨hpresent.found, hpresent.job, hpresent.logs⟩
      hbody).logged
  obtain ⟨w₂, hrecord, -⟩ := runIn_recordFailure hpresent hstopped cause
  rw [records, hbody]
  simp only
  rw [hrecord]
  rfl

/-- However builds went before: directly after a call of the last stage, or a run, that returns, a job in scope has the
handle of the execution that was started. It does not look failed exactly when it did not from the start and no failure
was recorded in it since. -/
theorem triggered_unmarked_iff (hhandlers : b.engine.SparesJobs) {w₀ : World T} {j₀ : Job} {recorded : Bool}
    (hj₀ : w₀.store.getJob job = .ok j₀) (h : b.JobHistory job w₀ recorded w) (hc : c.job = some job) :
    (∀ execution w', runIn w (b.trigger c) = (.ok execution, w') → ∃ handle j, execution = some handle ∧
      w'.store.getJob job = .ok j ∧ j.executionHandle = some handle ∧
      (j.failedBefore = false ↔ j₀.failedBefore = false ∧ recorded = false)) ∧
    ∀ built w', runIn w (b.run c) = (.ok built, w') → ∃ handle j, built.execution = some handle ∧
      w'.store.getJob job = .ok j ∧ j.executionHandle = some handle ∧
      (j.failedBefore = false ↔ j₀.failedBefore = false ∧ recorded = false) := by
  obtain ⟨j, hj, hmark⟩ := h.failedBefore hhandlers hj₀
  constructor
  · intro execution w' htrigger
    obtain ⟨handle, rfl, hjob⟩ := trigger_started hhandlers hc htrigger hj
    exact ⟨handle, _, rfl, hjob, rfl, by simp [hmark]⟩
  · intro built w' hrun
    obtain ⟨handle, hhandle, hjob⟩ := run_started hhandlers hc hrun hj
    exact ⟨handle, _, hhandle, hjob, rfl, by simp [hmark]⟩

theorem plain_sparesJobs : (plain : Builder T).engine.SparesJobs := Resources.handlers_sparesJobs plain_handlers

/-- The built instance whose nodes are gone, with the resource that it was built to. -/
def stranded : World Binary64 := { emptied with resources := [("local://resources/I", ⟨"I", ⟨"", []⟩, .zero false⟩)] }

def strandedContext : BuildContext := ⟨"org", "wf", "I", some "job"⟩

theorem getJob_stranded : stranded.store.getJob "job" = .ok ⟨"job", "org", "I", none, false⟩ := rfl

/-- The stranded instance cannot be compiled again. Once its resource was waited for, its job is triggered all the
same. -/
theorem stranded_triggered : ∃ w execution w', plain.JobHistory "job" stranded true w ∧
    runIn w (plain.trigger strandedContext) = (.ok execution, w') := by
  have hpresent : strandedContext.Present stranded :=
    ⟨⟨_, rfl⟩, by simp [strandedContext, stranded, emptied], by simp [stranded, emptied]⟩
  obtain ⟨w₁, hcompile, hclock, hresources, hfound, hjobs⟩ : ∃ w₁ : World Binary64,
      runIn stranded (plain.call strandedContext .compile) = (.error (.graph .noStart), w₁) ∧
      w₁.clock = stranded.clock ∧ w₁.resources = stranded.resources ∧ w₁.store.getInstance "I" =
        .ok ⟨"I", "org", "wf", .buildFailed, some "org/wf/I/task-chain.json", some "local://resources/I"⟩ ∧
      w₁.store.jobs.map Job.id = ["job"] := ⟨_, rfl, rfl, rfl, rfl, rfl⟩
  have hcount : attempts (T := Binary64) (plain : Builder Binary64).settings.build = .ok 301 := by decide +kernel
  have hactive : Timeline.le (.zero false : Binary64) w₁.clock.now := by
    rw [hclock]
    decide +kernel
  have hr : w₁.resources.get? "local://resources/I" = some ⟨"I", ⟨"", []⟩, .zero false⟩ := by
    rw [hresources]
    rfl
  obtain ⟨w₂, hawait, hready, hr₂, hactive₂, hjobs₂⟩ : ∃ w₂ : World Binary64,
      runIn w₁ (plain.awaitReady strandedContext) = (.ok (), w₂) ∧ w₂.store.getInstance "I" =
        .ok ⟨"I", "org", "wf", .ready, some "org/wf/I/task-chain.json", some "local://resources/I"⟩ ∧
      w₂.resources.get? "local://resources/I" = some ⟨"I", ⟨"", []⟩, .zero false⟩ ∧
      Timeline.le (.zero false : Binary64) w₂.clock.now ∧ w₂.store.jobs = w₁.store.jobs :=
    ⟨_, runIn_stage_ok (awaitBody_active (w := w₁.logged [stageStarted .awaitReady strandedContext]) hfound rfl hcount
      hr hactive), World.getInstance_amended_self (w := w₁.logged _) hfound { status := some .ready }, hr, hactive, rfl⟩
  obtain ⟨execution, w₃, htrigger⟩ := trigger_returns (c := strandedContext) plain_upholding hready rfl rfl hr₂ hactive₂
    fun job hjob => by
      obtain ⟨j, hj, hid⟩ := List.mem_map.1 (hjobs ▸ List.mem_singleton.2 rfl : "job" ∈ w₁.store.jobs.map Job.id)
      exact ⟨j, hjobs₂ ▸ hj, hid.trans (Option.some.inj hjob)⟩
  have hstart : plain.JobHistory "job" stranded false stranded := .refl stranded
  have hhistory := (hstart.call strandedContext .compile).call strandedContext .awaitReady
  rw [records_of_present plain_upholding hpresent hcompile, hcompile] at hhistory
  have hcall : (runIn w₁ (plain.call strandedContext .awaitReady)).2 = w₂ := by
    rw [call, runIn_discard, hawait]
  rw [hcall] at hhistory
  exact ⟨w₂, execution, w₃, hhistory, htrigger⟩

/-- The job of the stranded instance looks failed when it was triggered. -/
theorem triggered_unmarked_iff_stranded : ∃ w execution w' handle j, plain.JobHistory "job" stranded true w ∧
    runIn w (plain.trigger strandedContext) = (.ok execution, w') ∧ execution = some handle ∧
    w'.store.getJob "job" = .ok j ∧ j.executionHandle = some handle ∧ j.failedBefore = true := by
  obtain ⟨w, execution, w', hhistory, htrigger⟩ := stranded_triggered
  obtain ⟨handle, j, hhandle, hj, hexecution, hmark⟩ := (triggered_unmarked_iff plain_sparesJobs
    getJob_stranded hhistory rfl).1 execution w' htrigger
  have hmarked : j.failedBefore ≠ false := fun hfalse => nomatch (hmark.1 hfalse).2
  exact ⟨w, execution, w', handle, j, hhistory, htrigger, hhandle, hj, hexecution, by simpa using hmarked⟩

/-- A job that was triggered may look failed, although it did not when the builds began. -/
theorem not_triggered_unmarked : ¬∀ (b : Builder Binary64) (job : String) (w₀ w : World Binary64) (recorded : Bool)
    (j₀ : Job) (c : BuildContext) (handle : String) (w' : World Binary64), b.engine.SparesJobs →
    w₀.store.getJob job = .ok j₀ → j₀.failedBefore = false → b.JobHistory job w₀ recorded w → c.job = some job →
    runIn w (b.trigger c) = (.ok (some handle), w') →
    ∃ j, w'.store.getJob job = .ok j ∧ j.executionHandle = some handle ∧ j.failedBefore = false := by
  intro h
  obtain ⟨w, execution, w', hhistory, htrigger⟩ := stranded_triggered
  obtain ⟨j, hj, hmark⟩ := hhistory.failedBefore plain_sparesJobs getJob_stranded
  obtain ⟨handle, rfl, hjob⟩ := trigger_started plain_sparesJobs rfl htrigger hj
  obtain ⟨j', hj', -, hunmarked⟩ := h plain "job" stranded w true _ strandedContext handle w' plain_sparesJobs
    getJob_stranded rfl hhistory rfl htrigger
  obtain rfl := Except.ok.inj (hj'.symm.trans hjob)
  exact nomatch hunmarked.symm.trans hmark

end Builder
end HuntDraw
