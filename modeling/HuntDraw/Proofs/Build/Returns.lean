import HuntDraw.Proofs.Build.Agreement

/-! Builds that return. Whatever was there before it, each stage takes up what the one before it made: the definition of
the graph as it is stored, the resource that executes it, and the instance that is ready. A build returns if the graph
compiles, its definition can be stored and its resource does not take longer than it is waited for. -/

namespace HuntDraw

open HuntDraw.Action Engine Attempt

variable {T : Type}

/-- An instance with its definition and its resource: the bytes of the definition are kept under its key, and the engine
executes the chain under the handle. -/
structure World.Registered (w : World T) (c : BuildContext) (bytes : Bytes) (chain : TaskChain) (handle : String)
    (i : Instance) : Prop where
  found : w.store.getInstance c.instanceId = .ok i
  key : i.definitionKey = some c.definitionKey
  noted : i.executionHandle = some handle
  stored : w.blobs.read c.definitionKey = .ok (.bytes bytes)
  executes : ∃ r, w.resources.get? handle = some r ∧ r.chain = chain

namespace World.Registered

variable {w w' : World T} {c : BuildContext} {bytes : Bytes} {chain : TaskChain} {handle : String} {i : Instance}

theorem upholds (h : w.Registered c bytes chain handle i) (hupholds : w.Upholds w') :
    w'.Registered c bytes chain handle i := by
  refine ⟨by rw [Store.getInstance_congr hupholds.instances, h.found], h.key, h.noted,
    BlobStore.read_of_get? h.stored (hupholds.definitions c), ?_⟩
  rw [hupholds.resources]
  exact h.executes

theorem amended_status (h : w.Registered c bytes chain handle i) (status : InstanceStatus) :
    (w.amended c.instanceId { status := some status }).Registered c bytes chain handle { i with status } :=
  ⟨getInstance_amended_self h.found _, h.key, h.noted, h.stored, h.executes⟩

end World.Registered

theorem Engine.nameOf?_handleOf {name : String} (h : name ≠ "") : nameOf? (handleOf name) = some name := by
  have hstart : Text.startsWith (handleOf name) handleStart := by
    rw [Text.startsWith, handleOf, String.toList_append, List.isPrefixOf_iff_prefix]
    exact List.prefix_append _ _
  have hfilled : handleOf name ≠ handleStart := fun heq =>
    h (handleOf_injective (heq.trans (String.append_empty (s := handleStart)).symm))
  have hrest : ((handleOf name).drop handleStart.length).toString = name := by
    refine String.toList_injective ?_
    change ((handleOf name).drop handleStart.length).copy.toList = _
    rw [String.toList_copy_drop, handleOf, String.toList_append]
    exact List.drop_left
  rw [nameOf?, if_pos ⟨hstart, hfilled⟩, hrest]

namespace Builder

variable [Timeline T] {b : Builder T} {c made : BuildContext} {v w w' : World T} {i : Instance} {compiled : Compilation}
  {bytes : Bytes} {digest handle : String}

omit [Timeline T] in
/-- Compiling that returns has stored the definition of the graph and noted it down. -/
theorem compile_eq_ok {result : CompileResult} (h : runIn w (b.compile c) = (.ok result, w')) :
    ∃ i compiled bytes digest events, w.store.getInstance c.instanceId = .ok i ∧
      b.Defines c w compiled bytes digest ∧ (∀ e ∈ events, LogEvent.Quiet e) ∧
      result = ⟨c.definitionKey, digest, compiled.chain.tasks.length, compiled.warnings⟩ ∧
      w' = (w.defined c bytes).logged events := by
  obtain ⟨w₁, hbody, rfl⟩ := stage_eq_ok h
  cases of_runIn (compileBody_compiles b c _) hbody with
  | @defined i compiled bytes digest events hfound hdefines hquiet =>
    refine ⟨i, compiled, bytes, digest, stageEvents .compile c events, hfound, defines_logged.1 hdefines,
      stageEvents_quiet hquiet, rfl, ?_⟩
    rw [World.defined_logged, World.logged_logged, World.logged_logged]
    rfl

/-- Registering that returns has brought the definition that is kept into the resource. -/
theorem register_registered (hdefines : b.Defines made v compiled bytes digest)
    (hfound : w.store.getInstance c.instanceId = .ok i) (hkey : i.definitionKey = some c.definitionKey)
    (hread : w.blobs.read c.definitionKey = .ok (.bytes bytes)) (h : runIn w (b.register c) = (.ok handle, w')) :
    ∃ i', w'.Registered c bytes compiled.chain.arranged handle i' := by
  obtain ⟨w₁, hbody, rfl⟩ := stage_eq_ok h
  cases of_runIn (registerBody_registers b c _) hbody with
  | created hfound' hloaded haccepted hnone hnew =>
    obtain rfl := hdefines.chain_eq hfound hkey hread hloaded haccepted
    obtain rfl := Except.ok.inj (hfound.symm.trans hfound')
    exact ⟨_, getInstance_installed hfound' _, hkey, rfl, hread, _, Fields.get?_put_self _ _, rfl⟩
  | updated hfound' hloaded haccepted hhandle hname =>
    obtain rfl := hdefines.chain_eq hfound hkey hread hloaded haccepted
    obtain rfl := Except.ok.inj (hfound.symm.trans hfound')
    exact ⟨i, hfound, hkey, hhandle, hread, _, Fields.get?_put_self _ _, rfl⟩

theorem awaitReady_registered {chain : TaskChain} (hregistered : w.Registered c bytes chain handle i)
    (h : runIn w (b.awaitReady c) = (.ok (), w')) : w'.Registered c bytes chain handle { i with status := .ready } := by
  obtain ⟨w₁, hbody, rfl⟩ := stage_eq_ok h
  cases of_runIn (awaitBody_awaits b c _) hbody with
  | ready hfound hhandle hwaited =>
    have hstarted := hregistered.upholds (.logged_event (stageStarted_quiet .awaitReady c) w)
    exact ((hstarted.upholds hwaited.upholds).amended_status .ready).upholds
      (.logged_event (stageCompleted_quiet .awaitReady c) _)

theorem trigger_upholds (hhandlers : b.engine.Upholding) {execution : Option String}
    (h : runIn w (b.trigger c) = (.ok execution, w')) : w.Upholds w' := by
  obtain ⟨w₁, hbody, rfl⟩ := stage_eq_ok h
  have hupholds := triggerBody_upholds hhandlers c (w.logged [stageStarted .trigger c])
  rw [hbody] at hupholds
  exact trans_of World.Upholds (trans_of World.Upholds (.logged_event (stageStarted_quiet .trigger c) w) hupholds)
    (.logged_event (stageCompleted_quiet .trigger c) w₁)

omit [Timeline T] in
/-- Compiling returns where nothing is in the way of the definition. -/
theorem compile_returns (hfound : w.store.getInstance c.instanceId = .ok i)
    (hdefines : b.Defines c w compiled bytes digest) (hfree : w.blobs.obstacle c.definitionKey = none) :
    ∃ events, (∀ e ∈ events, LogEvent.Quiet e) ∧ runIn w (b.compile c) =
      (.ok ⟨c.definitionKey, digest, compiled.chain.tasks.length, compiled.warnings⟩,
        (w.defined c bytes).logged events) := by
  obtain ⟨events, hquiet, hbody⟩ := compileBody_defines (w := w.logged [stageStarted .compile c]) hfound
    (defines_logged.2 hdefines) hfree
  refine ⟨stageEvents .compile c events, stageEvents_quiet hquiet, (runIn_stage_ok hbody).trans ?_⟩
  rw [World.defined_logged, World.logged_logged, World.logged_logged]
  rfl

/-- Registering returns where the definition is kept, and gives the instance its resource. -/
theorem register_returns (hagrees : w.Agrees) (hid : i.executionHandle ≠ none → c.instanceId ≠ "")
    (hdefines : b.Defines made v compiled bytes digest) (hfound : w.store.getInstance c.instanceId = .ok i)
    (hkey : i.definitionKey = some c.definitionKey) (hread : w.blobs.read c.definitionKey = .ok (.bytes bytes)) :
    ∃ name w', runIn w (b.register c) = (.ok (handleOf c.instanceId), w') ∧ w'.clock = w.clock ∧
      w'.store.jobs = w.store.jobs ∧ w'.resources =
        w.resources.put (handleOf c.instanceId) (b.engine.resourceAt w name compiled.chain.arranged) := by
  have hloaded : definition c (w.logged [stageStarted .register c]) = .ok compiled.chain.toJson.sortFields :=
    definition_of_defines (w := w.logged _) hdefines hfound hkey hread
  cases hhandle : i.executionHandle with
  | none =>
    have hnew : ¬w.resources.has (handleOf c.instanceId) := fun hhas =>
      nomatch hhandle.symm.trans (hagrees.of_resource hfound (Fields.has_iff.1 hhas))
    have hbody := runIn_registerBody_none (b := b) (w := w.logged [stageStarted .register c]) hfound hloaded hhandle
    rw [hdefines.accept] at hbody
    exact ⟨_, _, runIn_stage_ok (hbody.trans (if_neg hnew)), rfl, rfl, rfl⟩
  | some handle =>
    obtain rfl := ((hagrees.instances _ i hfound).handle handle hhandle).1
    have hname := nameOf?_handleOf (hid (by simp [hhandle]))
    have hbody := runIn_registerBody_some (b := b) (w := w.logged [stageStarted .register c]) hfound hloaded hhandle
    rw [hdefines.accept, hname] at hbody
    exact ⟨c.instanceId, _, runIn_stage_ok hbody, rfl, rfl, rfl⟩

def skipEvents (c : BuildContext) : List LogEvent :=
  stageEvents .trigger c [⟨.info, "trigger_skipped_no_job", c.fields⟩]

theorem skipEvents_quiet (c : BuildContext) : ∀ e ∈ skipEvents c, e.Quiet :=
  stageEvents_quiet (List.forall_mem_singleton.2 (by decide : "trigger_skipped_no_job" ≠ "resource_created"))

theorem trigger_skipped (hjob : c.job = none) : runIn w (b.trigger c) = (.ok none, w.logged (skipEvents c)) := by
  have hbody : runIn (w.logged [stageStarted .trigger c]) (b.triggerBody c) =
      (.ok none, (w.logged [stageStarted .trigger c]).logged [⟨.info, "trigger_skipped_no_job", c.fields⟩]) := by
    rw [triggerBody, hjob]
    rfl
  refine (runIn_stage_ok hbody).trans ?_
  rw [World.logged_logged, World.logged_logged]
  rfl

/-- Triggering returns where the instance is ready, its resource is active and the job is there. -/
theorem trigger_returns (hhandlers : b.engine.Upholding) {resource : String} {r : Resource T}
    (hfound : w.store.getInstance c.instanceId = .ok i) (hready : i.status = .ready)
    (hhandle : i.executionHandle = some resource) (hr : w.resources.get? resource = some r)
    (hactive : Timeline.le r.activeAt w.clock.now)
    (hjob : ∀ job, c.job = some job → ∃ j ∈ w.store.jobs, j.id = job) :
    ∃ execution w', runIn w (b.trigger c) = (.ok execution, w') := by
  cases hcase : c.job with
  | none => exact ⟨_, _, trigger_skipped hcase⟩
  | some job =>
    obtain ⟨handle, w', hstart⟩ :=
      startJob_active (c := c) (w := w.logged [stageStarted .trigger c]) hhandlers hr hactive (hjob job hcase)
    have hbody := runIn_triggerBody (b := b) (w := w.logged [stageStarted .trigger c]) hcase hfound hready hhandle
    rw [hstart] at hbody
    exact ⟨_, _, runIn_stage_ok hbody⟩

/-- A build returns if its graph compiles to a definition that can be stored, its resource is active at once, and its
job is there. -/
theorem run_returns (hhandlers : b.engine.Upholding) (hagrees : w.Agrees) (hid : c.instanceId ≠ "") {count : Int}
    (hfound : w.store.getInstance c.instanceId = .ok i) (hdefines : b.Defines c w compiled bytes digest)
    (hfree : w.blobs.obstacle c.definitionKey = none) (hcount : attempts (T := T) b.settings.build = .ok count)
    (hactive : Timeline.le (Timeline.add w.clock.now b.engine.delay) w.clock.now)
    (hjob : ∀ job, c.job = some job → ∃ j ∈ w.store.jobs, j.id = job) :
    ∃ built w', runIn w (b.run c) = (.ok built, w') := by
  obtain ⟨events, -, hcompile⟩ := compile_returns hfound hdefines hfree
  have hagrees₁ := (compile_keeps b c w hagrees).1
  rw [hcompile] at hagrees₁
  have hfound₁ := World.getInstance_defined_self hfound bytes events
  have hread₁ := World.read_defined w hdefines.key bytes events
  obtain ⟨name, w₂, hregister, hclock₂, hjobs₂, hresources₂⟩ :=
    register_returns hagrees₁ (fun _ => hid) hdefines hfound₁ rfl hread₁
  obtain ⟨i₂, hregistered⟩ := register_registered hdefines hfound₁ rfl hread₁ hregister
  have hr₂ : w₂.resources.get? (handleOf c.instanceId) =
      some (b.engine.resourceAt ((w.defined c bytes).logged events) name compiled.chain.arranged) := by
    rw [hresources₂, Fields.get?_put_self]
  have hactive₂ : Timeline.le (Timeline.add w.clock.now b.engine.delay) w₂.clock.now := by
    rw [hclock₂]
    exact hactive
  -- no time has passed, so that the new resource is active when it is first looked at
  have hawait : runIn w₂ (b.awaitReady c) = _ := runIn_stage_ok (awaitBody_active
    (w := w₂.logged [stageStarted .awaitReady c]) hregistered.found hregistered.noted hcount hr₂ hactive₂)
  have hready := awaitReady_registered hregistered hawait
  obtain ⟨execution, w₄, htrigger⟩ := trigger_returns (c := c) hhandlers hready.found rfl hready.noted hr₂ hactive₂
    fun job hcase => hjobs₂ ▸ hjob job hcase
  exact ⟨_, _, (runIn_bind_ok hcompile).trans ((runIn_bind_ok hregister).trans ((runIn_bind_ok hawait).trans
    (runIn_bind_ok htrigger)))⟩

/-- A build that returns leaves the instance ready, with the definition that was compiled when the build began. -/
theorem run_registered (hhandlers : b.engine.Upholding) {built : BuildResult}
    (h : runIn w (b.run c) = (.ok built, w')) : ∃ compiled bytes digest i, b.Defines c w compiled bytes digest ∧
      built.compiled = ⟨c.definitionKey, digest, compiled.chain.tasks.length, compiled.warnings⟩ ∧
      w'.Registered c bytes compiled.chain.arranged built.resource i ∧ i.status = .ready := by
  obtain ⟨w₁, w₂, w₃, hcompile, hregister, hawait, htrigger⟩ := run_eq_ok h
  obtain ⟨i₀, compiled, bytes, digest, events, hfound, hdefines, -, hresult, rfl⟩ := compile_eq_ok hcompile
  obtain ⟨i₂, hregistered⟩ := register_registered hdefines (World.getInstance_defined_self hfound bytes events) rfl
    (World.read_defined w hdefines.key bytes events) hregister
  exact ⟨compiled, bytes, digest, _, hdefines, hresult,
    (awaitReady_registered hregistered hawait).upholds (trigger_upholds hhandlers htrigger), rfl⟩

end Builder

section Pair

variable [Timeline T]

def Graph.single (id : String) : Graph := ⟨[⟨id, .task .noop, none⟩], []⟩

omit [Timeline T] in
theorem Graph.compile_single (id organization : String) (address : String → Except BlobFault String) :
    ∃ task, (single id).compile ⟨organization, .local, address⟩ = .ok ⟨⟨id, [(id, task)]⟩, []⟩ := by
  have hnode : (single id).node? id = some ⟨id, .task .noop, none⟩ := List.find?_cons_of_pos (by simp)
  have hmem : id ∈ (single id).ids := List.mem_cons_self
  have hrest : (single id).ids.erase id = [] := List.erase_cons_head id []
  obtain ⟨task, htask⟩ : ∃ task, (single id).task ⟨organization, .local, address⟩ true ⟨id, .task .noop, none⟩ none =
      .ok task := ⟨_, rfl⟩
  have hwalk : (single id).walk ⟨organization, .local, address⟩ true (single id).ids id = .ok ([(id, task)], []) := by
    rw [walk, hnode]
    simp only
    rw [dif_pos hmem]
    change ((single id).task _ true _ none >>= _) = _
    rw [htask, hrest]
    rfl
  refine ⟨task, ?_⟩
  change ((single id).walk _ true _ id >>= _) = _
  rw [hwalk]
  rfl

/-- A builder as it is without settings, whose resources are active at once. -/
def Builder.plain : Builder T :=
  ⟨{}, ⟨(Resources.local.handlers {}).toOption.getD [], Timeline.ofNumber (.zero false)⟩⟩

theorem Builder.plain_handlers :
    (plain : Builder T).settings.resources.handlers {} = .ok (plain : Builder T).engine.handlers := rfl

theorem Builder.plain_upholding : (plain : Builder T).engine.Upholding := Resources.handlers_upholding plain_handlers

def World.pair (c c' : BuildContext) : World T where
  store := {
    instances := [⟨c.instanceId, c.organization, c.workflow, .buildNeeded, none, none⟩,
      ⟨c'.instanceId, c'.organization, c'.workflow, .buildNeeded, none, none⟩]
    nodes := [⟨"a", c.instanceId, "WorkflowNoopNode", none⟩, ⟨"b", c'.instanceId, "WorkflowNoopNode", none⟩] }
  blobs := ⟨"drawflow", .memory, []⟩
  clock := ⟨Timeline.ofNumber (.zero false), []⟩

theorem World.getInstance_pair (c c' : BuildContext) : (pair c c' : World T).store.getInstance c.instanceId =
    .ok ⟨c.instanceId, c.organization, c.workflow, .buildNeeded, none, none⟩ := by
  simp [pair, Store.getInstance_eq_ok]

theorem World.getInstance_pair' {c c' : BuildContext} (h : c.instanceId ≠ c'.instanceId) :
    (pair c c' : World T).store.getInstance c'.instanceId =
      .ok ⟨c'.instanceId, c'.organization, c'.workflow, .buildNeeded, none, none⟩ := by
  simp [pair, Store.getInstance_eq_ok, h]

theorem World.listNodes_pair {c c' : BuildContext} (h : c.instanceId ≠ c'.instanceId) :
    (pair c c' : World T).store.listNodes c.instanceId = [⟨"a", c.instanceId, "WorkflowNoopNode", none⟩] ∧
      (pair c c' : World T).store.listNodes c'.instanceId = [⟨"b", c'.instanceId, "WorkflowNoopNode", none⟩] := by
  simp [pair, Store.listNodes, h, h.symm]

theorem World.pair_fresh (c c' : BuildContext) : (pair c c' : World T).Fresh :=
  ⟨by simp [pair], rfl, rfl⟩

theorem Builder.compilation_single {c : BuildContext} {w : World T} {id : String}
    (hnodes : w.store.listNodes c.instanceId = [⟨id, c.instanceId, "WorkflowNoopNode", none⟩])
    (hedges : w.store.edges = []) (hdocuments : w.store.documents = []) :
    ∃ task, plain.compilation c w = .ok ⟨⟨id, [(id, task)]⟩, []⟩ := by
  obtain ⟨task, htask⟩ := Graph.compile_single id c.organization w.blobs.addressOf
  refine ⟨task, compilation_eq_ok.2 ⟨Graph.single id, ?_, htask⟩⟩
  rw [hnodes, Store.listEdges, hedges, Store.listDocuments, hdocuments]
  rfl

theorem Builder.compile_single {c : BuildContext} {w : World T} {i : Instance} {id : String}
    (hfound : w.store.getInstance c.instanceId = .ok i)
    (hnodes : w.store.listNodes c.instanceId = [⟨id, c.instanceId, "WorkflowNoopNode", none⟩])
    (hedges : w.store.edges = []) (hdocuments : w.store.documents = []) (hmemory : w.blobs.keeping = .memory)
    (hkey : Blob.isKey c.definitionKey.toList = true) : ∃ compiled bytes digest result events,
      compiled.chain.start = id ∧ plain.Defines c w compiled bytes digest ∧
        runIn w (plain.compile c) = (.ok result, (w.defined c bytes).logged events) := by
  obtain ⟨task, hcompiled⟩ := compilation_single hnodes hedges hdocuments
  obtain ⟨bytes, digest, hdefines⟩ := Defines.of_compilation hcompiled plain_handlers hkey
  have hfree : w.blobs.obstacle c.definitionKey = none := by
    rw [BlobStore.obstacle, hmemory]
  obtain ⟨events, -, hcompile⟩ := compile_returns hfound hdefines hfree
  exact ⟨_, bytes, digest, _, events, rfl, hdefines, hcompile⟩

def sampleContext (id : String) : BuildContext := ⟨"org", "wf", id, none⟩

theorem Builder.run_pair : ∃ task, plain.compilation (sampleContext "I")
      (.pair (sampleContext "I") (sampleContext "J") : World Binary64) = .ok ⟨⟨"a", [("a", task)]⟩, []⟩ ∧
    ∃ built w', runIn (World.pair (sampleContext "I") (sampleContext "J")) (plain.run (sampleContext "I")) =
      ((.ok built, w') : Except Failure BuildResult × World Binary64) := by
  have hids : (sampleContext "I").instanceId ≠ (sampleContext "J").instanceId := (by decide : "I" ≠ "J")
  obtain ⟨task, hcompiled⟩ := compilation_single (T := Binary64) (World.listNodes_pair hids).1 rfl rfl
  obtain ⟨bytes, digest, hdefines⟩ := Defines.of_compilation hcompiled plain_handlers (by decide +kernel)
  have hcount : attempts (T := Binary64) (plain : Builder Binary64).settings.build = .ok 301 := by decide +kernel
  have hactive : Timeline.le (Timeline.add (Timeline.ofNumber (.zero false)) (Timeline.ofNumber (.zero false)) : Binary64)
      (Timeline.ofNumber (.zero false)) := by decide +kernel
  exact ⟨task, hcompiled, run_returns plain_upholding (World.pair_fresh _ _).agrees (by decide : "I" ≠ "")
    (World.getInstance_pair _ _) hdefines rfl hcount hactive (by simp [sampleContext])⟩

end Pair

namespace Builder

variable [Timeline T] {b : Builder T} {c : BuildContext} {w w' : World T}

/-- Whatever was built before, a build that returns has registered the graph as it was stored when the build began: the
instance is ready, under its key are the canonical bytes of the definition of this graph, and the resource of the
instance, whose handle is returned, executes the chain of this definition. -/
theorem run_registers (hhandlers : b.engine.Upholding) {built : BuildResult}
    (h : runIn w (b.run c) = (.ok built, w')) : ∃ g compiled bytes chain i,
      Graph.ofRecords (w.store.listNodes c.instanceId) (w.store.listEdges c.instanceId)
        (w.store.listDocuments ((w.store.listNodes c.instanceId).map NodeRecord.id)) = .ok g ∧
      g.compile ⟨c.organization, b.settings.resources, w.blobs.addressOf⟩ = .ok compiled ∧
      w'.store.getInstance c.instanceId = .ok i ∧ i.status = .ready ∧ i.definitionKey = some c.definitionKey ∧
      i.executionHandle = some built.resource ∧
      compiled.chain.toJson.canonicalBytes = .ok bytes ∧ w'.blobs.read c.definitionKey = .ok (.bytes bytes) ∧
      runIn w' (definitionOf built.resource) = (.ok chain, w') ∧ compiled.chain.toJson.Same chain.toJson ∧
      compiled.chain.toJson.digest = .ok built.compiled.digest ∧ built.compiled.key = c.definitionKey ∧
      built.compiled.taskCount = compiled.chain.tasks.length ∧ built.compiled.warnings = compiled.warnings := by
  obtain ⟨compiled, bytes, digest, i, hdefines, hresult, hregistered, hready⟩ := run_registered hhandlers h
  obtain ⟨g, hg, hc⟩ := compilation_eq_ok.1 hdefines.compilation
  obtain ⟨r, hr, hchain⟩ := hregistered.executes
  refine ⟨g, compiled, bytes, r.chain, i, hg, hc, hregistered.found, hready, hregistered.key, hregistered.noted,
    hdefines.canonical, hregistered.stored, runIn_definitionOf hr, hchain ▸ hdefines.same, ?_, ?_, ?_, ?_⟩ <;>
    rw [hresult]
  exact hdefines.digest

/-- A build of the first of two new instances. -/
theorem run_registers_pair : ∃ built w' chain i,
    runIn (World.pair (sampleContext "I") (sampleContext "J")) (plain.run (sampleContext "I")) =
      ((.ok built, w') : Except Failure BuildResult × World Binary64) ∧
    w'.store.getInstance "I" = .ok i ∧ i.status = .ready ∧ i.executionHandle = some built.resource ∧
    runIn w' (definitionOf built.resource) = (.ok chain, w') ∧ built.compiled.taskCount = 1 := by
  obtain ⟨task, hcompiled, built, w', hrun⟩ := run_pair
  obtain ⟨g, compiled, bytes, chain, i, hg, hc, hfound, hready, -, hhandle, -, -, hchain, -, -, -, hcount, -⟩ :=
    run_registers plain_upholding hrun
  obtain rfl := Except.ok.inj ((compilation_eq_ok.2 ⟨g, hg, hc⟩).symm.trans hcompiled)
  exact ⟨built, w', chain, i, hrun, hfound, hready, hhandle, hchain, hcount⟩

end Builder
end HuntDraw
