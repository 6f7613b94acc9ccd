import HuntDraw.Proofs.Blob.Interchange
import HuntDraw.Proofs.Build.Returns
import HuntDraw.Proofs.Build.Waiting

/-! Building again. What a build leaves behind is enough for the next one to return, with the same result, and to
leave everything as it finds it: the instance, the blobs, and the definitions of the resources. Only the time that
the resource takes to become active begins anew. -/

namespace HuntDraw

open HuntDraw.Action Engine Attempt

theorem BuildContext.instanceId_ne {c : BuildContext} (h : Blob.isKey c.definitionKey.toList) : c.instanceId ≠ "" := by
  intro hempty
  have hsteps : c.definitionKey.toList = (c.organization ++ "/" ++ c.workflow).toList ++ '/' :: '/' ::
      "task-chain.json".toList := by
    rw [definitionKey_eq, hempty]
    simp [String.toList_append]
  rw [hsteps, Blob.isKey, Text.splitChars_split, Bool.and_eq_true, List.all_append, Bool.and_eq_true] at h
  exact absurd h.2.2 (by decide)

variable {T : Type}

def Resource.definition (r : Resource T) : String × TaskChain := (r.name, r.chain)

namespace World

variable {w w' v : World T} {id : String} {i : Instance} {change : Store.InstanceChange}

def definitions (w : World T) : Fields (String × TaskChain) := w.resources.map fun e => (e.1, e.2.definition)

/-- A resource that is brought up to date with its own definition stays as it is defined. -/
theorem definitions_holding {handle : String} {r r' : Resource T} (hr : w.resources.get? handle = some r)
    (hsame : r'.definition = r.definition) : (w.holding handle r').definitions = w.definitions := by
  have hget : w.definitions.get? handle = some r'.definition := by
    rw [definitions, Fields.get?_map, hr, Option.map_some, hsame]
  rw [definitions, holding, Fields.map_put]
  exact Fields.put_of_get? hget

/-- Nothing has changed between two worlds that a build of an instance would have to do with; time may have passed, and
jobs may have been executed. -/
structure Undisturbed (w v : World T) : Prop where
  instances : v.store.instances = w.store.instances
  nodes : v.store.nodes = w.store.nodes
  edges : v.store.edges = w.store.edges
  documents : v.store.documents = w.store.documents
  blobs : v.blobs = w.blobs
  resources : v.resources = w.resources

theorem Undisturbed.refl (w : World T) : w.Undisturbed w := ⟨rfl, rfl, rfl, rfl, rfl, rfl⟩

theorem Undisturbed.logged (w : World T) (events : List LogEvent) : w.Undisturbed (w.logged events) :=
  ⟨rfl, rfl, rfl, rfl, rfl, rfl⟩

theorem Waited.undisturbed (h : w.Waited v) : w.Undisturbed v := by
  obtain ⟨clock, events, -, rfl⟩ := h
  exact ⟨rfl, rfl, rfl, rfl, rfl, rfl⟩

theorem Waited.logged {events : List LogEvent} (h : ∀ e ∈ events, e.Quiet) (w : World T) : w.Waited (w.logged events) :=
  ⟨w.clock, events, h, rfl⟩

theorem Waited.amended (h : w.Waited v) (id : String) (change : Store.InstanceChange) :
    (w.amended id change).Waited (v.amended id change) := by
  obtain ⟨clock, events, hquiet, rfl⟩ := h
  exact ⟨clock, events, hquiet, rfl⟩

end World

namespace Builder

variable {b : Builder T} {c : BuildContext} {w w' v : World T} {i : Instance} {compiled : Compilation} {bytes : Bytes}
  {digest handle : String} {status : InstanceStatus} {r : Resource T}

theorem compilation_congr (h : w.Undisturbed v) : b.compilation c v = b.compilation c w := by
  simp only [compilation, Store.listNodes, Store.listEdges, Store.listDocuments, h.nodes, h.edges, h.documents, h.blobs]

/-- An instance in a world with the definition of its graph, which can be written once more. -/
structure HasDefinition (b : Builder T) (c : BuildContext) (w : World T) (status : InstanceStatus)
    (compiled : Compilation) (bytes : Bytes) (digest : String) : Prop where
  defines : b.Defines c w compiled bytes digest
  found : ∃ i, w.store.getInstance c.instanceId = .ok i
  rows : ∀ i ∈ w.store.instances, i.id = c.instanceId → i.status = status ∧ i.definitionKey = some c.definitionKey
  stored : w.blobs.blobs.get? c.definitionKey = some ⟨.bytes bytes, "application/json"⟩
  free : w.blobs.obstacle c.definitionKey = none

structure HasResource (c : BuildContext) (w : World T) (handle : String) (r : Resource T) : Prop where
  noted : ∃ i, w.store.getInstance c.instanceId = .ok i ∧ i.executionHandle = some handle
  named : nameOf? handle = some r.name
  held : w.resources.get? handle = some r

namespace HasDefinition

theorem undisturbed (h : b.HasDefinition c w status compiled bytes digest) (hsame : w.Undisturbed v) :
    b.HasDefinition c v status compiled bytes digest := by
  obtain ⟨i, hi⟩ := h.found
  refine ⟨h.defines.congr (compilation_congr hsame), ⟨i, (Store.getInstance_congr hsame.instances _).trans hi⟩,
    ?_, ?_, ?_⟩
  · rw [hsame.instances]
    exact h.rows
  · rw [hsame.blobs]
    exact h.stored
  · rw [hsame.blobs]
    exact h.free

theorem read (h : b.HasDefinition c w status compiled bytes digest) :
    w.blobs.read c.definitionKey = .ok (.bytes bytes) :=
  BlobStore.read_eq_ok.2 ⟨h.defines.key, _, h.stored⟩

theorem key (h : b.HasDefinition c w status compiled bytes digest) (hfound : w.store.getInstance c.instanceId = .ok i) :
    i.definitionKey = some c.definitionKey :=
  (h.rows i (List.mem_of_find?_eq_some (Store.getInstance_eq_ok.1 hfound)) (Store.id_of_getInstance hfound)).2

theorem amended (h : b.HasDefinition c w status compiled bytes digest) {status' : InstanceStatus}
    {change : Store.InstanceChange} (hstatus : change.status.getD status = status') (hkey : change.definitionKey = none) :
    b.HasDefinition c (w.amended c.instanceId change) status' compiled bytes digest := by
  obtain ⟨i, hi⟩ := h.found
  refine ⟨h.defines.congr rfl, ⟨_, World.getInstance_amended_self hi change⟩, fun i hi hid => ?_, h.stored, h.free⟩
  obtain ⟨j, hj, hjid, rfl⟩ := World.mem_amended hi hid
  obtain ⟨hjstatus, hjkey⟩ := h.rows j hj hjid
  constructor
  · change change.status.getD j.status = status'
    rw [hjstatus, hstatus]
  · change change.definitionKey.or j.definitionKey = _
    rw [hkey, hjkey]
    rfl

theorem holding (h : b.HasDefinition c w status compiled bytes digest) (handle : String) (r : Resource T) :
    b.HasDefinition c (w.holding handle r) status compiled bytes digest :=
  ⟨h.defines.congr rfl, h.found, h.rows, h.stored, h.free⟩

theorem defined (hdefines : b.Defines c w compiled bytes digest) (hfound : ∃ i, w.store.getInstance c.instanceId = .ok i)
    (hfree : w.blobs.obstacle c.definitionKey = none) :
    b.HasDefinition c (w.defined c bytes) .buildStarted compiled bytes digest := by
  obtain ⟨i, hi⟩ := hfound
  refine ⟨hdefines.congr rfl, ⟨_, World.getInstance_defined_self hi bytes []⟩, fun i hi hid => ?_,
    Fields.get?_put_self _ _, BlobStore.obstacle_put_self hdefines.key hfree _⟩
  obtain ⟨j, -, -, rfl⟩ := World.mem_amended hi hid
  exact ⟨rfl, rfl⟩

/-- To store the definition of a ready instance once more, and to make it ready again, changes nothing. -/
theorem restored (h : b.HasDefinition c w .ready compiled bytes digest) :
    (w.defined c bytes).amended c.instanceId { status := some .ready } = w := by
  have hwritten : w.written c.definitionKey bytes = w := by
    rw [World.written, Fields.put_of_get? h.stored]
  have hchanges : ∀ i : Instance, Store.InstanceChange.apply { status := some .ready }
      (Store.InstanceChange.apply { status := some .buildStarted, definitionKey := some c.definitionKey } i) =
        Store.InstanceChange.apply { status := some .ready, definitionKey := some c.definitionKey } i := fun _ => rfl
  rw [World.defined, hwritten, World.amended_amended hchanges]
  refine World.amended_eq_self fun i hi hid => ?_
  obtain ⟨hstatus, hkey⟩ := h.rows i hi hid
  change { i with status := .ready, definitionKey := some c.definitionKey } = i
  rw [← hstatus, ← hkey]

end HasDefinition

theorem HasResource.undisturbed (h : HasResource c w handle r) (hsame : w.Undisturbed v) : HasResource c v handle r := by
  obtain ⟨i, hi, hhandle⟩ := h.noted
  exact ⟨⟨i, (Store.getInstance_congr hsame.instances _).trans hi, hhandle⟩, h.named, by rw [hsame.resources, h.held]⟩

theorem HasResource.written (h : HasResource c w handle r) (key : String) (bytes : Bytes) :
    HasResource c (w.written key bytes) handle r := ⟨h.noted, h.named, h.held⟩

theorem HasResource.amended (h : HasResource c w handle r) {change : Store.InstanceChange}
    (hchange : change.executionHandle = none) : HasResource c (w.amended c.instanceId change) handle r := by
  obtain ⟨i, hi, hhandle⟩ := h.noted
  refine ⟨⟨_, World.getInstance_amended_self hi change, ?_⟩, h.named, h.held⟩
  change change.executionHandle.or i.executionHandle = _
  rw [hchange, hhandle]
  rfl

theorem keep_unobstructed {result : CompileResult} (h : runIn w (b.keep c compiled) = (.ok result, w')) :
    w.blobs.obstacle c.definitionKey = none := by
  by_cases hproblems : b.engine.problems compiled.chain.toJson = []
  · rw [keep, if_neg (by simpa using hproblems)] at h
    obtain ⟨bytes, w₁, hbytes, hrest⟩ := bind_runIn_eq_ok h
    obtain ⟨-, rfl⟩ := lift_runIn_eq_ok hbytes
    obtain ⟨uri, w₂, hwrite, -⟩ := bind_runIn_eq_ok hrest
    rw [runIn_write] at hwrite
    cases hwritten : w₁.blobs.write c.definitionKey (.bytes bytes) "application/json" with
    | ok p => exact (BlobStore.write_eq_ok hwritten).2.1
    | error f =>
      rw [hwritten] at hwrite
      cases hwrite
  · rw [keep, if_pos (by simpa using hproblems)] at h
    have hthrown : ((.error _, w) : Except Failure CompileResult × World T) = (.ok result, w') := h
    cases hthrown

theorem compile_hasDefinition {result : CompileResult} (h : runIn w (b.compile c) = (.ok result, w')) :
    ∃ compiled bytes digest, b.HasDefinition c w' .buildStarted compiled bytes digest ∧
      result = ⟨c.definitionKey, digest, compiled.chain.tasks.length, compiled.warnings⟩ := by
  obtain ⟨i, compiled, bytes, digest, events, hfound, hdefines, -, hresult, rfl⟩ := compile_eq_ok h
  have hfree : w.blobs.obstacle c.definitionKey = none := by
    obtain ⟨w₁, hbody, -⟩ := stage_eq_ok h
    have hmarked := runIn_updateInstance (w := w.logged [stageStarted .compile c]) hfound
      { status := some .buildStarted }
    have hcompilation : b.compilation c ((w.logged [stageStarted .compile c]).amended c.instanceId
      { status := some .buildStarted }) = .ok compiled := hdefines.compilation
    rw [compileBody_eq, runIn_bind_ok hmarked, runIn_bind, runIn_compilation, hcompilation] at hbody
    have hkept := keep_unobstructed (b := b) (c := c) hbody
    exact hkept
  exact ⟨compiled, bytes, digest, (HasDefinition.defined hdefines ⟨i, hfound⟩ hfree).undisturbed (.logged _ _), hresult⟩

variable [Timeline T]

/-- Registering that returns leaves the resource of the definition, not active before its time. -/
theorem register_hasResource (hdefinition : b.HasDefinition c w status compiled bytes digest)
    (h : runIn w (b.register c) = (.ok handle, w')) : b.HasDefinition c w' status compiled bytes digest ∧
      ∃ name, HasResource c w' handle (b.engine.resourceAt w' name compiled.chain.arranged) := by
  obtain ⟨w₁, hbody, rfl⟩ := stage_eq_ok h
  have hstarted := hdefinition.undisturbed (.logged w [stageStarted .register c])
  cases of_runIn (registerBody_registers b c _) hbody with
  | created hfound hloaded haccepted hnone hnew =>
    obtain rfl := hdefinition.defines.chain_eq hfound (hstarted.key hfound) hstarted.read hloaded haccepted
    refine ⟨(((hstarted.holding _ _).amended rfl rfl).undisturbed (.logged _ _)).undisturbed (.logged _ _), c.instanceId,
      ⟨_, getInstance_installed hfound _, rfl⟩, ?_, Fields.get?_put_self _ _⟩
    exact nameOf?_handleOf (BuildContext.instanceId_ne hdefinition.defines.key)
  | updated hfound hloaded haccepted hhandle hname =>
    obtain rfl := hdefinition.defines.chain_eq hfound (hstarted.key hfound) hstarted.read hloaded haccepted
    exact ⟨((hstarted.holding _ _).undisturbed (.logged _ _)).undisturbed (.logged _ _), _, ⟨_, hfound, hhandle⟩, hname,
      Fields.get?_put_self _ _⟩

def updateEvents (c : BuildContext) (handle : String) (chain : TaskChain) : List LogEvent :=
  stageEvents .register c [resourceStored "resource_updated" handle chain.arranged,
    resourceNoted "execution_resource_updated" handle c]

theorem updateEvents_quiet (c : BuildContext) (handle : String) (chain : TaskChain) :
    ∀ e ∈ updateEvents c handle chain, e.Quiet :=
  stageEvents_quiet (List.forall_mem_cons.2 ⟨(by decide : "resource_updated" ≠ "resource_created"),
    List.forall_mem_singleton.2 (by decide : "execution_resource_updated" ≠ "resource_created")⟩)

theorem resourceStored_mem (c : BuildContext) (handle : String) (chain : TaskChain) :
    resourceStored "resource_updated" handle chain.arranged ∈ updateEvents c handle chain :=
  List.mem_append_left _ (List.mem_append_right _ List.mem_cons_self)

def updated (b : Builder T) (c : BuildContext) (w : World T) (handle name : String) (chain : TaskChain) : World T :=
  (w.holding handle (b.engine.resourceAt w name chain.arranged)).logged (updateEvents c handle chain)

theorem register_again (hdefinition : b.HasDefinition c w status compiled bytes digest)
    (hresource : HasResource c w handle r) : runIn w (b.register c) =
      (.ok handle, b.updated c w handle r.name compiled.chain) := by
  obtain ⟨i, hfound, hhandle⟩ := hresource.noted
  have hloaded : definition c (w.logged [stageStarted .register c]) = .ok compiled.chain.toJson.sortFields :=
    definition_of_defines (w := w.logged _) hdefinition.defines hfound (hdefinition.key hfound) hdefinition.read
  have hbody := runIn_registerBody_some (b := b) (w := w.logged [stageStarted .register c]) hfound hloaded hhandle
  rw [hdefinition.defines.accept, hresource.named] at hbody
  refine (runIn_stage_ok hbody).trans (congrArg (Prod.mk _) ?_)
  rw [renewed, World.logged_logged, updated, updateEvents, stageEvents, List.append_assoc,
    ← World.logged_logged _ [stageStarted .register c]]
  rfl

/-- Where the instance was ready, making it ready behind all this leaves nothing but the resource. -/
theorem updated_restored (h : b.HasDefinition c w .ready compiled bytes digest) (events : List LogEvent)
    (handle name : String) : (b.updated c ((w.defined c bytes).logged events) handle name compiled.chain).amended
      c.instanceId { status := some .ready } = b.updated c (w.logged events) handle name compiled.chain := by
  calc _ = b.updated c (((w.defined c bytes).amended c.instanceId { status := some .ready }).logged events) handle name
          compiled.chain := rfl
    _ = _ := by rw [h.restored]

/-- Waiting that returns has made the instance ready, and spent nothing but time. -/
theorem awaitReady_waited (h : runIn w (b.awaitReady c) = (.ok (), w')) :
    (w.amended c.instanceId { status := some .ready }).Waited w' := by
  obtain ⟨w₁, hbody, rfl⟩ := stage_eq_ok h
  cases of_runIn (awaitBody_awaits b c _) hbody with
  | ready hfound hhandle hwaited =>
    have hstarted := World.Waited.logged (List.forall_mem_singleton.2 (stageStarted_quiet .awaitReady c)) w
    exact trans_of World.Waited ((trans_of World.Waited hstarted hwaited).amended _ _)
      (.logged (List.forall_mem_singleton.2 (stageCompleted_quiet .awaitReady c)) _)

end Builder

namespace Builder

variable {b : Builder ℚ} {c : BuildContext} {w w' v : World ℚ} {compiled : Compilation} {bytes : Bytes}
  {digest handle name : String} {chain : TaskChain} {r : Resource ℚ} {built : BuildResult}

/-- A resource that was just stored is active in time or not, whatever the time. -/
theorem awaitReady_punctual_iff (h : HasResource c w handle (b.engine.resourceAt w name chain)) :
    (∃ w', runIn w (b.awaitReady c) = (.ok (), w')) ↔ b.Punctual := by
  obtain ⟨i, hfound, hhandle⟩ := h.noted
  rw [← awaitBody_punctual_iff (w := w.logged [stageStarted .awaitReady c]) hfound hhandle h.held rfl]
  constructor
  · rintro ⟨w', hrun⟩
    obtain ⟨w₁, hbody, -⟩ := stage_eq_ok hrun
    exact ⟨w₁, hbody⟩
  · rintro ⟨w₁, hbody⟩
    exact ⟨_, runIn_stage_ok hbody⟩

theorem run_leaves (hjob : c.job = none) (h : runIn w (b.run c) = (.ok built, w')) :
    ∃ compiled bytes digest name activeAt, b.HasDefinition c w' .ready compiled bytes digest ∧
      HasResource c w' built.resource ⟨name, compiled.chain.arranged, activeAt⟩ ∧ b.Punctual ∧
      built = ⟨⟨c.definitionKey, digest, compiled.chain.tasks.length, compiled.warnings⟩, built.resource, none⟩ := by
  obtain ⟨w₁, w₂, w₃, hcompile, hregister, hawait, htrigger⟩ := run_eq_ok h
  obtain ⟨compiled, bytes, digest, hdefinition₁, hresult⟩ := compile_hasDefinition hcompile
  obtain ⟨hdefinition₂, name, hresource₂⟩ := register_hasResource hdefinition₁ hregister
  -- the waiting changes nothing but the status, and no job is started behind it
  have hready := (awaitReady_waited hawait).undisturbed
  have hdefinition₃ := (hdefinition₂.amended rfl rfl).undisturbed hready
  have hresource₃ := (hresource₂.amended rfl).undisturbed hready
  rw [trigger_skipped hjob] at htrigger
  obtain ⟨hexecution, rfl⟩ := Prod.mk.inj htrigger
  refine ⟨compiled, bytes, digest, name, _, hdefinition₃.undisturbed (.logged _ _), hresource₃.undisturbed (.logged _ _),
    (awaitReady_punctual_iff hresource₂).1 ⟨w₃, hawait⟩, ?_⟩
  rw [← hresult, Except.ok.inj hexecution]

/-- A graph that compiles to a definition that can be stored is built exactly if resources are active in time. -/
theorem run_returns_iff (hjob : c.job = none) (hagrees : w.Agrees) {i : Instance}
    (hfound : w.store.getInstance c.instanceId = .ok i) (hdefines : b.Defines c w compiled bytes digest)
    (hfree : w.blobs.obstacle c.definitionKey = none) :
    (∃ built w', runIn w (b.run c) = (.ok built, w')) ↔ b.Punctual := by
  constructor
  · rintro ⟨built, w', h⟩
    obtain ⟨-, -, -, -, -, -, -, hpunctual, -⟩ := run_leaves hjob h
    exact hpunctual
  · intro hpunctual
    obtain ⟨events, -, hcompile⟩ := compile_returns hfound hdefines hfree
    have hagrees₁ := (compile_keeps b c w hagrees).1
    rw [hcompile] at hagrees₁
    have hdefinition₁ := (HasDefinition.defined hdefines ⟨i, hfound⟩ hfree).undisturbed (.logged _ events)
    obtain ⟨-, w₂, hregister, -⟩ := register_returns hagrees₁ (fun _ => BuildContext.instanceId_ne hdefines.key) hdefines
      (World.getInstance_defined_self hfound bytes events) rfl hdefinition₁.read
    obtain ⟨-, name, hresource₂⟩ := register_hasResource hdefinition₁ hregister
    obtain ⟨w₃, hawait⟩ := (awaitReady_punctual_iff hresource₂).2 hpunctual
    exact ⟨_, _, (runIn_bind_ok hcompile).trans ((runIn_bind_ok hregister).trans ((runIn_bind_ok hawait).trans
      (runIn_bind_ok (trigger_skipped hjob))))⟩

/-- Where a build has left its definition and its resource, the next one returns, and all that it changes is the time
at which the resource becomes active. -/
theorem run_again (hjob : c.job = none) (hdefinition : b.HasDefinition c v .ready compiled bytes digest)
    (hresource : HasResource c v handle r) (hpunctual : b.Punctual) :
    ∃ events v', (∀ e ∈ events, LogEvent.Quiet e) ∧
      runIn v (b.run c) = (.ok ⟨⟨c.definitionKey, digest, compiled.chain.tasks.length, compiled.warnings⟩, handle, none⟩,
        v') ∧ (b.updated c (v.logged events) handle r.name compiled.chain).Waited v' := by
  obtain ⟨i, hfound⟩ := hdefinition.found
  obtain ⟨events, hquiet, hcompile⟩ := compile_returns hfound hdefinition.defines hdefinition.free
  have hdefinition₁ := (HasDefinition.defined hdefinition.defines hdefinition.found hdefinition.free).undisturbed
    (.logged _ events)
  have hresource₁ : HasResource c ((v.defined c bytes).logged events) handle r :=
    ((hresource.written c.definitionKey bytes).amended rfl).undisturbed (.logged _ events)
  have hregister := register_again hdefinition₁ hresource₁
  obtain ⟨-, name, hresource₂⟩ := register_hasResource hdefinition₁ hregister
  obtain ⟨w₃, hawait⟩ := (awaitReady_punctual_iff hresource₂).2 hpunctual
  -- the instance has gone through the start of the build and back to where it was
  have hwaited := awaitReady_waited hawait
  rw [updated_restored hdefinition] at hwaited
  exact ⟨events, _, hquiet, (runIn_bind_ok hcompile).trans ((runIn_bind_ok hregister).trans ((runIn_bind_ok hawait).trans
    (runIn_bind_ok (trigger_skipped hjob)))), trans_of World.Waited hwaited (.logged (skipEvents_quiet c) w₃)⟩

/-- Building an instance again that was built without a job, where nothing was done to it since, returns the same and
changes nothing: the records, the blobs and the definitions of the resources stay as they are. The resource is brought
up to date and takes its time to become active anew; none is made. -/
theorem rebuild_changes_nothing (hjob : c.job = none) (hfirst : runIn w (b.run c) = (.ok built, w'))
    (hsame : w'.Undisturbed v) : ∃ v' r events, runIn v (b.run c) = (.ok built, v') ∧ v'.store = v.store ∧
      v'.store.instances = w'.store.instances ∧ v'.blobs = w'.blobs ∧ v'.definitions = w'.definitions ∧
      v'.resources.get? built.resource = some r ∧ r.activeAt = v.clock.now + b.engine.delay ∧
      v'.executions = v.executions ∧ v'.ids = v.ids ∧ v'.journal = v.journal ++ events ∧
      resourceStored "resource_updated" built.resource r.chain ∈ events ∧ ∀ e ∈ events, LogEvent.Quiet e := by
  obtain ⟨compiled, bytes, digest, name, activeAt, hdefinition, hresource, hpunctual, hbuilt⟩ := run_leaves hjob hfirst
  obtain ⟨events, v', hquiet, hrun, clock, more, hmore, rfl⟩ :=
    run_again hjob (hdefinition.undisturbed hsame) (hresource.undisturbed hsame) hpunctual
  rw [← hbuilt] at hrun
  refine ⟨_, _, events ++ updateEvents c built.resource compiled.chain ++ more, hrun, rfl, hsame.instances, hsame.blobs, ?_,
    Fields.get?_put_self _ _, rfl, rfl, rfl, ?_, ?_, ?_⟩
  · have hdefinitions : v.definitions = w'.definitions := by rw [World.definitions, World.definitions, hsame.resources]
    rw [← hdefinitions]
    exact World.definitions_holding (hresource.undisturbed hsame).held rfl
  · simp only [updated, World.logged, World.holding, List.append_assoc]
  · exact List.mem_append_left _ (List.mem_append_right _ (resourceStored_mem c built.resource compiled.chain))
  · exact List.forall_mem_append.2 ⟨List.forall_mem_append.2 ⟨hquiet, updateEvents_quiet c built.resource compiled.chain⟩,
      hmore⟩

def slow : Builder ℚ := ⟨{}, ⟨(plain : Builder ℚ).engine.handlers, 2⟩⟩

theorem slow_punctual : slow.Punctual := by
  have hcount : attempts (T := ℚ) slow.settings.build = .ok 301 := by decide +kernel
  have hinterval : interval slow.settings.build = 1 := by decide +kernel
  refine ⟨301, hcount, 2, by decide, ?_, .inr ?_⟩
  · rw [hinterval]
    decide +kernel
  · rw [hinterval]
    exact zero_le_one

/-- The first of two new instances is built, and built again. -/
theorem rebuild_changes_nothing_slow : ∃ built w' v' r, (sampleContext "I").job = none ∧
    runIn (World.pair (sampleContext "I") (sampleContext "J")) (slow.run (sampleContext "I")) = (.ok built, w') ∧
    w'.Undisturbed w' ∧ runIn w' (slow.run (sampleContext "I")) = (.ok built, v') ∧ v'.store = w'.store ∧
    v'.blobs = w'.blobs ∧ v'.definitions = w'.definitions ∧ v'.resources.get? built.resource = some r ∧
    r.activeAt = w'.clock.now + 2 := by
  have hids : (sampleContext "I").instanceId ≠ (sampleContext "J").instanceId := (by decide : "I" ≠ "J")
  obtain ⟨task, hcompiled⟩ := compilation_single (T := ℚ) (World.listNodes_pair hids).1 rfl rfl
  obtain ⟨bytes, digest, hdefines⟩ := Defines.of_compilation (b := slow) hcompiled plain_handlers (by decide +kernel)
  obtain ⟨built, w', hrun⟩ := (run_returns_iff rfl (World.pair_fresh _ _).agrees (World.getInstance_pair _ _) hdefines
    rfl).2 slow_punctual
  obtain ⟨v', r, events, hagain, hstore, -, hblobs, hdefinitions, hr, hactive, -⟩ :=
    rebuild_changes_nothing rfl hrun (.refl w')
  exact ⟨built, w', v', r, rfl, hrun, .refl w', hagain, hstore, hblobs, hdefinitions, hr, hactive⟩

end Builder
end HuntDraw
