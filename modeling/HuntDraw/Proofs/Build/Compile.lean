import HuntDraw.Proofs.Build.Instances
import HuntDraw.Proofs.Graph.Definition

/-! What compiling does. A definition is stored under its key and noted down in the instance, or nothing has changed but
the status of the instance. -/

namespace HuntDraw

open HuntDraw.Action Engine Attempt

variable {T : Type}

namespace World

variable {w : World T}

theorem logged_nil (w : World T) : w.logged [] = w := by
  rw [logged, List.append_nil]

theorem logged_logged (w : World T) (events more : List LogEvent) :
    (w.logged events).logged more = w.logged (events ++ more) := by
  rw [logged, logged, logged, List.append_assoc]

def written (w : World T) (key : String) (bytes : Bytes) : World T :=
  { w with blobs := { w.blobs with blobs := w.blobs.blobs.put key ⟨.bytes bytes, "application/json"⟩ } }

def defined (w : World T) (c : BuildContext) (bytes : Bytes) : World T :=
  (w.written c.definitionKey bytes).amended c.instanceId
    { status := some .buildStarted, definitionKey := some c.definitionKey }

theorem read_written (w : World T) {key : String} (h : Blob.isKey key.toList = true) (bytes : Bytes) :
    (w.written key bytes).blobs.read key = .ok (.bytes bytes) :=
  BlobStore.read_eq_ok.2 ⟨h, _, Fields.get?_put_self _ _⟩

theorem defined_logged (w : World T) (c : BuildContext) (bytes : Bytes) (events : List LogEvent) :
    (w.logged events).defined c bytes = (w.defined c bytes).logged events := rfl

theorem getInstance_defined_self {c : BuildContext} {i : Instance} (h : w.store.getInstance c.instanceId = .ok i)
    (bytes : Bytes) (events : List LogEvent) : ((w.defined c bytes).logged events).store.getInstance c.instanceId =
      .ok { i with status := .buildStarted, definitionKey := some c.definitionKey } :=
  getInstance_amended_self (w := w.written c.definitionKey bytes) h _

theorem getInstance_defined {c : BuildContext} {id : String} (h : id ≠ c.instanceId) (w : World T) (bytes : Bytes)
    (events : List LogEvent) :
    ((w.defined c bytes).logged events).store.getInstance id = w.store.getInstance id :=
  getInstance_amended_of_ne h (w.written c.definitionKey bytes) _

theorem read_defined (w : World T) {c : BuildContext} (h : Blob.isKey c.definitionKey.toList = true) (bytes : Bytes)
    (events : List LogEvent) :
    ((w.defined c bytes).logged events).blobs.read c.definitionKey = .ok (.bytes bytes) := read_written w h bytes

theorem defined_eq (w : World T) (c : BuildContext) (bytes : Bytes) (events more : List LogEvent) :
    ((((w.amended c.instanceId { status := some .buildStarted }).logged events).written c.definitionKey bytes).amended
      c.instanceId { definitionKey := some c.definitionKey }).logged more =
        (w.defined c bytes).logged (events ++ more) := by
  have hchanges : ∀ i : Instance, Store.InstanceChange.apply { definitionKey := some c.definitionKey }
      (Store.InstanceChange.apply { status := some .buildStarted } i) = Store.InstanceChange.apply
        { status := some .buildStarted, definitionKey := some c.definitionKey } i := fun _ => rfl
  rw [defined, ← amended_amended hchanges, ← logged_logged]
  rfl

end World

namespace Builder

variable {b : Builder T} {c : BuildContext} {w w' : World T} {i : Instance} {compiled : Compilation} {bytes : Bytes}
  {digest : String} {events : List LogEvent}

/-- What the stored records of an instance compile to. -/
def compilation (b : Builder T) (c : BuildContext) (w : World T) : Except Failure Compilation := do
  let nodes := w.store.listNodes c.instanceId
  let g ← (Graph.ofRecords nodes (w.store.listEdges c.instanceId)
    (w.store.listDocuments (nodes.map NodeRecord.id))).mapError .graph
  (g.compile ⟨c.organization, b.settings.resources, w.blobs.addressOf⟩).mapError .ofCompile

/-- A compilation that can be stored: the engine finds no fault in it, and its key is one. -/
structure Defines (b : Builder T) (c : BuildContext) (w : World T) (compiled : Compilation) (bytes : Bytes)
    (digest : String) : Prop where
  compilation : b.compilation c w = .ok compiled
  accepted : b.engine.problems compiled.chain.toJson = []
  canonical : compiled.chain.toJson.canonicalBytes = .ok bytes
  digest : compiled.chain.toJson.digest = .ok digest
  key : Blob.isKey c.definitionKey.toList = true

theorem compilation_eq_ok : b.compilation c w = .ok compiled ↔ ∃ g,
    Graph.ofRecords (w.store.listNodes c.instanceId) (w.store.listEdges c.instanceId)
      (w.store.listDocuments ((w.store.listNodes c.instanceId).map NodeRecord.id)) = .ok g ∧
    g.compile ⟨c.organization, b.settings.resources, w.blobs.addressOf⟩ = .ok compiled := by
  simp only [compilation, bind_eq_ok, mapError_eq_ok]

/-- The tasks of a compilation have ids of their own and resources. -/
theorem compilation_tasks (h : b.compilation c w = .ok compiled) :
    compiled.chain.tasks.keys.Nodup ∧ ∀ p ∈ compiled.chain.tasks, p.2.resource ≠ "" := by
  obtain ⟨g, hg, hc⟩ := compilation_eq_ok.1 h
  obtain ⟨-, -, htraced, hnodup⟩ := Graph.compile_traced (Graph.nodup_ofRecords hg) hc
  exact ⟨hnodup, fun p hp => (htraced.given hp).1⟩

theorem compilation_parameters (h : b.compilation c w = .ok compiled) :
    ∀ p ∈ compiled.chain.tasks, (Json.object p.2.parameters).Plain := by
  obtain ⟨g, -, hc⟩ := compilation_eq_ok.1 h
  exact Graph.compile_parameters hc

theorem compilation_plain (h : b.compilation c w = .ok compiled) : compiled.chain.toJson.Plain :=
  TaskChain.plain_toJson (compilation_tasks h).1 (compilation_parameters h)

/-- An engine with the handlers of the resources finds no fault in a compilation, and the key alone decides whether it
can be stored. -/
theorem Defines.of_compilation [Timeline T] {draw : DrawSettings} (h : b.compilation c w = .ok compiled)
    (hhandlers : b.settings.resources.handlers draw = .ok b.engine.handlers)
    (hkey : Blob.isKey c.definitionKey.toList = true) : ∃ bytes digest, b.Defines c w compiled bytes digest := by
  obtain ⟨g, hg, hc⟩ := compilation_eq_ok.1 h
  obtain ⟨bytes, hbytes⟩ := (compilation_plain h).canonicalBytes_total
  have hdigest : compiled.chain.toJson.digest = .ok (Digest.sha256 bytes) := map_eq_ok.2 ⟨bytes, hbytes, rfl⟩
  exact ⟨bytes, _, h, (Graph.compile_accepted hg hhandlers hc).2.1, hbytes, hdigest, hkey⟩

/-- The world matters to what can be stored only as far as it matters to what is compiled. -/
theorem Defines.congr (h : b.Defines c w compiled bytes digest) (hsame : b.compilation c w' = b.compilation c w) :
    b.Defines c w' compiled bytes digest :=
  ⟨hsame.trans h.compilation, h.accepted, h.canonical, h.digest, h.key⟩

theorem defines_logged : b.Defines c (w.logged events) compiled bytes digest ↔ b.Defines c w compiled bytes digest :=
  ⟨fun h => h.congr rfl, fun h => h.congr rfl⟩

namespace Defines

theorem parse (h : b.Defines c w compiled bytes digest) :
    parseDefinition (.bytes bytes) = .ok compiled.chain.toJson.sortFields :=
  parseDefinition_canonicalBytes (compilation_plain h.compilation) h.canonical

theorem accept (h : b.Defines c w compiled bytes digest) :
    b.engine.accept compiled.chain.toJson.sortFields = .ok compiled.chain.arranged := by
  obtain ⟨hkeys, hresources⟩ := compilation_tasks h.compilation
  exact accept_sortFields hkeys hresources h.accepted

theorem same (h : b.Defines c w compiled bytes digest) : compiled.chain.toJson.Same compiled.chain.arranged.toJson :=
  TaskChain.same_arranged (compilation_parameters h.compilation)

end Defines

/-- What can come of compiling: a definition under its key, noted down in the instance, or a failure that has changed
nothing but the status of the instance. -/
inductive Compiles (b : Builder T) (c : BuildContext) (w : World T) : Except Failure CompileResult → World T → Prop
  | failed {f : Failure} {events : List LogEvent} (hquiet : ∀ e ∈ events, e.Quiet) :
      Compiles b c w (.error f) ((w.amended c.instanceId { status := some .buildStarted }).logged events)
  | defined {i : Instance} {compiled : Compilation} {bytes : Bytes} {digest : String} {events : List LogEvent}
      (hfound : w.store.getInstance c.instanceId = .ok i) (hdefines : b.Defines c w compiled bytes digest)
      (hquiet : ∀ e ∈ events, e.Quiet) :
      Compiles b c w (.ok ⟨c.definitionKey, digest, compiled.chain.tasks.length, compiled.warnings⟩)
        ((w.defined c bytes).logged events)

theorem runIn_compilation : runIn w (graph c.instanceId >>= b.compileGraph c.organization) =
    match b.compilation c w with
    | .ok compiled => (.ok compiled, w.logged (compiled.journal.map (LogEvent.within [])))
    | .error f => (.error f, w) := by
  have hgraph : runIn w (graph c.instanceId : Action T Graph) =
      ((Graph.ofRecords (w.store.listNodes c.instanceId) (w.store.listEdges c.instanceId)
        (w.store.listDocuments ((w.store.listNodes c.instanceId).map NodeRecord.id))).mapError .graph, w) :=
    (runIn_bind_ok runIn_get).trans (runIn_lift _ _)
  rw [compilation, runIn_bind, hgraph]
  cases Graph.ofRecords (w.store.listNodes c.instanceId) (w.store.listEdges c.instanceId)
      (w.store.listDocuments ((w.store.listNodes c.instanceId).map NodeRecord.id)) with
  | error f => rfl
  | ok g =>
    change runIn w (b.compileGraph c.organization g) =
      match (g.compile ⟨c.organization, b.settings.resources, w.blobs.addressOf⟩).mapError Failure.ofCompile with
      | .ok compiled => (.ok compiled, w.logged (compiled.journal.map (LogEvent.within [])))
      | .error f => (.error f, w)
    rw [compileGraph, runIn_bind_ok runIn_get, runIn_bind, runIn_lift]
    cases g.compile ⟨c.organization, b.settings.resources, w.blobs.addressOf⟩ <;> rfl

def keep (b : Builder T) (c : BuildContext) (compiled : Compilation) : Action T CompileResult := do
  if !(b.engine.problems compiled.chain.toJson).isEmpty then
    throw (.rejected (b.engine.problems compiled.chain.toJson))
  let bytes ← Action.lift .canonical compiled.chain.toJson.canonicalBytes
  let _ ← Action.write c.definitionKey (.bytes bytes) "application/json"
  Action.alter fun s => s.updateInstance c.instanceId { definitionKey := some c.definitionKey }
  let digest ← Action.lift .canonical compiled.chain.toJson.digest
  Action.log .info "task_chain_compiled" ([
    ("definition_key", .text c.definitionKey), ("definition_hash", .text digest),
    ("task_count", .nat compiled.chain.tasks.length)] ++ c.fields)
  return ⟨c.definitionKey, digest, compiled.chain.tasks.length, compiled.warnings⟩

theorem compileBody_eq (b : Builder T) (c : BuildContext) : b.compileBody c =
    (Action.alter fun s => s.updateInstance c.instanceId { status := some .buildStarted }) >>= fun _ =>
      (graph c.instanceId >>= b.compileGraph c.organization) >>= b.keep c := by
  simp only [compileBody, bind_assoc]
  rfl

def definitionStored (c : BuildContext) (digest : String) (chain : TaskChain) : LogEvent :=
  ⟨.info, "task_chain_compiled", [
    ("definition_key", .text c.definitionKey), ("definition_hash", .text digest),
    ("task_count", .nat chain.tasks.length)] ++ c.fields⟩

theorem definitionStored_quiet (c : BuildContext) (digest : String) (chain : TaskChain) :
    ∀ e ∈ [definitionStored c digest chain], e.Quiet :=
  List.forall_mem_singleton.2 (by decide : "task_chain_compiled" ≠ "resource_created")

/-- Once the definition is written, nothing can fail any more. -/
theorem runIn_keep {blobs : BlobStore} {uri : String} (hfound : w.store.getInstance c.instanceId = .ok i)
    (hproblems : b.engine.problems compiled.chain.toJson = [])
    (hbytes : compiled.chain.toJson.canonicalBytes = .ok bytes)
    (hdigest : compiled.chain.toJson.digest = .ok digest)
    (hwrite : w.blobs.write c.definitionKey (.bytes bytes) "application/json" = .ok (blobs, uri)) :
    runIn w (b.keep c compiled) = (.ok ⟨c.definitionKey, digest, compiled.chain.tasks.length, compiled.warnings⟩,
      ((w.written c.definitionKey bytes).amended c.instanceId { definitionKey := some c.definitionKey }).logged
        [definitionStored c digest compiled.chain]) := by
  obtain ⟨-, -, rfl, -⟩ := BlobStore.write_eq_ok hwrite
  have hwritten : runIn w (write c.definitionKey (.bytes bytes) "application/json") =
      (.ok uri, w.written c.definitionKey bytes) := by
    rw [runIn_write, hwrite]
    rfl
  have hnoted : runIn (w.written c.definitionKey bytes) (alter fun s => s.updateInstance c.instanceId
      { definitionKey := some c.definitionKey }) = (.ok (), (w.written c.definitionKey bytes).amended c.instanceId
      { definitionKey := some c.definitionKey }) := runIn_updateInstance (w := w.written c.definitionKey bytes) hfound _
  rw [keep, hproblems, if_neg (by simp), hbytes]
  refine (runIn_bind_ok hwritten).trans ((runIn_bind_ok hnoted).trans ?_)
  rw [hdigest]
  rfl

theorem keep_cases (hfound : w.store.getInstance c.instanceId = .ok i) (compiled : Compilation) :
    (∃ f, runIn w (b.keep c compiled) = (.error f, w)) ∨
    ∃ bytes digest, b.engine.problems compiled.chain.toJson = [] ∧
      compiled.chain.toJson.canonicalBytes = .ok bytes ∧ compiled.chain.toJson.digest = .ok digest ∧
      Blob.isKey c.definitionKey.toList = true ∧
      runIn w (b.keep c compiled) = (.ok ⟨c.definitionKey, digest, compiled.chain.tasks.length, compiled.warnings⟩,
        ((w.written c.definitionKey bytes).amended c.instanceId { definitionKey := some c.definitionKey }).logged
          [definitionStored c digest compiled.chain]) := by
  by_cases hproblems : b.engine.problems compiled.chain.toJson = []
  swap
  · rw [keep, if_pos (by simpa using hproblems)]
    exact .inl ⟨_, rfl⟩
  cases hbytes : compiled.chain.toJson.canonicalBytes with
  | error f =>
    rw [keep, if_neg (by simpa using hproblems), hbytes]
    exact .inl ⟨_, rfl⟩
  | ok bytes =>
    have hdigest : compiled.chain.toJson.digest = .ok (Digest.sha256 bytes) := by
      rw [Json.digest, hbytes]
      rfl
    cases hwrite : w.blobs.write c.definitionKey (.bytes bytes) "application/json" with
    | error f =>
      rw [keep, if_neg (by simpa using hproblems), hbytes]
      have hrefused : runIn w (write c.definitionKey (.bytes bytes) "application/json") = (.error (.blob f), w) := by
        rw [runIn_write, hwrite]
      exact .inl ⟨.blob f, (runIn_bind_ok rfl).trans (runIn_bind_error hrefused)⟩
    | ok p =>
      exact .inr ⟨bytes, _, hproblems, rfl, hdigest, (BlobStore.write_eq_ok hwrite).1,
        runIn_keep hfound hproblems hbytes hdigest hwrite⟩

theorem journal_quiet (compiled : Compilation) : ∀ e ∈ compiled.journal.map (LogEvent.within []), e.Quiet := by
  rw [Compilation.journal]
  split_ifs
  · simp
  · exact List.forall_mem_singleton.2 (by decide : "unreachable_nodes_skipped" ≠ "resource_created")

theorem compileBody_defines (hfound : w.store.getInstance c.instanceId = .ok i)
    (hdefines : b.Defines c w compiled bytes digest) (hfree : w.blobs.obstacle c.definitionKey = none) :
    ∃ events, (∀ e ∈ events, LogEvent.Quiet e) ∧ runIn w (b.compileBody c) =
      (.ok ⟨c.definitionKey, digest, compiled.chain.tasks.length, compiled.warnings⟩,
        (w.defined c bytes).logged events) := by
  have hcompiled : b.compilation c (w.amended c.instanceId { status := some .buildStarted }) = .ok compiled :=
    hdefines.compilation
  have hkept := runIn_keep (b := b) (c := c) (w := (w.amended c.instanceId { status := some .buildStarted }).logged
    (compiled.journal.map (LogEvent.within []))) (World.getInstance_amended_self hfound _) hdefines.accepted
    hdefines.canonical hdefines.digest (BlobStore.write_of_free hdefines.key hfree)
  rw [World.defined_eq] at hkept
  refine ⟨_, List.forall_mem_append.2 ⟨journal_quiet compiled, definitionStored_quiet c digest compiled.chain⟩, ?_⟩
  rw [compileBody_eq, runIn_bind_ok (runIn_updateInstance hfound _), runIn_bind, runIn_compilation, hcompiled]
  exact hkept

theorem compileBody_compiles (b : Builder T) (c : BuildContext) (w : World T) :
    ∃ outcome w', runIn w (b.compileBody c) = (outcome, w') ∧ b.Compiles c w outcome w' := by
  by_cases hfound : ∃ i, w.store.getInstance c.instanceId = .ok i
  swap
  · have hmissing : ∀ i, w.store.getInstance c.instanceId ≠ .ok i := fun i hi => hfound ⟨i, hi⟩
    obtain ⟨f, hf⟩ := updateInstance_missing hmissing { status := some .buildStarted }
    -- the world is left as it was, which is that with a change of an instance that is not there
    have hfailed : b.Compiles c w (.error f) (World.logged _ []) := .failed (by simp)
    rw [World.logged_nil, World.amended_missing hmissing] at hfailed
    exact ⟨_, w, runIn_bind_error hf, hfailed⟩
  obtain ⟨i, hi⟩ := hfound
  rw [compileBody_eq, runIn_bind_ok (runIn_updateInstance hi _), runIn_bind, runIn_compilation]
  -- what is compiled does not depend on the status of the instance
  have hcompilation : b.compilation c (w.amended c.instanceId { status := some .buildStarted }) =
    b.compilation c w := rfl
  rw [hcompilation]
  cases hcompiled : b.compilation c w with
  | error f =>
    have hfailed : b.Compiles c w (.error f) (World.logged _ []) := .failed (by simp)
    rw [World.logged_nil] at hfailed
    exact ⟨_, _, rfl, hfailed⟩
  | ok compiled =>
    rcases keep_cases (b := b) (c := c) (w := (w.amended c.instanceId { status := some .buildStarted }).logged
      (compiled.journal.map (LogEvent.within []))) (World.getInstance_amended_self hi _) compiled with
      ⟨f, hf⟩ | ⟨bytes, digest, hproblems, hbytes, hdigest, hkey, hrun⟩
    · exact ⟨_, _, hf, .failed (journal_quiet compiled)⟩
    · rw [World.defined_eq] at hrun
      exact ⟨_, _, hrun, .defined hi ⟨hcompiled, hproblems, hbytes, hdigest, hkey⟩
        (List.forall_mem_append.2 ⟨journal_quiet compiled, definitionStored_quiet c digest compiled.chain⟩)⟩

end Builder
end HuntDraw
