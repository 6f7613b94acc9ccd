import HuntDraw.Proofs.Build.Stages

/-! What every stage keeps, however it ends. Instances, definitions and resources agree with each other, and an instance
keeps the resource that it has. -/

namespace HuntDraw

open HuntDraw.Action Engine

variable {T : Type}

theorem Engine.handleOf_injective {name name' : String} (h : handleOf name = handleOf name') : name = name' := by
  have hlists := congrArg String.toList h
  rw [handleOf, handleOf, String.toList_append, String.toList_append] at hlists
  exact String.toList_injective (List.append_cancel_left hlists)

/-- What is noted down in an instance is there: the resource of a handle, and a definition under the key. -/
structure Instance.Agrees (w : World T) (id : String) (i : Instance) : Prop where
  ready : i.status = .ready → i.executionHandle ≠ none
  handle : ∀ handle, i.executionHandle = some handle →
    handle = handleOf id ∧ handle ∈ w.resources.keys ∧ i.definitionKey ≠ none
  definition : ∀ key, i.definitionKey = some key →
    (∃ c : BuildContext, key = c.definitionKey) ∧ ∃ content, w.blobs.read key = .ok content

namespace World

/-- Instances, definitions and resources agree: what is noted down is there, and each resource was made once, for an
instance in which it is noted down. -/
structure Agrees (w : World T) : Prop where
  instances : ∀ id i, w.store.getInstance id = .ok i → i.Agrees w id
  resources : ∀ handle ∈ w.resources.keys, ∃ id i, w.store.getInstance id = .ok i ∧ i.executionHandle = some handle
  created : w.created = w.resources.keys
  distinct : w.resources.keys.Nodup

theorem Agrees.of_resource {w : World T} (h : w.Agrees) {id : String} {i : Instance}
    (hfound : w.store.getInstance id = .ok i) (hknown : handleOf id ∈ w.resources.keys) :
    i.executionHandle = some (handleOf id) := by
  obtain ⟨id', i', hi', hhandle⟩ := h.resources _ hknown
  obtain rfl := handleOf_injective ((h.instances id' i' hi').handle _ hhandle).1
  obtain rfl := Except.ok.inj (hfound.symm.trans hi')
  exact hhandle

/-- A world before any build: no instance is built, and the engine has no resource and has made none. -/
structure Fresh (w : World T) : Prop where
  instances : ∀ i ∈ w.store.instances, i.status = .buildNeeded ∧ i.definitionKey = none ∧ i.executionHandle = none
  resources : w.resources = []
  created : w.created = []

theorem Fresh.agrees {w : World T} (h : w.Fresh) : w.Agrees := by
  refine ⟨fun id i hi => ?_, by simp [h.resources], by rw [h.created, h.resources]; rfl, by simp [h.resources]⟩
  obtain ⟨hstatus, hkey, hhandle⟩ := h.instances i (List.mem_of_find?_eq_some (Store.getInstance_eq_ok.1 hi))
  exact ⟨by simp [hstatus], by simp [hhandle], by simp [hkey]⟩

def KeepsHandles (w w' : World T) : Prop := ∀ id i handle, w.store.getInstance id = .ok i →
  i.executionHandle = some handle → ∃ i', w'.store.getInstance id = .ok i' ∧ i'.executionHandle = some handle

def Keeps (w w' : World T) : Prop := w.Agrees → w'.Agrees ∧ w.KeepsHandles w'

instance : IsPreorder (World T) Keeps where
  refl _ h := ⟨h, fun _ i _ hi hhandle => ⟨i, hi, hhandle⟩⟩
  trans _ _ _ h h' hagrees := by
    obtain ⟨hagrees', hkept⟩ := h hagrees
    obtain ⟨hagrees'', hkept'⟩ := h' hagrees'
    refine ⟨hagrees'', fun id i handle hi hhandle => ?_⟩
    obtain ⟨i', hi', hhandle'⟩ := hkept id i handle hi hhandle
    exact hkept' id i' handle hi' hhandle'

end World

variable {w w' : World T} {id : String} {i : Instance} {c : BuildContext}

theorem Instance.Agrees.mono (h : i.Agrees w id) (hresources : ∀ k ∈ w.resources.keys, k ∈ w'.resources.keys)
    (hdefinitions : ∀ (c : BuildContext) content, w.blobs.read c.definitionKey = .ok content →
      ∃ content', w'.blobs.read c.definitionKey = .ok content') : i.Agrees w' id := by
  refine ⟨h.ready, fun handle hhandle => ?_, fun key hkey => ?_⟩
  · obtain ⟨hid, hknown, hdefined⟩ := h.handle handle hhandle
    exact ⟨hid, hresources _ hknown, hdefined⟩
  · obtain ⟨⟨c, rfl⟩, content, hread⟩ := h.definition key hkey
    exact ⟨⟨c, rfl⟩, hdefinitions c content hread⟩

namespace World.Keeps

theorem of_upholds (h : w.Upholds w') : w.Keeps w' := by
  intro hagrees
  have hfound : ∀ id, w'.store.getInstance id = w.store.getInstance id := Store.getInstance_congr h.instances
  refine ⟨⟨fun id i hi => ?_, fun handle hhandle => ?_, ?_, ?_⟩, fun id i handle hi hhandle => ⟨i, ?_, hhandle⟩⟩
  · rw [hfound] at hi
    exact (hagrees.instances id i hi).mono (fun k hk => h.resources ▸ hk) fun c content hread =>
      ⟨content, BlobStore.read_of_get? hread (h.definitions c)⟩
  · rw [h.resources] at hhandle
    obtain ⟨id, i, hi, hnoted⟩ := hagrees.resources handle hhandle
    exact ⟨id, i, (hfound id).trans hi, hnoted⟩
  · rw [h.created, h.resources, hagrees.created]
  · rw [h.resources]
    exact hagrees.distinct
  · rw [hfound, hi]

theorem logged {events : List LogEvent} (h : ∀ e ∈ events, e.Quiet) (w : World T) : w.Keeps (w.logged events) :=
  of_upholds (.logged h w)

theorem amended {change : Store.InstanceChange}
    (hagrees : ∀ i, w.store.getInstance id = .ok i → i.Agrees w id → (change.apply i).Agrees w id)
    (hhandle : ∀ i handle, i.executionHandle = some handle → (change.apply i).executionHandle = some handle) :
    w.Keeps (w.amended id change) := by
  intro h
  have hkept : w.KeepsHandles (w.amended id change) := by
    intro id' i handle hi hnoted
    by_cases hid : id' = id
    · subst hid
      exact ⟨_, getInstance_amended_self hi change, hhandle i handle hnoted⟩
    · exact ⟨i, (getInstance_amended_of_ne hid w change).trans hi, hnoted⟩
  refine ⟨⟨fun id' i' hi' => ?_, fun handle hknown => ?_, h.created, h.distinct⟩, hkept⟩
  · obtain ⟨i, hi, rfl⟩ := getInstance_amended hi'
    have hbefore := h.instances id' i hi
    have hafter : (if id' = id then change.apply i else i).Agrees w id' := by
      split_ifs with hid
      · subst hid
        exact hagrees i hi hbefore
      · exact hbefore
    exact hafter.mono (fun _ hk => hk) fun _ content hread => ⟨content, hread⟩
  · obtain ⟨id', i, hi, hnoted⟩ := h.resources handle hknown
    obtain ⟨i', hi', hnoted'⟩ := hkept id' i handle hi hnoted
    exact ⟨id', i', hi', hnoted'⟩

theorem amended_status {status : InstanceStatus} (h : status ≠ .ready) :
    w.Keeps (w.amended id { status := some status }) :=
  amended (fun _ _ hi => ⟨fun hready => absurd hready h, hi.handle, hi.definition⟩) fun _ _ hhandle => hhandle

theorem amended_ready (hfound : w.store.getInstance id = .ok i) (hhandle : i.executionHandle ≠ none) :
    w.Keeps (w.amended id { status := some .ready }) := by
  refine amended (fun i' hi' h => ⟨fun _ => ?_, h.handle, h.definition⟩) fun _ _ hnoted => hnoted
  obtain rfl := Except.ok.inj (hfound.symm.trans hi')
  exact hhandle

theorem written (h : Blob.isKey c.definitionKey.toList = true) (bytes : Bytes) :
    w.Keeps (w.written c.definitionKey bytes) := by
  intro hagrees
  refine ⟨⟨fun id i hi => ?_, hagrees.resources, hagrees.created, hagrees.distinct⟩,
    fun id i handle hi hhandle => ⟨i, hi, hhandle⟩⟩
  refine (hagrees.instances id i hi).mono (fun _ hk => hk) fun c' content hread => ?_
  by_cases hkey : c'.definitionKey = c.definitionKey
  · exact ⟨.bytes bytes, by rw [hkey, read_written w h]⟩
  · exact ⟨content, BlobStore.read_of_get? hread (Fields.get?_put_of_ne _ hkey)⟩

theorem created {events : List LogEvent} (r : Resource T) (hfound : w.store.getInstance id = .ok i)
    (hnone : i.executionHandle = none) (hnew : handleOf id ∉ w.resources.keys)
    (hevents : events.filterMap LogEvent.created? = [handleOf id]) (hdefined : i.definitionKey ≠ none) :
    w.Keeps (((w.holding (handleOf id) r).amended id { executionHandle := some (handleOf id) }).logged events) := by
  intro hagrees
  have hkeys : (w.resources.put (handleOf id) r).keys = w.resources.keys ++ [handleOf id] := by
    rw [Fields.keys_put, if_neg hnew]
  have hself := getInstance_amended_self (w := w.holding (handleOf id) r) hfound
    { executionHandle := some (handleOf id) }
  -- the instance had no handle to keep, and the others are left alone
  have hkept : w.KeepsHandles ((w.holding (handleOf id) r).amended id { executionHandle := some (handleOf id) }) := by
    intro id' i' handle hi' hhandle
    have hid : id' ≠ id := by
      rintro rfl
      obtain rfl := Except.ok.inj (hfound.symm.trans hi')
      exact nomatch hnone.symm.trans hhandle
    exact ⟨i', (getInstance_amended_of_ne hid _ _).trans hi', hhandle⟩
  refine ⟨⟨fun id' i' hi' => ?_, fun handle hknown => ?_, ?_, ?_⟩, hkept⟩
  · obtain ⟨before, hbefore, rfl⟩ := getInstance_amended (w := w.holding (handleOf id) r) hi'
    have hmono : before.Agrees (((w.holding (handleOf id) r).amended id
        { executionHandle := some (handleOf id) }).logged events) id' :=
      (hagrees.instances id' before hbefore).mono (fun k hk => hkeys ▸ List.mem_append_left _ hk)
        fun _ content hread => ⟨content, hread⟩
    split_ifs with hid
    · subst hid
      obtain rfl := Except.ok.inj (hfound.symm.trans hbefore)
      refine ⟨fun _ => by simp [Store.InstanceChange.apply], fun handle hhandle => ?_, hmono.definition⟩
      obtain rfl : handleOf id' = handle := by simpa [Store.InstanceChange.apply] using hhandle
      exact ⟨rfl, hkeys ▸ List.mem_append_right _ (List.mem_singleton_self _), hdefined⟩
    · exact hmono
  · have hcases : handle ∈ w.resources.keys ++ [handleOf id] := hkeys ▸ hknown
    rcases List.mem_append.1 hcases with hold | hnew
    · obtain ⟨id', i', hi', hhandle⟩ := hagrees.resources handle hold
      obtain ⟨i'', hi'', hhandle'⟩ := hkept id' i' handle hi' hhandle
      exact ⟨id', i'', hi'', hhandle'⟩
    · obtain rfl := List.mem_singleton.1 hnew
      exact ⟨id, _, hself, rfl⟩
  · rw [created_logged]
    change w.created ++ _ = (w.resources.put (handleOf id) r).keys
    rw [hkeys, hagrees.created, hevents]
  · change (w.resources.put (handleOf id) r).keys.Nodup
    rw [hkeys]
    exact List.nodup_append.2 ⟨hagrees.distinct, List.nodup_singleton _,
      by simpa using fun k hk => ne_of_mem_of_not_mem hk hnew⟩

theorem updated {handle : String} (r : Resource T) (hfound : w.store.getInstance id = .ok i)
    (hhandle : i.executionHandle = some handle) : w.Keeps (w.holding handle r) := by
  intro hagrees
  have hkeys : (w.resources.put handle r).keys = w.resources.keys := by
    rw [Fields.keys_put, if_pos ((hagrees.instances id i hfound).handle handle hhandle).2.1]
  refine ⟨⟨fun id' i' hi' => ?_, fun handle' hknown => ?_, ?_, ?_⟩, fun id' i' handle' hi' hnoted => ⟨i', hi', hnoted⟩⟩
  · exact (hagrees.instances id' i' hi').mono (fun k hk => hkeys.symm ▸ hk) fun _ content hread => ⟨content, hread⟩
  · exact hagrees.resources handle' (hkeys ▸ hknown)
  · exact hagrees.created.trans hkeys.symm
  · exact hkeys.symm ▸ hagrees.distinct

end World.Keeps

namespace Builder

variable [Timeline T] {b : Builder T} {f : Failure} {s : BuildStage}

open World (Keeps)

omit [Timeline T] in
theorem compileBody_keeps (b : Builder T) (c : BuildContext) : (b.compileBody c).Along Keeps := by
  intro w
  obtain ⟨outcome, w', hrun, hcompiles⟩ := compileBody_compiles b c w
  rw [hrun]
  cases hcompiles with
  | failed hquiet => exact trans_of Keeps (.amended_status (by decide)) (.logged hquiet _)
  | defined hfound hdefines hquiet =>
    refine trans_of Keeps (.written hdefines.key _) (trans_of Keeps (.amended (fun i _ hi => ?_) fun _ _ hhandle => ?_)
      (.logged hquiet _))
    swap
    · exact hhandle
    refine ⟨fun hready => by simp [Store.InstanceChange.apply] at hready, fun handle hhandle => ?_, fun key hkey => ?_⟩
    · obtain ⟨hid, hknown, -⟩ := hi.handle handle hhandle
      exact ⟨hid, hknown, by simp [Store.InstanceChange.apply]⟩
    · obtain rfl : c.definitionKey = key := by simpa [Store.InstanceChange.apply] using hkey
      exact ⟨⟨c, rfl⟩, _, World.read_written _ hdefines.key _⟩

theorem registerBody_keeps (b : Builder T) (c : BuildContext) : (b.registerBody c).Along Keeps := by
  intro w
  obtain ⟨outcome, w', hrun, hregisters⟩ := registerBody_registers b c w
  rw [hrun]
  cases hregisters with
  | refused | taken => exact refl w
  | @created i d chain hfound hloaded haccepted hnone hnew =>
    obtain ⟨i', key, -, hfound', hkey, -⟩ := definition_eq_ok.1 hloaded
    obtain rfl := Except.ok.inj (hfound.symm.trans hfound')
    exact .created _ hfound hnone (fun hhas => hnew (Fields.has_iff.2 hhas)) rfl (by simp [hkey])
  | updated hfound hloaded haccepted hhandle hname =>
    refine trans_of Keeps (.updated _ hfound hhandle) (.logged ?_ _)
    exact List.forall_mem_cons.2 ⟨(by decide : "resource_updated" ≠ "resource_created"),
      List.forall_mem_singleton.2 (by decide : "execution_resource_updated" ≠ "resource_created")⟩

theorem awaitBody_keeps (b : Builder T) (c : BuildContext) : (b.awaitBody c).Along Keeps := by
  intro w
  obtain ⟨outcome, w', hrun, hawaits⟩ := awaitBody_awaits b c w
  rw [hrun]
  cases hawaits with
  | failed hwaited => exact .of_upholds hwaited.upholds
  | @ready i handle w' hfound hhandle hwaited =>
    have hfound' : w'.store.getInstance c.instanceId = .ok i := by
      rw [Store.getInstance_congr hwaited.upholds.instances, hfound]
    exact trans_of Keeps (.of_upholds hwaited.upholds) (.amended_ready hfound' (by simp [hhandle]))

theorem triggerBody_keeps (hhandlers : b.engine.Upholding) (c : BuildContext) : (b.triggerBody c).Along Keeps :=
  (triggerBody_upholds hhandlers c).mono fun _ _ => .of_upholds

omit [Timeline T] in
theorem stage_keeps {α : Type} {c : BuildContext} {body : Action T α} (hbody : body.Along Keeps) :
    (stage s c body).Along Keeps := by
  have hrecord : ∀ f, (recordFailure s c f : Action T Unit).Along Keeps := by
    intro f w
    refine trans_of Keeps ?_ (.of_upholds (recordFailure_upholds s c f w))
    rw [blamed]
    split_ifs
    · exact .amended_status (by decide)
    · exact refl w
  exact stage_along hbody hrecord fun w event hquiet => .of_upholds (.logged_event hquiet w)

omit [Timeline T] in
theorem compile_keeps (b : Builder T) (c : BuildContext) : (b.compile c).Along Keeps :=
  stage_keeps (compileBody_keeps b c)

theorem register_keeps (b : Builder T) (c : BuildContext) : (b.register c).Along Keeps :=
  stage_keeps (registerBody_keeps b c)

theorem awaitReady_keeps (b : Builder T) (c : BuildContext) : (b.awaitReady c).Along Keeps :=
  stage_keeps (awaitBody_keeps b c)

theorem trigger_keeps (hhandlers : b.engine.Upholding) (c : BuildContext) : (b.trigger c).Along Keeps :=
  stage_keeps (triggerBody_keeps hhandlers c)

theorem call_keeps (hhandlers : b.engine.Upholding) (c : BuildContext) : ∀ s : BuildStage, (b.call c s).Along Keeps
  | .compile => (compile_keeps b c).discard
  | .register => (register_keeps b c).discard
  | .awaitReady => (awaitReady_keeps b c).discard
  | .trigger => (trigger_keeps hhandlers c).discard

theorem run_keeps (hhandlers : b.engine.Upholding) (c : BuildContext) : (b.run c).Along Keeps :=
  .bind (compile_keeps b c) fun _ => .bind (register_keeps b c) fun _ => .bind (awaitReady_keeps b c) fun _ =>
    .bind (trigger_keeps hhandlers c) fun _ => .pure _

end Builder
end HuntDraw
