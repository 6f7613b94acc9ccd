import HuntDraw.Proofs.Build.Compile

/-! What registering does. The definition that is stored for an instance becomes that of its resource, a new one where
the instance has none, or nothing changes. -/

namespace HuntDraw

open HuntDraw.Action Engine Attempt

variable {T : Type}

namespace Builder

variable {b : Builder T} {c : BuildContext} {w w' : World T} {i : Instance}

def definition (c : BuildContext) (w : World T) : Except Failure Json := do
  let i ← (w.store.getInstance c.instanceId).mapError .store
  match i.definitionKey with
  | none => .error (.noDefinition c.instanceId)
  | some key =>
    if ← (w.blobs.holds key).mapError .blob then parseDefinition (← (w.blobs.read key).mapError .blob)
    else .error (.noDefinition c.instanceId)

theorem runIn_loadDefinition (c : BuildContext) (w : World T) :
    runIn w (loadDefinition c : Action T Json) = (definition c w, w) := by
  rw [loadDefinition, definition, runIn_bind, runIn_ask]
  cases w.store.getInstance c.instanceId with
  | error f => rfl
  | ok i =>
    change runIn w (match i.definitionKey with
      | none => throw (.noDefinition c.instanceId)
      | some key => _) = (match i.definitionKey with
      | none => .error (.noDefinition c.instanceId)
      | some key => _, w)
    cases i.definitionKey with
    | none => rfl
    | some key =>
      simp only
      rw [runIn_bind, runIn_look]
      cases w.blobs.holds key with
      | error f => rfl
      | ok held =>
        cases held with
        | false => rfl
        | true =>
          change runIn w (look (fun b => b.read key) >>= fun content => Action.lift id (parseDefinition content)) = _
          rw [runIn_bind, runIn_look]
          cases w.blobs.read key with
          | error f => rfl
          | ok content =>
            change runIn w (Action.lift id (parseDefinition content)) = (parseDefinition content, w)
            rw [runIn_lift]
            cases parseDefinition content <;> rfl

/-- A definition is read from the key that is noted down in the instance. -/
theorem definition_eq_ok {d : Json} : definition c w = .ok d ↔ ∃ i key content,
    w.store.getInstance c.instanceId = .ok i ∧ i.definitionKey = some key ∧ w.blobs.read key = .ok content ∧
      parseDefinition content = .ok d := by
  simp only [definition, bind_eq_ok, mapError_eq_ok]
  constructor
  · rintro ⟨i, hi, h⟩
    split at h
    · cases h
    · rename_i key hkey
      obtain ⟨held, -, h⟩ := bind_eq_ok.1 h
      split_ifs at h
      · obtain ⟨content, hread, hparse⟩ := bind_eq_ok.1 h
        exact ⟨i, key, content, hi, hkey, mapError_eq_ok.1 hread, hparse⟩
  · rintro ⟨i, key, content, hi, hkey, hread, hparse⟩
    refine ⟨i, hi, ?_⟩
    rw [hkey]
    simp only [BlobStore.holds_of_read hread, hread]
    exact hparse

theorem definition_error {f : Failure} (h : definition c w = .error f) (name : String) :
    f ≠ .engine (.resourceExists name) := by
  have hmapped : ∀ {ε α : Type} {wrap : ε → Failure} {r : Except ε α}, r.mapError wrap = .error f →
      (∀ e, wrap e ≠ .engine (.resourceExists name)) → f ≠ .engine (.resourceExists name) := by
    intro ε α wrap r hr hwrap
    cases r with
    | error e => exact Except.error.inj hr ▸ hwrap e
    | ok a => cases hr
  rcases bind_eq_error.1 h with hfind | ⟨i, -, h⟩
  · exact hmapped hfind (by simp)
  split at h
  · exact Except.error.inj h ▸ by simp
  rcases bind_eq_error.1 h with hheld | ⟨held, -, h⟩
  · exact hmapped hheld (by simp)
  split_ifs at h
  · rcases bind_eq_error.1 h with hread | ⟨content, -, h⟩
    · exact hmapped hread (by simp)
    · cases content with
      | archive members => exact Except.error.inj h ▸ by simp
      | bytes bs =>
        have hparsed : ((Text.decodeDocument bs).mapError Failure.notText >>= fun text =>
            (Json.read text).mapError fun f => Failure.notJson (f.message text)) = _ := h
        rcases bind_eq_error.1 hparsed with htext | ⟨text, -, h⟩
        · exact hmapped htext (by simp)
        · exact hmapped h (by simp)
  · exact Except.error.inj h ▸ by simp

/-- A definition that is noted down and kept is loaded, its fields in order, whatever instance it was made for. -/
theorem definition_of_defines {v : World T} {made : BuildContext} {compiled : Compilation} {bytes : Bytes}
    {digest key : String} (hdefines : b.Defines made v compiled bytes digest)
    (hfound : w.store.getInstance c.instanceId = .ok i) (hkey : i.definitionKey = some key)
    (hread : w.blobs.read key = .ok (.bytes bytes)) : definition c w = .ok compiled.chain.toJson.sortFields :=
  definition_eq_ok.2 ⟨i, key, _, hfound, hkey, hread, hdefines.parse⟩

theorem Defines.chain_eq {v : World T} {made : BuildContext} {compiled : Compilation} {bytes : Bytes} {digest key : String}
    {d : Json} {chain : TaskChain} (hdefines : b.Defines made v compiled bytes digest)
    (hfound : w.store.getInstance c.instanceId = .ok i) (hkey : i.definitionKey = some key)
    (hread : w.blobs.read key = .ok (.bytes bytes)) (hloaded : definition c w = .ok d)
    (haccepted : b.engine.accept d = .ok chain) : chain = compiled.chain.arranged := by
  obtain rfl := Except.ok.inj (hloaded.symm.trans (definition_of_defines hdefines hfound hkey hread))
  exact Except.ok.inj (haccepted.symm.trans hdefines.accept)

def resourceNoted (event handle : String) (c : BuildContext) : LogEvent :=
  ⟨.info, event, ("resource_handle", .text handle) :: c.fields⟩

variable [Timeline T]

def installed (b : Builder T) (c : BuildContext) (w : World T) (chain : TaskChain) : World T :=
  ((w.holding (handleOf c.instanceId) (b.engine.resourceAt w c.instanceId chain)).amended c.instanceId
    { executionHandle := some (handleOf c.instanceId) }).logged
    [resourceStored "resource_created" (handleOf c.instanceId) chain,
      resourceNoted "execution_resource_created" (handleOf c.instanceId) c]

theorem getInstance_installed (hfound : w.store.getInstance c.instanceId = .ok i) (chain : TaskChain) :
    (b.installed c w chain).store.getInstance c.instanceId =
      .ok { i with executionHandle := some (handleOf c.instanceId) } :=
  World.getInstance_amended_self (w := w.holding (handleOf c.instanceId) _) hfound _

def renewed (b : Builder T) (c : BuildContext) (w : World T) (handle name : String) (chain : TaskChain) : World T :=
  (w.holding handle (b.engine.resourceAt w name chain)).logged
    [resourceStored "resource_updated" handle chain, resourceNoted "execution_resource_updated" handle c]

/-- What can come of registering: a new resource, noted down in the instance, a new definition for the resource that the
instance has, or a failure that has changed nothing. -/
inductive Registers (b : Builder T) (c : BuildContext) (w : World T) : Except Failure String → World T → Prop
  | refused {f : Failure} (hother : ∀ name, f ≠ .engine (.resourceExists name)) : Registers b c w (.error f) w
  | taken {i : Instance} (hfound : w.store.getInstance c.instanceId = .ok i) (hnone : i.executionHandle = none)
      (hhas : w.resources.has (handleOf c.instanceId)) :
      Registers b c w (.error (.engine (.resourceExists c.instanceId))) w
  | created {i : Instance} {d : Json} {chain : TaskChain} (hfound : w.store.getInstance c.instanceId = .ok i)
      (hloaded : definition c w = .ok d) (haccepted : b.engine.accept d = .ok chain) (hnone : i.executionHandle = none)
      (hnew : ¬w.resources.has (handleOf c.instanceId)) :
      Registers b c w (.ok (handleOf c.instanceId)) (b.installed c w chain)
  | updated {i : Instance} {d : Json} {chain : TaskChain} {handle name : String}
      (hfound : w.store.getInstance c.instanceId = .ok i) (hloaded : definition c w = .ok d)
      (haccepted : b.engine.accept d = .ok chain) (hhandle : i.executionHandle = some handle)
      (hname : nameOf? handle = some name) : Registers b c w (.ok handle) (b.renewed c w handle name chain)

omit [Timeline T] in
theorem accept_error {f : Failure} {d : Json} (h : b.engine.accept d = .error f) (name : String) :
    f ≠ .engine (.resourceExists name) := by
  rintro rfl
  rw [accept] at h
  split at h
  · cases h
  · simp only at h
    split_ifs at h
    cases h

theorem runIn_registerBody_none {d : Json} (hfound : w.store.getInstance c.instanceId = .ok i)
    (hloaded : definition c w = .ok d) (hnone : i.executionHandle = none) : runIn w (b.registerBody c) =
      match b.engine.accept d with
      | .error f => (.error f, w)
      | .ok chain =>
        if w.resources.has (handleOf c.instanceId) then (.error (.engine (.resourceExists c.instanceId)), w)
        else (.ok (handleOf c.instanceId), b.installed c w chain) := by
  rw [registerBody, runIn_bind, runIn_loadDefinition, hloaded]
  simp only
  rw [runIn_bind, runIn_ask, hfound]
  simp only [Except.mapError, hnone]
  rw [runIn_bind, runIn_create]
  cases haccepted : b.engine.accept d with
  | error f => rfl
  | ok chain =>
    simp only
    by_cases hhas : w.resources.has (handleOf c.instanceId)
    · rw [if_pos hhas, if_pos hhas]
    · rw [if_neg hhas, if_neg hhas]
      have hnoted := runIn_updateInstance (w := (w.holding (handleOf c.instanceId)
        (b.engine.resourceAt w c.instanceId chain)).logged [resourceStored "resource_created"
        (handleOf c.instanceId) chain]) hfound { executionHandle := some (handleOf c.instanceId) }
      refine (runIn_bind_ok hnoted).trans ?_
      exact congrArg _ (World.logged_logged ((w.holding (handleOf c.instanceId)
        (b.engine.resourceAt w c.instanceId chain)).amended c.instanceId _) [_] [_])

theorem runIn_registerBody_some {d : Json} {handle : String} (hfound : w.store.getInstance c.instanceId = .ok i)
    (hloaded : definition c w = .ok d) (hhandle : i.executionHandle = some handle) : runIn w (b.registerBody c) =
      match b.engine.accept d, nameOf? handle with
      | .error f, _ => (.error f, w)
      | .ok _, none => (.error (.engine (.unknownResource handle)), w)
      | .ok chain, some name => (.ok handle, b.renewed c w handle name chain) := by
  rw [registerBody, runIn_bind, runIn_loadDefinition, hloaded]
  simp only
  rw [runIn_bind, runIn_ask, hfound]
  simp only [Except.mapError, hhandle]
  rw [runIn_bind, runIn_update]
  cases b.engine.accept d with
  | error f => rfl
  | ok chain =>
    cases nameOf? handle with
    | none => rfl
    | some name => exact congrArg _ (World.logged_logged (w.holding handle (b.engine.resourceAt w name chain)) [_] [_])

theorem registerBody_registers (b : Builder T) (c : BuildContext) (w : World T) :
    ∃ outcome w', runIn w (b.registerBody c) = (outcome, w') ∧ b.Registers c w outcome w' := by
  cases hloaded : definition c w with
  | error f =>
    rw [registerBody, runIn_bind, runIn_loadDefinition, hloaded]
    exact ⟨_, _, rfl, .refused (definition_error hloaded)⟩
  | ok d =>
    obtain ⟨i, -, -, hfound, -⟩ := definition_eq_ok.1 hloaded
    cases hhandle : i.executionHandle with
    | none =>
      rw [runIn_registerBody_none hfound hloaded hhandle]
      cases haccepted : b.engine.accept d with
      | error f => exact ⟨_, _, rfl, .refused (accept_error haccepted)⟩
      | ok chain =>
        by_cases hhas : w.resources.has (handleOf c.instanceId)
        · exact ⟨_, _, if_pos hhas, .taken hfound hhandle hhas⟩
        · exact ⟨_, _, if_neg hhas, .created hfound hloaded haccepted hhandle hhas⟩
    | some handle =>
      rw [runIn_registerBody_some hfound hloaded hhandle]
      cases haccepted : b.engine.accept d with
      | error f => exact ⟨_, _, rfl, .refused (accept_error haccepted)⟩
      | ok chain =>
        cases hname : nameOf? handle with
        | none => exact ⟨_, _, rfl, .refused fun name => by simp⟩
        | some name => exact ⟨_, _, rfl, .updated hfound hloaded haccepted hhandle hname⟩

end Builder
end HuntDraw
