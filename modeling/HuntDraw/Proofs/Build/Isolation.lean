import HuntDraw.Proofs.Build.Returns

/-! Builds of two instances in turn. The key of a definition is made of three texts and the slashes between them, and
texts may have slashes of their own. Builds whose keys differ have nothing to do with each other; with one key for both,
an instance is registered with the graph of the other. -/

namespace HuntDraw

open HuntDraw.Action Engine Attempt

variable {T : Type}

namespace World

variable {w w' : World T} {c made : BuildContext} {id : String} {bytes : Bytes}

/-- From one world to the next, the definitions stay, and so do the keys that are noted down in instances. -/
structure Retains (w w' : World T) : Prop where
  keys : ∀ id,
    (w'.store.getInstance id).map Instance.definitionKey = (w.store.getInstance id).map Instance.definitionKey
  definitions : ∀ c : BuildContext, w'.blobs.blobs.get? c.definitionKey = w.blobs.blobs.get? c.definitionKey

instance : IsPreorder (World T) Retains where
  refl _ := ⟨fun _ => rfl, fun _ => rfl⟩
  trans _ _ _ h h' := ⟨fun id => (h'.keys id).trans (h.keys id), fun c => (h'.definitions c).trans (h.definitions c)⟩

theorem Retains.of_upholds (h : w.Upholds w') : w.Retains w' :=
  ⟨fun id => by rw [Store.getInstance_congr h.instances], h.definitions⟩

theorem Retains.logged (w : World T) (events : List LogEvent) : w.Retains (w.logged events) :=
  ⟨fun _ => rfl, fun _ => rfl⟩

theorem Retains.amended {change : Store.InstanceChange} (h : change.definitionKey = none) (w : World T) (id : String) :
    w.Retains (w.amended id change) := by
  refine ⟨fun id' => ?_, fun _ => rfl⟩
  by_cases hid : id' = id
  · subst hid
    cases hfound : w.store.getInstance id' with
    | ok i =>
      rw [getInstance_amended_self hfound]
      simp [Except.map, Store.InstanceChange.apply, h]
    | error f =>
      rw [amended_missing (by simp [hfound]), hfound]
  · rw [getInstance_amended_of_ne hid]

/-- The definition of an instance is noted down in it and kept. -/
structure Keeping (w : World T) (c : BuildContext) (bytes : Bytes) : Prop where
  noted : (w.store.getInstance c.instanceId).map Instance.definitionKey = .ok (some c.definitionKey)
  stored : w.blobs.read c.definitionKey = .ok (.bytes bytes)

theorem Keeping.retains (h : w.Keeping c bytes) (hretains : w.Retains w') : w'.Keeping c bytes :=
  ⟨(hretains.keys _).trans h.noted, BlobStore.read_of_get? h.stored (hretains.definitions c)⟩

theorem Keeping.defined {i : Instance} (hfound : w.store.getInstance c.instanceId = .ok i)
    (hkey : Blob.isKey c.definitionKey.toList = true) (events : List LogEvent) :
    ((w.defined c bytes).logged events).Keeping c bytes := by
  refine ⟨?_, read_defined w hkey bytes events⟩
  rw [getInstance_defined_self hfound]
  rfl

/-- What is stored for another instance, under another key, is no matter. -/
theorem Keeping.apart {bytes' : Bytes} (h : w.Keeping c bytes) (hid : c.instanceId ≠ made.instanceId)
    (hkey : c.definitionKey ≠ made.definitionKey) (events : List LogEvent) :
    ((w.defined made bytes').logged events).Keeping c bytes :=
  ⟨by rw [getInstance_defined hid, h.noted], BlobStore.read_of_get? h.stored (Fields.get?_put_of_ne _ hkey)⟩

theorem Keeping.found (h : w.Keeping c bytes) :
    ∃ i, w.store.getInstance c.instanceId = .ok i ∧ i.definitionKey = some c.definitionKey := map_eq_ok.1 h.noted

end World

namespace Builder

section Stages

variable {b : Builder T} {c : BuildContext} {w w' : World T} {f : Failure}

theorem compile_retains (h : runIn w (b.compile c) = (.error f, w')) : w.Retains w' := by
  obtain ⟨cause, w₁, hbody, hupholds⟩ := stage_error h
  cases of_runIn (compileBody_compiles b c _) hbody with
  | failed =>
    exact trans_of World.Retains (trans_of World.Retains (.logged w _) (trans_of World.Retains (.amended rfl _ _)
      (.logged _ _))) (trans_of World.Retains (trans_of World.Retains (.logged _ _) (.amended rfl _ _))
      (.of_upholds hupholds))

theorem installed_retains [Timeline T] (b : Builder T) (c : BuildContext) (w : World T) (chain : TaskChain) :
    w.Retains (b.installed c w chain) := by
  have hheld : w.Retains (w.holding (handleOf c.instanceId) (b.engine.resourceAt w c.instanceId chain)) :=
    ⟨fun _ => rfl, fun _ => rfl⟩
  exact trans_of World.Retains (trans_of World.Retains hheld (.amended rfl _ _)) (.logged _ _)

/-- Registering leaves the definitions as they are, whatever comes of it. -/
theorem register_retains [Timeline T] (b : Builder T) (c : BuildContext) : (b.register c).Along World.Retains := by
  refine stage_along (fun w => ?_) (fun f w => ?_) fun w event _ => .logged w _
  · obtain ⟨outcome, w', hrun, hregisters⟩ := registerBody_registers b c w
    rw [hrun]
    cases hregisters with
    | refused | taken => exact refl w
    | created => exact installed_retains b c w _
    | updated => exact ⟨fun _ => rfl, fun _ => rfl⟩
  · exact trans_of World.Retains (.amended rfl w _) (.of_upholds (recordFailure_upholds .register c f w))

end Stages

variable [Timeline T] {b : Builder T} {c : Bool → BuildContext} {last : Bool → Option Compilation} {w₀ w w' : World T}

/-- Two builds in turn: calls of compiling and registering on either of two contexts, with what was last compiled for
each of them. -/
inductive Turns (b : Builder T) (c : Bool → BuildContext) (w₀ : World T) : (Bool → Option Compilation) → World T → Prop
  | start : Turns b c w₀ (fun _ => none) w₀
  | compiled {last : Bool → Option Compilation} {w w' : World T} {compiled : Compilation} {result : CompileResult}
      (h : Turns b c w₀ last w) (side : Bool) (hcompiled : b.compilation (c side) w = .ok compiled)
      (hrun : runIn w (b.compile (c side)) = (.ok result, w')) :
      Turns b c w₀ (Function.update last side (some compiled)) w'
  | failed {last : Bool → Option Compilation} {w w' : World T} {f : Failure} (h : Turns b c w₀ last w) (side : Bool)
      (hrun : runIn w (b.compile (c side)) = (.error f, w')) : Turns b c w₀ last w'
  | registered {last : Bool → Option Compilation} {w : World T} (h : Turns b c w₀ last w) (side : Bool) :
      Turns b c w₀ last (runIn w (b.register (c side))).2

/-- Builds of two new instances do not interfere: whatever turns they take, registering that returns gives the resource
of the instance the chain that was last compiled for this instance. -/
def Isolated (b : Builder T) (c : Bool → BuildContext) : Prop :=
  ∀ w₀ last w side handle w', (∀ side i, w₀.store.getInstance (c side).instanceId = .ok i → i.definitionKey = none) →
    b.Turns c w₀ last w → runIn w (b.register (c side)) = (.ok handle, w') →
    ∃ compiled i chain, last side = some compiled ∧ w'.store.getInstance (c side).instanceId = .ok i ∧
      i.executionHandle = some handle ∧ runIn w' (definitionOf handle) = (.ok chain, w') ∧
      compiled.chain.toJson.Same chain.toJson

/-- What is kept for an instance is what was last compiled for it, if anything was. -/
def KeptFor (b : Builder T) (c : BuildContext) (w : World T) : Option Compilation → Prop
  | none => ∀ i, w.store.getInstance c.instanceId = .ok i → i.definitionKey = none
  | some compiled => ∃ v bytes digest, b.Defines c v compiled bytes digest ∧ w.Keeping c bytes

omit [Timeline T] in
theorem KeptFor.retains {c : BuildContext} {kept : Option Compilation} (h : b.KeptFor c w kept)
    (hretains : w.Retains w') : b.KeptFor c w' kept := by
  cases kept with
  | some compiled =>
    obtain ⟨v, bytes, digest, hdefines, hkeeping⟩ := h
    exact ⟨v, bytes, digest, hdefines, hkeeping.retains hretains⟩
  | none =>
    intro i hi
    have hkey := hretains.keys c.instanceId
    rw [hi] at hkey
    obtain ⟨i', hi', heq⟩ := map_eq_ok.1 hkey.symm
    exact heq ▸ h i' hi'

omit [Timeline T] in
theorem KeptFor.apart {c made : BuildContext} {kept : Option Compilation} (h : b.KeptFor c w kept)
    (hid : c.instanceId ≠ made.instanceId) (hkey : c.definitionKey ≠ made.definitionKey) (bytes : Bytes)
    (events : List LogEvent) : b.KeptFor c ((w.defined made bytes).logged events) kept := by
  cases kept with
  | some compiled =>
    obtain ⟨v, bytes', digest, hdefines, hkeeping⟩ := h
    exact ⟨v, bytes', digest, hdefines, hkeeping.apart hid hkey events⟩
  | none =>
    intro i hi
    rw [World.getInstance_defined hid] at hi
    exact h i hi

/-- What was last compiled for an instance is kept for it throughout, where no two instances share a key that
definitions can be stored under. -/
theorem Turns.kept (hids : ∀ s s', s ≠ s' → (c s).instanceId ≠ (c s').instanceId)
    (hkeys : ∀ s s', s ≠ s' → Blob.isKey (c s').definitionKey.toList = true → (c s).definitionKey ≠ (c s').definitionKey)
    (hnew : ∀ side i, w₀.store.getInstance (c side).instanceId = .ok i → i.definitionKey = none)
    (h : b.Turns c w₀ last w) : ∀ side, b.KeptFor (c side) w (last side) := by
  induction h with
  | start => exact hnew
  | @compiled last w w' compiled result _ side hcompiled hrun ih =>
    obtain ⟨i, compiled', bytes, digest, events, hfound, hdefines, -, -, rfl⟩ := compile_eq_ok hrun
    obtain rfl := Except.ok.inj (hcompiled.symm.trans hdefines.compilation)
    intro other
    by_cases hside : other = side
    · subst hside
      rw [Function.update_self]
      exact ⟨w, bytes, digest, hdefines, .defined hfound hdefines.key events⟩
    · -- the definition of the other instance was written under another key
      rw [Function.update_of_ne hside]
      exact (ih other).apart (hids _ _ hside) (hkeys _ _ hside hdefines.key) bytes events
  | failed _ side hrun ih => exact fun other => (ih other).retains (compile_retains hrun)
  | registered _ side ih => exact fun other => (ih other).retains (register_retains b (c side) _)

/-- Registering that returns has registered what is kept for the instance. -/
theorem register_kept {c : BuildContext} {kept : Option Compilation} {handle : String} (hkept : b.KeptFor c w kept)
    (h : runIn w (b.register c) = (.ok handle, w')) : ∃ compiled i chain, kept = some compiled ∧
      w'.store.getInstance c.instanceId = .ok i ∧ i.executionHandle = some handle ∧
      runIn w' (definitionOf handle) = (.ok chain, w') ∧ compiled.chain.toJson.Same chain.toJson := by
  cases kept with
  | some compiled =>
    obtain ⟨v, bytes, digest, hdefines, hkeeping⟩ := hkept
    obtain ⟨i, hfound, hkey⟩ := hkeeping.found
    obtain ⟨i', hregistered⟩ := register_registered hdefines hfound hkey hkeeping.stored h
    obtain ⟨r, hr, hchain⟩ := hregistered.executes
    exact ⟨compiled, i', r.chain, rfl, hregistered.found, hregistered.noted, runIn_definitionOf hr,
      hchain ▸ hdefines.same⟩
  | none =>
    obtain ⟨w₁, hbody, -⟩ := stage_eq_ok h
    have hloaded : ∀ d, definition c w ≠ .ok d := fun d hd => by
      obtain ⟨i, key, -, hfound, hkey, -⟩ := definition_eq_ok.1 hd
      exact nomatch (hkept i hfound).symm.trans hkey
    cases of_runIn (registerBody_registers b c _) hbody with
    | created _ hd | updated _ hd => exact absurd hd (hloaded _)

/-- Builds are isolated where their keys differ, and where the key that they share is none. -/
theorem isolated_of_keys (b : Builder T) (hids : (c true).instanceId ≠ (c false).instanceId)
    (hkeys : (c true).definitionKey ≠ (c false).definitionKey ∨
      Blob.isKey (c true).definitionKey.toList = false) : b.Isolated c := by
  -- under a key that is none nothing is ever stored
  have hkey : (c true).definitionKey = (c false).definitionKey →
      ∀ s, Blob.isKey (c s).definitionKey.toList = false := by
    intro heq s
    have hnone := hkeys.resolve_left (not_not_intro heq)
    cases s
    · rw [← heq, hnone]
    · exact hnone
  intro w₀ last w side handle w' hnew hturns hrun
  refine register_kept (hturns.kept (fun s s' hs => ?_) (fun s s' hs hvalid heq => ?_) hnew side) hrun
  · cases s <;> cases s'
    exacts [absurd rfl hs, hids.symm, hids, absurd rfl hs]
  · have hshared : (c true).definitionKey = (c false).definitionKey := by
      cases s <;> cases s'
      exacts [absurd rfl hs, heq.symm, heq, absurd rfl hs]
    exact nomatch (hkey hshared s').symm.trans hvalid

/-- Two instances of one node each that share a key: each is compiled, and then the first is registered, with the graph
of the second. -/
theorem pair_turns (hids : (c true).instanceId ≠ (c false).instanceId)
    (hshared : (c true).definitionKey = (c false).definitionKey)
    (hkey : Blob.isKey (c true).definitionKey.toList = true) : ∃ first second handle w w',
      first.chain.start = "a" ∧ second.chain.start = "b" ∧
      (plain : Builder T).Turns c (World.pair (c true) (c false))
        (Function.update (Function.update (fun _ => none) true (some first)) false (some second)) w ∧
      runIn w ((plain : Builder T).register (c true)) = (.ok handle, w') ∧
      runIn w' (definitionOf handle) = (.ok second.chain.arranged, w') := by
  obtain ⟨hnodes, hnodes'⟩ := World.listNodes_pair (T := T) hids
  have hfound := World.getInstance_pair (T := T) (c true) (c false)
  obtain ⟨first, bytes, _, _, events, hstart, hdefines, hcompile⟩ := compile_single hfound hnodes rfl rfl rfl hkey
  have hfound' := (World.getInstance_defined hids.symm _ bytes events).trans (World.getInstance_pair' (T := T) hids)
  obtain ⟨second, bytes', _, _, events', hstart', hdefines', hcompile'⟩ :=
    compile_single hfound' hnodes' rfl rfl rfl (hshared ▸ hkey)
  have hagrees := (compile_keeps plain (c true) _ (World.pair_fresh (T := T) (c true) (c false)).agrees).1
  rw [hcompile] at hagrees
  have hagrees' := (compile_keeps plain (c false) _ hagrees).1
  rw [hcompile'] at hagrees'
  -- the first instance still has its key noted down, but under the key is the definition of the second one
  have hnoted := (World.getInstance_defined hids _ bytes' events').trans
    (World.getInstance_defined_self hfound bytes events)
  have hread := World.read_defined (((World.pair (c true) (c false) : World T).defined (c true) bytes).logged events)
    hdefines'.key bytes' events'
  rw [← hshared] at hread
  obtain ⟨-, w', hregister, -⟩ := register_returns hagrees' (fun hsome => absurd rfl hsome) hdefines' hnoted rfl hread
  obtain ⟨_, hregistered⟩ := register_registered hdefines' hnoted rfl hread hregister
  obtain ⟨r, hr, hchain⟩ := hregistered.executes
  exact ⟨first, second, _, _, w', hstart, hstart',
    .compiled (.compiled .start true hdefines.compilation hcompile) false hdefines'.compilation hcompile', hregister,
    hchain ▸ runIn_definitionOf hr⟩

theorem not_isolated_of_key (hids : (c true).instanceId ≠ (c false).instanceId)
    (hshared : (c true).definitionKey = (c false).definitionKey)
    (hkey : Blob.isKey (c true).definitionKey.toList = true) : ¬(plain : Builder T).Isolated c := by
  intro hisolated
  obtain ⟨first, second, handle, w, w', hstart, hstart', hturns, hregister, hdefinition⟩ :=
    pair_turns (T := T) hids hshared hkey
  have hnew : ∀ side i, (World.pair (c true) (c false) : World T).store.getInstance (c side).instanceId = .ok i →
      i.definitionKey = none := fun side i hi =>
    ((World.pair_fresh _ _).instances i (List.mem_of_find?_eq_some (Store.getInstance_eq_ok.1 hi))).2.1
  obtain ⟨compiled, -, chain, hlast, -, -, hchain, hsame⟩ := hisolated _ _ _ true _ _ hnew hturns hregister
  rw [Function.update_of_ne (by decide), Function.update_self] at hlast
  obtain rfl := Option.some.inj hlast
  obtain rfl := Except.ok.inj (Prod.mk.inj (hdefinition.symm.trans hchain)).1
  have hstarts : first.chain.start = second.chain.arranged.start := TaskChain.start_eq_of_same hsame
  exact absurd (hstart.symm.trans (hstarts.trans hstart')) (by decide)

/-- Builds of two instances are isolated, whatever they are made with, exactly if their definitions have different keys
or cannot be stored at all. -/
theorem isolated_iff (hids : (c true).instanceId ≠ (c false).instanceId) : (∀ b : Builder T, b.Isolated c) ↔
    (c true).definitionKey ≠ (c false).definitionKey ∨ Blob.isKey (c true).definitionKey.toList = false := by
  refine ⟨fun h => ?_, fun h b => isolated_of_keys b hids h⟩
  by_contra hshared
  obtain ⟨hsame, hkey⟩ := not_or.1 hshared
  exact not_isolated_of_key hids (not_not.1 hsame) (by simpa using hkey) (h plain)

/-- Two instances of one workflow. -/
theorem isolated_iff_siblings : ("I" : String) ≠ "J" ∧
    ∀ b : Builder Binary64, b.Isolated fun side => sampleContext (if side then "I" else "J") :=
  ⟨by decide, (isolated_iff (by decide : (sampleContext "I").instanceId ≠ (sampleContext "J").instanceId)).2
    (.inl (by decide))⟩

/-- The slash between workflow and instance may be one of the workflow, or one of the instance. -/
def ambiguous (side : Bool) : BuildContext := if side then ⟨"org", "wf/c", "d", none⟩ else ⟨"org", "wf", "c/d", none⟩

/-- Two instances with different ids whose builds are not isolated. -/
theorem not_isolated : (ambiguous true).instanceId ≠ (ambiguous false).instanceId ∧
    ¬(plain : Builder Binary64).Isolated ambiguous :=
  ⟨by decide, not_isolated_of_key (by decide) (by decide) (by decide +kernel)⟩

end Builder
end HuntDraw
