import HuntDraw.Proofs.Build.Returns

/-! What builds keep, in whatever order their stages are called and however they end: what is noted down in an instance
is there, and every instance comes to one resource at most, which it keeps. -/

namespace HuntDraw

open HuntDraw.Action Engine
open World (Keeps)

variable {T : Type}

namespace Builder

variable [Timeline T] {b : Builder T}

/-- What may happen to builds: calls of stages and runs on any contexts, whatever comes of them, and in between whatever
leaves instances, definitions and resources alone, such as edits of graphs and new jobs. -/
inductive History (b : Builder T) : World T → World T → Prop
  | refl (w : World T) : History b w w
  | call {w w' : World T} (h : History b w w') (c : BuildContext) (s : BuildStage) :
      History b w (runIn w' (b.call c s)).2
  | run {w w' : World T} (h : History b w w') (c : BuildContext) : History b w (runIn w' (b.run c)).2
  | outside {w w' w'' : World T} (h : History b w w') (hupholds : w'.Upholds w'') : History b w w''

theorem History.keeps (hhandlers : b.engine.Upholding) {w w' : World T} (h : b.History w w') : w.Keeps w' := by
  induction h with
  | refl => exact IsPreorder.toRefl.refl _
  | call _ c s ih => exact trans_of Keeps ih (call_keeps hhandlers c s _)
  | run _ c ih => exact trans_of Keeps ih (run_keeps hhandlers c _)
  | outside _ hupholds ih => exact trans_of Keeps ih (.of_upholds hupholds)

variable {w₀ w : World T}

/-- However builds went since instances were fresh: one that is ready has a handle, which is its own and that of a
resource of the engine; one with a handle has a definition key, and under the key a definition can be read. Each handle
was made once, for the instance that has it, and no other attempt to make it was ever refused for that. What has a
handle keeps it. -/
theorem builds_agree (hhandlers : b.engine.Upholding) (hfresh : w₀.Fresh) (h : b.History w₀ w) :
    (∀ id i, w.store.getInstance id = .ok i →
      (i.status = .ready → ∃ handle, i.executionHandle = some handle) ∧
      (∀ handle, i.executionHandle = some handle →
        handle = handleOf id ∧ (∃ r, w.resources.get? handle = some r) ∧ ∃ key, i.definitionKey = some key) ∧
      (∀ key, i.definitionKey = some key → ∃ content, w.blobs.read key = .ok content) ∧
      w.created.count (handleOf id) = if i.executionHandle.isSome then 1 else 0) ∧
    (∀ c name, (runIn w (b.registerBody c)).1 ≠ .error (.engine (.resourceExists name))) ∧
    ∀ w' id i handle, b.History w w' → w.store.getInstance id = .ok i → i.executionHandle = some handle →
      ∃ i', w'.store.getInstance id = .ok i' ∧ i'.executionHandle = some handle := by
  have hagrees : w.Agrees := (h.keeps hhandlers hfresh.agrees).1
  refine ⟨fun id i hi => ?_, fun c name hexists => ?_, fun w' id i handle hlater hi hhandle => ?_⟩
  · have hinstance := hagrees.instances id i hi
    refine ⟨fun hready => Option.ne_none_iff_exists'.1 (hinstance.ready hready), fun handle hhandle => ?_,
      fun key hkey => (hinstance.definition key hkey).2, ?_⟩
    · obtain ⟨hid, hknown, hdefined⟩ := hinstance.handle handle hhandle
      exact ⟨hid, Fields.exists_get? hknown, Option.ne_none_iff_exists'.1 hdefined⟩
    · rw [hagrees.created, hagrees.distinct.count]
      refine if_congr ⟨fun hknown => ?_, fun hsome => ?_⟩ rfl rfl
      · rw [hagrees.of_resource hi hknown]
        rfl
      · obtain ⟨handle, hhandle⟩ := Option.isSome_iff_exists.1 hsome
        obtain ⟨rfl, hknown, -⟩ := hinstance.handle handle hhandle
        exact hknown
  · obtain ⟨outcome, w', hrun, hregisters⟩ := registerBody_registers b c w
    rw [hrun] at hexists
    cases hregisters with
    | refused hother => exact hother name (Except.error.inj hexists)
    | taken hfound hnone hhas =>
      exact nomatch hnone.symm.trans (hagrees.of_resource hfound (Fields.has_iff.1 hhas))
    | created | updated => exact nomatch hexists
  · exact (hlater.keeps hhandlers hagrees).2 id i handle hi hhandle

/-- Two new instances: the first is built, its graph is edited and gets a job, and then it is compiled and registered
again while the second one is compiled. -/
theorem builds_agree_pair : ∃ (w : World Binary64) (i : Instance),
    (World.pair (sampleContext "I") (sampleContext "J") : World Binary64).Fresh ∧
    plain.History (World.pair (sampleContext "I") (sampleContext "J")) w ∧ w.store.getInstance "I" = .ok i ∧
    i.executionHandle = some (handleOf "I") ∧ w.created.count (handleOf "I") = 1 := by
  obtain ⟨task, -, built, w₁, hrun⟩ := run_pair
  obtain ⟨_, _, _, i, -, -, hregistered, -⟩ := run_registered plain_upholding hrun
  have hfresh := World.pair_fresh (T := Binary64) (sampleContext "I") (sampleContext "J")
  have hbuilt : plain.History (World.pair (sampleContext "I") (sampleContext "J")) w₁ := by
    have hstep := History.run (b := plain) (.refl (World.pair (sampleContext "I") (sampleContext "J") : World Binary64))
      (sampleContext "I")
    rwa [hrun] at hstep
  have hmore : ∀ {v : World Binary64}, plain.History v w₁ → plain.History v _ := fun h =>
    ((((h.outside (edit_upholds (.inl ⟨⟨"c", "I", "WorkflowNoopNode", none⟩, rfl⟩) w₁)).outside
      (createJob_upholds ⟨"job", "org", "I", none, false⟩ _)).call (sampleContext "I") .compile).call
      (sampleContext "J") .compile).call (sampleContext "I") .register
  have hhistory := hmore hbuilt
  obtain ⟨i', hi', hhandle⟩ :=
    (builds_agree plain_upholding hfresh hbuilt).2.2 _ _ i _ (hmore (.refl w₁)) hregistered.found hregistered.noted
  obtain ⟨-, hnoted, -, hcount⟩ := (builds_agree plain_upholding hfresh hhistory).1 _ i' hi'
  rw [hhandle] at hcount
  exact ⟨_, i', hfresh, hhistory, hi', hhandle.trans (congrArg some (hnoted _ hhandle).1), hcount⟩

end Builder
end HuntDraw
