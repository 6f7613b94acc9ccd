import HuntDraw.Proofs.Engine.Calls

/-! What an engine holds after any calls to it. Every chain that it stores is in one line, so that every execution ends;
records of executions are added and never replaced. -/

namespace HuntDraw.Engine

open HuntDraw.Action

variable {T : Type} [Timeline T] {e : Engine T} {w w' w₁ w₂ w₃ : World T} {handle name execution : String}
  {r : Resource T}

/-- What may happen to an engine: its calls, accepted or refused, and whatever leaves its resources and executions
alone. The handlers that an execution calls may call the engine in turn. -/
inductive History (e : Engine T) : World T → World T → Prop
  | refl (w : World T) : History e w w
  | trans {w₁ w₂ w₃ : World T} (hfirst : History e w₁ w₂) (hthen : History e w₂ w₃) : History e w₁ w₃
  | outside {w w' : World T} (hresources : w'.resources = w.resources) (hexecutions : w'.executions = w.executions)
      (hids : w.ids ≤ w'.ids) : History e w w'
  | create (w : World T) (name : String) (definition : Json) : History e w (runIn w (e.create name definition)).2
  | update (w : World T) (handle : String) (definition : Json) : History e w (runIn w (e.update handle definition)).2
  | describe (w : World T) (handle : String) : History e w (runIn w (describe handle)).2
  | start (w : World T) (handle : String) (input : Json)
      (hcalls : ∀ r calls ended w', e.Started w handle r input calls ended w' →
        ∀ call ∈ calls, History e call.before call.after) : History e w (runIn w (e.start handle input)).2

/-- Executions belong to a history wherever all that the handlers do belongs to one. -/
theorem History.of_handlers (hhandlers : ∀ p ∈ e.handlers, ∀ given w, e.History w (runIn w (p.2 given)).2)
    (w : World T) (handle : String) (input : Json) : e.History w (runIn w (e.start handle input)).2 := by
  refine .start w handle input fun r calls ended w' hstarted call hcall => ?_
  obtain ⟨task, handler, -, hhandler, hrun⟩ := hstarted.runs.made call hcall
  have hhistory := hhandlers _ (Fields.mem_of_get? hhandler) (.object call.given) call.before
  rwa [hrun] at hhistory

/-- Records are only added, each with an id that was not given out before. -/
structure Grows (w w' : World T) : Prop where
  ids : w.ids ≤ w'.ids
  executions : ∃ more, w'.executions = w.executions ++ more ∧
    ∀ p ∈ more, ∃ resource n, p.1 = executionHandle resource n ∧ w.ids < n ∧ n ≤ w'.ids

/-- The chains of an engine are in one line each, and its records have ids that were given out. -/
structure Sound (e : Engine T) (w : World T) : Prop where
  linear : ∀ p ∈ w.resources, p.2.chain.Linear e.handlers.keys
  numbered : ∀ p ∈ w.executions, ∃ resource n, p.1 = executionHandle resource n ∧ n ≤ w.ids

def Keeps (e : Engine T) (w w' : World T) : Prop := e.Sound w → Grows w w' ∧ e.Sound w'

omit [Timeline T] in
theorem Grows.trans (h : Grows w₁ w₂) (h' : Grows w₂ w₃) : Grows w₁ w₃ := by
  obtain ⟨more, hmore, hnew⟩ := h.executions
  obtain ⟨more', hmore', hnew'⟩ := h'.executions
  refine ⟨Nat.le_trans h.ids h'.ids, more ++ more', by rw [hmore', hmore, List.append_assoc], fun p hp => ?_⟩
  rcases List.mem_append.1 hp with hp | hp
  · obtain ⟨resource, n, hhandle, hlow, hhigh⟩ := hnew p hp
    exact ⟨resource, n, hhandle, hlow, Nat.le_trans hhigh h'.ids⟩
  · obtain ⟨resource, n, hhandle, hlow, hhigh⟩ := hnew' p hp
    exact ⟨resource, n, hhandle, Nat.lt_of_le_of_lt h.ids hlow, hhigh⟩

omit [Timeline T] in
theorem Sound.of_grows (h : e.Sound w) (hgrows : Grows w w')
    (hlinear : ∀ p ∈ w'.resources, p.2.chain.Linear e.handlers.keys) : e.Sound w' := by
  obtain ⟨more, hmore, hnew⟩ := hgrows.executions
  refine ⟨hlinear, fun p hp => ?_⟩
  rw [hmore] at hp
  rcases List.mem_append.1 hp with hp | hp
  · obtain ⟨resource, n, hhandle, hn⟩ := h.numbered p hp
    exact ⟨resource, n, hhandle, Nat.le_trans hn hgrows.ids⟩
  · obtain ⟨resource, n, hhandle, -, hn⟩ := hnew p hp
    exact ⟨resource, n, hhandle, hn⟩

namespace Keeps

omit [Timeline T]

theorem refl (w : World T) : e.Keeps w w := fun hsound => ⟨⟨Nat.le_refl _, [], by simp, by simp⟩, hsound⟩

theorem trans (h : e.Keeps w₁ w₂) (h' : e.Keeps w₂ w₃) : e.Keeps w₁ w₃ := fun hsound =>
  have ⟨hgrows, hsound₂⟩ := h hsound
  have ⟨hgrows', hsound₃⟩ := h' hsound₂
  ⟨hgrows.trans hgrows', hsound₃⟩

theorem of_linear (hexecutions : w'.executions = w.executions) (hids : w.ids ≤ w'.ids)
    (hlinear : e.Sound w → ∀ p ∈ w'.resources, p.2.chain.Linear e.handlers.keys) : e.Keeps w w' := fun hsound =>
  have hgrows : Grows w w' := ⟨hids, [], by simp [hexecutions], by simp⟩
  ⟨hgrows, hsound.of_grows hgrows (hlinear hsound)⟩

theorem outside (hresources : w'.resources = w.resources) (hexecutions : w'.executions = w.executions)
    (hids : w.ids ≤ w'.ids) : e.Keeps w w' :=
  of_linear hexecutions hids fun hsound => by rw [hresources]; exact hsound.linear

theorem logged (w : World T) (events : List LogEvent) : e.Keeps w (w.logged events) := outside rfl rfl (Nat.le_refl _)

theorem holding (h : r.chain.Linear e.handlers.keys) : e.Keeps w (w.holding handle r) := by
  refine of_linear rfl (Nat.le_refl _) fun hsound p hp => ?_
  rcases Fields.mem_put hp with rfl | hp
  · exact h
  · exact hsound.linear p hp

end Keeps

omit [Timeline T] in
/-- A record is added behind those that the run of its execution left. -/
theorem afterwards_executions (hsound : e.Sound w) (hgrows : Grows w.numbered w') (handle : String)
    (ended : Except (String × Failure) Json) : (afterwards w w' handle ended).executions = w'.executions ++
      [(executionHandle handle (w.ids + 1), record (executionHandle handle (w.ids + 1)) handle ended)] := by
  obtain ⟨more, hmore, hnew⟩ := hgrows.executions
  have hfresh : executionHandle handle (w.ids + 1) ∉ Fields.keys w'.executions := by
    -- the id was given out before the run: the records before it have lower ones, those of the run higher ones
    rw [hmore]
    intro hmem
    obtain ⟨p, hp, hhandle⟩ := List.mem_map.1 hmem
    rcases List.mem_append.1 hp with hp | hp
    · obtain ⟨resource, n, hpn, hn⟩ := hsound.numbered p hp
      have hnumber := executionHandle_number (hpn.symm.trans hhandle)
      omega
    · obtain ⟨resource, n, hpn, hn, -⟩ := hnew p hp
      have hnumber := executionHandle_number (hpn.symm.trans hhandle)
      simp only [World.numbered_ids] at hn
      omega
  rw [afterwards, World.recorded, record_handle]
  exact Fields.put_eq_append _ hfresh

theorem Started.keeps {input : Json} {calls : List (Call T)} {ended : Except (String × Failure) Json}
    (h : e.Started w handle r input calls ended w') (hcalls : ∀ call ∈ calls, e.Keeps call.before call.after) :
    e.Keeps w (afterwards w w' handle ended) := by
  intro hsound
  have hgiven : e.Keeps w w.numbered := Keeps.outside rfl rfl (Nat.le_succ _)
  have hrun : e.Keeps w.numbered w' :=
    (Keeps.logged _ _).trans (h.runs.relates Keeps.refl Keeps.trans Keeps.logged hcalls)
  obtain ⟨hgrows, hsound'⟩ := hrun (hgiven hsound).2
  have hadded := afterwards_executions hsound hgrows handle ended
  obtain ⟨more, hmore, hnew⟩ := hgrows.executions
  have hafter : Grows w (afterwards w w' handle ended) := by
    refine ⟨Nat.le_of_succ_le hgrows.ids, _, by rw [hadded, hmore, List.append_assoc]; rfl, fun p hp => ?_⟩
    rcases List.mem_append.1 hp with hp | hp
    · obtain ⟨resource, n, hhandle, hlow, hhigh⟩ := hnew p hp
      exact ⟨resource, n, hhandle, Nat.lt_of_succ_lt hlow, hhigh⟩
    · obtain rfl := List.mem_singleton.1 hp
      exact ⟨handle, _, rfl, Nat.lt_succ_self _, hgrows.ids⟩
  exact ⟨hafter, hsound.of_grows hafter hsound'.linear⟩

/-- Whatever happens, an engine that is sound stays so and keeps its records. -/
theorem History.keeps (h : e.History w w') : e.Keeps w w' := by
  induction h with
  | refl w => exact .refl w
  | trans _ _ ih ih' => exact ih.trans ih'
  | outside hresources hexecutions hids => exact .outside hresources hexecutions hids
  | create w name definition =>
    rcases create_cases e w name definition with ⟨f, hrefused⟩ | ⟨c, haccept, hdone⟩
    · exact hrefused ▸ .refl w
    · exact hdone ▸ .trans (.holding (accept_linear haccept)) (.logged _ _)
  | update w handle definition =>
    rcases update_cases e w handle definition with ⟨f, hrefused⟩ | ⟨c, name, haccept, -, hdone⟩
    · exact hrefused ▸ .refl w
    · exact hdone ▸ .trans (.holding (accept_linear haccept)) (.logged _ _)
  | describe w handle => exact runIn_describe (w := w) handle ▸ .refl w
  | start w handle input _ ih =>
    intro hsound
    by_cases hr : ∃ r, w.resources.get? handle = some r ∧ Timeline.le r.activeAt w.clock.now
    · obtain ⟨r, hr, hactive⟩ := hr
      have hlinear := hsound.linear _ (Fields.mem_of_get? hr)
      obtain ⟨calls, ended, w', hstarted, hrun⟩ := runIn_start hr hactive hlinear.start hlinear.line input
      rw [hrun]
      exact hstarted.keeps (ih r calls ended w' hstarted) hsound
    · rw [runIn_start_refused fun r hget hactive => hr ⟨r, hget, hactive⟩]
      exact Keeps.refl w hsound

/-- Whatever an engine that started empty was asked for, every chain that it holds is in one line, and a call that is
refused changes nothing. An execution of an active resource comes to its end as the loop does, with a record that
reports its calls, and this record stays as it is. -/
theorem executions_end (hresources : w₁.resources = []) (hexecutions : w₁.executions = []) (h : e.History w₁ w) :
    (∀ handle r, w.resources.get? handle = some r → r.chain.Linear e.handlers.keys) ∧
    (∀ name definition f w', runIn w (e.create name definition) = (.error f, w') → w' = w) ∧
    (∀ handle definition f w', runIn w (e.update handle definition) = (.error f, w') → w' = w) ∧
    (∀ handle r input, w.resources.get? handle = some r → Timeline.le r.activeAt w.clock.now →
      ∃ calls ended w' w'' execution, e.Started w handle r input calls ended w' ∧
        runIn w (e.start handle input) = (.ok execution, w'') ∧
        w''.executions.get? execution = some (record execution handle ended) ∧
        Reports r.chain input calls (record execution handle ended)) ∧
    ∀ w' execution x, e.History w w' → w.executions.get? execution = some x →
      w'.executions.get? execution = some x := by
  have hsound : e.Sound w := (h.keeps ⟨by simp [hresources], by simp [hexecutions]⟩).2
  refine ⟨fun handle r hr => hsound.linear _ (Fields.mem_of_get? hr), fun name definition f w' hrefused => ?_,
    fun handle definition f w' hrefused => ?_, fun handle r input hr hactive => ?_, fun w' execution x hlater hx => ?_⟩
  · rcases create_cases e w name definition with ⟨f', hcase⟩ | ⟨c, -, hcase⟩
    · exact (Prod.mk.inj (hrefused.symm.trans hcase)).2
    · exact nomatch (Prod.mk.inj (hrefused.symm.trans hcase)).1
  · rcases update_cases e w handle definition with ⟨f', hcase⟩ | ⟨c, name, -, -, hcase⟩
    · exact (Prod.mk.inj (hrefused.symm.trans hcase)).2
    · exact nomatch (Prod.mk.inj (hrefused.symm.trans hcase)).1
  · have hlinear := hsound.linear _ (Fields.mem_of_get? hr)
    obtain ⟨calls, ended, w', hstarted, hrun⟩ := runIn_start hr hactive hlinear.start hlinear.line input
    exact ⟨calls, ended, w', _, _, hstarted, hrun, afterwards_record _ _ _ _,
      (hstarted.runs.ends hlinear.start hlinear.line).reports hlinear _ _⟩
  · obtain ⟨more, hmore, -⟩ := (hlater.keeps hsound).1.executions
    rw [hmore]
    exact Fields.get?_append_of_some more hx

def echoEngine : Engine Binary64 := ⟨[("echo", fun given => return given)], .zero false⟩

def echoChain : TaskChain :=
  { start := "first"
    tasks := [("last", { resource := "echo", terminal := true }), ("first", { resource := "echo", next := some "last" })] }

def emptyWorld : World Binary64 := { blobs := ⟨"bucket", .memory, []⟩, clock := ⟨.zero false, []⟩ }

def echoHandle : String := handleOf "echo"

def echoWorld : World Binary64 :=
  (runIn (runIn emptyWorld (echoEngine.create "echo" echoChain.toJson)).2 (echoEngine.start echoHandle .null)).2

theorem executions_end_echo : echoEngine.History emptyWorld echoWorld ∧
    ∃ (r : Resource Binary64) (calls : List (Call Binary64)) (w : World Binary64) (execution : String)
      (x earlier : Execution), echoWorld.resources.get? echoHandle = some r ∧ r.chain.ordered = ["first", "last"] ∧
      runIn echoWorld (echoEngine.start echoHandle .null) = (.ok execution, w) ∧
      w.executions.get? execution = some x ∧ Reports r.chain .null calls x ∧
      echoWorld.executions.get? (executionHandle echoHandle 1) = some earlier ∧ earlier.status = .succeeded ∧
      w.executions.get? (executionHandle echoHandle 1) = some earlier := by
  have hstart := History.of_handlers (e := echoEngine) fun p hp given w =>
    List.mem_singleton.1 hp ▸ (History.refl w : echoEngine.History w w)
  have hhistory : echoEngine.History emptyWorld echoWorld := .trans (.create ..) (hstart ..)
  have hstored : ((echoWorld.resources.get? echoHandle).any fun r =>
      Timeline.le r.activeAt echoWorld.clock.now && r.chain.ordered = ["first", "last"]) = true := by decide +kernel
  obtain ⟨r, hr, hready⟩ := (Option.any_eq_true _ _).1 hstored
  obtain ⟨hactive, hordered⟩ := Bool.and_eq_true_iff.1 hready
  have hearlier : (echoWorld.executions.get? (executionHandle echoHandle 1)).map Execution.status =
      some .succeeded := by decide +kernel
  obtain ⟨earlier, hget, hstatus⟩ := Option.map_eq_some_iff.1 hearlier
  obtain ⟨-, -, -, hruns, hkept⟩ := executions_end rfl rfl hhistory
  obtain ⟨calls, ended, w', w'', execution, -, hrun, hx, hreports⟩ := hruns _ r .null hr hactive
  have hlater := hstart echoWorld echoHandle .null
  rw [hrun] at hlater
  exact ⟨hhistory, r, calls, w'', execution, _, earlier, hr, of_decide_eq_true hordered, hrun, hx, hreports, hget,
    hstatus, hkept _ _ _ hlater hget⟩

end HuntDraw.Engine
