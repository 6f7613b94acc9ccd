import HuntDraw.Build.Stages
import HuntDraw.Engine.Execution
import HuntDraw.Proofs.Data.Fields
import HuntDraw.Proofs.Engine.Calls
import Mathlib.Order.Defs.Unbundled

/-! Relations between worlds that hold from before an action to after it. What holds along two actions holds along one
after the other, so that a relation of the handlers is one of whole executions. -/

namespace HuntDraw

open HuntDraw.Action

variable {T α β : Type}

/-- Whatever comes of the action, the world that it leaves is related to the one that it found. -/
def Action.Along (R : World T → World T → Prop) (a : Action T α) : Prop := ∀ w, R w (runIn w a).2

namespace Action.Along

variable {R : World T → World T → Prop} {a : Action T α} {f : α → Action T β}

theorem mono {R' : World T → World T → Prop} (h : ∀ w w', R w w' → R' w w') (ha : a.Along R) : a.Along R' :=
  fun w => h _ _ (ha w)

theorem log {level : LogLevel} {name : String} {fields : Fields Json}
    (h : ∀ w, R w (World.logged w [⟨level, name, fields⟩])) : (Action.log level name fields : Action T Unit).Along R := h

theorem modify {f : World T → World T} (h : ∀ w, R w (f w)) : (modify f : Action T Unit).Along R := h

theorem newId (h : ∀ w, R w (World.numbered w)) : (Action.newId : Action T String).Along R := h

variable [IsPreorder (World T) R]

theorem pure (x : α) : (Pure.pure x : Action T α).Along R := refl

theorem throw (f : Failure) : (MonadExcept.throw f : Action T α).Along R := refl

theorem get : (MonadState.get : Action T (World T)).Along R := refl

theorem lift {ε : Type} (wrap : ε → Failure) (r : Except ε α) : (Action.lift wrap r : Action T α).Along R := fun w => by
  rw [runIn_lift]
  exact refl w

theorem bind (ha : a.Along R) (hf : ∀ x, (f x).Along R) : (a >>= f).Along R := by
  intro w
  have hfirst := ha w
  rw [runIn_bind]
  rcases hrun : runIn w a with ⟨e | x, w'⟩ <;> rw [hrun] at hfirst
  · exact hfirst
  · exact trans_of R hfirst (hf x w')

omit [IsPreorder (World T) R] in
theorem outcome (ha : a.Along R) : (Action.outcome a).Along R := ha

omit [IsPreorder (World T) R] in
theorem discard (ha : a.Along R) : (Functor.discard a).Along R := fun w => by
  rw [runIn_discard]
  exact ha w

theorem look (f : BlobStore → Except BlobFault α) : (Action.look f : Action T α).Along R :=
  bind get fun _ => lift _ _

theorem write {key type : String} {content : Content}
    (h : ∀ w blobs uri, w.blobs.write key content type = .ok (blobs, uri) → R w { w with blobs }) :
    (Action.write key content type : Action T String).Along R := by
  intro w
  have hlook : runIn w (Action.look fun b => b.write key content type) =
      ((w.blobs.write key content type).mapError .blob, w) := runIn_lift _ _
  rw [Action.write, runIn_bind, hlook]
  cases hwrite : w.blobs.write key content type with
  | error e => exact refl w
  | ok p => exact h w p.1 p.2 hwrite

theorem alter {change : Store → Except StoreFault Store}
    (h : ∀ w s, change w.store = .ok s → R w { w with store := s }) :
    (Action.alter change : Action T Unit).Along R := by
  intro w
  have hask : runIn w (Action.ask change) = ((change w.store).mapError .store, w) := runIn_lift _ _
  rw [Action.alter, runIn_bind, hask]
  cases hchange : change w.store with
  | error e => exact refl w
  | ok s => exact h w s hchange

theorem mapM {f : α → Action T β} (hf : ∀ x, (f x).Along R) (xs : List α) : (xs.mapM f).Along R := by
  induction xs with
  | nil => exact pure []
  | cons x xs ih =>
    rw [List.mapM_cons]
    exact bind (hf x) fun y => bind ih fun ys => pure _

theorem poll {check : Action T Bool} {pause : Nat → Action T Unit} (hcheck : check.Along R)
    (hpause : ∀ number, (pause number).Along R) (number more : Nat) :
    (HuntDraw.poll check pause number more).Along R := by
  induction more generalizing number with
  | zero => exact hcheck
  | succ more ih =>
    rw [HuntDraw.poll]
    refine bind hcheck fun ready => ?_
    cases ready
    · exact bind (hpause number) fun _ => ih _
    · exact pure true

end Action.Along

namespace Engine

variable [Timeline T] {R : World T → World T → Prop} [IsPreorder (World T) R] {e : Engine T}

omit [Timeline T] in
theorem runTask_along (hhandlers : ∀ p ∈ e.handlers, ∀ given, (p.2 given).Along R) (t : Task) (state : Json) :
    (e.runTask t state).Along R := by
  rw [runTask]
  split
  · exact .throw _
  · rename_i handler hhandler
    exact .bind (.lift _ _) fun given => hhandlers _ (Fields.mem_of_get? hhandler) _

omit [Timeline T] in
theorem runTasks_along (hhandlers : ∀ p ∈ e.handlers, ∀ given, (p.2 given).Along R)
    (hlogged : ∀ w event, LogEvent.Quiet event → R w (World.logged w [event]))
    (bound : Fields Json) (c : TaskChain) (ids : List String) (state : Json) :
    (e.runTasks bound c ids state).Along R := by
  induction ids generalizing state with
  | nil => exact .pure _
  | cons id ids ih =>
    rw [runTasks]
    split
    · exact .pure _
    · refine .bind (.log fun w => hlogged w _ (by decide : "task_started" ≠ "resource_created")) fun _ =>
        .bind (runTask_along hhandlers _ _).outcome fun ended => ?_
      cases ended with
      | ok next => exact ih next
      | error f => exact .pure _

/-- An execution keeps what its handlers keep, if this is nothing of executions and ids. -/
theorem start_along (hhandlers : ∀ p ∈ e.handlers, ∀ given, (p.2 given).Along R)
    (hlogged : ∀ w event, LogEvent.Quiet event → R w (World.logged w [event]))
    (hnumbered : ∀ w, R w (World.numbered w))
    (hrecorded : ∀ w executions, R w { w with executions }) (resource : String) (input : Json) :
    (e.start resource input).Along R := by
  have hdescribe : (describe resource : Action T ResourceStatus).Along R := fun w => by
    rw [runIn_describe]
    exact refl w
  have hchain : (definitionOf resource : Action T TaskChain).Along R := by
    refine .bind (fun w => ?_) fun _ => .pure _
    rw [runIn_resource]
    exact refl w
  have hend : ∀ bound ended, (logEnd bound ended : Action T Unit).Along R := by
    intro bound ended
    rcases ended with ⟨task, f⟩ | state
    · exact .log fun w => hlogged w _ (by decide : "execution_failed" ≠ "resource_created")
    · exact .log fun w => hlogged w _ (by decide : "execution_succeeded" ≠ "resource_created")
  have hrest : (do
      let chain ← definitionOf resource
      let handle := resource ++ "/executions/" ++ (← Action.newId)
      let bound : Fields Json := [("execution_handle", .text handle)]
      Action.log .info "execution_started" (bound ++ [("tasks", .nat chain.tasks.length)])
      let ended ← e.runTasks bound chain chain.ordered input
      logEnd bound ended
      modify fun w => { w with executions := w.executions.put handle (record handle resource ended) }
      return handle : Action T String).Along R :=
    .bind hchain fun _ => .bind (.newId hnumbered) fun _ =>
      .bind (.log fun w => hlogged w _ (by decide : "execution_started" ≠ "resource_created")) fun _ =>
      .bind (runTasks_along hhandlers hlogged _ _ _ _) fun _ => .bind (hend _ _) fun _ =>
      .bind (.modify fun w => hrecorded w _) fun _ => .pure _
  refine .bind hdescribe fun status => ?_
  by_cases hactive : status ≠ .active
  · simp only [if_pos hactive]
    exact .bind (.throw _) fun _ => hrest
  · simp only [if_neg hactive]
    exact hrest

omit [Timeline T] in
/-- A task that fails ends the run of tasks, which does not fail itself. -/
theorem runTasks_ok (e : Engine T) (bound : Fields Json) (c : TaskChain) (ids : List String) (state : Json)
    (w : World T) : ∃ ended w', runIn w (e.runTasks bound c ids state) = (.ok ended, w') := by
  induction ids generalizing state w with
  | nil => exact ⟨_, _, rfl⟩
  | cons id ids ih =>
    cases htask : c.tasks.get? id with
    | none =>
      rw [runTasks, htask]
      exact ⟨_, _, rfl⟩
    | some t =>
      rw [runIn_runTasks_cons htask]
      rcases runIn (w.logged [taskStarted bound id t]) (e.runTask t state) with ⟨f | next, w'⟩
      · exact ⟨_, _, rfl⟩
      · exact ih next w'

theorem start_error {w w' : World T} {resource : String} {input : Json} {f : Failure}
    (h : runIn w (e.start resource input) = (.error f, w')) : w' = w := by
  cases hr : w.resources.get? resource with
  | none =>
    have hrefused : (runIn w (e.start resource input)).2 = w := runIn_start_refused (by simp [hr]) input
    rw [h] at hrefused
    exact hrefused
  | some r =>
    by_cases hactive : Timeline.le r.activeAt w.clock.now
    swap
    · have hrefused : (runIn w (e.start resource input)).2 = w := runIn_start_refused
        (fun r' hr' => by rwa [← Option.some.inj (hr.symm.trans hr')]) input
      rw [h] at hrefused
      exact hrefused
    · obtain ⟨ended, w'', hrun⟩ := runTasks_ok e (executionBound (executionHandle resource (w.ids + 1))) r.chain
        r.chain.ordered input (w.numbered.logged [executionStarted (executionHandle resource (w.ids + 1)) r.chain])
      exact nomatch (Prod.mk.inj ((runIn_start_active hr hactive hrun).symm.trans h)).1

end Engine
end HuntDraw
