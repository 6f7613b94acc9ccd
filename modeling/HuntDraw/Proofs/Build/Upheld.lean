import HuntDraw.Proofs.Node.Handling

/-! What builds rely on while others work in the same world. Executions leave the instances, their definitions and the
resources of the engine as they are. -/

namespace HuntDraw

open HuntDraw.Action

variable {T : Type}

/-- From one world to the next, all that a build has made stays as it is, and jobs stay where they are. -/
structure World.Upholds (w w' : World T) : Prop where
  instances : w'.store.instances = w.store.instances
  jobs : ∀ j ∈ w.store.jobs, ∃ j' ∈ w'.store.jobs, j'.id = j.id
  definitions : ∀ c : BuildContext, w'.blobs.blobs.get? c.definitionKey = w.blobs.blobs.get? c.definitionKey
  resources : w'.resources = w.resources
  created : w'.created = w.created

namespace World.Upholds

variable {w w' : World T}

instance : IsPreorder (World T) World.Upholds where
  refl _ := ⟨rfl, fun j hj => ⟨j, hj, rfl⟩, fun _ => rfl, rfl, rfl⟩
  trans _ _ _ h h' := by
    refine ⟨h'.instances.trans h.instances, fun j hj => ?_, fun c => (h'.definitions c).trans (h.definitions c),
      h'.resources.trans h.resources, h'.created.trans h.created⟩
    obtain ⟨j', hj', hid⟩ := h.jobs j hj
    obtain ⟨j'', hj'', hid'⟩ := h'.jobs j' hj'
    exact ⟨j'', hj'', hid'.trans hid⟩

theorem of_store {s : Store} (hinstances : s.instances = w.store.instances)
    (hjobs : ∀ j ∈ w.store.jobs, ∃ j' ∈ s.jobs, j'.id = j.id) : w.Upholds { w with store := s } :=
  ⟨hinstances, hjobs, fun _ => rfl, rfl, rfl⟩

theorem logged {events : List LogEvent} (h : ∀ e ∈ events, e.Quiet) (w : World T) : w.Upholds (w.logged events) :=
  ⟨rfl, fun j hj => ⟨j, hj, rfl⟩, fun _ => rfl, rfl, created_quiet h w⟩

theorem logged_event {e : LogEvent} (h : e.Quiet) (w : World T) : w.Upholds (w.logged [e]) :=
  logged (List.forall_mem_singleton.2 h) w

theorem numbered (w : World T) : w.Upholds w.numbered := ⟨rfl, fun j hj => ⟨j, hj, rfl⟩, fun _ => rfl, rfl, rfl⟩

theorem of_documented (h : w.Documented w') : w.Upholds w' := by
  obtain ⟨documents, hstore⟩ := h.store
  exact ⟨by rw [hstore], fun j hj => ⟨j, by rwa [hstore], rfl⟩, h.definitions, h.resources, h.created⟩

end World.Upholds

open World

theorem Store.appendLog_change {s s' : Store} {l : JobLog} (h : s.appendLog l = .ok s') :
    s' = { s with logs := s.logs ++ [l] } := by
  obtain ⟨-, -, h⟩ := Attempt.bind_eq_ok.1 h
  obtain ⟨-, -, h⟩ := Attempt.bind_eq_ok.1 h
  exact (Attempt.pure_eq_ok.1 h).symm

theorem Store.createResult_change {s s' : Store} {r : NodeResult} (h : s.createResult r = .ok s') :
    s' = { s with results := s.results ++ [r] } := by
  obtain ⟨-, -, h⟩ := Attempt.bind_eq_ok.1 h
  obtain ⟨-, -, h⟩ := Attempt.bind_eq_ok.1 h
  exact (Attempt.pure_eq_ok.1 h).symm

namespace Action

theorem alter_upholds {change : Store → Except StoreFault Store}
    (h : ∀ s s', change s = .ok s' → s'.instances = s.instances ∧ s'.jobs = s.jobs) :
    (Action.alter change : Action T Unit).Along Upholds :=
  .alter fun _ _ hs => .of_store (h _ _ hs).1 fun j hj => ⟨j, (h _ _ hs).2 ▸ hj, rfl⟩

theorem edit_upholds {change : Store → Except StoreFault Store}
    (h : (∃ n, change = fun s => s.addNode n) ∨ (∃ e, change = fun s => s.addEdge e) ∨
      ∃ d, change = fun s => s.createDocument d) : (Action.alter change : Action T Unit).Along Upholds := by
  rcases h with ⟨n, rfl⟩ | ⟨e, rfl⟩ | ⟨d, rfl⟩ <;> refine alter_upholds fun _ _ hs => ?_ <;>
    obtain ⟨-, -, hpure⟩ := Attempt.bind_eq_ok.1 hs <;> obtain rfl := Attempt.pure_eq_ok.1 hpure <;> exact ⟨rfl, rfl⟩

theorem createJob_upholds (j : Job) : (Action.alter fun s => s.createJob j : Action T Unit).Along Upholds := by
  refine .alter fun w s hs => ?_
  obtain ⟨-, -, hbelongs⟩ := Attempt.bind_eq_ok.1 hs
  obtain ⟨-, -, hpure⟩ := Attempt.bind_eq_ok.1 hbelongs
  obtain rfl := Attempt.pure_eq_ok.1 hpure
  exact .of_store rfl fun j' hj' => ⟨j', List.mem_append_left _ hj', rfl⟩

end Action

/-- A handler keeps what the work of its node keeps, if this is nothing of ids, of the log and of the records of jobs. -/
theorem handler_along {R : World T → World T → Prop} [IsPreorder (World T) R] {work : NodeWork T}
    (hwork : ∀ bound p, (work bound p).Along R)
    (hlogged : ∀ w event, LogEvent.Quiet event → R w (World.logged w [event])) (hnumbered : ∀ w, R w (World.numbered w))
    (hrecorded : ∀ (w : World T) logs results, R w { w with store := { w.store with logs, results } }) (given : Json) :
    (handler work given).Along R := by
  have hlog : ∀ {level name} {fields : Fields Json}, name ≠ "resource_created" →
      (Action.log level name fields : Action T Unit).Along R := fun h => .log fun w => hlogged w _ h
  have hrecord : ∀ p f, (recordNodeFailure p f : Action T Unit).Along R := by
    intro p f
    rw [recordNodeFailure]
    split
    · exact .pure _
    · refine .bind (.newId hnumbered) fun _ => .alter fun w s hs => ?_
      rw [Store.appendLog_change hs]
      exact hrecorded w _ _
  have hattempt : ∀ bound p, (attempt work bound p).Along R := by
    refine fun bound p => .bind (hwork bound p).outcome fun outcome => ?_
    cases outcome with
    | ok results => exact .pure _
    | error f => exact .bind (hlog (by decide)) fun _ => .bind (hrecord p f) fun _ => .throw _
  refine .bind (.lift _ _) fun p => .bind (hlog (by decide)) fun _ => .bind (hattempt _ p) fun _ =>
    .bind (.newId hnumbered) fun _ => .bind (.alter fun w s hs => ?_) fun _ =>
    .bind (hlog (by decide)) fun _ => .pure _
  rw [Store.createResult_change hs]
  exact hrecorded w _ _

/-- A handler upholds what builds made, where the work of its node only makes documents. -/
theorem handler_upholds {work : NodeWork T} (hwork : ∀ bound p, (work bound p).Along Documented) (given : Json) :
    (handler work given).Along Upholds :=
  handler_along (fun bound p => (hwork bound p).mono fun _ _ => .of_documented)
    (fun w _ hquiet => .logged_event hquiet w) .numbered
    (fun _ _ _ => .of_store rfl fun j hj => ⟨j, hj, rfl⟩) given

/-- An engine whose handlers uphold what builds made. -/
def Engine.Upholding (e : Engine T) : Prop := ∀ p ∈ e.handlers, ∀ given, (p.2 given).Along Upholds

theorem Resources.handlers_upholding {r : Resources} {draw : DrawSettings} {e : Engine T}
    (h : r.handlers draw = .ok e.handlers) : e.Upholding := by
  rw [Resources.handlers] at h
  split at h
  · cases h
  · rw [Engine.Upholding, ← Except.ok.inj h]
    exact List.forall_mem_map.2 fun p _ given =>
      handler_upholds (fun bound p' => p.1.work_documented draw bound p') given

theorem Engine.Upholding.start [Timeline T] {e : Engine T} (h : e.Upholding) (resource : String) (input : Json) :
    (e.start resource input).Along Upholds :=
  start_along h (fun w _ hquiet => .logged_event hquiet w) .numbered
    (fun _ _ => ⟨rfl, fun j hj => ⟨j, hj, rfl⟩, fun _ => rfl, rfl, rfl⟩) resource input

end HuntDraw
