import HuntDraw.Engine.World

/-! What actions do in a world. Each of them has an outcome and leaves a world; what follows starts from there. -/

namespace HuntDraw

variable {T : Type}

namespace World

def logged (w : World T) (events : List LogEvent) : World T := { w with journal := w.journal ++ events }

def numbered (w : World T) : World T := { w with ids := w.ids + 1 }

@[simp] theorem numbered_ids (w : World T) : w.numbered.ids = w.ids + 1 := rfl

end World

namespace Action

variable {α β : Type} {w w' : World T} {a : Action T α} {f : α → Action T β} {x : α} {e : Failure}

@[simp] theorem runIn_pure : runIn w (pure x : Action T α) = (.ok x, w) := rfl

@[simp] theorem runIn_get : runIn w (get : Action T (World T)) = (.ok w, w) := rfl

theorem runIn_bind : runIn w (a >>= f) =
    match runIn w a with
    | (.ok x, w') => runIn w' (f x)
    | (.error e, w') => (.error e, w') := by
  change StateT.run (ExceptT.bindCont f (runIn w a).1) (runIn w a).2 = _
  rcases runIn w a with ⟨e | x, w'⟩ <;> rfl

theorem runIn_bind_ok (h : runIn w a = (.ok x, w')) : runIn w (a >>= f) = runIn w' (f x) := by
  rw [runIn_bind, h]

theorem runIn_bind_error (h : runIn w a = (.error e, w')) : runIn w (a >>= f) = (.error e, w') := by
  rw [runIn_bind, h]

theorem bind_runIn_eq_ok {y : β} (h : runIn w (a >>= f) = (.ok y, w')) :
    ∃ x w₁, runIn w a = (.ok x, w₁) ∧ runIn w₁ (f x) = (.ok y, w') := by
  rw [runIn_bind] at h
  rcases hrun : runIn w a with ⟨e | x, w₁⟩ <;> rw [hrun] at h
  · exact nomatch (Prod.mk.inj h).1
  · exact ⟨x, w₁, rfl, h⟩

/-- What holds of what an action can come to holds of what it came to. -/
theorem of_runIn {P : Except Failure α → World T → Prop} {r : Except Failure α}
    (h : ∃ r w', runIn w a = (r, w') ∧ P r w') (hrun : runIn w a = (r, w')) : P r w' := by
  obtain ⟨r', w₁, hrun', hP⟩ := h
  obtain ⟨rfl, rfl⟩ := Prod.mk.inj (hrun.symm.trans hrun')
  exact hP

theorem bind_runIn_eq_error (h : runIn w (a >>= f) = (.error e, w')) :
    runIn w a = (.error e, w') ∨ ∃ x w₁, runIn w a = (.ok x, w₁) ∧ runIn w₁ (f x) = (.error e, w') := by
  rw [runIn_bind] at h
  rcases hrun : runIn w a with ⟨e' | x, w₁⟩ <;> rw [hrun] at h
  · obtain ⟨he, rfl⟩ := Prod.mk.inj h
    obtain rfl := Except.error.inj he
    exact .inl rfl
  · exact .inr ⟨x, w₁, rfl, h⟩

theorem forM_runIn_eq_error {xs : List α} {f : α → Action T PUnit} (h : runIn w (xs.forM f) = (.error e, w')) :
    ∃ done x rest w₁, xs = done ++ x :: rest ∧ runIn w (done.forM f) = (.ok (), w₁) ∧
      runIn w₁ (f x) = (.error e, w') := by
  induction xs generalizing w with
  | nil => exact nomatch (Prod.mk.inj h).1
  | cons x xs ih =>
    rcases bind_runIn_eq_error h with hfirst | ⟨⟨⟩, w₁, hfirst, hrest⟩
    · exact ⟨[], x, xs, w, rfl, rfl, hfirst⟩
    · obtain ⟨done, y, rest, w₂, rfl, hdone, hlast⟩ := ih hrest
      exact ⟨x :: done, y, rest, w₂, rfl, (runIn_bind_ok hfirst).trans hdone, hlast⟩

theorem runIn_discard : runIn w (Functor.discard a) = ((runIn w a).1.map fun _ => (), (runIn w a).2) := by
  change runIn w (a >>= fun x => pure (Function.const α PUnit.unit x)) = _
  rw [runIn_bind]
  rcases runIn w a with ⟨e | x, w'⟩ <;> rfl

theorem discard_runIn_eq_error (h : runIn w (Functor.discard a) = (.error e, w')) : runIn w a = (.error e, w') := by
  rw [runIn_discard] at h
  rcases hrun : runIn w a with ⟨e' | x, w₁⟩ <;> rw [hrun] at h <;> obtain ⟨he, rfl⟩ := Prod.mk.inj h
  · obtain rfl := Except.error.inj he
    rfl
  · exact nomatch he

/-- What an action results in matters only to what comes behind it. -/
theorem runIn_discard_bind {g : Action T PUnit} (h : ∀ x w', runIn w' (Functor.discard (f x)) = runIn w' g) :
    runIn w (Functor.discard (a >>= f)) = runIn w (Functor.discard a >>= fun _ => g) := by
  rw [runIn_discard, runIn_bind, runIn_bind, runIn_discard]
  rcases runIn w a with ⟨e | x, w'⟩
  · rfl
  · exact runIn_discard.symm.trans (h x w')

theorem runIn_bind_outcome {r : Except Failure α} {g : Except Failure α → Action T β} (h : runIn w a = (r, w')) :
    runIn w (outcome a >>= g) = runIn w' (g r) := by
  change runIn (runIn w a).2 (g (runIn w a).1) = _
  rw [h]

@[simp] theorem runIn_log (level : LogLevel) (name : String) (fields : Fields Json) :
    runIn w (log level name fields) = (.ok (), w.logged [⟨level, name, fields⟩]) := rfl

theorem runIn_logAll (bound : Fields Json) (events : List LogEvent) :
    runIn w (logAll bound events) = (.ok (), w.logged (events.map (LogEvent.within bound))) := rfl

@[simp] theorem runIn_newId : runIn w (newId : Action T String) = (.ok (idText (w.ids + 1)), w.numbered) := rfl

@[simp] theorem runIn_lift {ε : Type} (wrap : ε → Failure) (r : Except ε α) :
    runIn w (lift wrap r : Action T α) = (r.mapError wrap, w) := by
  cases r <;> rfl

theorem runIn_lift_ok {ε : Type} {wrap : ε → Failure} {r : Except ε α} (h : r = .ok x) :
    runIn w (lift wrap r : Action T α) = (.ok x, w) := by
  rw [h]
  rfl

theorem lift_runIn_eq_ok {ε : Type} {wrap : ε → Failure} {r : Except ε α}
    (h : runIn w (lift wrap r : Action T α) = (.ok x, w')) : r = .ok x ∧ w' = w := by
  cases r with
  | ok y =>
    obtain ⟨hx, hw⟩ := Prod.mk.inj h
    exact ⟨by rw [Except.ok.inj hx], hw.symm⟩
  | error e => exact nomatch (Prod.mk.inj h).1

/-- Actions that only work something out end as the working out does. -/
theorem runIn_mapM {ε : Type} {wrap : ε → Failure} {f : α → Action T β} {g : α → Except ε β}
    (h : ∀ x, runIn w (f x) = ((g x).mapError wrap, w)) (xs : List α) :
    runIn w (xs.mapM f) = ((xs.mapM g).mapError wrap, w) := by
  induction xs with
  | nil => rfl
  | cons x xs ih =>
    rw [List.mapM_cons, List.mapM_cons, runIn_bind, h]
    cases g x with
    | error e => rfl
    | ok y =>
      change runIn w (xs.mapM f >>= fun ys => pure (y :: ys)) = _
      rw [runIn_bind, ih]
      cases xs.mapM g <;> rfl

theorem runIn_ask (f : Store → Except StoreFault α) : runIn w (ask f) = ((f w.store).mapError .store, w) :=
  runIn_lift _ _

theorem runIn_look (f : BlobStore → Except BlobFault α) : runIn w (look f) = ((f w.blobs).mapError .blob, w) :=
  runIn_lift _ _

theorem runIn_write (key : String) (content : Content) (type : String) : runIn w (write key content type) =
    match w.blobs.write key content type with
    | .ok (blobs, uri) => (.ok uri, { w with blobs })
    | .error f => (.error (.blob f), w) := by
  rw [write, runIn_bind, runIn_look]
  cases w.blobs.write key content type <;> rfl

theorem runIn_alter {change : Store → Except StoreFault Store} {s : Store} (h : change w.store = .ok s) :
    runIn w (alter change) = (.ok (), { w with store := s }) := by
  change runIn w (ask change >>= fun s => modify fun w => { w with store := s }) = _
  have hask : runIn w (ask change) = (.ok s, w) := by
    change runIn w (store (change w.store)) = _
    rw [h]
    rfl
  rw [runIn_bind_ok hask]
  rfl

theorem runIn_alter_error {change : Store → Except StoreFault Store} {f : StoreFault} (h : change w.store = .error f) :
    runIn w (alter change) = (.error (.store f), w) := by
  refine runIn_bind_error ?_
  rw [runIn_ask, h]
  rfl

end Action
end HuntDraw
