import HuntDraw.Build.Stages
import HuntDraw.Proofs.Engine.Action

/-! What actions fail with. What is so of every failure of two actions is so of every failure of one after the other. -/

namespace HuntDraw

open HuntDraw.Action

variable {T α β : Type}

/-- Whatever the world, a failure of the action has the property. -/
def Action.FailsOnly (P : Failure → Prop) (a : Action T α) : Prop := ∀ w f w', runIn w a = (.error f, w') → P f

namespace Action.FailsOnly

variable {P : Failure → Prop} {a : Action T α} {f : α → Action T β}

theorem pure (x : α) : (Pure.pure x : Action T α).FailsOnly P := fun _ _ _ h => nomatch (Prod.mk.inj h).1

theorem get : (MonadState.get : Action T (World T)).FailsOnly P := fun _ _ _ h => nomatch (Prod.mk.inj h).1

theorem modify (f : World T → World T) : (modify f : Action T Unit).FailsOnly P :=
  fun _ _ _ h => nomatch (Prod.mk.inj h).1

theorem log (level : LogLevel) (name : String) (fields : Fields Json) :
    (Action.log level name fields : Action T Unit).FailsOnly P := modify _

theorem outcome (a : Action T α) : (Action.outcome a).FailsOnly P := fun _ _ _ h => nomatch (Prod.mk.inj h).1

theorem throw {e : Failure} (he : P e) : (MonadExcept.throw e : Action T α).FailsOnly P := by
  intro w f w' h
  obtain ⟨hf, -⟩ := Prod.mk.inj h
  exact Except.error.inj hf ▸ he

theorem bind (ha : a.FailsOnly P) (hf : ∀ x, (f x).FailsOnly P) : (a >>= f).FailsOnly P := by
  intro w e w' h
  rcases bind_runIn_eq_error h with hfirst | ⟨x, w₁, -, hrest⟩
  · exact ha w e w' hfirst
  · exact hf x w₁ e w' hrest

theorem discard (ha : a.FailsOnly P) : (Functor.discard a).FailsOnly P :=
  fun w e w' h => ha w e w' (discard_runIn_eq_error h)

theorem lift {ε : Type} {wrap : ε → Failure} {r : Except ε α} (hr : ∀ e, r = .error e → P (wrap e)) :
    (Action.lift wrap r : Action T α).FailsOnly P := by
  cases r with
  | ok x => exact pure x
  | error e => exact throw (hr e rfl)

theorem ask {read : Store → Except StoreFault α} (h : ∀ s e, read s = .error e → P (.store e)) :
    (Action.ask read : Action T α).FailsOnly P :=
  bind get fun w => lift (h w.store)

theorem alter {change : Store → Except StoreFault Store} (h : ∀ s e, change s = .error e → P (.store e)) :
    (Action.alter change : Action T Unit).FailsOnly P :=
  bind (ask h) fun _ => modify _

theorem look (read : BlobStore → Except BlobFault α) (h : ∀ e, P (.blob e)) :
    (Action.look read : Action T α).FailsOnly P :=
  bind get fun _ => lift fun e _ => h e

theorem write (key : String) (content : Content) (type : String) (h : ∀ e, P (.blob e)) :
    (Action.write key content type : Action T String).FailsOnly P :=
  bind (look _ h) fun _ => bind (modify _) fun _ => pure _

theorem poll {check : Action T Bool} {pause : Nat → Action T Unit} (hcheck : check.FailsOnly P)
    (hpause : ∀ number, (pause number).FailsOnly P) (number more : Nat) :
    (HuntDraw.poll check pause number more).FailsOnly P := by
  induction more generalizing number with
  | zero => exact hcheck
  | succ more ih =>
    rw [HuntDraw.poll]
    refine bind hcheck fun ready => ?_
    cases ready with
    | false => exact bind (hpause number) fun _ => ih _
    | true => exact pure true

end Action.FailsOnly
end HuntDraw
