import HuntDraw.Proofs.Build.Start
import HuntDraw.Proofs.Number.Order
import HuntDraw.Proofs.Number.Range
import Mathlib.Data.Rat.Floor

/-! Waiting in exact time. Whether a resource is waited for in vain is told by the time that it still takes and by the
interval between two checks; when the waiting begins has no part in it. -/

namespace HuntDraw

open HuntDraw.Action Engine Attempt
open Waiter (here)

instance : Timeline ℚ where
  ofNumber := Binary64.value
  add x y := x + y
  le x y := decide (x ≤ y)
  lt x y := decide (x < y)
  quotient x y := if y = 0 then .error .nan else .ok ⌊x / y⌋
  text x := toString x

theorem Clock.advance_eq (clock : Clock ℚ) (span : ℚ) :
    clock.advance span = if span < 0 then none else some { clock with now := clock.now + span } := by
  have hnegative : isNegative span = decide (span < 0) := congrArg (decide <| span < ·) (Binary64.value_zero false)
  rw [advance, hnegative]
  simp only [decide_eq_true_eq]
  rfl

theorem Action.runIn_sleep (span : ℚ) (w : World ℚ) : runIn w (Action.sleep span) =
    if span < 0 then (.error (.negativeAdvance (Timeline.text span)), { w with clock := w.clock.note span })
    else (.ok (), { w with clock := { w.clock.note span with now := w.clock.now + span } }) := by
  rw [Action.sleep]
  refine (runIn_bind_ok rfl).trans ((runIn_bind_ok runIn_get).trans ?_)
  simp only [Clock.advance_eq]
  split_ifs <;> rfl

namespace Builder

variable {b : Builder ℚ} {s : BuildSettings} {c : BuildContext} {w w' : World ℚ} {handle : String} {r : Resource ℚ}
  {i : Instance} {number more : Nat}

theorem runIn_isActive (hr : w.resources.get? handle = some r) :
    runIn w (here.isActive handle) = (.ok (decide (r.activeAt ≤ w.clock.now)), w) := by
  have hdescribe : runIn w (describe handle) = (.ok (if r.activeAt ≤ w.clock.now then .active else .creating), w) := by
    rw [runIn_describe, hr, Option.elim_some]
    exact congrArg (Prod.mk · w) (congrArg Except.ok (if_congr decide_eq_true_iff rfl rfl))
  rw [Waiter.isActive, here, runIn_bind_ok hdescribe]
  split_ifs with hactive
  · rw [decide_eq_true hactive]
    rfl
  · rw [decide_eq_false hactive]
    rfl

def interval (s : BuildSettings) : ℚ := Timeline.ofNumber s.poll

def paused (s : BuildSettings) (c : BuildContext) (handle : String) (number : Nat) (w : World ℚ) : World ℚ :=
  { w.logged [⟨.debug, "execution_resource_not_ready",
      [("resource_handle", .text handle), ("attempt", .nat number)] ++ c.fields⟩] with
    clock := w.clock.note (interval s) }

def resumed (s : BuildSettings) (c : BuildContext) (handle : String) (number : Nat) (w : World ℚ) : World ℚ :=
  { paused s c handle number w with
    clock := { w.clock.note (interval s) with now := w.clock.now + interval s } }

theorem runIn_pause (s : BuildSettings) (c : BuildContext) (handle : String) (number : Nat) (w : World ℚ) :
    runIn w (here.pause s c handle number) =
      if interval s < 0 then
        (.error (.negativeAdvance (Timeline.text (interval s))), paused s c handle number w)
      else (.ok (), resumed s c handle number w) := by
  rw [Waiter.pause, runIn_bind_ok (runIn_log ..)]
  exact runIn_sleep (interval s) _

/-- A resource is found to be active exactly if it is after so many intervals, which none may be below nothing. -/
theorem poll_succeeds_iff (hr : w.resources.get? handle = some r) :
    (∃ w', runIn w (poll (here.isActive handle) (here.pause s c handle) number more) = (.ok true, w')) ↔
      ∃ k ≤ more, r.activeAt ≤ w.clock.now + k * interval s ∧ (k = 0 ∨ 0 ≤ interval s) := by
  induction more generalizing w number with
  | zero =>
    rw [poll, runIn_isActive hr]
    simp
  | succ more ih =>
    rw [poll, runIn_bind_ok (runIn_isActive hr)]
    by_cases hactive : r.activeAt ≤ w.clock.now
    · simp only [decide_eq_true hactive, if_true]
      exact iff_of_true ⟨w, rfl⟩ ⟨0, Nat.zero_le _, by simpa using hactive, .inl rfl⟩
    simp only [decide_eq_false hactive, Bool.false_eq_true, if_false]
    by_cases hnegative : interval s < 0
    · -- the pause fails, and no later check is made
      have hpause := runIn_pause s c handle number w
      rw [if_pos hnegative] at hpause
      rw [runIn_bind_error hpause]
      refine iff_of_false ?_ ?_
      · rintro ⟨w', h⟩
        cases h
      · rintro ⟨k, -, hk, rfl | hle⟩
        · exact hactive (by simpa using hk)
        · exact absurd hle hnegative.not_ge
    · have hpause := runIn_pause s c handle number w
      rw [if_neg hnegative] at hpause
      rw [runIn_bind_ok hpause, ih (w := resumed s c handle number w) hr]
      have hnow : (resumed s c handle number w).clock.now = w.clock.now + interval s := rfl
      rw [hnow]
      constructor
      · rintro ⟨k, hk, hreached, -⟩
        refine ⟨k + 1, Nat.succ_le_succ hk, ?_, .inr (not_lt.1 hnegative)⟩
        push_cast
        linarith
      · rintro ⟨k, hk, hreached, -⟩
        cases k with
        | zero => exact absurd (by simpa using hreached) hactive
        | succ k =>
          refine ⟨k, Nat.le_of_succ_le_succ hk, ?_, .inr (not_lt.1 hnegative)⟩
          push_cast at hreached
          linarith

theorem awaitBody_returns_iff (hfound : w.store.getInstance c.instanceId = .ok i)
    (hhandle : i.executionHandle = some handle) : (∃ w', runIn w (b.awaitBody c) = (.ok (), w')) ↔
      ∃ count, attempts (T := ℚ) b.settings.build = .ok count ∧
        ∃ w', runIn w (poll (here.isActive handle) (here.pause b.settings.build c handle) 1 (count - 1).toNat) =
          (.ok true, w') := by
  rw [awaitBody, Waiter.wait, runIn_bind, runIn_ask, hfound]
  simp only [Except.mapError, hhandle]
  rw [runIn_bind, runIn_lift]
  cases attempts (T := ℚ) b.settings.build with
  | error f => simp [Except.mapError]
  | ok count =>
    simp only [Except.mapError, Except.ok.injEq, exists_eq_left']
    have hkept := Action.Along.poll (isActive_waited (T := ℚ) handle) (pause_waited b.settings.build c handle) 1
      (count - 1).toNat w
    rw [runIn_bind]
    rcases hrun : runIn w (poll (here.isActive handle) (here.pause b.settings.build c handle) 1 (count - 1).toNat) with
      ⟨f | active, w'⟩ <;> rw [hrun] at hkept
    · refine iff_of_false ?_ ?_ <;> rintro ⟨w₁, h⟩ <;> cases h
    cases active with
    | false => refine iff_of_false ?_ ?_ <;> rintro ⟨w₁, h⟩ <;> cases h
    | true =>
      have hfound' : w'.store.getInstance c.instanceId = .ok i := by
        obtain ⟨_, _, -, rfl⟩ := hkept
        exact hfound
      exact iff_of_true ⟨_, runIn_updateInstance hfound' _⟩ ⟨w', rfl⟩

/-- The resources of an engine are active before they are given up. -/
def Punctual (b : Builder ℚ) : Prop :=
  ∃ count, attempts (T := ℚ) b.settings.build = .ok count ∧ ∃ k ≤ (count - 1).toNat,
    b.engine.delay ≤ k * interval b.settings.build ∧ (k = 0 ∨ 0 ≤ interval b.settings.build)

/-- A resource that was just stored is waited for in vain or not, whatever the time. -/
theorem awaitBody_punctual_iff (hfound : w.store.getInstance c.instanceId = .ok i)
    (hhandle : i.executionHandle = some handle) (hr : w.resources.get? handle = some r)
    (hnew : r.activeAt = w.clock.now + b.engine.delay) :
    (∃ w', runIn w (b.awaitBody c) = (.ok (), w')) ↔ b.Punctual := by
  rw [awaitBody_returns_iff hfound hhandle, Punctual]
  simp only [poll_succeeds_iff hr, hnew, add_le_add_iff_left]

end Builder
end HuntDraw
