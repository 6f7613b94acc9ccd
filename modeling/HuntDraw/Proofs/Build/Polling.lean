import HuntDraw.Proofs.Build.Stages
import HuntDraw.Proofs.Build.Waiting

/-! Polling in exact time, whoever tells of the resource and however time passes. How often is asked, how long is slept
and how it ends follow from the answers alone. -/

namespace HuntDraw

open HuntDraw.Action Attempt

namespace Waiter

open Builder (interval attempts stageStarted stageCompleted stageFailed)

variable {x : Waiter ℚ} {s : BuildSettings} {c : BuildContext} {handle : String} {w : World ℚ} {i : Instance}
  {k most more number : ℕ}

/-- Telling of a resource and sleeping leave the records alone, and each span that is slept through is noted down. How
time passes is left open. -/
structure Sound (x : Waiter ℚ) : Prop where
  describe : ∀ handle w, (runIn w (x.describe handle)).2.store = w.store ∧
    (runIn w (x.describe handle)).2.clock.sleeps = w.clock.sleeps
  sleep : ∀ span w, 0 < span → ∃ w', runIn w (x.sleep span) = (.ok (), w') ∧ w'.store = w.store ∧
    w'.clock.sleeps = w.clock.sleeps ++ [span]

/-- The world in which is asked once more after so many questions, and so many pauses, from a world on. -/
def asked (x : Waiter ℚ) (s : BuildSettings) (c : BuildContext) (handle : String) (w : World ℚ) : ℕ → World ℚ
  | 0 => w
  | k + 1 => (runIn (runIn (x.asked s c handle w k) (x.describe handle)).2 (x.pause s c handle (k + 1))).2

def answer (x : Waiter ℚ) (s : BuildSettings) (c : BuildContext) (handle : String) (w : World ℚ) (k : ℕ) :
    Except Failure ResourceStatus :=
  (runIn (x.asked s c handle w k) (x.describe handle)).1

def told (x : Waiter ℚ) (s : BuildSettings) (c : BuildContext) (handle : String) (w : World ℚ) (k : ℕ) : World ℚ :=
  (runIn (x.asked s c handle w k) (x.describe handle)).2

/-- The answer is that the resource is not active yet. -/
def Pending (x : Waiter ℚ) (s : BuildSettings) (c : BuildContext) (handle : String) (w : World ℚ) (k : ℕ) : Prop :=
  ∃ status, x.answer s c handle w k = .ok status ∧ status ≠ .active

theorem Sound.pause (hx : x.Sound) (hpoll : 0 < interval s) (c : BuildContext) (handle : String) (number : ℕ)
    (w : World ℚ) : ∃ w', runIn w (x.pause s c handle number) = (.ok (), w') ∧ w'.store = w.store ∧
      w'.clock.sleeps = w.clock.sleeps ++ [interval s] := by
  rw [Waiter.pause, runIn_bind_ok (runIn_log ..)]
  exact hx.sleep _ _ hpoll

theorem Sound.runIn_pause (hx : x.Sound) (hpoll : 0 < interval s) (k : ℕ) :
    runIn (x.told s c handle w k) (x.pause s c handle (k + 1)) = (.ok (), x.asked s c handle w (k + 1)) := by
  obtain ⟨w', hrun, -⟩ := hx.pause hpoll c handle (k + 1) (x.told s c handle w k)
  exact Prod.ext (by rw [hrun]) rfl

/-- Until a question is asked as many intervals were slept through as questions came before it. -/
theorem Sound.asked_eq (hx : x.Sound) (hpoll : 0 < interval s) (c : BuildContext) (handle : String) (w : World ℚ)
    (k : ℕ) :
    (x.asked s c handle w k).store = w.store ∧
      (x.asked s c handle w k).clock.sleeps = w.clock.sleeps ++ List.replicate k (interval s) := by
  induction k with
  | zero => exact ⟨rfl, (List.append_nil _).symm⟩
  | succ k ih =>
    obtain ⟨w', hrun, hstore, hsleeps⟩ := hx.pause hpoll c handle (k + 1) (x.told s c handle w k)
    obtain rfl : x.asked s c handle w (k + 1) = w' :=
      congrArg Prod.snd ((hx.runIn_pause hpoll k).symm.trans hrun)
    obtain ⟨htold, hnoted⟩ := hx.describe handle (x.asked s c handle w k)
    refine ⟨hstore.trans (htold.trans ih.1), ?_⟩
    rw [hsleeps, told, hnoted, ih.2, List.append_assoc, List.replicate_succ']

theorem Sound.told_eq (hx : x.Sound) (hpoll : 0 < interval s) (c : BuildContext) (handle : String) (w : World ℚ)
    (k : ℕ) :
    (x.told s c handle w k).store = w.store ∧
      (x.told s c handle w k).clock.sleeps = w.clock.sleeps ++ List.replicate k (interval s) := by
  obtain ⟨hstore, hsleeps⟩ := hx.describe handle (x.asked s c handle w k)
  obtain ⟨hstore', hsleeps'⟩ := hx.asked_eq hpoll c handle w k
  exact ⟨hstore.trans hstore', hsleeps.trans hsleeps'⟩

theorem Sound.getInstance_told (hx : x.Sound) (hpoll : 0 < interval s)
    (hfound : w.store.getInstance c.instanceId = .ok i) (handle : String) (k : ℕ) :
    (x.told s c handle w k).store.getInstance c.instanceId = .ok i := by
  rw [(hx.told_eq hpoll c handle w k).1]
  exact hfound

/-- The questions are counted: each of them counts once, and nothing that is slept through or written does. -/
structure Counts (x : Waiter ℚ) (count : World ℚ → ℕ) : Prop where
  describe : ∀ handle w, count (runIn w (x.describe handle)).2 = count w + 1
  sleep : ∀ span w, count (runIn w (x.sleep span)).2 = count w
  written : ∀ (w : World ℚ) store journal, count { w with store, journal } = count w

theorem Counts.asked {count : World ℚ → ℕ} (hcount : x.Counts count) (s : BuildSettings) (c : BuildContext)
    (handle : String) (w : World ℚ) (k : ℕ) : count (x.asked s c handle w k) = count w + k := by
  induction k with
  | zero => rfl
  | succ k ih =>
    have hpause : count (x.asked s c handle w (k + 1)) = count (x.told s c handle w k) := by
      rw [Waiter.asked, Waiter.pause, runIn_bind_ok (runIn_log ..), hcount.sleep]
      exact hcount.written _ _ _
    rw [hpause, told, hcount.describe, ih, Nat.add_assoc]

theorem Counts.told {count : World ℚ → ℕ} (hcount : x.Counts count) (s : BuildSettings) (c : BuildContext)
    (handle : String) (w : World ℚ) (k : ℕ) : count (x.told s c handle w k) = count w + (k + 1) := by
  rw [Waiter.told, hcount.describe, hcount.asked, Nat.add_assoc]

/-- What ends the polling at a question, where the one after so many others is the last one. -/
inductive Polled (x : Waiter ℚ) (s : BuildSettings) (c : BuildContext) (handle : String) (w : World ℚ) (most k : ℕ) :
    Except Failure Bool → Prop
  | active (h : x.answer s c handle w k = .ok .active) : Polled x s c handle w most k (.ok true)
  | late (hlast : k = most) (h : x.Pending s c handle w k) : Polled x s c handle w most k (.ok false)
  | failed {f : Failure} (h : x.answer s c handle w k = .error f) : Polled x s c handle w most k (.error f)

theorem runIn_isActive (x : Waiter ℚ) (s : BuildSettings) (c : BuildContext) (handle : String) (w : World ℚ) (k : ℕ) :
    (x.answer s c handle w k = .ok .active ∧
      runIn (x.asked s c handle w k) (x.isActive handle) = (.ok true, x.told s c handle w k)) ∨
    (x.Pending s c handle w k ∧
      runIn (x.asked s c handle w k) (x.isActive handle) = (.ok false, x.told s c handle w k)) ∨
    ∃ f, x.answer s c handle w k = .error f ∧
      runIn (x.asked s c handle w k) (x.isActive handle) = (.error f, x.told s c handle w k) := by
  rw [isActive, runIn_bind, Pending, answer, told]
  rcases runIn (x.asked s c handle w k) (x.describe handle) with ⟨f | status, w'⟩
  · exact .inr (.inr ⟨f, rfl, rfl⟩)
  · cases status with
    | active => exact .inl ⟨rfl, rfl⟩
    | creating => exact .inr (.inl ⟨⟨.creating, rfl, by simp⟩, rfl⟩)
    | deleting => exact .inr (.inl ⟨⟨.deleting, rfl, by simp⟩, rfl⟩)

/-- Polling goes on from question to question while the resource is not active, and ends at the first one where it is,
where the engine fails, or which is the last one. -/
theorem Sound.poll_polled (hx : x.Sound) (hpoll : 0 < interval s) (c : BuildContext) (handle : String) (k₀ more : ℕ) :
    ∃ k r, k₀ ≤ k ∧ k ≤ k₀ + more ∧ (∀ j, k₀ ≤ j → j < k → x.Pending s c handle w j) ∧
      runIn (x.asked s c handle w k₀) (poll (x.isActive handle) (x.pause s c handle) (k₀ + 1) more) =
        (r, x.told s c handle w k) ∧ x.Polled s c handle w (k₀ + more) k r := by
  have hnone : ∀ k₀ j, k₀ ≤ j → j < k₀ → x.Pending s c handle w j := fun k₀ j hle hlt => absurd hlt hle.not_gt
  induction more generalizing k₀ with
  | zero =>
    rcases x.runIn_isActive s c handle w k₀ with ⟨h, hrun⟩ | ⟨h, hrun⟩ | ⟨f, h, hrun⟩
    · exact ⟨k₀, _, le_rfl, le_rfl, hnone k₀, hrun, .active h⟩
    · exact ⟨k₀, _, le_rfl, le_rfl, hnone k₀, hrun, .late rfl h⟩
    · exact ⟨k₀, _, le_rfl, le_rfl, hnone k₀, hrun, .failed h⟩
  | succ more ih =>
    rw [poll]
    rcases x.runIn_isActive s c handle w k₀ with ⟨h, hrun⟩ | ⟨h, hrun⟩ | ⟨f, h, hrun⟩
    · exact ⟨k₀, _, le_rfl, by omega, hnone k₀, runIn_bind_ok hrun, .active h⟩
    · obtain ⟨k, r, hle, hmost, hpending, hrest, hpolled⟩ := ih (k₀ + 1)
      refine ⟨k, r, by omega, by omega, fun j hj hlt => ?_, ?_, ?_⟩
      · rcases hj.eq_or_lt with rfl | hj
        · exact h
        · exact hpending j hj hlt
      · exact (runIn_bind_ok hrun).trans ((runIn_bind_ok (hx.runIn_pause hpoll k₀)).trans hrest)
      · rwa [Nat.add_assoc, Nat.add_comm 1] at hpolled
    · exact ⟨k₀, _, le_rfl, by omega, hnone k₀, runIn_bind_error hrun, .failed h⟩

/-- How often may be asked once more: as often as the interval goes into the time given. -/
def mostPauses (s : BuildSettings) : ℕ := ⌊s.timeout.value / s.poll.value⌋₊

theorem attempts_eq (hpoll : 0 < s.poll.value) :
    ∃ count, attempts (T := ℚ) s = .ok count ∧ (count - 1).toNat = mostPauses s := by
  refine ⟨⌊s.timeout.value / s.poll.value⌋ + 1, ?_, ?_⟩
  · have hquotient : Timeline.quotient s.timeout.value s.poll.value = .ok ⌊s.timeout.value / s.poll.value⌋ :=
      if_neg hpoll.ne'
    rw [attempts]
    change (· + 1) <$> Timeline.quotient s.timeout.value s.poll.value = _
    rw [hquotient]
    rfl
  · rw [Int.add_sub_cancel, Int.floor_toNat, mostPauses]

theorem pauses_le (hpoll : 0 < s.poll.value) (htimeout : 0 < s.timeout.value) (hk : k ≤ mostPauses s) :
    k * s.poll.value ≤ s.timeout.value := by
  rw [← le_div_iff₀ hpoll]
  exact (Nat.le_floor_iff (div_nonneg htimeout.le hpoll.le)).1 hk

def failedIn (c : BuildContext) (f : Failure) (w : World ℚ) : World ℚ :=
  (w.logged [stageFailed .awaitReady c f]).amended c.instanceId { status := some .buildFailed }

/-- How waiting ends after so many other questions, where no more than `most` may come before the last one. -/
inductive Ends (x : Waiter ℚ) (s : BuildSettings) (c : BuildContext) (handle : String) (w : World ℚ) (most k : ℕ) :
    Except Failure Unit → World ℚ → Prop
  | ready (h : x.answer s c handle w k = .ok .active) : Ends x s c handle w most k (.ok ())
      (((x.told s c handle w k).amended c.instanceId { status := some .ready }).logged [stageCompleted .awaitReady c])
  | late (hlast : k = most) (h : x.Pending s c handle w k) :
      Ends x s c handle w most k (.error (.lateResource handle s.timeout.text))
        (failedIn c (.lateResource handle s.timeout.text) (x.told s c handle w k))
  | failed {f : Failure} (h : x.answer s c handle w k = .error f) :
      Ends x s c handle w most k (.error f) (failedIn c f (x.told s c handle w k))

def statusAfter : Except Failure Unit → InstanceStatus
  | .ok _ => .ready
  | .error _ => .buildFailed

namespace Ends

variable {outcome : Except Failure Unit} {w' : World ℚ}

theorem counted {count : World ℚ → ℕ} (h : x.Ends s c handle w most k outcome w') (hcount : x.Counts count) :
    count w' = count w + (k + 1) := by
  rw [← hcount.told s c handle w k]
  cases h <;> exact hcount.written (x.told s c handle w k) _ _

theorem sleeps (h : x.Ends s c handle w most k outcome w') (hx : x.Sound) (hpoll : 0 < interval s) :
    w'.clock.sleeps = w.clock.sleeps ++ List.replicate k (interval s) := by
  rw [← (hx.told_eq hpoll c handle w k).2]
  cases h <;> rfl

theorem status (h : x.Ends s c handle w most k outcome w') (hx : x.Sound) (hpoll : 0 < interval s)
    (hfound : w.store.getInstance c.instanceId = .ok i) : w'.store.getInstance c.instanceId =
      .ok { i with status := statusAfter outcome } := by
  have htold := hx.getInstance_told hpoll hfound handle k
  cases h <;> exact World.getInstance_amended_self htold _

theorem unique {outcome' : Except Failure Unit} {w'' : World ℚ} (h : x.Ends s c handle w most k outcome w')
    (h' : x.Ends s c handle w most k outcome' w'') : outcome = outcome' ∧ w' = w'' := by
  cases h with
  | ready hanswer =>
    cases h' with
    | ready => exact ⟨rfl, rfl⟩
    | late _ hpending =>
      obtain ⟨status, hstatus, hne⟩ := hpending
      exact absurd (Except.ok.inj (hstatus.symm.trans hanswer)) hne
    | failed hfailed => cases hanswer.symm.trans hfailed
  | late _ hpending =>
    obtain ⟨status, hstatus, hne⟩ := hpending
    cases h' with
    | ready hanswer => exact absurd (Except.ok.inj (hstatus.symm.trans hanswer)) hne
    | late => exact ⟨rfl, rfl⟩
    | failed hfailed => cases hstatus.symm.trans hfailed
  | failed hfailed =>
    cases h' with
    | ready hanswer => cases hanswer.symm.trans hfailed
    | late _ hpending =>
      obtain ⟨status, hstatus, -⟩ := hpending
      cases hstatus.symm.trans hfailed
    | failed hfailed' =>
      obtain rfl := Except.error.inj (hfailed.symm.trans hfailed')
      exact ⟨rfl, rfl⟩

end Ends

theorem runIn_stage_failed {body : Action ℚ Unit} {f : Failure} {w' : World ℚ} (hjob : c.job = none)
    (hfound : w'.store.getInstance c.instanceId = .ok i)
    (h : runIn (w.logged [stageStarted .awaitReady c]) body = (.error f, w')) :
    runIn w (Builder.stage .awaitReady c body) = (.error f, failedIn c f w') := by
  have hfound' : (w'.logged [stageFailed .awaitReady c f]).store.getInstance c.instanceId = .ok i := hfound
  have hrecord : runIn (w'.logged [stageFailed .awaitReady c f]) (Builder.recordFailure .awaitReady c f) =
      (.ok (), failedIn c f w') := by
    rw [Builder.recordFailure_eq, Builder.recordInJob, hjob]
    exact runIn_bind_ok (runIn_updateInstance hfound' _)
  rw [Builder.runIn_stage_error h, runIn_bind_ok hrecord]
  rfl

/-- Where the instance has a handle, waiting is polling and telling how it ended. -/
theorem runIn_wait (x : Waiter ℚ) (hpoll : 0 < s.poll.value) (hfound : w.store.getInstance c.instanceId = .ok i)
    (hhandle : i.executionHandle = some handle) : runIn w (x.wait s c) =
      runIn w (poll (x.isActive handle) (x.pause s c handle) 1 (mostPauses s) >>= fun active =>
        if active then Action.alter fun s => s.updateInstance c.instanceId { status := some .ready }
        else throw (.lateResource handle s.timeout.text)) := by
  obtain ⟨count, hcount, hmost⟩ := attempts_eq hpoll
  rw [wait, runIn_bind, runIn_ask, hfound]
  simp only [Except.mapError, hhandle]
  rw [runIn_bind, runIn_lift, hcount]
  simp only [Except.mapError, hmost]

/-- The questions end with the one after so many others: none of those finds the resource active. -/
structure Course (x : Waiter ℚ) (s : BuildSettings) (c : BuildContext) (handle : String) (w : World ℚ) (k : ℕ)
    (outcome : Except Failure Unit) (w' : World ℚ) : Prop where
  bounded : k ≤ mostPauses s
  pending : ∀ j < k, x.Pending s c handle w j
  ends : x.Ends s c handle w (mostPauses s) k outcome w'

namespace Course

variable {outcome outcome' : Except Failure Unit} {w₁ w₂ : World ℚ} {k' : ℕ}

theorem not_lt (h : x.Course s c handle w k outcome w₁) (h' : x.Course s c handle w k' outcome' w₂) : ¬k < k' := by
  intro hlt
  obtain ⟨status, hanswer, hne⟩ := h'.pending k hlt
  cases h.ends with
  | ready hactive => exact hne (Except.ok.inj (hanswer.symm.trans hactive))
  | late hlast => exact absurd h'.bounded (hlast ▸ hlt).not_ge
  | failed hfailed => cases hanswer.symm.trans hfailed

theorem unique (h : x.Course s c handle w k outcome w₁) (h' : x.Course s c handle w k' outcome' w₂) :
    k = k' ∧ outcome = outcome' ∧ w₁ = w₂ := by
  obtain rfl : k = k' := le_antisymm (Nat.not_lt.1 (h'.not_lt h)) (Nat.not_lt.1 (h.not_lt h'))
  exact ⟨rfl, h.ends.unique h'.ends⟩

end Course

/-- How the instance was waited for: between two questions it was slept through one interval, in all no longer than the
time given, and the instance shows how it ended. -/
structure Waits (x : Waiter ℚ) (s : BuildSettings) (c : BuildContext) (handle : String) (w : World ℚ) (i : Instance)
    (k : ℕ) (outcome : Except Failure Unit) (w' : World ℚ) : Prop extends x.Course s c handle w k outcome w' where
  sleeps : w'.clock.sleeps = w.clock.sleeps ++ List.replicate k s.poll.value
  within : k * s.poll.value ≤ s.timeout.value
  status : w'.store.getInstance c.instanceId = .ok { i with status := statusAfter outcome }

section Stage

variable (hx : x.Sound) (hpoll : 0 < s.poll.value) (htimeout : 0 < s.timeout.value)
  (hfound : w.store.getInstance c.instanceId = .ok i) (hhandle : i.executionHandle = some handle) (hjob : c.job = none)

include hx hpoll htimeout hfound hhandle hjob

/-- The stage asks until the resource is active, the engine fails, or as many intervals were slept through as go into
the time given. -/
theorem Sound.waits : ∃ k outcome w', runIn w (Builder.stage .awaitReady c (x.wait s c)) = (outcome, w') ∧
    x.Waits s c handle (w.logged [stageStarted .awaitReady c]) i k outcome w' := by
  have hstarted : (w.logged [stageStarted .awaitReady c]).store.getInstance c.instanceId = .ok i := hfound
  obtain ⟨k, r, -, hk, hpending, hrun, hpolled⟩ :=
    hx.poll_polled (w := w.logged [stageStarted .awaitReady c]) hpoll c handle 0 (mostPauses s)
  rw [Nat.zero_add] at hk hrun hpolled
  rw [asked] at hrun
  have htold := hx.getInstance_told hpoll hstarted handle k
  have hwait := x.runIn_wait hpoll hstarted hhandle
  obtain ⟨outcome, w', hstage, hends⟩ : ∃ outcome w',
      runIn w (Builder.stage .awaitReady c (x.wait s c)) = (outcome, w') ∧
      x.Ends s c handle (w.logged [stageStarted .awaitReady c]) (mostPauses s) k outcome w' := by
    cases hpolled with
    | active h =>
      rw [runIn_bind_ok hrun] at hwait
      exact ⟨_, _, Builder.runIn_stage_ok (hwait.trans (runIn_updateInstance htold _)), .ready h⟩
    | late hlast h =>
      rw [runIn_bind_ok hrun] at hwait
      exact ⟨_, _, runIn_stage_failed hjob htold hwait, .late hlast h⟩
    | failed h =>
      rw [runIn_bind_error hrun] at hwait
      exact ⟨_, _, runIn_stage_failed hjob htold hwait, .failed h⟩
  exact ⟨k, outcome, w', hstage, ⟨hk, fun j hj => hpending j j.zero_le hj, hends⟩, hends.sleeps hx hpoll,
    pauses_le hpoll htimeout hk, hends.status hx hpoll hstarted⟩

theorem Sound.runIn_of_course {outcome : Except Failure Unit} {w' : World ℚ}
    (h : x.Course s c handle (w.logged [stageStarted .awaitReady c]) k outcome w') :
    runIn w (Builder.stage .awaitReady c (x.wait s c)) = (outcome, w') := by
  obtain ⟨k', outcome', w'', hrun, hwaits⟩ := hx.waits hpoll htimeout hfound hhandle hjob
  obtain ⟨-, rfl, rfl⟩ := hwaits.toCourse.unique h
  exact hrun

end Stage

/-- Gives out an id with each question, by which the questions can be counted. -/
def counted (x : Waiter ℚ) : Waiter ℚ where
  describe handle := do
    modify World.numbered
    x.describe handle
  sleep := x.sleep

/-- What is told and how time passes have nothing to do with the ids, and leave them alone. -/
structure Unnumbered (x : Waiter ℚ) : Prop where
  describe : ∀ handle (w : World ℚ) n, runIn { w with ids := n } (x.describe handle) =
    ((runIn w (x.describe handle)).1, { (runIn w (x.describe handle)).2 with ids := n })
  sleep : ∀ span (w : World ℚ) n, runIn { w with ids := n } (x.sleep span) =
    ((runIn w (x.sleep span)).1, { (runIn w (x.sleep span)).2 with ids := n })

theorem runIn_counted (x : Waiter ℚ) (handle : String) (w : World ℚ) :
    runIn w (x.counted.describe handle) = runIn w.numbered (x.describe handle) := rfl

theorem Sound.counted (hx : x.Sound) : x.counted.Sound :=
  ⟨fun handle w => hx.describe handle w.numbered, hx.sleep⟩

namespace Unnumbered

theorem pause (hx : x.Unnumbered) (s : BuildSettings) (c : BuildContext) (handle : String) (number : ℕ) (w : World ℚ)
    (n : ℕ) : runIn { w with ids := n } (x.pause s c handle number) =
      ((runIn w (x.pause s c handle number)).1, { (runIn w (x.pause s c handle number)).2 with ids := n }) :=
  hx.sleep _ (w.logged _) n

theorem asked_counted (hx : x.Unnumbered) (s : BuildSettings) (c : BuildContext) (handle : String) (w : World ℚ)
    (k : ℕ) : x.counted.asked s c handle w k = { x.asked s c handle w k with ids := w.ids + k } := by
  induction k with
  | zero => rfl
  | succ k ih =>
    have htold : (runIn (x.counted.asked s c handle w k) (x.counted.describe handle)).2 =
        { (runIn (x.asked s c handle w k) (x.describe handle)).2 with ids := w.ids + k + 1 } := by
      rw [ih, runIn_counted]
      exact congrArg Prod.snd (hx.describe handle (x.asked s c handle w k) (w.ids + k + 1))
    rw [asked, htold]
    exact congrArg Prod.snd (hx.pause s c handle (k + 1) _ _)

theorem runIn_asked_counted (hx : x.Unnumbered) (s : BuildSettings) (c : BuildContext) (handle : String) (w : World ℚ)
    (k : ℕ) : runIn (x.counted.asked s c handle w k) (x.counted.describe handle) =
      (x.answer s c handle w k, { x.told s c handle w k with ids := w.ids + (k + 1) }) := by
  rw [hx.asked_counted, runIn_counted]
  exact hx.describe handle (x.asked s c handle w k) (w.ids + k + 1)

theorem answer_counted (hx : x.Unnumbered) : x.counted.answer s c handle w k = x.answer s c handle w k := by
  rw [answer, hx.runIn_asked_counted]

theorem told_counted (hx : x.Unnumbered) :
    x.counted.told s c handle w k = { x.told s c handle w k with ids := w.ids + (k + 1) } := by
  rw [told, hx.runIn_asked_counted]

theorem pending_counted (hx : x.Unnumbered) (h : x.Pending s c handle w k) : x.counted.Pending s c handle w k := by
  obtain ⟨status, hanswer, hne⟩ := h
  exact ⟨status, hx.answer_counted.trans hanswer, hne⟩

theorem ends_counted {outcome : Except Failure Unit} {w' : World ℚ} (hx : x.Unnumbered)
    (h : x.Ends s c handle w most k outcome w') :
    x.counted.Ends s c handle w most k outcome { w' with ids := w.ids + (k + 1) } := by
  cases h with
  | ready h =>
    have hends : x.counted.Ends s c handle w most k _ _ := .ready (hx.answer_counted.trans h)
    rwa [hx.told_counted] at hends
  | late hlast h =>
    have hends : x.counted.Ends s c handle w most k _ _ := .late hlast (hx.pending_counted h)
    rwa [hx.told_counted] at hends
  | failed h =>
    have hends : x.counted.Ends s c handle w most k _ _ := .failed (hx.answer_counted.trans h)
    rwa [hx.told_counted] at hends

theorem course_counted {outcome : Except Failure Unit} {w' : World ℚ} (hx : x.Unnumbered)
    (h : x.Course s c handle w k outcome w') :
    x.counted.Course s c handle w k outcome { w' with ids := w.ids + (k + 1) } :=
  ⟨h.bounded, fun j hj => hx.pending_counted (h.pending j hj), hx.ends_counted h.ends⟩

end Unnumbered

theorem sound_here : (here : Waiter ℚ).Sound := by
  refine ⟨fun handle w => ?_, fun span w hspan => ?_⟩
  · change (runIn w (Engine.describe handle)).2.store = _ ∧ (runIn w (Engine.describe handle)).2.clock.sleeps = _
    rw [Engine.runIn_describe]
    cases w.resources.get? handle <;> exact ⟨rfl, rfl⟩
  · have hsleep := runIn_sleep span w
    rw [if_neg hspan.le.not_gt] at hsleep
    exact ⟨_, hsleep, rfl, rfl⟩

theorem unnumbered_here : (here : Waiter ℚ).Unnumbered := by
  refine ⟨fun handle w n => ?_, fun span w n => ?_⟩
  · change runIn _ (Engine.describe handle) = ((runIn w (Engine.describe handle)).1,
      { (runIn w (Engine.describe handle)).2 with ids := n })
    rw [Engine.runIn_describe, Engine.runIn_describe]
  · change runIn _ (Action.sleep span) = ((runIn w (Action.sleep span)).1,
      { (runIn w (Action.sleep span)).2 with ids := n })
    rw [runIn_sleep, runIn_sleep]
    split_ifs <;> rfl

theorem asked_here (hpoll : 0 ≤ interval s) (c : BuildContext) (handle : String) (w : World ℚ) (k : ℕ) :
    (here.asked s c handle w k).resources = w.resources ∧
      (here.asked s c handle w k).clock.now = w.clock.now + k * interval s := by
  induction k with
  | zero => exact ⟨rfl, by rw [Nat.cast_zero, zero_mul, add_zero]; rfl⟩
  | succ k ih =>
    have htold : (runIn (here.asked s c handle w k) (here.describe handle)).2 = here.asked s c handle w k :=
      congrArg Prod.snd (Engine.runIn_describe handle)
    have hpause := Builder.runIn_pause s c handle (k + 1) (here.asked s c handle w k)
    rw [if_neg hpoll.not_gt] at hpause
    have hasked : here.asked s c handle w (k + 1) =
        Builder.resumed s c handle (k + 1) (here.asked s c handle w k) := by
      rw [Waiter.asked, htold, hpause]
    rw [hasked]
    refine ⟨ih.1, ?_⟩
    change (here.asked s c handle w k).clock.now + interval s = _
    rw [ih.2, Nat.cast_succ, add_one_mul, add_assoc]

/-- A resource is active once its time has come, which may be while it is slept. -/
theorem answer_here {r : Resource ℚ} (hpoll : 0 ≤ interval s) (hr : w.resources.get? handle = some r)
    (c : BuildContext) (k : ℕ) : here.answer s c handle w k =
      .ok (if r.activeAt ≤ w.clock.now + k * interval s then .active else .creating) := by
  obtain ⟨hresources, hnow⟩ := asked_here hpoll c handle w k
  have hdescribe := Engine.runIn_describe (w := here.asked s c handle w k) handle
  rw [hresources, hr, Option.elim_some, hnow] at hdescribe
  exact (congrArg Prod.fst hdescribe).trans (congrArg Except.ok (if_congr decide_eq_true_iff rfl rfl))

/-- The builder waits in exact time until the resource is active, the engine fails, or as many intervals were slept
through as go into the time given; it asks once more than it sleeps, which a waiter that counts its questions shows. The
same holds whoever tells of the resource, and however time passes. -/
theorem awaitReady_ends {b : Builder ℚ} (hpoll : 0 < b.settings.build.poll.value)
    (htimeout : 0 < b.settings.build.timeout.value) (hfound : w.store.getInstance c.instanceId = .ok i)
    (hhandle : i.executionHandle = some handle) (hjob : c.job = none) :
    (∃ k outcome w', runIn w (b.awaitReady c) = (outcome, w') ∧
      here.Waits b.settings.build c handle (w.logged [stageStarted .awaitReady c]) i k outcome w' ∧
      runIn w (Builder.stage .awaitReady c (here.counted.wait b.settings.build c)) =
        (outcome, { w' with ids := w.ids + (k + 1) })) ∧
    ∀ x : Waiter ℚ, x.Sound → ∃ k outcome w',
      runIn w (Builder.stage .awaitReady c (x.wait b.settings.build c)) = (outcome, w') ∧
      x.Waits b.settings.build c handle (w.logged [stageStarted .awaitReady c]) i k outcome w' ∧
      ∀ count, x.Counts count → count w' = count w + (k + 1) := by
  refine ⟨?_, fun x hx => ?_⟩
  · obtain ⟨k, outcome, w', hrun, hwaits⟩ := sound_here.waits hpoll htimeout hfound hhandle hjob
    exact ⟨k, outcome, w', hrun, hwaits, sound_here.counted.runIn_of_course hpoll htimeout hfound hhandle hjob
      (unnumbered_here.course_counted hwaits.toCourse)⟩
  · obtain ⟨k, outcome, w', hrun, hwaits⟩ := hx.waits hpoll htimeout hfound hhandle hjob
    refine ⟨k, outcome, w', hrun, hwaits, fun count hcount => ?_⟩
    rw [hwaits.ends.counted hcount, World.logged, hcount.written]

/-- Gives the answers in turn, and counts the questions by the ids that it gives out. -/
def scripted (answers : ℕ → Except Failure ResourceStatus) : Waiter ℚ where
  describe _ := do
    let n := (← get).ids
    modify World.numbered
    Action.lift id (answers n)
  sleep := Action.sleep

section Scripted

variable {answers : ℕ → Except Failure ResourceStatus}

theorem runIn_scripted (handle : String) (w : World ℚ) :
    runIn w ((scripted answers).describe handle) = (answers w.ids, w.numbered) := by
  refine (runIn_bind_ok runIn_get).trans ((runIn_bind_ok rfl).trans ?_)
  rw [runIn_lift]
  cases answers w.ids <;> rfl

theorem sound_scripted : (scripted answers).Sound := by
  refine ⟨fun handle w => ?_, sound_here.sleep⟩
  rw [runIn_scripted]
  exact ⟨rfl, rfl⟩

theorem counts_scripted : (scripted answers).Counts World.ids := by
  refine ⟨fun handle w => ?_, fun span w => ?_, fun w store journal => rfl⟩
  · rw [runIn_scripted]
    rfl
  · change (runIn w (Action.sleep span)).2.ids = _
    rw [runIn_sleep]
    split_ifs <;> rfl

theorem answer_scripted (hids : w.ids = 0) (k : ℕ) : (scripted answers).answer s c handle w k = answers k := by
  rw [answer, runIn_scripted, counts_scripted.asked, hids, Nat.zero_add]

end Scripted

def thirdAnswer (n : ℕ) : Except Failure ResourceStatus := .ok (if n < 2 then .creating else .active)

def awaitingBuilder : Builder ℚ := ⟨{}, ⟨[], 2⟩⟩

def awaitedInstance : Instance :=
  { id := "I", organization := "org", workflow := "wf", status := .buildStarted, executionHandle := some "H" }

def awaitedContext : BuildContext := ⟨"org", "wf", "I", none⟩

def awaitedWorld : World ℚ where
  store := { instances := [awaitedInstance] }
  blobs := ⟨"bucket", .memory, []⟩
  clock := ⟨0, []⟩
  resources := [("H", ⟨"I", ⟨"a", []⟩, awaitingBuilder.engine.delay⟩)]

/-- Whoever it is that says so at the third question, the questions end there. -/
theorem Course.third {outcome : Except Failure Unit} {w' : World ℚ} (h : x.Course s c handle w k outcome w')
    (hmost : 2 ≤ mostPauses s) (hanswer : ∀ n ≤ 2, x.answer s c handle w n = thirdAnswer n) :
    k = 2 ∧ outcome = .ok () := by
  have hpending : ∀ j < 2, x.Pending s c handle w j := fun j hj =>
    ⟨.creating, (hanswer j hj.le).trans (by rw [thirdAnswer, if_pos hj]), by decide⟩
  obtain ⟨rfl, rfl, -⟩ := h.unique ⟨hmost, hpending, .ready (hanswer 2 le_rfl)⟩
  exact ⟨rfl, rfl⟩

/-- Three questions are asked with two seconds between the first and the last of them: of an engine that takes two
seconds, and of someone else who gives the same answers. -/
theorem awaitReady_ends_third : 0 < awaitingBuilder.settings.build.poll.value ∧
    0 < awaitingBuilder.settings.build.timeout.value ∧
    awaitedWorld.store.getInstance awaitedContext.instanceId = .ok awaitedInstance ∧
    awaitedInstance.executionHandle = some "H" ∧ awaitedContext.job = none ∧ (scripted thirdAnswer).Sound ∧
    (∃ w', runIn awaitedWorld (awaitingBuilder.awaitReady awaitedContext) = (.ok (), w') ∧
      w'.clock.sleeps = [1, 1] ∧ w'.store.getInstance "I" = .ok { awaitedInstance with status := .ready } ∧
      runIn awaitedWorld (Builder.stage .awaitReady awaitedContext
        (here.counted.wait awaitingBuilder.settings.build awaitedContext)) = (.ok (), { w' with ids := 3 })) ∧
    ∃ w', runIn awaitedWorld (Builder.stage .awaitReady awaitedContext
        ((scripted thirdAnswer).wait awaitingBuilder.settings.build awaitedContext)) = (.ok (), w') ∧
      w'.ids = 3 ∧ w'.clock.sleeps = [1, 1] ∧
      w'.store.getInstance "I" = .ok { awaitedInstance with status := .ready } := by
  have hsound : (scripted thirdAnswer).Sound := sound_scripted
  have hpoll : awaitingBuilder.settings.build.poll.value = 1 := by decide +kernel
  have htimeout : awaitingBuilder.settings.build.timeout.value = 300 := by decide +kernel
  have hpositive : 0 < awaitingBuilder.settings.build.poll.value := hpoll ▸ one_pos
  have hgiven : 0 < awaitingBuilder.settings.build.timeout.value := by rw [htimeout]; norm_num
  have hmost : 2 ≤ mostPauses awaitingBuilder.settings.build := by
    rw [mostPauses, hpoll, htimeout]
    exact Nat.le_floor (by norm_num)
  have hfound : awaitedWorld.store.getInstance awaitedContext.instanceId = .ok awaitedInstance := by decide
  obtain ⟨⟨k, outcome, w₁, hrun, hwaits, hcounted⟩, hothers⟩ :=
    awaitReady_ends (b := awaitingBuilder) hpositive hgiven hfound rfl rfl
  obtain ⟨k', outcome', w₂, hrun', hwaits', hcount'⟩ := hothers _ hsound
  obtain ⟨rfl, rfl⟩ := hwaits.toCourse.third hmost fun n hn => by
    rw [answer_here hpositive.le rfl]
    have htime : (2 : ℚ) ≤ 0 + n * awaitingBuilder.settings.build.poll.value ↔ ¬n < 2 := by
      rw [hpoll, mul_one, zero_add, not_lt]
      exact Nat.ofNat_le_cast
    refine congrArg Except.ok ((if_congr htime rfl rfl).trans ?_)
    split_ifs <;> rfl
  obtain ⟨rfl, rfl⟩ := hwaits'.toCourse.third hmost fun n _ => answer_scripted rfl n
  refine ⟨hpositive, hgiven, hfound, rfl, rfl, hsound, ⟨w₁, hrun, ?_, hwaits.status, hcounted⟩, w₂, hrun',
    hcount' _ counts_scripted, ?_, hwaits'.status⟩
  · rw [hwaits.sleeps, hpoll]
    rfl
  · rw [hwaits'.sleeps, hpoll]
    rfl

end Waiter
end HuntDraw
