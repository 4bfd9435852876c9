import FlowIpc.Found.Timer
import FlowIpc.Lib.Transition
import Mathlib.Data.List.Nodup

/-!
# A timer and its pipe, in two threads

`Timer` (`Found/Timer.lean`) is what one thread sees of a timer: it fires, or is rescheduled, at once. Here is
what happens: each statement of the user's thread is a step of its own (`Op`), and between any two of them the
worker thread may find that the timer is due, or run a handler, which writes the byte, or sees that the wait was
canceled. A wait goes from `armed` to `fired`, to the pipe, and is consumed; or it is canceled while it is armed,
and only then.

A handler that is due but has not run cannot be canceled any more (`expires_after()` then returns 0), so that its
wait still counts: `live` is the number of waits that have neither been canceled nor written their byte, and of the
bytes not read.

* `Owner` is an object with such a timer: what its functions do to it in one go, and the statements they do it by.
* `Owner.Lawful` says when an object uses it right: it schedules it when nothing is pending, reschedules it as
  often as it likes, and reads the byte when the pipe is readable.
* `Lawful.signals`: then, whatever the order, one wait or byte is pending at most, and exactly one while the
  feature is engaged; the byte is there when it is read; and no byte is that of a wait that was canceled.

Source: `timer_ev_emitter.cpp` `Timer_event_emitter`; flow's `Timer` (boost.asio).
-/

namespace FlowIpc.Timers

/-! ## The timer, between two threads -/

/-- A timer, its signal pipe, and the event-loop waits on that pipe. Waits are numbered. -/
structure SignalTimer where
  /-- Waits on the timer that can be canceled. -/
  armed : List ℕ
  /-- Waits that are over, whose handlers the worker thread is to run. -/
  fired : List ℕ
  /-- Waits that were canceled, whose handlers the worker thread is to run. -/
  aborted : List ℕ
  /-- The bytes in the pipe, by the waits whose handlers wrote them. -/
  pipe : List ℕ
  /-- Waits for the pipe to be readable, asked of the event loop. -/
  evWaits : ℕ
  /-- `n_canceled` -/
  nCanceled : ℕ
  /-- How many waits have been started. -/
  nextWait : ℕ
  /-- The waits that were canceled. -/
  canceled : List ℕ
  /-- The waits whose bytes were read. -/
  consumed : List ℕ
  /-- Some assertion has failed. -/
  assertFailed : Bool

/-- A statement about the timer. -/
inductive Op where
  /-- `m_*_ev_wait_func()` on the reading end of the pipe. -/
  | evWait
  /-- `n_canceled = m_*_timer.expires_after()` -/
  | expiresAfter
  /-- `m_timer_worker.timer_async_wait()` -/
  | asyncWait
  /-- The same `if (n_canceled == 1)`; else `assert(n_canceled == 0)`. -/
  | asyncWaitIfOne
  /-- The same unless `n_canceled == 0`, after `assert(n_canceled == 1)`. -/
  | asyncWaitUnlessNone
  /-- `m_timer_worker.consume_timer_firing_signal()` -/
  | consume
  deriving DecidableEq

namespace SignalTimer

/-- A timer not yet used. -/
def inactive : SignalTimer := ⟨[], [], [], [], 0, 0, 0, [], [], false⟩

/-- `timer_async_wait()` -/
def asyncWait (τ : SignalTimer) : SignalTimer :=
  { τ with armed := τ.armed ++ [τ.nextWait], nextWait := τ.nextWait + 1 }

/-- `assert(p)` -/
def assert (τ : SignalTimer) (p : Prop) [Decidable p] : SignalTimer :=
  { τ with assertFailed := τ.assertFailed || !decide p }

/-- An assertion that holds leaves no trace. -/
@[simp] theorem assert_of {τ : SignalTimer} {p : Prop} [Decidable p] (h : p) : τ.assert p = τ := by
  simp [assert, h]

/-- A statement is executed. There is no result if it blocks, or aborts: for the pipe is empty.
Source: `timer_ev_emitter.cpp`; `send_native_handle`, `rcv_not_idle`, `auto_ping`, `idle_timer_run` -/
def exec (τ : SignalTimer) : Op → Option SignalTimer
  | .evWait => some { τ with evWaits := τ.evWaits + 1 }
  | .expiresAfter =>
    some { τ with
      armed := []
      aborted := τ.aborted ++ τ.armed
      canceled := τ.canceled ++ τ.armed
      nCanceled := τ.armed.length }
  | .asyncWait => some τ.asyncWait
  | .asyncWaitIfOne => some (if τ.nCanceled = 1 then τ.asyncWait else τ.assert (τ.nCanceled = 0))
  | .asyncWaitUnlessNone =>
    some (if τ.nCanceled = 0 then τ else (τ.assert (τ.nCanceled = 1)).asyncWait)
  | .consume =>
    match τ.pipe with
    | [] => none
    | w :: pipe => some { τ with pipe := pipe, consumed := τ.consumed ++ [w] }

/-- The timer is due, for this wait: its handler will be run, without an error. -/
def expires (τ : SignalTimer) (w : ℕ) : SignalTimer :=
  { τ with armed := τ.armed.erase w, fired := τ.fired ++ [w] }

/-- The handler is run, without an error: it writes a byte.
Source: `timer_ev_emitter.cpp` `timer_async_wait`, the handler -/
def runFired (τ : SignalTimer) (w : ℕ) : SignalTimer :=
  { τ with fired := τ.fired.erase w, pipe := τ.pipe ++ [w] }

/-- The handler is run, with `operation_aborted`: it returns.
Source: `timer_ev_emitter.cpp` `timer_async_wait`, the handler -/
def runAborted (τ : SignalTimer) (w : ℕ) : SignalTimer :=
  { τ with aborted := τ.aborted.erase w }

/-- The event loop finds the pipe readable, and is not waiting for it any more. -/
def takeEvent (τ : SignalTimer) : SignalTimer :=
  { τ with evWaits := τ.evWaits - 1 }

/-- The waits and bytes that are pending. -/
def live (τ : SignalTimer) : ℕ := τ.armed.length + τ.fired.length + τ.pipe.length

/-- The timer as one thread sees it: what cannot be canceled any more has fired. -/
def toTimer (τ : SignalTimer) : Timer := ⟨τ.armed.length, τ.fired.length + τ.pipe.length, τ.evWaits⟩

end SignalTimer

/-! ## What happens to which wait -/

/-- No wait is in two places, and a handler that is told of a cancellation is that of a wait that was
canceled. -/
structure SignalTimer.Distinct (τ : SignalTimer) : Prop where
  nodup : (τ.armed ++ τ.fired ++ τ.pipe ++ τ.consumed ++ τ.canceled).Nodup
  started : ∀ w ∈ τ.armed ++ τ.fired ++ τ.pipe ++ τ.consumed ++ τ.canceled, w < τ.nextWait
  aborted : ∀ w ∈ τ.aborted, w ∈ τ.canceled

namespace SignalTimer

variable {τ τ' : SignalTimer} {w : ℕ} {p : Op}

/-- Where the waits are is what matters, and not in what order. -/
theorem Distinct.of_perm (h : τ.Distinct)
    (hperm : (τ'.armed ++ τ'.fired ++ τ'.pipe ++ τ'.consumed ++ τ'.canceled).Perm
      (τ.armed ++ τ.fired ++ τ.pipe ++ τ.consumed ++ τ.canceled))
    (hnext : τ'.nextWait = τ.nextWait) (haborted : ∀ w ∈ τ'.aborted, w ∈ τ'.canceled) : τ'.Distinct where
  nodup := hperm.nodup_iff.2 h.nodup
  started w hw := hnext ▸ h.started w (hperm.mem_iff.1 hw)
  aborted := haborted

/-- A timer not in use has no waits. -/
theorem distinct_inactive : inactive.Distinct :=
  ⟨List.nodup_nil, fun _ hw => absurd hw List.not_mem_nil, fun _ hw => absurd hw List.not_mem_nil⟩

/-- A new wait is a wait of its own. -/
theorem Distinct.asyncWait (h : τ.Distinct) : τ.asyncWait.Distinct := by
  have hperm : (τ.asyncWait.armed ++ τ.asyncWait.fired ++ τ.asyncWait.pipe ++ τ.asyncWait.consumed ++
      τ.asyncWait.canceled).Perm
      (τ.nextWait :: (τ.armed ++ τ.fired ++ τ.pipe ++ τ.consumed ++ τ.canceled)) := by
    simp only [SignalTimer.asyncWait, List.append_assoc, List.singleton_append]
    exact List.perm_middle
  refine ⟨hperm.nodup_iff.2 (List.nodup_cons.2 ⟨fun hmem => ?_, h.nodup⟩), fun w hw => ?_, h.aborted⟩
  · exact Nat.lt_irrefl _ (h.started _ hmem)
  · rcases List.mem_cons.1 (hperm.mem_iff.1 hw) with rfl | hw
    · exact Nat.lt_succ_self _
    · exact Nat.lt_succ_of_lt (h.started w hw)

/-- No statement puts a wait in two places. -/
theorem Distinct.exec (h : τ.Distinct) (hexec : τ.exec p = some τ') : τ'.Distinct := by
  cases p with
  | evWait => cases hexec; exact ⟨h.nodup, h.started, h.aborted⟩
  | expiresAfter =>
    cases hexec
    refine h.of_perm (List.perm_iff_count.2 fun v => ?_) rfl fun w hw => ?_
    · simp only [List.count_append, List.count_nil]
      omega
    · rcases List.mem_append.1 hw with hw | hw
      · exact List.mem_append_left _ (h.aborted w hw)
      · exact List.mem_append_right _ hw
  | asyncWait => cases hexec; exact h.asyncWait
  | asyncWaitIfOne =>
    simp only [SignalTimer.exec, Option.some.injEq] at hexec
    subst hexec
    by_cases hone : τ.nCanceled = 1
    · rw [if_pos hone]
      exact h.asyncWait
    · rw [if_neg hone]
      exact ⟨h.nodup, h.started, h.aborted⟩
  | asyncWaitUnlessNone =>
    simp only [SignalTimer.exec, Option.some.injEq] at hexec
    subst hexec
    by_cases hnone : τ.nCanceled = 0
    · rw [if_pos hnone]
      exact h
    · rw [if_neg hnone]
      exact Distinct.asyncWait ⟨h.nodup, h.started, h.aborted⟩
  | consume =>
    rcases hpipe : τ.pipe with _ | ⟨w, pipe⟩
    · simp [SignalTimer.exec, hpipe] at hexec
    · simp only [SignalTimer.exec, hpipe, Option.some.injEq] at hexec
      subst hexec
      refine h.of_perm (List.perm_iff_count.2 fun v => ?_) rfl h.aborted
      rw [hpipe]
      simp only [List.count_append, List.count_cons, List.count_nil]
      omega

/-- What is taken out is in the list as often as it is not left. -/
theorem count_erase_add {l : List ℕ} (hw : w ∈ l) (v : ℕ) :
    (l.erase w).count v + [w].count v = l.count v := by
  rw [← List.count_append]
  refine List.Perm.count_eq ?_ v
  exact List.perm_append_comm.trans (List.perm_cons_erase hw).symm

/-- When the timer is due its wait moves to those that have fired. -/
theorem Distinct.expires (h : τ.Distinct) (hw : w ∈ τ.armed) : (τ.expires w).Distinct := by
  refine h.of_perm (List.perm_iff_count.2 fun v => ?_) rfl h.aborted
  have hcount := count_erase_add hw v
  simp only [SignalTimer.expires, List.count_append]
  omega

/-- When a handler writes its byte the wait moves to the pipe. -/
theorem Distinct.runFired (h : τ.Distinct) (hw : w ∈ τ.fired) : (τ.runFired w).Distinct := by
  refine h.of_perm (List.perm_iff_count.2 fun v => ?_) rfl h.aborted
  have hcount := count_erase_add hw v
  simp only [SignalTimer.runFired, List.count_append]
  omega

/-- When a handler of a canceled wait returns no wait moves. -/
theorem Distinct.runAborted (h : τ.Distinct) : (τ.runAborted w).Distinct :=
  ⟨h.nodup, h.started, fun v hv => h.aborted v (List.mem_of_mem_erase hv)⟩

/-- When the pipe is found readable no wait moves. -/
theorem Distinct.takeEvent (h : τ.Distinct) : τ.takeEvent.Distinct := ⟨h.nodup, h.started, h.aborted⟩

end SignalTimer

/-! ## What the user's thread does to it -/

/-- A timer is scheduled anew. -/
def schedule : List Op := [.evWait, .expiresAfter, .asyncWait]

/-- The wait that was canceled is started again, by a statement that looks at `n_canceled`. -/
inductive Rearms : Op → Prop where
  | ifOne : Rearms .asyncWaitIfOne
  | unlessNone : Rearms .asyncWaitUnlessNone

/-- The timer is rescheduled, any number of times. -/
inductive Reschedules : List Op → Prop where
  | nil : Reschedules []
  | cons {p : Op} {ops : List Op} (rearms : Rearms p) (rest : Reschedules ops) :
      Reschedules (.expiresAfter :: p :: ops)

/-- An object with a timer. `timer` is what one thread sees of it. -/
structure Owner where
  /-- The states of the object. -/
  State : Type
  /-- It has been constructed. -/
  Init : State → Prop
  /-- The user calls a function, or an event is reported that is not the timer's: what the function does to
  the timer, and the object then. -/
  Calls : State → List Op → State → Prop
  /-- The pipe is reported to be readable. -/
  Handles : State → List Op → State → Prop
  /-- The timer fires. -/
  Fires : State → State → Prop
  /-- The timer. -/
  timer : State → Timer
  /-- The feature is engaged, and neither an error nor the end of sending has been processed. -/
  Engaged : State → Prop

/-- The object uses its timer right, as long as `Inv` holds of it, which it keeps. -/
structure Owner.Lawful (O : Owner) (Inv : O.State → Prop) : Prop where
  init : ∀ o, O.Init o → Inv o ∧ O.timer o = .inactive ∧ ¬ O.Engaged o
  calls : ∀ o ops o', Inv o → (O.timer o).Ok → O.Calls o ops o' → Inv o' ∧
    (Reschedules ops ∧ O.timer o' = O.timer o ∧ (O.Engaged o' → O.Engaged o) ∨
      ops = schedule ∧ (O.timer o).evWaits = 0 ∧ O.timer o' = (O.timer o).schedule)
  handles : ∀ o ops o', Inv o → (O.timer o).Ok → O.Handles o ops o' →
    ∃ t, (O.timer o).takeEvent = some t ∧ Inv o' ∧
      (ops = [.consume] ∧ O.timer o' = t.consumeTimerFiringSignal ∧ ¬ O.Engaged o' ∨
        ops = .consume :: schedule ∧ O.timer o' = t.consumeTimerFiringSignal.schedule)
  handles_total : ∀ o, Inv o → ((O.timer o).takeEvent).isSome → ∃ ops o', O.Handles o ops o'
  fires : ∀ o o', Inv o → O.Fires o o' →
    (O.timer o).fire = some (O.timer o') ∧ Inv o' ∧ (O.Engaged o' → O.Engaged o)
  fires_total : ∀ o, Inv o → ((O.timer o).fire).isSome → ∃ o', O.Fires o o'

section OfSteps

variable {S I K Ob : Type} (init : S → Prop) (step : S → I → K → Option (S × List Ob)) (fires readable : I)
  (ops : S → List Ob → S → I → List Op → Prop) (again : S → Prop) [DecidablePred again] (timer : S → Timer)
  (engaged : S → Prop)

/-- An object given by its steps: that its timer fires, and that the pipe is readable, are the steps on two of
its inputs. After the byte was read the timer is scheduled again, if that is to be done. -/
def Owner.ofSteps : Owner where
  State := S
  Init := init
  Calls s l s' := ∃ i k obs, i ≠ fires ∧ i ≠ readable ∧ step s i k = some (s', obs) ∧ ops s obs s' i l
  Handles s l s' := ∃ k obs, step s readable k = some (s', obs) ∧
    l = .consume :: if again s' then schedule else []
  Fires s s' := ∃ k obs, step s fires k = some (s', obs)
  timer := timer
  Engaged := engaged

variable {init step fires readable ops again timer engaged}

/-- The rules, for an object given by its steps. -/
theorem Owner.lawful_ofSteps [Nonempty K] {Inv : S → Prop}
    (hinit : ∀ s, init s → Inv s ∧ timer s = .inactive ∧ ¬ engaged s)
    (hcalls : ∀ s i k s' obs l, Inv s → i ≠ fires → i ≠ readable → step s i k = some (s', obs) →
      ops s obs s' i l → Inv s' ∧
        (Reschedules l ∧ timer s' = timer s ∧ (engaged s' → engaged s) ∨
          l = schedule ∧ (timer s).evWaits = 0 ∧ timer s' = (timer s).schedule))
    (hreadable : ∀ s k s' obs, Inv s → step s readable k = some (s', obs) → Inv s' ∧
      (engaged s' → again s') ∧ ∃ t, (timer s).takeEvent = some t ∧
        (timer s' = t.consumeTimerFiringSignal ∧ ¬ again s' ∨
          timer s' = t.consumeTimerFiringSignal.schedule ∧ again s'))
    (hreads : ∀ s k, ∃ f, step s readable k = (timer s).takeEvent.map f)
    (hfires : ∀ s k, ∃ f, step s fires k = (timer s).fire.map f ∧ ∀ t, Inv s → (timer s).fire = some t →
      Inv (f t).1 ∧ timer (f t).1 = t ∧ (engaged (f t).1 → engaged s)) :
    (Owner.ofSteps init step fires readable ops again timer engaged).Lawful Inv where
  init := hinit
  calls s l s' hs _ hcall := by
    obtain ⟨i, k, obs, hne, hne', hstep, hops⟩ := hcall
    exact hcalls _ _ _ _ _ _ hs hne hne' hstep hops
  handles s l s' hs _ hhandle := by
    obtain ⟨k, obs, hstep, rfl⟩ := hhandle
    obtain ⟨hs', hagain, t, htake, ⟨htimer, hnot⟩ | ⟨htimer, hdo⟩⟩ := hreadable _ _ _ _ hs hstep
    · refine ⟨t, htake, hs', .inl ⟨?_, htimer, fun hon => hnot (hagain hon)⟩⟩
      rw [if_neg hnot]
    · refine ⟨t, htake, hs', .inr ⟨?_, htimer⟩⟩
      rw [if_pos hdo]
  handles_total s _ htake := by
    obtain ⟨k⟩ := ‹Nonempty K›
    obtain ⟨f, hstep⟩ := hreads s k
    obtain ⟨t, ht⟩ := Option.isSome_iff_exists.1 htake
    exact ⟨_, (f t).1, k, (f t).2, hstep.trans (congrArg (Option.map f) ht), rfl⟩
  fires s s' hs hfire := by
    obtain ⟨k, obs, hstep⟩ := hfire
    obtain ⟨f, hmap, hspec⟩ := hfires s k
    rw [hmap] at hstep
    obtain ⟨t, ht, heq⟩ := Option.map_eq_some_iff.1 hstep
    obtain ⟨hs', htimer, hon⟩ := hspec t hs ht
    rw [heq] at hs' htimer hon
    exact ⟨ht.trans (congrArg some htimer.symm), hs', hon⟩
  fires_total s _ hsome := by
    obtain ⟨k⟩ := ‹Nonempty K›
    obtain ⟨f, hmap, -⟩ := hfires s k
    obtain ⟨t, ht⟩ := Option.isSome_iff_exists.1 hsome
    exact ⟨(f t).1, k, (f t).2, hmap.trans (congrArg (Option.map f) ht)⟩

end OfSteps

/-! ## The two threads -/

/-- The object, its timer, and the statements about it that the user's thread is still to execute. -/
structure Sys (O : Owner) where
  /-- The object, once the function that is being executed returns. -/
  owner : O.State
  /-- The timer. -/
  signal : SignalTimer
  /-- What is still to be done to it. -/
  ops : List Op

/-- What happens next. -/
inductive Event where
  /-- The user calls a function, or an event is reported that is not the timer's. -/
  | call
  /-- The pipe is reported to be readable. -/
  | dispatch
  /-- A statement is executed. -/
  | exec
  /-- The timer is due. -/
  | expires (w : ℕ)
  /-- The handler of a wait that is over is run. -/
  | runFired (w : ℕ)
  /-- The handler of a wait that was canceled is run. -/
  | runAborted (w : ℕ)
  deriving DecidableEq

namespace Sys

variable {O : Owner}

/-- A step of the user's thread, or of the worker thread. -/
inductive Step : Sys O → Event → Sys O → Prop where
  | call {o o' : O.State} {τ : SignalTimer} {ops : List Op} (calls : O.Calls o ops o') :
      Step ⟨o, τ, []⟩ .call ⟨o', τ, ops⟩
  | dispatch {o o' : O.State} {τ : SignalTimer} {ops : List Op} (waits : 0 < τ.evWaits)
      (readable : τ.pipe ≠ []) (handles : O.Handles o ops o') :
      Step ⟨o, τ, []⟩ .dispatch ⟨o', τ.takeEvent, ops⟩
  | exec {o : O.State} {τ τ' : SignalTimer} {p : Op} {ops : List Op} (exec : τ.exec p = some τ') :
      Step ⟨o, τ, p :: ops⟩ .exec ⟨o, τ', ops⟩
  | expires {o o' : O.State} {τ : SignalTimer} {ops : List Op} {w : ℕ} (armed : w ∈ τ.armed)
      (fires : O.Fires o o') : Step ⟨o, τ, ops⟩ (.expires w) ⟨o', τ.expires w, ops⟩
  | runFired {o : O.State} {τ : SignalTimer} {ops : List Op} {w : ℕ} (fired : w ∈ τ.fired) :
      Step ⟨o, τ, ops⟩ (.runFired w) ⟨o, τ.runFired w, ops⟩
  | runAborted {o : O.State} {τ : SignalTimer} {ops : List Op} {w : ℕ} (aborted : w ∈ τ.aborted) :
      Step ⟨o, τ, ops⟩ (.runAborted w) ⟨o, τ.runAborted w, ops⟩

/-- The object has been constructed, and its timer is not in use. -/
def Starts (x : Sys O) : Prop := O.Init x.owner ∧ x.signal = .inactive ∧ x.ops = []

/-- **The signals of a timer are neither too many nor too few.** -/
structure Signals (x : Sys O) : Prop where
  /-- One wait or byte is pending at most. -/
  at_most_one : x.signal.live ≤ 1
  /-- While the feature is engaged there is one, whenever no function is being executed. -/
  one : x.ops = [] → O.Engaged x.owner → x.signal.live = 1
  /-- What is still to be done can be done: nothing blocks, or aborts. -/
  executes : ∀ p ops, x.ops = p :: ops → (x.signal.exec p).isSome
  /-- Where a byte is to be read, there is exactly one. -/
  consumes : ∀ ops, x.ops = .consume :: ops → x.signal.pipe.length = 1
  /-- Whenever there is a byte it is being waited for, and will be read. -/
  dispatches : x.ops = [] → x.signal.pipe ≠ [] → ∃ x', Step x .dispatch x'
  /-- Nothing keeps a timer from being due. -/
  fires : ∀ w ∈ x.signal.armed, ∃ x', Step x (.expires w) x'
  /-- What was canceled has not written a byte, nor will it. -/
  genuine : ∀ w ∈ x.signal.canceled, w ∉ x.signal.fired ∧ w ∉ x.signal.pipe ∧ w ∉ x.signal.consumed
  /-- Each wait writes one byte at most. -/
  nodup : (x.signal.fired ++ x.signal.pipe ++ x.signal.consumed).Nodup
  /-- No assertion has failed. -/
  noFailure : x.signal.assertFailed = false

end Sys

/-! ## Where the user's thread is -/

/-- Where the user's thread is: `t` is what the object takes its timer to be once the function that is being
executed returns, and `ops` is what is still to be done for that. -/
inductive Phase (t : Timer) (τ : SignalTimer) : List Op → Prop where
  /-- Nothing, but to reschedule it. -/
  | rests {ops : List Op} (same : τ.toTimer = t) (rest : Reschedules ops) : Phase t τ ops
  /-- A wait is to be started. -/
  | starts {p : Op} {ops : List Op} (none : τ.toTimer = ⟨0, 0, 1⟩) (one : t = ⟨1, 0, 1⟩)
      (starts : p = .asyncWait ∨ Rearms p ∧ τ.nCanceled = 1) (rest : Reschedules ops) : Phase t τ (p :: ops)
  /-- It was too late to cancel the wait. -/
  | missed {p : Op} {ops : List Op} (same : τ.toTimer = t) (late : t.waiting = 0) (rearms : Rearms p)
      (none : τ.nCanceled = 0) (rest : Reschedules ops) : Phase t τ (p :: ops)
  /-- The timer is to be scheduled. -/
  | schedules (none : τ.toTimer = ⟨0, 0, 0⟩) (one : t = ⟨1, 0, 1⟩) : Phase t τ schedule
  /-- It is to be scheduled, and the pipe is waited for already. -/
  | waits (none : τ.toTimer = ⟨0, 0, 1⟩) (one : t = ⟨1, 0, 1⟩) : Phase t τ [.expiresAfter, .asyncWait]
  /-- The byte is to be read. -/
  | reads (byte : τ.toTimer = ⟨0, 1, 0⟩) (written : τ.fired = []) (none : t = ⟨0, 0, 0⟩) :
      Phase t τ [.consume]
  /-- The byte is to be read, and the timer scheduled. -/
  | readsFirst (byte : τ.toTimer = ⟨0, 1, 0⟩) (written : τ.fired = []) (one : t = ⟨1, 0, 1⟩) :
      Phase t τ (.consume :: schedule)

namespace Phase

variable {t t' : Timer} {τ τ' : SignalTimer} {p : Op} {ops : List Op} {w : ℕ}

/-- On a timer in order at most one thing is pending, so that it is waiting, or has fired, or neither. -/
theorem ok_cases (h : t.Ok) : t = ⟨0, 0, 0⟩ ∨ t = ⟨1, 0, 1⟩ ∨ t = ⟨0, 1, 1⟩ := by
  obtain ⟨waiting, signals, evWaits⟩ := t
  obtain ⟨h₁, h₂⟩ := h
  simp only [Timer.mk.injEq] at h₁ h₂ ⊢
  omega

/-- What one thread sees of the timer are three numbers. -/
theorem toTimer_eq {a b c : ℕ} : τ.toTimer = ⟨a, b, c⟩ ↔
    τ.armed.length = a ∧ τ.fired.length + τ.pipe.length = b ∧ τ.evWaits = c := by
  simp [SignalTimer.toTimer]

/-- What is pending is what can be canceled and what has fired. -/
theorem live_eq : τ.live = τ.toTimer.waiting + τ.toTimer.signals :=
  Nat.add_assoc _ _ _

/-- Where the waits are matters only as far as one thread sees it. -/
theorem congr (h : Phase t τ ops) (heq : τ'.toTimer = τ.toTimer) (hcanceled : τ'.nCanceled = τ.nCanceled)
    (hfired : τ.fired = [] → τ'.fired = []) : Phase t τ' ops := by
  cases h with
  | rests same rest => exact .rests (heq.trans same) rest
  | starts none one starts rest => exact .starts (heq.trans none) one (hcanceled ▸ starts) rest
  | missed same late rearms none rest =>
    exact .missed (heq.trans same) late rearms (hcanceled.trans none) rest
  | schedules none one => exact .schedules (heq.trans none) one
  | waits none one => exact .waits (heq.trans none) one
  | reads byte written none => exact .reads (heq.trans byte) (hfired written) none
  | readsFirst byte written one => exact .readsFirst (heq.trans byte) (hfired written) one

/-- Wherever the user's thread is, one wait or byte is pending at most. -/
theorem live_le (h : Phase t τ ops) (ht : t.Ok) : τ.live ≤ 1 := by
  rw [live_eq]
  cases h with
  | rests same rest =>
    rw [same]
    rcases ok_cases ht with rfl | rfl | rfl <;> decide
  | starts none one starts rest => rw [none]; exact Nat.zero_le 1
  | missed same late rearms none rest =>
    rw [same]
    rcases ok_cases ht with rfl | rfl | rfl <;> decide
  | schedules none one => rw [none]; exact Nat.zero_le 1
  | waits none one => rw [none]; exact Nat.zero_le 1
  | reads byte written none => rw [byte]; exact Nat.le_refl 1
  | readsFirst byte written one => rw [byte]; exact Nat.le_refl 1

/-- A wait is started, and now it is as the object takes it to be. -/
theorem asyncWait_toTimer (h : τ.toTimer = ⟨0, 0, 1⟩) : τ.asyncWait.toTimer = ⟨1, 0, 1⟩ := by
  rw [toTimer_eq] at h ⊢
  simp only [SignalTimer.asyncWait, List.length_append, List.length_singleton]
  omega

/-- A byte that is not on its way any more is in the pipe, alone. -/
theorem exists_pipe (byte : τ.toTimer = ⟨0, 1, 0⟩) (written : τ.fired = []) : ∃ w, τ.pipe = [w] := by
  rw [toTimer_eq, written, List.length_nil, Nat.zero_add] at byte
  exact List.length_eq_one_iff.1 byte.2.1

/-- Where a byte is to be read, it is there, alone. -/
theorem length_pipe (h : Phase t τ (.consume :: ops)) : τ.pipe.length = 1 := by
  generalize hops : Op.consume :: ops = all at h
  cases h with
  | rests same rest =>
    cases rest with
    | nil => cases hops
    | cons rearms rest => cases hops
  | starts none one starts rest =>
    cases hops
    rcases starts with hstarts | ⟨rearms, -⟩
    · cases hstarts
    · cases rearms
  | missed same late rearms none rest =>
    cases hops
    cases rearms
  | schedules none one => cases hops
  | waits none one => cases hops
  | reads byte written none =>
    obtain ⟨w, hpipe⟩ := exists_pipe byte written
    rw [hpipe]
    rfl
  | readsFirst byte written one =>
    obtain ⟨w, hpipe⟩ := exists_pipe byte written
    rw [hpipe]
    rfl

/-- The statement is executed. The cases are those of where the thread is. -/
theorem exec (h : Phase t τ (p :: ops)) (ht : t.Ok) :
    ∃ τ', τ.exec p = some τ' ∧ Phase t τ' ops ∧ τ'.assertFailed = τ.assertFailed := by
  generalize hops : p :: ops = all at h
  cases h with
  | rests same rest =>
    cases rest with
    | nil => cases hops
    | cons rearms rest =>
      cases hops
      refine ⟨_, rfl, ?_, rfl⟩
      rcases ok_cases ht with rfl | rfl | rfl
      · rw [toTimer_eq] at same
        refine .missed ?_ rfl rearms same.1 rest
        rw [toTimer_eq]
        exact ⟨rfl, same.2⟩
      · rw [toTimer_eq] at same
        refine .starts ?_ rfl (.inr ⟨rearms, same.1⟩) rest
        rw [toTimer_eq]
        exact ⟨rfl, same.2⟩
      · rw [toTimer_eq] at same
        refine .missed ?_ rfl rearms same.1 rest
        rw [toTimer_eq]
        exact ⟨rfl, same.2⟩
  | starts none one starts rest =>
    cases hops
    have hphase : Phase t τ.asyncWait ops := .rests ((asyncWait_toTimer none).trans one.symm) rest
    rcases starts with rfl | ⟨rearms, hone⟩
    · exact ⟨_, rfl, hphase, rfl⟩
    · have hne : τ.nCanceled ≠ 0 := by omega
      cases rearms with
      | ifOne =>
        refine ⟨τ.asyncWait, ?_, hphase, rfl⟩
        rw [SignalTimer.exec, if_pos hone]
      | unlessNone =>
        refine ⟨τ.asyncWait, ?_, hphase, rfl⟩
        rw [SignalTimer.exec, if_neg hne, SignalTimer.assert_of hone]
  | missed same late rearms none rest =>
    cases hops
    have hphase : Phase t τ ops := .rests same rest
    cases rearms with
    | ifOne =>
      refine ⟨τ, ?_, hphase, rfl⟩
      rw [SignalTimer.exec, if_neg (by omega), SignalTimer.assert_of none]
    | unlessNone =>
      refine ⟨τ, ?_, hphase, rfl⟩
      rw [SignalTimer.exec, if_pos none]
  | schedules none one =>
    cases hops
    refine ⟨_, rfl, .waits ?_ one, rfl⟩
    rw [toTimer_eq] at none ⊢
    exact ⟨none.1, none.2.1, congrArg (· + 1) none.2.2⟩
  | waits none one =>
    cases hops
    refine ⟨_, rfl, .starts ?_ one (.inl rfl) .nil, rfl⟩
    rw [toTimer_eq] at none ⊢
    exact ⟨rfl, none.2⟩
  | reads byte written none =>
    cases hops
    obtain ⟨w, hpipe⟩ := exists_pipe byte written
    refine ⟨{ τ with pipe := [], consumed := τ.consumed ++ [w] }, ?_, .rests ?_ .nil, rfl⟩
    · simp only [SignalTimer.exec, hpipe]
    · rw [toTimer_eq] at byte
      rw [none, toTimer_eq, written]
      exact ⟨byte.1, rfl, byte.2.2⟩
  | readsFirst byte written one =>
    cases hops
    obtain ⟨w, hpipe⟩ := exists_pipe byte written
    refine ⟨{ τ with pipe := [], consumed := τ.consumed ++ [w] }, ?_, .schedules ?_ one, rfl⟩
    · simp only [SignalTimer.exec, hpipe]
    · rw [toTimer_eq] at byte
      rw [toTimer_eq, written]
      exact ⟨byte.1, rfl, byte.2.2⟩

/-- The timer is due only where the object takes it to be waiting. -/
theorem same_of_armed (h : Phase t τ ops) (hw : w ∈ τ.armed) : τ.toTimer = t ∧ Reschedules ops := by
  have hpos := List.length_pos_of_mem hw
  cases h with
  | rests same rest => exact ⟨same, rest⟩
  | starts none one starts rest => rw [toTimer_eq] at none; omega
  | missed same late rearms none rest =>
    rw [← same] at late
    exact absurd late (Nat.ne_of_gt hpos)
  | schedules none one => rw [toTimer_eq] at none; omega
  | waits none one => rw [toTimer_eq] at none; omega
  | reads byte written none => rw [toTimer_eq] at byte; omega
  | readsFirst byte written one => rw [toTimer_eq] at byte; omega

/-- Where a wait can be canceled the object, too, has a timer that can fire. -/
theorem fire_isSome (h : Phase t τ ops) (hw : w ∈ τ.armed) : t.fire.isSome := by
  have hpos : 0 < τ.toTimer.waiting := List.length_pos_of_mem hw
  rw [← (h.same_of_armed hw).1, Timer.fire, if_pos hpos]
  rfl

/-- When the timer is due the user's thread is where it was. -/
theorem expires (h : Phase t τ ops) (hw : w ∈ τ.armed) (hfire : t.fire = some t') :
    Phase t' (τ.expires w) ops := by
  obtain ⟨rfl, hrest⟩ := h.same_of_armed hw
  have hpos : 0 < τ.toTimer.waiting := List.length_pos_of_mem hw
  rw [Timer.fire, if_pos hpos] at hfire
  cases hfire
  refine .rests ?_ hrest
  rw [toTimer_eq]
  refine ⟨List.length_erase_of_mem hw, ?_, rfl⟩
  simp only [SignalTimer.expires, SignalTimer.toTimer, List.length_append, List.length_singleton]
  omega

/-- When a handler writes its byte the user's thread is where it was. -/
theorem runFired (h : Phase t τ ops) (hw : w ∈ τ.fired) : Phase t (τ.runFired w) ops := by
  refine h.congr ?_ rfl fun hnil => absurd hw (by rw [hnil]; exact List.not_mem_nil)
  have hpos := List.length_pos_of_mem hw
  rw [toTimer_eq]
  refine ⟨rfl, ?_, rfl⟩
  simp only [SignalTimer.runFired, SignalTimer.toTimer, List.length_append, List.length_singleton,
    List.length_erase_of_mem hw]
  omega

end Phase

/-! ## The whole -/

namespace Sys

variable {O : Owner} {Inv : O.State → Prop} {x x' : Sys O} {e : Event} {es : List Event}

/-- What holds whatever the two threads do. -/
structure Good (Inv : O.State → Prop) (x : Sys O) : Prop where
  inv : Inv x.owner
  ok : (O.timer x.owner).Ok
  engaged : O.Engaged x.owner → (O.timer x.owner).evWaits = 1
  phase : Phase (O.timer x.owner) x.signal x.ops
  distinct : x.signal.Distinct
  noFailure : x.signal.assertFailed = false

/-- An object just constructed is in a good state. -/
theorem Starts.good (hO : O.Lawful Inv) (h : x.Starts) : x.Good Inv := by
  obtain ⟨hinit, hsignal, hops⟩ := h
  obtain ⟨hinv, htimer, hoff⟩ := hO.init _ hinit
  refine ⟨hinv, ?_, fun hon => absurd hon hoff, ?_, ?_, ?_⟩
  · rw [htimer]
    exact Timer.ok_inactive
  · rw [hsignal, hops, htimer]
    exact .rests rfl .nil
  · rw [hsignal]
    exact SignalTimer.distinct_inactive
  · rw [hsignal]
    rfl

/-- Scheduling a timer on which nothing is pending leaves one wait. -/
theorem schedule_eq {t : Timer} (h : t.Ok) (hzero : t.evWaits = 0) :
    t = ⟨0, 0, 0⟩ ∧ t.schedule = ⟨1, 0, 1⟩ := by
  rcases Phase.ok_cases h with rfl | rfl | rfl
  · exact ⟨rfl, rfl⟩
  · cases hzero
  · cases hzero

/-- What may be done, where nothing is. -/
theorem Good.resting (h : x.Good Inv) (hops : x.ops = []) : x.signal.toTimer = O.timer x.owner := by
  have hphase := h.phase
  rw [hops] at hphase
  cases hphase with
  | rests same rest => exact same

/-- When its event comes the timer has fired, and nothing is left once the byte has been read. -/
theorem takeEvent_eq {t t' : Timer} (h : t.Ok) (htake : t.takeEvent = some t') :
    t = ⟨0, 1, 1⟩ ∧ t'.consumeTimerFiringSignal = ⟨0, 0, 0⟩ := by
  rcases Phase.ok_cases h with rfl | rfl | rfl
  · cases htake
  · cases htake
  · cases htake
    exact ⟨rfl, rfl⟩

/-- Each step keeps it. -/
theorem Good.step (hO : O.Lawful Inv) (h : x.Good Inv) (hstep : Step x e x') : x'.Good Inv := by
  cases hstep with
  | call calls =>
    have hsame := h.resting rfl
    obtain ⟨hinv, ⟨hresched, htimer, hon⟩ | ⟨rfl, hzero, htimer⟩⟩ := hO.calls _ _ _ h.inv h.ok calls
    · refine ⟨hinv, ?_, fun hengaged => ?_, ?_, h.distinct, h.noFailure⟩
      · rw [htimer]
        exact h.ok
      · rw [htimer]
        exact h.engaged (hon hengaged)
      · rw [htimer]
        exact .rests hsame hresched
    · obtain ⟨hnone, hone⟩ := schedule_eq h.ok hzero
      have htimer := htimer.trans hone
      refine ⟨hinv, ?_, fun _ => ?_, ?_, h.distinct, h.noFailure⟩
      · rw [htimer]
        exact ⟨rfl, Nat.le_refl 1⟩
      · rw [htimer]
      · exact .schedules (hsame.trans hnone) htimer
  | @dispatch o o' τ ops waits readable handles =>
    have hsame := h.resting rfl
    obtain ⟨t, htake, hinv, hcases⟩ := hO.handles _ _ _ h.inv h.ok handles
    obtain ⟨hbyte, hnone⟩ := takeEvent_eq h.ok htake
    have hsignal := Phase.toTimer_eq.1 (hsame.trans hbyte)
    have hpos := List.length_pos_of_ne_nil readable
    have hwritten : τ.takeEvent.fired = [] := List.eq_nil_of_length_eq_zero (by
      simp only [SignalTimer.takeEvent] at hsignal ⊢
      omega)
    have hread : τ.takeEvent.toTimer = ⟨0, 1, 0⟩ := by
      rw [Phase.toTimer_eq]
      exact ⟨hsignal.1, hsignal.2.1, congrArg (· - 1) hsignal.2.2⟩
    rcases hcases with ⟨rfl, htimer, hoff⟩ | ⟨rfl, htimer⟩
    · have htimer := htimer.trans hnone
      refine ⟨hinv, ?_, fun hon => absurd hon hoff, .reads hread hwritten htimer, h.distinct.takeEvent,
        h.noFailure⟩
      rw [htimer]
      exact ⟨rfl, Nat.zero_le 1⟩
    · have htimer : O.timer o' = ⟨1, 0, 1⟩ := by rw [htimer, hnone]; rfl
      refine ⟨hinv, ?_, fun _ => ?_, .readsFirst hread hwritten htimer, h.distinct.takeEvent, h.noFailure⟩
      · rw [htimer]
        exact ⟨rfl, Nat.le_refl 1⟩
      · rw [htimer]
  | exec exec =>
    obtain ⟨τ', hexec, hphase, hassert⟩ := h.phase.exec h.ok
    obtain rfl : τ' = _ := Option.some.inj (hexec.symm.trans exec)
    exact ⟨h.inv, h.ok, h.engaged, hphase, h.distinct.exec exec, hassert.trans h.noFailure⟩
  | expires armed fires =>
    obtain ⟨hfire, hinv, hon⟩ := hO.fires _ _ h.inv fires
    refine ⟨hinv, h.ok.fire hfire, fun hengaged => ?_, h.phase.expires armed hfire, h.distinct.expires armed,
      h.noFailure⟩
    exact (Timer.fire_evWaits hfire).trans (h.engaged (hon hengaged))
  | runFired fired =>
    exact ⟨h.inv, h.ok, h.engaged, h.phase.runFired fired, h.distinct.runFired fired, h.noFailure⟩
  | runAborted aborted =>
    exact ⟨h.inv, h.ok, h.engaged, h.phase.congr rfl rfl id, h.distinct.runAborted, h.noFailure⟩

/-- A byte that no function is about to read is being waited for. -/
theorem Good.takeEvent_isSome (h : x.Good Inv) (hops : x.ops = []) (hreadable : x.signal.pipe ≠ []) :
    0 < x.signal.evWaits ∧ ((O.timer x.owner).takeEvent).isSome := by
  have hpos := List.length_pos_of_ne_nil hreadable
  have hsame := h.resting hops
  rcases Phase.ok_cases h.ok with htimer | htimer | htimer
  · have hnone := Phase.toTimer_eq.1 (hsame.trans htimer)
    omega
  · have hnone := Phase.toTimer_eq.1 (hsame.trans htimer)
    omega
  · have hone := Phase.toTimer_eq.1 (hsame.trans htimer)
    rw [htimer]
    exact ⟨by omega, rfl⟩

/-- What is there to be seen of it. -/
theorem Good.signals (hO : O.Lawful Inv) (h : x.Good Inv) : x.Signals where
  at_most_one := h.phase.live_le h.ok
  one hops hon := by
    have hlive := Phase.live_eq (τ := x.signal)
    rw [h.resting hops] at hlive
    have hev := h.engaged hon
    obtain ⟨hsum, -⟩ := h.ok
    omega
  executes p ops hops := by
    have hphase := h.phase
    rw [hops] at hphase
    obtain ⟨τ', hexec, -⟩ := hphase.exec h.ok
    rw [hexec]
    rfl
  consumes ops hops := by
    have hphase := h.phase
    rw [hops] at hphase
    exact hphase.length_pipe
  dispatches hops hreadable := by
    obtain ⟨hwaits, htake⟩ := h.takeEvent_isSome hops hreadable
    obtain ⟨ops', o', hhandles⟩ := hO.handles_total _ h.inv htake
    obtain ⟨o, τ, ops⟩ := x
    cases hops
    exact ⟨_, .dispatch hwaits hreadable hhandles⟩
  fires w hw := by
    obtain ⟨o', hfires⟩ := hO.fires_total _ h.inv (h.phase.fire_isSome hw)
    exact ⟨_, .expires hw hfires⟩
  genuine w hw := by
    have hdisjoint := List.disjoint_of_nodup_append h.distinct.nodup
    have hmem : ∀ l : List ℕ, l ⊆ x.signal.armed ++ x.signal.fired ++ x.signal.pipe ++ x.signal.consumed →
        w ∉ l := fun l hl hw' => hdisjoint (hl hw') hw
    refine ⟨hmem _ fun v hv => ?_, hmem _ fun v hv => ?_, hmem _ fun v hv => ?_⟩
    · exact List.mem_append_left _ (List.mem_append_left _ (List.mem_append_right _ hv))
    · exact List.mem_append_left _ (List.mem_append_right _ hv)
    · exact List.mem_append_right _ hv
  nodup := by
    refine h.distinct.nodup.sublist ?_
    simp only [List.append_assoc]
    refine List.Sublist.trans ?_ (List.sublist_append_right _ _)
    exact (List.Sublist.refl _).append ((List.Sublist.refl _).append (List.sublist_append_left _ _))
  noFailure := h.noFailure

/-- **The signals of a timer**, whatever its owner and the worker thread do, in any order. -/
theorem Run.signals (hO : O.Lawful Inv) (hstart : x.Starts) (hrun : Lts.Run Step x es x') : x'.Signals := by
  have hgood := hrun.invariant (P := Good Inv) (fun _ _ _ hx hstep => hx.step hO hstep) (hstart.good hO)
  exact hgood.signals hO

end Sys

end FlowIpc.Timers
