import Mathlib.Data.Nat.Notation

/-!
# Timers that signal through a pipe

A `sync_io` object cannot run timer handlers itself: a worker thread waits on the timer and, when it
fires, writes a byte to a pipe whose reading end the user's event loop watches. Three things happen
to one timer, in this order: a wait on it is started, the wait ends and a byte is in the pipe, the
event loop reports the pipe readable.

`Timer.Ok` says that these are in step: as many event-loop waits are pending as there are timer waits
and unread bytes, which is one at most. All the operations keep it, so that rescheduling cancels at
most one wait (`expiresAfter_le_one`).

Source: `timer_ev_emitter.cpp` `Timer_event_emitter`; flow's `Timer`.
-/

namespace FlowIpc

/-- A `flow::util::Timer`, its signal pipe, and the event-loop waits on that pipe. -/
structure Timer where
  /-- Asynchronous waits on the timer that have neither ended nor been canceled. -/
  waiting : ℕ
  /-- Bytes in the signal pipe. -/
  signals : ℕ
  /-- Waits for the pipe to be readable, asked of the event loop. -/
  evWaits : ℕ
  deriving DecidableEq

namespace Timer

/-- A timer not yet used. -/
def inactive : Timer := ⟨0, 0, 0⟩

/-- `expires_after()`: cancels the waits on the timer, and tells how many.
Source: flow's `Timer` (boost.asio) -/
def expiresAfter (t : Timer) : ℕ × Timer :=
  (t.waiting, { t with waiting := 0 })

/-- `Timer_event_emitter::timer_async_wait()`
Source: `timer_ev_emitter.cpp` `timer_async_wait` -/
def asyncWait (t : Timer) : Timer :=
  { t with waiting := t.waiting + 1 }

/-- `m_ev_wait_func()` on the reading end of the signal pipe. -/
def evWait (t : Timer) : Timer :=
  { t with evWaits := t.evWaits + 1 }

/-- The statements by which a timer is scheduled anew, event-loop wait included. -/
def schedule (t : Timer) : Timer :=
  (t.evWait.expiresAfter).2.asyncWait

/-- `Timer_event_emitter::consume_timer_firing_signal()`
Source: `timer_ev_emitter.cpp` `consume_timer_firing_signal` -/
def consumeTimerFiringSignal (t : Timer) : Timer :=
  { t with signals := t.signals - 1 }

/-- The timer fires in the worker thread, if a wait is on. -/
def fire (t : Timer) : Option Timer :=
  if 0 < t.waiting then
    some { t with waiting := t.waiting - 1, signals := t.signals + 1 }
  else none

/-- The event loop finds the pipe readable, if it was asked to watch it and there is a byte. -/
def takeEvent (t : Timer) : Option Timer :=
  if 0 < t.evWaits ∧ 0 < t.signals then some { t with evWaits := t.evWaits - 1 } else none

/-- Every event-loop wait answers to one timer wait or one byte in the pipe, and there is one at
most. -/
def Ok (t : Timer) : Prop :=
  t.waiting + t.signals = t.evWaits ∧ t.evWaits ≤ 1

variable {t t' : Timer}

/-- A timer not in use is in order. -/
theorem ok_inactive : inactive.Ok := by
  simp [Ok, inactive]

/-- Rescheduling cancels at most one wait. -/
theorem expiresAfter_le_one (h : t.Ok) : t.expiresAfter.1 ≤ 1 := by
  obtain ⟨h₁, h₂⟩ := h
  unfold expiresAfter
  omega

/-- A timer on which nothing is pending may be scheduled. -/
theorem Ok.schedule (h : t.Ok) (h₀ : t.evWaits = 0) : t.schedule.Ok := by
  obtain ⟨h₁, _⟩ := h
  unfold Ok Timer.schedule evWait expiresAfter asyncWait
  simp only
  omega

/-- A wait that was canceled may be started again, and then nothing has changed. -/
theorem Ok.rewait_eq (h : t.Ok) (h₁ : t.expiresAfter.1 = 1) : t.expiresAfter.2.asyncWait = t := by
  obtain ⟨waiting, signals, evWaits⟩ := t
  obtain ⟨h₂, h₃⟩ := h
  simp only [expiresAfter] at h₁ h₂ h₃
  simp only [expiresAfter, asyncWait, h₁]

/-- Where nothing was canceled nothing has changed. -/
theorem expiresAfter_of_zero (h : t.expiresAfter.1 = 0) : t.expiresAfter.2 = t := by
  cases t
  simp only [expiresAfter] at h
  simp [expiresAfter, h]

/-- A timer in order is so after it has fired. -/
theorem Ok.fire (h : t.Ok) (hf : t.fire = some t') : t'.Ok := by
  obtain ⟨h₁, h₂⟩ := h
  unfold Timer.fire at hf
  split at hf
  · cases hf
    unfold Ok
    simp only
    omega
  · cases hf

/-- Firing is no event yet. -/
theorem fire_evWaits (hf : t.fire = some t') : t'.evWaits = t.evWaits := by
  unfold Timer.fire at hf
  split at hf
  · cases hf
    rfl
  · cases hf

/-- After the event, and the byte taken, nothing is pending. -/
theorem Ok.takeEvent (h : t.Ok) (he : t.takeEvent = some t') :
    t'.consumeTimerFiringSignal.Ok ∧ t'.consumeTimerFiringSignal.evWaits = 0 := by
  obtain ⟨h₁, h₂⟩ := h
  unfold Timer.takeEvent at he
  split at he
  · cases he
    unfold Ok consumeTimerFiringSignal
    simp only
    omega
  · cases he

end Timer

end FlowIpc
