import FlowIpc.MqHandle.Interrupt
import Mathlib.Algebra.Group.Int.Defs
import Mathlib.Algebra.Group.Nat.Defs

/-!
# The deadline of a timed transfer

`timed_send()` and `timed_receive()` try to transfer; where that would block they wait, for as long as
there is time left; and they try again, for the place or the message may be gone by then. They are the same
loop in both backends (`timedTransmit`). What they share is how the time left is kept: after each wait the
clock is read, and what has passed since the call began is taken off the time left. But that is *all* that
has passed since then, and not what has passed since it was last taken off: `now` is read once. So from the
third wait on the time left is too short.

What a backend makes of the time left is its own (`Backend`): `epoll_wait()` is told it in milliseconds, an
`int`, where what is negative is forever; the condition variable is told when, by the clock.

`timed_iff` says where the calls keep to their deadline.

* No time has passed by any of the waits but the last, of those after which the call has waited again.
* Whenever the call waits again, the time is not up. It may be, if the wait was over in time but the thread
  was not: then the time left is negative, which for `epoll_wait()` is forever.
* What is left can be told: as milliseconds in an `int`, or as a point of time.

Source: `posix_mq_handle.cpp`, `bipc_mq_handle.cpp` `timed_send`, `timed_receive`, `wait_impl`.
-/

namespace FlowIpc.MqHandle

/-! ## Backends -/

/-- What a backend's `timed_wait_*()` makes of a timeout. Times are in nanoseconds. -/
structure Backend where
  /-- A wait with this timeout, begun at `starts`, may time out at `ends`. -/
  MayTimeOut (timeout starts ends : Int) : Prop
  /-- What the system is told is what is meant. -/
  Faithful (timeout starts : Int) : Prop
  /-- What is meant is something that the system can be told. -/
  Fits (timeout starts : Int) : Prop
  /-- By how much a wait may be too short. -/
  slack : Int
  faithful_iff : ∀ timeout starts, 0 ≤ timeout → (Faithful timeout starts ↔ Fits timeout starts)
  on_time : ∀ timeout starts ends, Faithful timeout starts → MayTimeOut timeout starts ends →
    starts + timeout ≤ ends + slack

/-- `round<milliseconds>()`: to the nearest, or to the even one of two.
Source: `boost::chrono::round()` -/
def roundMs (ns : Int) : Int :=
  let ms := ns / 1000000
  let rest := ns % 1000000
  if rest < 500000 then ms
  else if 500000 < rest then ms + 1
  else if ms % 2 = 0 then ms
  else ms + 1

/-- Rounding to milliseconds takes off half of one at most. -/
theorem le_roundMs (ns : Int) : ns ≤ roundMs ns * 1000000 + 500000 := by
  unfold roundMs
  dsimp only
  split_ifs <;> omega

/-- What is not negative stays so. -/
theorem roundMs_nonneg {ns : Int} (h : 0 ≤ ns) : 0 ≤ roundMs ns := by
  have := le_roundMs ns
  unfold roundMs
  dsimp only
  split_ifs <;> omega

/-- `Fine_duration::max()` -/
def fineDurationMax : Int := 2 ^ 63 - 1

/-- What `epoll_wait()` is told: milliseconds; if negative, forever.
Source: `posix_mq_handle.cpp` `wait_impl` -/
def epollTimeoutMs (timeout : Int) : Int :=
  if timeout = fineDurationMax then -1 else (roundMs timeout).bmod (2 ^ 32)

/-- The rounded timeout is passed on as it is just if it is an `int`. -/
theorem epollTimeoutMs_iff {timeout : Int} (h : 0 ≤ timeout) :
    (epollTimeoutMs timeout = roundMs timeout ∧ 0 ≤ epollTimeoutMs timeout) ↔ roundMs timeout < 2 ^ 31 := by
  have hpos := roundMs_nonneg h
  unfold epollTimeoutMs
  by_cases hmax : timeout = fineDurationMax
  · rw [if_pos hmax, hmax]
    decide
  · rw [if_neg hmax]
    constructor
    · rintro ⟨heq, -⟩
      have := @Int.bmod_lt (roundMs timeout) (2 ^ 32) (by decide)
      omega
    · intro hlt
      have heq : (roundMs timeout).bmod (2 ^ 32) = roundMs timeout := by
        rw [Int.bmod_eq_iff (by decide)]
        omega
      rw [heq]
      exact ⟨rfl, hpos⟩

/-- `Posix_mq_handle`: `epoll_wait()` takes at least as long as it is told.
Source: `posix_mq_handle.cpp` `wait_impl` -/
def posixBackend : Backend where
  MayTimeOut timeout starts ends :=
    0 ≤ epollTimeoutMs timeout ∧ starts + epollTimeoutMs timeout * 1000000 ≤ ends
  Faithful timeout _ := epollTimeoutMs timeout = roundMs timeout ∧ 0 ≤ epollTimeoutMs timeout
  Fits timeout _ := roundMs timeout < 2 ^ 31
  slack := 500000
  faithful_iff _ _ h := epollTimeoutMs_iff h
  on_time timeout starts ends hfaithful htime := by
    have := le_roundMs timeout
    rw [hfaithful.1] at htime
    omega

/-- When a timed wait is to be over, since the epoch, as a `Fine_time_pt`.
Source: `bipc_mq_handle.cpp` `wait_impl` -/
def timeoutSinceEpoch (epoch timeout starts : Int) : Int := (starts - epoch + timeout).bmod (2 ^ 64)

/-- `Bipc_mq_handle`: a timed wait is not over before its time. The clock of the system says `starts - epoch`
when the other says `starts`.
Source: `bipc_mq_handle.cpp` `wait_impl` -/
def bipcBackend (epoch : Int) : Backend where
  MayTimeOut timeout starts ends := timeoutSinceEpoch epoch timeout starts ≤ ends - epoch
  Faithful timeout starts := timeoutSinceEpoch epoch timeout starts = starts - epoch + timeout
  Fits timeout starts := -2 ^ 63 ≤ starts - epoch + timeout ∧ starts - epoch + timeout < 2 ^ 63
  slack := 0
  faithful_iff timeout starts _ := by
    unfold timeoutSinceEpoch
    rw [Int.bmod_eq_iff (by decide)]
    omega
  on_time timeout starts ends hfaithful htime := by
    rw [hfaithful] at htime
    omega

/-! ## The loop -/

/-- How a wait is over. -/
inductive WaitEnd where
  /-- The queue is ready, and the clock says `after` then. -/
  | ready (after : Int)
  /-- The time is up. -/
  | timedOut
  /-- The wait fails, or is interrupted. -/
  | failed (e : Err)
  deriving DecidableEq

/-- A turn of the loop. -/
inductive Turn where
  /-- A message is transferred. -/
  | transfers
  /-- The try to transfer fails. -/
  | fails (e : Err)
  /-- It would block, and there is a wait, from `starts` to `ends`. -/
  | waits (starts ends : Int) (w : WaitEnd)
  deriving DecidableEq

/-- A wait as it is begun: its timeout, what the clock said last, and what it says now. -/
structure Wait where
  /-- What `timed_wait_*()` is told. -/
  timeout : Int
  /-- What the clock said last. -/
  after : Int
  /-- What it says now. -/
  starts : Int
  deriving DecidableEq

/-- How a timed transfer is over. -/
inductive Outcome where
  /-- `true` is returned. -/
  | transferred
  /-- `false` is returned, without an error, at this time. -/
  | timedOut (ends : Int)
  /-- `false` is returned, with an error. -/
  | failed (e : Err)
  deriving DecidableEq

/-- The loop of a timed transfer: the waits, and how it is over, if it is. `now` is when the call began.
Source: `posix_mq_handle.cpp`, `bipc_mq_handle.cpp` `timed_send`, `timed_receive` -/
def timedTransmit (now : Int) : (timeoutFromNow after : Int) → List Turn → List Wait × Option Outcome
  | _, _, [] => ([], none)
  | _, _, .transfers :: _ => ([], some .transferred)
  | _, _, .fails e :: _ => ([], some (.failed e))
  | timeoutFromNow, after, .waits starts ends w :: turns =>
    let timeoutFromNow := timeoutFromNow - (after - now)
    let wait : Wait := ⟨timeoutFromNow, after, starts⟩
    match w with
    | .failed e => ([wait], some (.failed e))
    | .timedOut => ([wait], some (.timedOut ends))
    | .ready after =>
      let (ws, o) := timedTransmit now timeoutFromNow after turns
      (wait :: ws, o)

/-- The turns are such as there can be: time goes on, and a wait times out when it may. -/
def Possible (B : Backend) (now : Int) : (timeoutFromNow after : Int) → List Turn → Prop
  | timeoutFromNow, after, .waits starts ends w :: turns =>
    after ≤ starts ∧ starts ≤ ends ∧
      match w with
      | .failed _ => True
      | .timedOut => B.MayTimeOut (timeoutFromNow - (after - now)) starts ends
      | .ready after' => ends ≤ after' ∧ Possible B now (timeoutFromNow - (after - now)) after' turns
  | _, _, _ => True

/-- A call of one of the functions, with what happens to it. -/
structure TimedCall (B : Backend) where
  /-- When it begins. -/
  now : Int
  /-- The timeout requested. -/
  timeoutFromNow : Int
  /-- What happens. -/
  turns : List Turn
  possible : Possible B now timeoutFromNow now turns

/-- Source: `posix_mq_handle.cpp` `timed_send` -/
def posixTimedSend (c : TimedCall posixBackend) : List Wait × Option Outcome :=
  timedTransmit c.now c.timeoutFromNow c.now c.turns

/-- Source: `posix_mq_handle.cpp` `timed_receive` -/
def posixTimedReceive (c : TimedCall posixBackend) : List Wait × Option Outcome :=
  timedTransmit c.now c.timeoutFromNow c.now c.turns

/-- Source: `bipc_mq_handle.cpp` `timed_send` -/
def bipcTimedSend {epoch : Int} (c : TimedCall (bipcBackend epoch)) : List Wait × Option Outcome :=
  timedTransmit c.now c.timeoutFromNow c.now c.turns

/-- Source: `bipc_mq_handle.cpp` `timed_receive` -/
def bipcTimedReceive {epoch : Int} (c : TimedCall (bipcBackend epoch)) : List Wait × Option Outcome :=
  timedTransmit c.now c.timeoutFromNow c.now c.turns

/-! ## The deadline -/

variable {B : Backend}

/-- **The deadline is kept.** -/
structure KeepsDeadline (c : TimedCall B) (ran : List Wait × Option Outcome) : Prop where
  /-- A wait is told what is left, which is something, as it is. -/
  waits : ∀ w ∈ ran.1, w.timeout = c.timeoutFromNow - (w.after - c.now) ∧ 0 ≤ w.timeout ∧
    B.Faithful w.timeout w.starts
  /-- The call does not time out too early. -/
  on_time : ∀ ends, ran.2 = some (.timedOut ends) → c.timeoutFromNow ≤ ends - c.now + B.slack

/-- When the waits are begun, and what the clock said last. -/
def begun : (after : Int) → List Turn → List (Int × Int)
  | after, .waits starts _ (.ready after') :: turns => (after, starts) :: begun after' turns
  | after, .waits starts _ _ :: _ => [(after, starts)]
  | _, _ => []

/-- Where the deadline is kept. -/
structure TimedCall.Timely (c : TimedCall B) : Prop where
  /-- Before the last wait, whenever the clock is read no time has passed. -/
  idle : ∀ x ∈ (begun c.now c.turns).dropLast, x.1 = c.now
  /-- The time is not up when a wait is begun. -/
  left : ∀ x ∈ begun c.now c.turns, x.1 - c.now ≤ c.timeoutFromNow
  /-- What is left can be told. -/
  fits : ∀ x ∈ begun c.now c.turns, B.Fits (c.timeoutFromNow - (x.1 - c.now)) x.2

/-! ### The waits -/

section Waits

variable (now T : Int)

/-- The waits are those begun, in order. -/
theorem timedTransmit_begun (turns : List Turn) :
    ∀ τ after : Int, (timedTransmit now τ after turns).1.map (fun w => (w.after, w.starts)) =
      begun after turns := by
  induction turns with
  | nil => intro τ after; rfl
  | cons turn turns ih =>
    intro τ after
    cases turn with
    | transfers => rfl
    | fails e => rfl
    | waits starts ends w =>
      cases w with
      | ready after' =>
        have htail := ih (τ - (after - now)) after'
        simp only [timedTransmit, begun, List.map_cons, htail]
      | timedOut => rfl
      | failed e => rfl

/-- Something is true of when the waits begin if it is true of each wait. -/
theorem forall_begun (τ after : Int) (turns : List Turn) (P : Int × Int → Prop) :
    (∀ x ∈ begun after turns, P x) ↔
      ∀ w ∈ (timedTransmit now τ after turns).1, P (w.after, w.starts) := by
  rw [← timedTransmit_begun now turns τ after]
  simp only [List.mem_map, forall_exists_index, and_imp, forall_apply_eq_imp_iff₂]

/-- What the waits are told, if the time left is what is left of `T` but for what has passed since it was last
taken off. The induction is on the turns: the time left is right for the next wait only if the clock said
`now` before this one. -/
theorem timeout_eq_iff (turns : List Turn) :
    ∀ τ after : Int, (∀ w ∈ (timedTransmit now τ after turns).1, w.timeout = T - (w.after - now)) ↔
      (begun after turns ≠ [] → τ = T) ∧ ∀ x ∈ (begun after turns).dropLast, x.1 = now := by
  induction turns with
  | nil => intro τ after; simp [timedTransmit, begun]
  | cons turn turns ih =>
    intro τ after
    cases turn with
    | transfers => simp [timedTransmit, begun]
    | fails e => simp [timedTransmit, begun]
    | waits starts ends w =>
      have hfirst : τ - (after - now) = T - (after - now) ↔ τ = T := by omega
      cases w with
      | timedOut => simp [timedTransmit, begun, hfirst]
      | failed e => simp [timedTransmit, begun, hfirst]
      | ready after' =>
        have htail := ih (τ - (after - now)) after'
        simp only [timedTransmit, begun, List.forall_mem_cons, hfirst, htail]
        by_cases hlast : begun after' turns = []
        · simp [hlast]
        · rw [List.dropLast_cons_of_ne_nil hlast]
          simp only [ne_eq, hlast, not_false_eq_true, forall_const, List.forall_mem_cons, reduceCtorEq]
          constructor
          · rintro ⟨hτ, hleft, hidle⟩
            exact ⟨hτ, by omega, hidle⟩
          · rintro ⟨hτ, hafter, hidle⟩
            exact ⟨hτ, by omega, hidle⟩

/-- Where the call times out, its last wait does. -/
theorem timedOut_wait {B : Backend} (turns : List Turn) :
    ∀ τ after ends : Int, Possible B now τ after turns →
      (timedTransmit now τ after turns).2 = some (.timedOut ends) →
      ∃ w ∈ (timedTransmit now τ after turns).1, w.after ≤ w.starts ∧ B.MayTimeOut w.timeout w.starts ends := by
  induction turns with
  | nil => intro τ after ends hpos hout; cases hout
  | cons turn turns ih =>
    intro τ after ends hpos hout
    cases turn with
    | transfers => cases hout
    | fails e => cases hout
    | waits starts ends' w =>
      obtain ⟨hstarts, -, hw⟩ := hpos
      cases w with
      | failed e => cases hout
      | timedOut =>
        simp only [timedTransmit, Option.some.injEq, Outcome.timedOut.injEq] at hout
        subst hout
        exact ⟨_, List.mem_singleton_self _, hstarts, hw⟩
      | ready after' =>
        obtain ⟨w, hmem, hspec⟩ := ih _ after' ends hw.2 hout
        exact ⟨w, List.mem_cons_of_mem _ hmem, hspec⟩

end Waits

/-- Where the deadline is kept, in any backend. -/
theorem keepsDeadline_iff (c : TimedCall B) :
    KeepsDeadline c (timedTransmit c.now c.timeoutFromNow c.now c.turns) ↔ c.Timely := by
  have htimeout := timeout_eq_iff c.now c.timeoutFromNow c.turns c.timeoutFromNow c.now
  have hbegun := forall_begun c.now c.timeoutFromNow c.now c.turns
  constructor
  · intro hkeeps
    have heq := fun w hw => (hkeeps.waits w hw).1
    refine ⟨(htimeout.1 heq).2, (hbegun _).2 fun w hw => ?_, (hbegun _).2 fun w hw => ?_⟩
    · have hnonneg := (hkeeps.waits w hw).2.1
      rw [heq w hw] at hnonneg
      dsimp only
      omega
    · obtain ⟨-, hnonneg, hfaithful⟩ := hkeeps.waits w hw
      rw [B.faithful_iff _ _ hnonneg, heq w hw] at hfaithful
      exact hfaithful
  · intro htimely
    have heq := htimeout.2 ⟨fun _ => rfl, htimely.idle⟩
    have hleft := (hbegun _).1 htimely.left
    have hfits := (hbegun _).1 htimely.fits
    have hwaits : ∀ w ∈ (timedTransmit c.now c.timeoutFromNow c.now c.turns).1,
        0 ≤ w.timeout ∧ B.Faithful w.timeout w.starts := by
      intro w hw
      have hw' := hleft w hw
      have hnonneg : 0 ≤ w.timeout := by
        rw [heq w hw]
        dsimp only at hw'
        omega
      refine ⟨hnonneg, (B.faithful_iff _ _ hnonneg).2 ?_⟩
      rw [heq w hw]
      exact hfits w hw
    refine ⟨fun w hw => ⟨heq w hw, hwaits w hw⟩, fun ends hout => ?_⟩
    obtain ⟨w, hw, hstarts, hmay⟩ := timedOut_wait c.now c.turns _ _ _ c.possible hout
    have hends := B.on_time _ _ _ (hwaits w hw).2 hmay
    rw [heq w hw] at hends
    omega

/-! ### The calls -/

/-- **Where timed transfers keep their deadline**: `timed_send()` and `timed_receive()` of either backend,
with any timeout, whatever the waits come to. -/
theorem timed_iff (epoch : Int) :
    (∀ c, KeepsDeadline c (posixTimedSend c) ↔ c.Timely) ∧
    (∀ c, KeepsDeadline c (posixTimedReceive c) ↔ c.Timely) ∧
    (∀ c : TimedCall (bipcBackend epoch), KeepsDeadline c (bipcTimedSend c) ↔ c.Timely) ∧
    ∀ c : TimedCall (bipcBackend epoch), KeepsDeadline c (bipcTimedReceive c) ↔ c.Timely :=
  ⟨keepsDeadline_iff, keepsDeadline_iff, keepsDeadline_iff, keepsDeadline_iff⟩

/-- A send with ten seconds to wait. Twice it wakes up in vain, after one second and after two: the time left
is then nine seconds and, as three seconds have been taken off, seven; and it times out at nine. -/
def wokenTwice : TimedCall posixBackend where
  now := 0
  timeoutFromNow := 10000000000
  turns := [.waits 0 1000000000 (.ready 1000000000), .waits 1000000000 2000000000 (.ready 2000000000),
    .waits 2000000000 9000000000 .timedOut]
  possible := by simp [Possible, posixBackend, epollTimeoutMs, roundMs, fineDurationMax, Int.bmod]

/-- A send with ten milliseconds to wait. Once it wakes up in vain, and gets to read the clock after twenty:
then it waits for -10 milliseconds, which is forever. -/
def wokenLate : TimedCall posixBackend where
  now := 0
  timeoutFromNow := 10000000
  turns := [.waits 0 9000000 (.ready 20000000), .waits 20000000 3600000000000 (.failed (.code .interrupted))]
  possible := by simp [Possible]

/-- A call that is woken in vain twice returns a second early; in one that is woken late a wait is without limit. -/
theorem posixTimedSend_early :
    ¬ KeepsDeadline wokenTwice (posixTimedSend wokenTwice) ∧
    ¬ KeepsDeadline wokenLate (posixTimedSend wokenLate) ∧
    (posixTimedSend wokenTwice).1.map (·.timeout) = [10000000000, 9000000000, 7000000000] ∧
    (posixTimedSend wokenTwice).2 = some (.timedOut 9000000000) ∧
    (posixTimedSend wokenLate).1.map (epollTimeoutMs ·.timeout) = [10, -10] := by
  refine ⟨fun hkeeps => ?_, fun hkeeps => ?_, by decide, by decide, by decide⟩
  · have htime := hkeeps.on_time 9000000000 (by decide)
    simp [wokenTwice, posixBackend] at htime
  · have hwait := hkeeps.waits ⟨-10000000, 20000000, 20000000⟩ (by decide)
    exact absurd hwait.2.1 (by decide)

end FlowIpc.MqHandle
