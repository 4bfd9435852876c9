import FlowIpc.MqHandle.Handle
import Mathlib.Data.List.Perm.Subperm

/-!
# `Posix_mq_handle`: the mode is a byte in a pipe

A handle to a POSIX queue waits in `epoll_wait()`. For each direction there is a set of two descriptors:
the queue itself, and the reading end of a pipe. There is a byte in the pipe while the direction is in
interrupt mode, so that the set is ready then, whatever the queue is.

What `epoll_wait()` tells of a set is the system's to say, within bounds (`EpollAnswer.Gives`): as many
ready descriptors as there are and as have room in the array given, and none only if there are none and
the time is up. `wait_impl()` has an array of two, and means to see both: it takes two events, or one that
is not the queue's, for an interruption. But it passes 1 for how many there is room for
(`epollMaxEvents`). So when both are ready it is told of one of them, and if that is the queue, the mode
is not honoured (`lawful`).

How long a call has waited is left to the system, too.

Source: `posix_mq_handle.hpp`, `posix_mq_handle.cpp`.
-/

namespace FlowIpc.MqHandle

open Lts

/-! ## The system -/

/-- The descriptors of an epoll set.
Source: `posix_mq_handle.cpp` `epoll_setup` -/
inductive Fd where
  /-- `m_mq` -/
  | mq
  /-- `m_interrupt_detector_snd`, `m_interrupt_detector_rcv` -/
  | interruptDetector
  deriving DecidableEq

/-- What `epoll_wait()` comes to. -/
inductive EpollAnswer where
  /-- These descriptors are ready; none if the time is up. -/
  | events (evs : List Fd)
  /-- It fails, with this `errno`. -/
  | failed (errno : Nat)
  deriving DecidableEq

/-- The answers that the system may give when the descriptors in `ready` are, and there is room for
`maxEvents`. A wait that is `forever` is not answered before there is something to say. -/
def EpollAnswer.Gives (ready : List Fd) (maxEvents : Nat) (forever : Bool) : EpollAnswer → Prop
  | .events evs => evs.Nodup ∧ (∀ fd ∈ evs, fd ∈ ready) ∧ evs.length = min maxEvents ready.length ∧
      (evs = [] → forever = false)
  | .failed _ => True

instance (ready : List Fd) (maxEvents : Nat) (forever : Bool) (a : EpollAnswer) :
    Decidable (a.Gives ready maxEvents forever) := by
  cases a <;> unfold EpollAnswer.Gives <;> infer_instance

/-- A turn of a wait: whether the queue is ready, and what `epoll_wait()` comes to. -/
structure EpollTurn where
  /-- The queue can be sent to, or received from. -/
  mqReady : Bool
  /-- What `epoll_wait()` comes to. -/
  answer : EpollAnswer
  deriving DecidableEq

/-- The interrupter is reported. -/
def EpollTurn.Reports (t : EpollTurn) : Prop :=
  ∃ evs, t.answer = .events evs ∧ .interruptDetector ∈ evs

/-! ## The handle -/

/-- Where a call is. -/
inductive PosixPos where
  /-- It is about to call `mq_send()` or `mq_receive()`. -/
  | attempt
  /-- It is in `epoll_wait()`. -/
  | wait
  deriving DecidableEq

/-- What there is for a direction in a `Posix_mq_handle`.
Source: `posix_mq_handle.hpp` `m_interrupting_snd`, `m_interrupter_snd`, `m_interrupt_detector_snd`, and
the same with `rcv` -/
structure PosixMqHandle where
  /-- `m_interrupting_snd`, `m_interrupting_rcv` -/
  interrupting : Bool
  /-- How many bytes there are in the pipe from the interrupter to the interrupt detector. -/
  pipe : Nat
  deriving DecidableEq

namespace PosixMqHandle

/-- `EMSGSIZE` -/
def emsgsize : Nat := 90

/-- The code for an `errno` of `mq_send()` or `mq_receive()`.
Source: `posix_mq_handle.cpp` `handle_mq_api_result` -/
def handleMqApiResult (errno : Nat) : Err :=
  if errno = emsgsize then .code .mqMessageSizeOverOrUnderflow else .system errno

/-- A byte is written to a pipe with `n` bytes.
Source: `util.cpp` `pipe_produce` -/
def pipeProduce (n : Nat) : Nat := n + 1

/-- A byte is read from a pipe with `n` bytes. If there is none, the read blocks.
Source: `util.cpp` `pipe_consume` -/
def pipeConsume : Nat → Option Nat
  | 0 => none
  | n + 1 => some n

/-- `interrupt_impl<SND_ELSE_RCV>()`, and what it returns.
Source: `posix_mq_handle.cpp` `interrupt_impl` -/
def interruptImpl (r : PosixMqHandle) : PosixMqHandle × Bool :=
  if r.interrupting then (r, false)
  else ({ interrupting := true, pipe := pipeProduce r.pipe }, true)

/-- `allow_impl<SND_ELSE_RCV>()`, and what it returns; `none` if it blocks.
Source: `posix_mq_handle.cpp` `allow_impl` -/
def allowImpl (r : PosixMqHandle) : Option (PosixMqHandle × Bool) :=
  if r.interrupting = false then some (r, false)
  else
    match pipeConsume r.pipe with
    | none => none
    | some n => some ({ interrupting := false, pipe := n }, true)

/-- How many events `epoll_wait()` is told that there is room for. -/
def epollMaxEvents : Nat := 1

/-- The descriptors of the direction's set that are ready. -/
def epollReady (r : PosixMqHandle) (mqReady : Bool) : List Fd :=
  (if mqReady then [.mq] else []) ++ (if 0 < r.pipe then [.interruptDetector] else [])

/-- What `wait_impl()` makes of the answer: what it returns, and `*err_code`.
Source: `posix_mq_handle.cpp` `wait_impl` -/
def waitImpl : EpollAnswer → Bool × ErrorCode
  | .failed errno => (false, some (.system errno))
  | .events evs =>
    if evs.length = 2 ∨ (evs.length = 1 ∧ evs.head? ≠ some .mq) then (false, interrupted)
    else (evs.length = 1, none)

/-- After a try, or a turn, that has come to `o` the call is over, or it goes on at `pos`. -/
def proceed (p : Op PosixPos) (pos : PosixPos) : Obs → Option (Op PosixPos)
  | .returned _ _ => none
  | _ => some { p with pos := pos }

/-- What is done next. In a turn `epoll_wait()` is answered as the system may answer.
Source: `posix_mq_handle.cpp` `send`, `timed_send`, `receive`, `timed_receive`, `is_sendable`,
`wait_sendable`, `timed_wait_sendable`, `is_receivable`, `wait_receivable`, `timed_wait_receivable` -/
def act (r : PosixMqHandle) (op : Option (Op PosixPos)) :
    Input Nat EpollTurn → Option (PosixMqHandle × Option (Op PosixPos) × Obs)
  | .interrupt _ =>
    let (r, ok) := r.interruptImpl
    some (r, op, .switched ok)
  | .allow _ => r.allowImpl.map fun (r, ok) => (r, op, .switched ok)
  | .begin d c =>
    match op with
    | some _ => none
    | none => some (r, some ⟨d, c, if c.transmits then .attempt else .wait⟩, .pending)
  | .attempt d a =>
    match op with
    | none => none
    | some p =>
      if p.dir = d ∧ p.pos = .attempt then
        let o : Obs :=
          match a with
          | .done => .returned true none
          | .wouldBlock => .pending
          | .failed errno => .returned false (some (handleMqApiResult errno))
        some (r, proceed p .wait o, o)
      else none
  | .wait d t =>
    match op with
    | none => none
    | some p =>
      if p.dir = d ∧ p.pos = .wait ∧
          t.answer.Gives (r.epollReady t.mqReady) epollMaxEvents (p.call.waitType = .wait) then
        let (ok, err) := waitImpl t.answer
        let o := p.call.afterWait ok err
        some (r, proceed p .attempt o, o)
      else none

/-- `Posix_mq_handle`, as a kind of handle. -/
def kind : Kind where
  R := PosixMqHandle
  Pos := PosixPos
  E := Nat
  T := EpollTurn
  ctor := ⟨false, 0⟩
  interrupting := interrupting
  act := act
  Waits pos := pos = .wait

/-! ## What `wait_impl()` is told -/

variable {r r' : PosixMqHandle} {op op' : Option (Op PosixPos)} {d : Dir} {t : EpollTurn} {ready : List Fd}
  {forever : Bool} {o : Obs}

/-- If there is room for one event, and the interrupter is reported, that is all that is. -/
theorem waitImpl_of_reports (h : t.answer.Gives ready epollMaxEvents forever) (hrep : t.Reports) :
    waitImpl t.answer = (false, interrupted) := by
  obtain ⟨evs, ha, hmem⟩ := hrep
  rw [ha] at h ⊢
  obtain ⟨-, -, hlen, -⟩ := h
  have hle : evs.length ≤ 1 := hlen ▸ Nat.min_le_left _ _
  rcases evs with _ | ⟨fd, _ | ⟨fd', evs⟩⟩
  · cases hmem
  · cases List.mem_singleton.mp hmem
    rfl
  · simp at hle

/-- If it is not reported, there is no interruption. -/
theorem waitImpl_of_not_reports (h : t.answer.Gives ready epollMaxEvents forever) (hrep : ¬ t.Reports) :
    (waitImpl t.answer).2 ≠ interrupted := by
  rcases ha : t.answer with evs | errno
  · rw [ha] at h
    obtain ⟨-, -, hlen, -⟩ := h
    have hle : evs.length ≤ 1 := hlen ▸ Nat.min_le_left _ _
    rcases evs with _ | ⟨fd, _ | ⟨fd', evs⟩⟩
    · simp [waitImpl]
    · cases fd with
      | mq => simp [waitImpl]
      | interruptDetector => exact absurd ⟨_, ha, List.mem_singleton_self _⟩ hrep
    · simp at hle
  · simp [waitImpl]

/-! ## What a direction keeps -/

/-- There is a byte in the pipe if the direction is in interrupt mode, and none if it is not. -/
def Inv (r : PosixMqHandle) (_ : Option (Op PosixPos)) : Prop :=
  r.pipe = if r.interrupting then 1 else 0

/-- In a turn that a wait has while its direction is in interrupt mode, the interrupter is reported. -/
def Told (r : PosixMqHandle) (x : Input Nat EpollTurn × Obs) : Prop :=
  match x.1 with
  | .wait _ t => r.interrupting = true → t.Reports
  | _ => True

/-- A direction is out of interrupt mode with an empty pipe, or in it with a byte there. -/
theorem Inv.cases (h : r.Inv op) : r = ⟨false, 0⟩ ∨ r = ⟨true, 1⟩ := by
  obtain ⟨b, n⟩ := r
  have hn : n = if b then 1 else 0 := h
  cases b
  · exact .inl (by rw [hn]; rfl)
  · exact .inr (by rw [hn]; rfl)

/-- The interrupter is ready iff the direction is in interrupt mode. -/
theorem Inv.detector_mem_ready (h : r.Inv op) (b : Bool) :
    .interruptDetector ∈ r.epollReady b ↔ r.interrupting = true := by
  obtain rfl | rfl := h.cases
  · cases b <;> simp [epollReady]
  · cases b <;> simp [epollReady]

/-- Interrupting leaves a byte in the pipe. -/
theorem Inv.interruptImpl (h : r.Inv op) : r.interruptImpl = (⟨true, 1⟩, !r.interrupting) := by
  obtain rfl | rfl := h.cases
  · rfl
  · rfl

/-- Allowing takes it away. -/
theorem Inv.allowImpl (h : r.Inv op) : r.allowImpl = some (⟨false, 0⟩, r.interrupting) := by
  obtain rfl | rfl := h.cases
  · rfl
  · rfl

/-- A try is about the call in progress, and is no interruption. -/
theorem act_attempt {a : Attempt Nat} (h : r.act op (.attempt d a) = some (r', op', o)) :
    r' = r ∧ ∃ p, op = some p ∧ p.dir = d ∧ op' = proceed p .wait o ∧ ¬ o.Interrupted ∧
      ∀ ok, o ≠ .switched ok := by
  unfold act at h
  simp only at h
  split at h
  · cases h
  · rename_i p
    split_ifs at h with hguard
    cases a with
    | done =>
        cases h
        exact ⟨rfl, p, rfl, hguard.1, rfl, by simp [Obs.Interrupted], by simp⟩
    | wouldBlock =>
        cases h
        exact ⟨rfl, p, rfl, hguard.1, rfl, by simp [Obs.Interrupted], by simp⟩
    | failed errno =>
        cases h
        refine ⟨rfl, p, rfl, hguard.1, rfl, ?_, by simp⟩
        rintro ⟨ok, ho⟩
        have herr := (Obs.returned.inj ho).2
        unfold handleMqApiResult at herr
        split_ifs at herr <;> simp at herr

/-- A turn is about the call in progress, which goes by what `wait_impl()` has made of the answer. -/
theorem act_wait (h : r.act op (.wait d t) = some (r', op', o)) :
    r' = r ∧ ∃ p, op = some p ∧ p.dir = d ∧
      t.answer.Gives (r.epollReady t.mqReady) epollMaxEvents (p.call.waitType = .wait) ∧
      o = p.call.afterWait (waitImpl t.answer).1 (waitImpl t.answer).2 ∧
      op' = proceed p .attempt o := by
  unfold act at h
  simp only at h
  split at h
  · cases h
  · rename_i p
    split_ifs at h with hguard
    cases h
    exact ⟨rfl, p, rfl, hguard.1, hguard.2.2, rfl, rfl⟩

/-- A call that goes on is one of the same direction. -/
theorem mem_proceed {p q : Op PosixPos} {pos : PosixPos} (h : q ∈ proceed p pos o) : q.dir = p.dir := by
  cases o with
  | returned ok err => cases h
  | switched ok =>
      cases h
      rfl
  | pending =>
      cases h
      rfl

/-- **A turn honours the mode** iff the interrupter is reported while it is on. -/
theorem Inv.honoured_wait (hinv : r.Inv op) (h : r.act op (.wait d t) = some (r', op', o)) :
    HonouredAt r.interrupting ((.wait d t : Input Nat EpollTurn), o) ↔ r.Told (.wait d t, o) := by
  obtain ⟨-, p, -, -, hgives, ho, -⟩ := act_wait h
  simp only [HonouredAt, Told]
  by_cases hrep : t.Reports
  · have hon : r.interrupting = true := by
      obtain ⟨evs, ha, hmem⟩ := hrep
      rw [ha] at hgives
      exact (hinv.detector_mem_ready t.mqReady).mp (hgives.2.1 _ hmem)
    rw [if_pos hon, ho, waitImpl_of_reports hgives hrep, p.call.afterWait_interrupted]
    exact iff_of_true rfl fun _ => hrep
  · have hnot : ¬ o.Interrupted := by
      intro hint
      rw [ho] at hint
      exact waitImpl_of_not_reports hgives hrep (Call.interrupted_afterWait hint)
    cases hon : r.interrupting with
    | true =>
        rw [if_pos rfl]
        exact iff_of_false (fun hover => hnot ⟨false, hover⟩) fun h => hrep (h rfl)
    | false =>
        rw [if_neg (by decide)]
        exact iff_of_true hnot fun h => by cases h

/-- A `Posix_mq_handle` keeps what is promised, up to what `epoll_wait()` tells. -/
theorem lawful : kind.Lawful Told Inv where
  ctor := rfl
  ctor_off := rfl
  own r op i r' op' o hop h := by
    cases i with
    | interrupt d =>
        cases h
        exact hop
    | allow d =>
        obtain ⟨a, -, ha⟩ := Option.map_eq_some_iff.mp h
        cases ha
        exact hop
    | begin d c =>
        cases op with
        | some p => cases h
        | none =>
            cases h
            rintro p ⟨⟩
            rfl
    | attempt d a =>
        obtain ⟨-, p, rfl, hdir, rfl, -⟩ := act_attempt h
        exact fun q hq => (mem_proceed hq).trans hdir
    | wait d t =>
        obtain ⟨-, p, rfl, hdir, -, -, rfl⟩ := act_wait h
        exact fun q hq => (mem_proceed hq).trans hdir
  other r p i r' op' o hdir h := by
    cases i with
    | interrupt d =>
        cases h
        exact ⟨rfl, rfl⟩
    | allow d =>
        obtain ⟨a, ha, heq⟩ := Option.map_eq_some_iff.mp h
        cases heq
        exact ⟨rfl, Option.map_eq_some_iff.mpr ⟨a, ha, rfl⟩⟩
    | begin d c => cases h
    | attempt d a =>
        obtain ⟨-, q, hq, hdir', -⟩ := act_attempt (show act r (some p) (.attempt d a) = _ from h)
        cases hq
        exact absurd hdir' hdir
    | wait d t =>
        obtain ⟨-, q, hq, hdir', -⟩ := act_wait (show act r (some p) (.wait d t) = _ from h)
        cases hq
        exact absurd hdir' hdir
  acts r op i r' op' o hop hinv h := by
    cases i with
    | interrupt d =>
        have hact : some (r', op', o) = some (⟨true, 1⟩, op, .switched (!r.interrupting)) := by
          rw [← h]
          change some (r.interruptImpl.1, op, Obs.switched r.interruptImpl.2) = _
          rw [Inv.interruptImpl hinv]
          rfl
        cases hact
        refine ⟨rfl, rfl, rfl, ?_⟩
        simp [HonouredAt, Obs.Interrupted, Told]
    | allow d =>
        change (r.allowImpl).map _ = _ at h
        rw [Inv.allowImpl hinv] at h
        cases h
        refine ⟨rfl, rfl, rfl, ?_⟩
        simp [HonouredAt, Obs.Interrupted, Told]
    | begin d c =>
        cases op with
        | some p => cases h
        | none =>
            cases h
            refine ⟨hinv, rfl, by simp [Answered], ?_⟩
            simp [HonouredAt, Obs.Interrupted, Told]
    | attempt d a =>
        obtain ⟨rfl, p, -, -, -, hnot, hans⟩ := act_attempt h
        exact ⟨hinv, rfl, hans, iff_of_true hnot trivial⟩
    | wait d t =>
        have hhon := Inv.honoured_wait hinv h
        obtain ⟨rfl, p, -, -, -, ho, -⟩ := act_wait h
        refine ⟨hinv, rfl, fun ok => ?_, hhon⟩
        rw [ho]
        exact p.call.afterWait_ne_switched _ _ ok
  switchable r op op' d hinv := by
    refine ⟨rfl, ?_⟩
    change (r.allowImpl.map _).isSome = true
    rw [Inv.allowImpl hinv]
    rfl
  turn r p hinv hwaits hon := by
    -- The queue is not ready, so that all there is to report is the interrupter.
    refine ⟨⟨false, .events [.interruptDetector]⟩, r, ?_⟩
    obtain rfl | rfl := Inv.cases hinv
    · cases hon
    have hgives : (EpollAnswer.events [.interruptDetector]).Gives
        (epollReady ⟨true, 1⟩ false) epollMaxEvents (p.call.waitType = .wait) :=
      ⟨by simp, by decide, rfl, by simp⟩
    change act ⟨true, 1⟩ (some p) (.wait p.dir ⟨false, .events [.interruptDetector]⟩) = _
    simp only [act]
    rw [if_pos ⟨trivial, hwaits, hgives⟩]
    have himpl : waitImpl (.events [.interruptDetector]) = (false, interrupted) := rfl
    simp only [himpl, Call.afterWait_interrupted]
    rfl

end PosixMqHandle

end FlowIpc.MqHandle
