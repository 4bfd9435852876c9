import FlowIpc.Found.ErrorCode
import FlowIpc.Lib.Transition
import Mathlib.Tactic.SplitIfs

/-!
# Interrupt mode

A handle to a message queue can be told, for each direction, to interrupt: from then on whoever waits for
the queue in that direction, or is already waiting, is told `S_INTERRUPTED`, until the handle is told to
allow again. Of the handle's methods one at a time may be under way; only the mode may be switched at any
time, from another thread.

`Modes` is that promise alone. `Modes.Switch` says how the modes are switched, and how the switches are
answered; `Modes.Honoured` says of a step that the mode is honoured by it. What waits is a poll, a wait or
a timed wait, or a blocking transfer once it would block; it is told something in a *turn* (`Input.wait`),
at which it is over or goes on.

Either backend is a `Kind` of handle: there is what it has for each direction, the call in progress, and
what is done next, which concerns one direction. `Kind.Honours` is what such a kind keeps of the promise,
in every run: its modes are those of the machine, and its switches are answered as the machine's are; the
mode is honoured if the turns are told what they are to be told, and only then; no wait is left without a
turn while the mode is on; and the directions have nothing to do with each other.

Source: `persistent_mq_handle.hpp` (concept `Persistent_mq_handle`).
-/

namespace FlowIpc.MqHandle

open Lts

/-! ## Calls -/

/-- Sending, or receiving. -/
inductive Dir where
  /-- `*_send*()` -/
  | snd
  /-- `*_receiv*()` -/
  | rcv
  deriving DecidableEq

/-- The calls that may have to wait, in one direction or the other. -/
inductive Call where
  /-- `is_sendable()`, `is_receivable()` -/
  | isTransmissible
  /-- `wait_sendable()`, `wait_receivable()` -/
  | waitTransmissible
  /-- `timed_wait_sendable()`, `timed_wait_receivable()` -/
  | timedWaitTransmissible
  /-- `send()`, `receive()` -/
  | transmit
  /-- `timed_send()`, `timed_receive()` -/
  | timedTransmit
  deriving DecidableEq

/-- How long is waited.
Source: `bipc_mq_handle.hpp` `Wait_type` -/
inductive WaitType where
  /-- `S_POLL` -/
  | poll
  /-- `S_WAIT` -/
  | wait
  /-- `S_TIMED_WAIT` -/
  | timedWait
  deriving DecidableEq

/-- How long the call waits, each time that it waits. -/
def Call.waitType : Call → WaitType
  | .isTransmissible => .poll
  | .waitTransmissible | .transmit => .wait
  | .timedWaitTransmissible | .timedTransmit => .timedWait

/-- The call transfers a message, trying first without blocking. -/
def Call.transmits : Call → Bool
  | .transmit | .timedTransmit => true
  | _ => false

/-- What a try to transfer without blocking comes to. -/
inductive Attempt (E : Type) where
  /-- A message is transferred. -/
  | done
  /-- It would block. -/
  | wouldBlock
  /-- It fails. -/
  | failed (e : E)
  deriving DecidableEq

/-- What is done to a handle, and what the system does in it: `E` says how a try to transfer fails, `T`
what a wait is told. -/
inductive Input (E T : Type) where
  /-- `interrupt_sends()`, `interrupt_receives()` -/
  | interrupt (d : Dir)
  /-- `allow_sends()`, `allow_receives()` -/
  | allow (d : Dir)
  /-- A call is begun. -/
  | begin (d : Dir) (c : Call)
  /-- The call in progress tries to transfer without blocking. -/
  | attempt (d : Dir) (a : Attempt E)
  /-- The call in progress, which waits, has its turn. -/
  | wait (d : Dir) (t : T)
  deriving DecidableEq

/-- What is seen of a step. -/
inductive Obs where
  /-- `interrupt_*()` or `allow_*()` has returned this. -/
  | switched (ok : Bool)
  /-- The call is in progress. -/
  | pending
  /-- The call has returned `ok`, where it returns something, and `*err_code` is `err`. -/
  | returned (ok : Bool) (err : ErrorCode)
  deriving DecidableEq

/-- `S_INTERRUPTED` -/
abbrev interrupted : ErrorCode := Code.interrupted.toErrorCode

/-- The call has failed with `S_INTERRUPTED`. -/
def Obs.Interrupted (o : Obs) : Prop :=
  ∃ ok, o = .returned ok MqHandle.interrupted

variable {E T : Type}

/-- The direction that is concerned. -/
def Input.dir : Input E T → Dir
  | .interrupt d | .allow d | .begin d _ | .attempt d _ | .wait d _ => d

/-- What becomes of a call whose wait has come to this: it is over, or it tries to transfer again.
Source: `posix_mq_handle.cpp`, `bipc_mq_handle.cpp` `send`, `timed_send`, `receive`, `timed_receive` -/
def Call.afterWait (c : Call) (ok : Bool) (err : ErrorCode) : Obs :=
  if c.transmits then
    if err.isSome then .returned false err
    else if c = .timedTransmit ∧ ok = false then .returned false none
    else .pending
  else .returned ok err

/-- Whatever call has waited returns that it was interrupted. -/
@[simp] theorem Call.afterWait_interrupted (c : Call) :
    c.afterWait false interrupted = .returned false interrupted := by
  cases c <;> rfl

/-- A call fails with `S_INTERRUPTED` if its wait does. -/
theorem Call.interrupted_afterWait {c : Call} {ok : Bool} {err : ErrorCode}
    (h : (c.afterWait ok err).Interrupted) : err = interrupted := by
  obtain ⟨ok', h⟩ := h
  unfold Call.afterWait at h
  split_ifs at h
  · exact (Obs.returned.inj h).2
  · exact absurd (Obs.returned.inj h).2 (by simp)
  · exact (Obs.returned.inj h).2

/-- No call that has waited answers like a switch. -/
theorem Call.afterWait_ne_switched (c : Call) (ok : Bool) (err : ErrorCode) (b : Bool) :
    c.afterWait ok err ≠ .switched b := by
  unfold Call.afterWait
  split_ifs <;> simp

/-! ## What is promised -/

/-- The mode of the direction after a step. -/
def Input.mode (b : Bool) : Input E T → Bool
  | .interrupt _ => true
  | .allow _ => false
  | _ => b

/-- Where the mode is `b`, a switch is answered with whether it changes anything, and nothing else is
answered like a switch. -/
def Answered (b : Bool) (x : Input E T × Obs) : Prop :=
  match x.1 with
  | .interrupt _ => x.2 = .switched (!b)
  | .allow _ => x.2 = .switched b
  | _ => ∀ ok, x.2 ≠ .switched ok

/-- Where the mode is `b` it is honoured: while it is on, a wait that has its turn fails with
`S_INTERRUPTED`; nothing else does so. -/
def HonouredAt (b : Bool) (x : Input E T × Obs) : Prop :=
  match x.1 with
  | .wait _ _ => if b then x.2 = .returned false interrupted else ¬ x.2.Interrupted
  | _ => ¬ x.2.Interrupted

/-- For each direction, whether it is in interrupt mode. -/
structure Modes where
  /-- `interrupt_sends()` -/
  snd : Bool
  /-- `interrupt_receives()` -/
  rcv : Bool
  deriving DecidableEq

namespace Modes

/-- As a handle is constructed. -/
def off : Modes := ⟨false, false⟩

/-- The direction is in interrupt mode. -/
def on (m : Modes) : Dir → Bool
  | .snd => m.snd
  | .rcv => m.rcv

/-- The mode of a direction is switched. -/
def set (m : Modes) (b : Bool) : Dir → Modes
  | .snd => { m with snd := b }
  | .rcv => { m with rcv := b }

/-- **The switches.** They do as they say, and say whether that changes anything; nothing else switches. -/
def Switch (m : Modes) (x : Input E T × Obs) (m' : Modes) : Prop :=
  m' = m.set (x.1.mode (m.on x.1.dir)) x.1.dir ∧ Answered (m.on x.1.dir) x

/-- **The mode is honoured**, that of the direction that is concerned. -/
def Honoured (m : Modes) (x : Input E T × Obs) : Prop :=
  HonouredAt (m.on x.1.dir) x

/-- The modes after a step are determined by what is seen of it. -/
theorem switch_det (m : Modes) (x : Input E T × Obs) (m₁ m₂ : Modes) (h₁ : m.Switch x m₁)
    (h₂ : m.Switch x m₂) : m₁ = m₂ :=
  h₁.1.trans h₂.1.symm

end Modes

/-! ## Handles -/

/-- A call in progress. -/
structure Op (Pos : Type) where
  /-- The direction. -/
  dir : Dir
  /-- What was called. -/
  call : Call
  /-- Where it is. -/
  pos : Pos
  deriving DecidableEq

/-- A kind of handle. What is done next is said for one direction: given what there is for it, and the
call in progress, which may be one of the other direction; `none` if there is nothing of the kind to do. -/
structure Kind where
  /-- What there is for a direction. -/
  R : Type
  /-- Where a call can be. -/
  Pos : Type
  /-- How a try to transfer fails. -/
  E : Type
  /-- What a wait is told in its turn. -/
  T : Type
  /-- As it is constructed. -/
  ctor : R
  /-- `m_interrupting_snd`, `m_interrupting_rcv` -/
  interrupting : R → Bool
  /-- What is done next, and what is seen of it. -/
  act : R → Option (Op Pos) → Input E T → Option (R × Option (Op Pos) × Obs)
  /-- A call that is there waits. -/
  Waits : Pos → Prop

namespace Kind

variable {K : Kind}

/-- A handle of a kind. -/
structure Handle (K : Kind) where
  /-- `*_snd` -/
  snd : K.R
  /-- `*_rcv` -/
  rcv : K.R
  /-- The call in progress. -/
  op : Option (Op K.Pos)

namespace Handle

/-- What there is for a direction. -/
def refs (s : K.Handle) : Dir → K.R
  | .snd => s.snd
  | .rcv => s.rcv

/-- Afterwards this is what there is for the direction, and the call in progress. -/
def put (s : K.Handle) (r : K.R) (op : Option (Op K.Pos)) : Dir → K.Handle
  | .snd => { s with snd := r, op := op }
  | .rcv => { s with rcv := r, op := op }

/-- What is done next. -/
def step (s : K.Handle) (i : Input K.E K.T) : Option (K.Handle × Obs) :=
  (K.act (s.refs i.dir) s.op i).map fun (r, op, o) => (s.put r op i.dir, o)

/-- The modes it is in. -/
def modes (s : K.Handle) : Modes := ⟨K.interrupting s.snd, K.interrupting s.rcv⟩

/-- The call in progress, if it is of the direction. -/
def opOf (s : K.Handle) (d : Dir) : Option (Op K.Pos) :=
  s.op.filter fun p => p.dir = d

end Handle

/-- As it is constructed. -/
def init (K : Kind) : K.Handle := ⟨K.ctor, K.ctor, none⟩

/-- The steps, labelled with what is seen. -/
def Step (K : Kind) (s : K.Handle) (x : Input K.E K.T × Obs) (s' : K.Handle) : Prop :=
  s.step x.1 = some (s', x.2)

/-- The steps of one direction. -/
def only (K : Kind) (d : Dir) (tr : List (Input K.E K.T × Obs)) : List (Input K.E K.T × Obs) :=
  tr.filter fun x => x.1.dir = d

/-- What a kind of handle keeps of the promise, in every run, if where there is `r` for the direction a
step that is `Told r` honours the mode. -/
structure Honours (K : Kind) (Told : K.R → Input K.E K.T × Obs → Prop) : Prop where
  /-- The modes are switched, and the switches answered, as they are to be. -/
  switches : ∀ tr s, Run K.Step K.init tr s → Run Modes.Switch Modes.off tr s.modes
  /-- A mode can always be switched. -/
  switchable : ∀ tr s d, Run K.Step K.init tr s →
    (s.step (.interrupt d)).isSome ∧ (s.step (.allow d)).isSome
  /-- The mode is honoured by all the steps iff they are all told what they are to be told. -/
  honoured : ∀ tr s, Run K.Step K.init tr s →
    (Run (Restrict Modes.Switch Modes.Honoured) Modes.off tr s.modes ↔
      Run (Restrict K.Step fun s x => Told (s.refs x.1.dir) x) K.init tr s)
  /-- While the mode is on a wait can fail with `S_INTERRUPTED` at once. -/
  turn : ∀ tr s p, Run K.Step K.init tr s → s.op = some p → K.Waits p.pos → s.modes.on p.dir = true →
    ∃ t s', s.step (.wait p.dir t) = some (s', .returned false interrupted)
  /-- The steps of a direction can be taken without those of the other. The same is seen of them then, and
  there is the same for the direction. -/
  directions : ∀ tr s d, Run K.Step K.init tr s →
    ∃ u, Run K.Step K.init (K.only d tr) u ∧ u.refs d = s.refs d

end Kind

end FlowIpc.MqHandle
