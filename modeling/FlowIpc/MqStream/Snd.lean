import FlowIpc.Found.Timer
import FlowIpc.Lib.LittleEndian
import FlowIpc.MqStream.Mq
import FlowIpc.Negotiation.Negotiator

/-!
# The sender of a queue stream

`Blob_stream_mq_sender_impl`, the `sync_io` core that sends blobs over a message queue. A blob is one
message. What is not a blob (the version, a ping, the graceful close) is a *control command*: an
empty message, the escape, and then one with the eight bytes of the command. Messages that would
block are queued, and an event-loop wait on the queue being writable is kept up while any is.

The part of the object that low-level writing touches is `Out`; the functions on it are those of the
source, and so touch nothing else.

Source: `sync_io/detail/blob_stream_mq_snd_impl.hpp`.
-/

namespace FlowIpc.MqStream

open Negotiation

/-! ## Control commands -/

/-- `Control_cmd::S_END_SENDING` -/
def ctlEndSending : Int := 0

/-- `Control_cmd::S_PING` -/
def ctlPing : Int := 1

/-- `Control_cmd::S_END_SENTINEL` -/
def ctlEndSentinel : Int := 2

/-- The bytes of a command: those of an `int64_t`. -/
def ctlBytes (rawCmd : Int) : Blob :=
  LittleEndian.encodeInt 8 rawCmd

/-- A command is eight bytes. -/
@[simp] theorem length_ctlBytes (rawCmd : Int) : (ctlBytes rawCmd).length = 8 := by
  simp [ctlBytes]

/-! ## Low-level writing -/

/-- The parts of a sender that low-level writing touches. -/
structure Out where
  /-- `*m_mq` -/
  mq : Mq
  /-- `m_pending_payloads_q` -/
  pendingPayloadsQ : List Blob
  /-- `m_pending_err_code` -/
  pendingErrCode : ErrorCode
  /-- Waits for the queue to be writable, asked of the event loop through `m_ev_wait_func`. -/
  evWaits : Nat
  /-- Some assertion has failed; execution goes on, as in a build without assertions. -/
  assertFailed : Bool
  deriving DecidableEq

namespace Out

/-- `assert(p)` -/
def assert (o : Out) (p : Prop) [Decidable p] : Out :=
  { o with assertFailed := o.assertFailed || !decide p }

/-- An assertion that holds leaves no trace. -/
@[simp] theorem assert_of {o : Out} {p : Prop} [Decidable p] (h : p) : o.assert p = o := by
  simp [assert, h]

/-- `async_write_q_head_payload()`, up to the event.
Source: `blob_stream_mq_snd_impl.hpp` `async_write_q_head_payload` -/
def asyncWriteQHeadPayload (o : Out) : Out :=
  let o := o.assert (o.pendingPayloadsQ ≠ [])
  { o with evWaits := o.evWaits + 1 }

/-- The second half of `sync_write_or_q_payload()`, where the payload could not be sent at once.
Source: `blob_stream_mq_snd_impl.hpp` `sync_write_or_q_payload` -/
def queuePayload (o : Out) (origBlob : Blob) (avoidQing : Bool) : Bool × Bool × Out :=
  if avoidQing then (decide (o.pendingPayloadsQ = []), true, o)
  else
    let o := { o with pendingPayloadsQ := o.pendingPayloadsQ ++ [origBlob] }
    (false, false, if o.pendingPayloadsQ.length = 1 then o.asyncWriteQHeadPayload else o)

/-- `sync_write_or_q_payload()`: what it returns, and what it leaves in `*avoided_qing_or_null`.
`avoidQing` says whether that pointer is non-null.
Source: `blob_stream_mq_snd_impl.hpp` `sync_write_or_q_payload` -/
def syncWriteOrQPayload (o : Out) (origBlob : Blob) (avoidQing : Bool) : Bool × Bool × Out :=
  let o := o.assert (o.pendingErrCode = none)
  if o.pendingPayloadsQ = [] then
    let (sent, err, mq) := o.mq.trySend origBlob
    let o := { o with mq := mq, pendingErrCode := err }
    if err.isSome then (true, false, o.assert (sent = false))
    else if sent then (true, false, o)
    else o.queuePayload origBlob avoidQing
  else o.queuePayload origBlob avoidQing

/-- `sync_write_or_q_ctl_cmd_impl()`. Of the commands only a ping may be dropped, and only by its
first message.
Source: `blob_stream_mq_snd_impl.hpp` `sync_write_or_q_ctl_cmd_impl` -/
def syncWriteOrQCtlCmdImpl (o : Out) (rawCmd : Int) : Bool × Out :=
  let avoidQing := decide (0 ≤ rawCmd ∧ rawCmd = ctlPing)
  let (qIsFlushed, avoidedQing, o) := o.syncWriteOrQPayload [] avoidQing
  if o.pendingErrCode = none then
    if avoidedQing then (qIsFlushed, o)
    else
      let (qIsFlushed, _, o) := o.syncWriteOrQPayload (ctlBytes rawCmd) false
      (qIsFlushed, o.assert (¬ (o.pendingErrCode.isSome ∧ qIsFlushed = false)))
  else (qIsFlushed, o.assert (qIsFlushed = true))

/-- The loop of the writable event: sends queued payloads until one would block or fails, or none is
left. The result is the queue, the payloads left, and `m_pending_err_code`.
Source: `blob_stream_mq_snd_impl.hpp` `async_write_q_head_payload`, the event's `do`-`while` -/
def drain (mq : Mq) : List Blob → Mq × List Blob × ErrorCode
  | [] => (mq, [], none)
  | blob :: q =>
    match mq.trySend blob with
    | (_, some e, mq) => (mq, blob :: q, some e)
    | (false, none, mq) => (mq, blob :: q, none)
    | (true, none, mq) => drain mq q

end Out

/-! ## The sender -/

/-- A `Blob_stream_mq_sender_impl`. Handlers are told apart by number.
Source: `blob_stream_mq_snd_impl.hpp` `Blob_stream_mq_sender_impl` -/
structure BlobStreamMqSender where
  /-- The queue, the payloads waiting for it, the error that ended them. -/
  out : Out
  /-- `m_protocol_negotiator` -/
  protocolNegotiator : ProtocolNegotiator
  /-- `!m_ev_wait_func.empty()` -/
  started : Bool
  /-- `m_mq_max_msg_sz` -/
  mqMaxMsgSz : Nat
  /-- `m_finished` -/
  finished : Bool
  /-- `m_pending_on_last_send_done_func_or_empty` -/
  pendingOnLastSendDoneFunc : Option Nat
  /-- `m_auto_ping_period`; 0 for `zero()`. -/
  autoPingPeriod : Nat
  /-- `m_auto_ping_timer` and `m_auto_ping_timer_fired_peer`. -/
  autoPingTimer : Timer

/-- A blob that is not empty, by its first byte and the others. -/
def blobOf (byte : UInt8) (rest : Blob) : {b : Blob // b ≠ []} := ⟨byte :: rest, List.cons_ne_nil byte rest⟩

namespace BlobStreamMqSender

/-- The only version there is. -/
def versionOne : VersionRange := .one

/-- The constructor, on a queue handle for which it did not fail.
Source: `blob_stream_mq_snd_impl.hpp` `Blob_stream_mq_sender_impl()` -/
def ctor (mq : Mq) : BlobStreamMqSender where
  out := ⟨mq, [], none, 0, false⟩
  protocolNegotiator := .ctor versionOne
  started := false
  mqMaxMsgSz := mq.maxMsgSize
  finished := false
  pendingOnLastSendDoneFunc := none
  autoPingPeriod := 0
  autoPingTimer := .inactive

/-- `assert(p)` -/
def assert (s : BlobStreamMqSender) (p : Prop) [Decidable p] : BlobStreamMqSender :=
  { s with out := s.out.assert p }

/-- An assertion that holds leaves no trace. -/
@[simp] theorem assert_of {s : BlobStreamMqSender} {p : Prop} [Decidable p] (h : p) :
    s.assert p = s := by
  simp [assert, h]

/-- `start_send_blob_ops()`
Source: `blob_stream_mq_snd_impl.hpp` `start_send_blob_ops` -/
def startSendBlobOps (s : BlobStreamMqSender) : Bool × BlobStreamMqSender :=
  if s.started then (false, s)
  else
    let s := { s with started := true }
    if s.out.pendingErrCode = none then
      let (protocolVerToSend, negotiator) := s.protocolNegotiator.localMaxProtoVerForSending
      let s := { s with protocolNegotiator := negotiator }
      let s := s.assert (protocolVerToSend ≠ verUnknown)
      let s := s.assert (s.protocolNegotiator.localMaxProtoVerForSending.1 = verUnknown)
      let (_, out) := s.out.syncWriteOrQCtlCmdImpl (-protocolVerToSend)
      (true, { s with out := out })
    else (true, s)

/-- The rescheduling of the next ping after a blob was sent.
Source: `blob_stream_mq_snd_impl.hpp` `send_blob` -/
def rescheduleAutoPing (s : BlobStreamMqSender) : BlobStreamMqSender :=
  let (nCanceled, timer) := s.autoPingTimer.expiresAfter
  if nCanceled = 1 then { s with autoPingTimer := timer.asyncWait }
  else { s with autoPingTimer := timer }.assert (nCanceled = 0)

/-- `send_blob()`, with a non-null `err_code`: what it returns, and `*err_code`.
Source: `blob_stream_mq_snd_impl.hpp` `send_blob` -/
def sendBlob (s : BlobStreamMqSender) (blob : Blob) : Bool × ErrorCode × BlobStreamMqSender :=
  let s := s.assert (blob.length ≠ 0)
  if s.started = false then (false, none, s)
  else if s.finished then (true, Code.sendsFinishedCannotSend.toErrorCode, s)
  else if s.mqMaxMsgSz < blob.length then (true, Code.invalidArgument.toErrorCode, s)
  else if s.out.pendingErrCode.isSome then (true, s.out.pendingErrCode, s)
  else
    let (_, _, out) := s.out.syncWriteOrQPayload blob false
    let s := { s with out := out }
    if s.out.pendingErrCode.isSome then (true, s.out.pendingErrCode, s)
    else if s.autoPingPeriod ≠ 0 then (true, s.out.pendingErrCode, s.rescheduleAutoPing)
    else (true, s.out.pendingErrCode, s)

/-- `async_end_sending_impl()`: what it returns, and what it leaves in
`*sync_err_code_ptr_or_null`. The handler `onDoneFunc` and that pointer are given together or not at
all.
Source: `blob_stream_mq_snd_impl.hpp` `async_end_sending_impl` -/
def asyncEndSendingImpl (s : BlobStreamMqSender) (onDoneFunc : Option Nat) :
    Bool × ErrorCode × BlobStreamMqSender :=
  if s.started = false then (false, none, s)
  else if s.finished then (false, none, s)
  else
    let s := { s with finished := true }
    if s.out.pendingErrCode.isSome then (true, s.out.pendingErrCode, s)
    else
      let (flushed, out) := s.out.syncWriteOrQCtlCmdImpl ctlEndSending
      let qd := !flushed
      let s := { s with out := out }
      let s :=
        if qd ∧ onDoneFunc.isSome then
          let s := s.assert (s.pendingOnLastSendDoneFunc = none)
          { s with pendingOnLastSendDoneFunc := onDoneFunc }
        else s
      let s := if s.out.pendingErrCode.isSome then s.assert (qd = false) else s
      (true, if qd then wouldBlock else s.out.pendingErrCode, s)

/-- `end_sending()`
Source: `blob_stream_mq_snd_impl.hpp` `end_sending` -/
def endSending (s : BlobStreamMqSender) : Bool × BlobStreamMqSender :=
  let (ok, _, s) := s.asyncEndSendingImpl none
  (ok, s)

/-- `async_end_sending()` with a non-null pointer: what it returns, and the code it leaves there, if
it accepts.
Source: `blob_stream_mq_snd_impl.hpp` `async_end_sending` -/
def asyncEndSending (s : BlobStreamMqSender) (onDoneFunc : Nat) :
    Bool × ErrorCode × BlobStreamMqSender :=
  s.asyncEndSendingImpl (some onDoneFunc)

/-- `auto_ping()`
Source: `blob_stream_mq_snd_impl.hpp` `auto_ping` -/
def autoPing (s : BlobStreamMqSender) (period : Nat) : Bool × BlobStreamMqSender :=
  if s.started = false then (false, s)
  else
    let s := s.assert (0 < period)
    if s.finished then (false, s)
    else if s.autoPingPeriod ≠ 0 then (false, s)
    else
      let s := { s with autoPingPeriod := period }
      if s.out.pendingErrCode.isSome then (true, s)
      else
        let (_, out) := s.out.syncWriteOrQCtlCmdImpl ctlPing
        let s := { s with out := out }
        if s.out.pendingErrCode.isSome then (true, s)
        else (true, { s with autoPingTimer := s.autoPingTimer.schedule })

/-- `on_ev_auto_ping_now_timer_fired()`
Source: `blob_stream_mq_snd_impl.hpp` `on_ev_auto_ping_now_timer_fired` -/
def onEvAutoPingNowTimerFired (s : BlobStreamMqSender) : BlobStreamMqSender :=
  let s := { s with autoPingTimer := s.autoPingTimer.consumeTimerFiringSignal }
  if s.out.pendingErrCode.isSome then s
  else if s.finished then s
  else
    let (_, out) := s.out.syncWriteOrQCtlCmdImpl ctlPing
    let s := { s with out := out }
    if s.out.pendingErrCode.isSome then s
    else { s with autoPingTimer := s.autoPingTimer.schedule }

/-- The event: the queue is writable, or has an error. The second result is the handler invoked, if
any, and with what.
Source: `blob_stream_mq_snd_impl.hpp` `async_write_q_head_payload`, the event -/
def onEvMqWritable (s : BlobStreamMqSender) : BlobStreamMqSender × Option (Nat × ErrorCode) :=
  let s := s.assert (s.out.pendingPayloadsQ ≠ [])
  let s := s.assert (s.out.pendingErrCode = none)
  let (mq, q, err) := Out.drain s.out.mq s.out.pendingPayloadsQ
  let s := { s with out := { s.out with mq := mq, pendingPayloadsQ := q, pendingErrCode := err } }
  let (invoke, s) :=
    if err.isSome then (s.pendingOnLastSendDoneFunc.isSome, s.assert (q ≠ []))
    else if q = [] then (s.pendingOnLastSendDoneFunc.isSome, s)
    else (false, { s with out := s.out.asyncWriteQHeadPayload })
  match s.pendingOnLastSendDoneFunc with
  | some f => if invoke then ({ s with pendingOnLastSendDoneFunc := none }, some (f, err)) else (s, none)
  | none => (s, none)

/-! ## Steps -/

/-- What the user of a sender, its event loop and its worker thread can do. -/
inductive Input where
  /-- `start_send_blob_ops()` -/
  | startSendBlobOps
  /-- `send_blob()`; the contract asks for a blob that is not empty. -/
  | sendBlob (blob : {b : Blob // b ≠ []})
  /-- `end_sending()` -/
  | endSending
  /-- `async_end_sending()` -/
  | asyncEndSending (onDoneFunc : Nat)
  /-- `auto_ping()`; the contract asks for a positive period. -/
  | autoPing (period : {n : Nat // 0 < n})
  /-- The queue is reported writable. -/
  | mqWritable
  /-- The ping timer fires in its worker thread. -/
  | timerFires
  /-- The signal pipe of the ping timer is reported readable. -/
  | timerReadable
  deriving DecidableEq

/-- What a step lets the outside see. -/
inductive Obs where
  /-- `send_blob()` returned `true` without an error. -/
  | accepted (blob : {b : Blob // b ≠ []})
  /-- A call of `*end_sending()` returned `ok`, and the code `err` if it had a handler. -/
  | ended (ok : Bool) (onDoneFunc : Option Nat) (err : ErrorCode)
  /-- A handler was invoked. -/
  | invoked (onDoneFunc : Nat) (err : ErrorCode)
  deriving DecidableEq

/-- The answers the queue will give during the next operation. -/
def withAnswers (s : BlobStreamMqSender) (ks : List MqAnswer) : BlobStreamMqSender :=
  { s with out := { s.out with mq := { s.out.mq with answers := ks } } }

/-- One step, during which the queue gives the answers `ks`; events need a wait for them. -/
def step (s : BlobStreamMqSender) (i : Input) (ks : List MqAnswer) :
    Option (BlobStreamMqSender × List Obs) :=
  let s := s.withAnswers ks
  match i with
  | .startSendBlobOps => some (s.startSendBlobOps.2, [])
  | .sendBlob blob =>
    match s.sendBlob blob with
    | (true, none, s) => some (s, [.accepted blob])
    | (_, _, s) => some (s, [])
  | .endSending =>
    let (ok, s) := s.endSending
    some (s, [.ended ok none none])
  | .asyncEndSending f =>
    let (ok, err, s) := s.asyncEndSending f
    some (s, [.ended ok (some f) err])
  | .autoPing period => some ((s.autoPing period).2, [])
  | .mqWritable =>
    if 0 < s.out.evWaits then
      match { s with out := { s.out with evWaits := s.out.evWaits - 1 } }.onEvMqWritable with
      | (s, some (f, err)) => some (s, [.invoked f err])
      | (s, none) => some (s, [])
    else none
  | .timerFires =>
    s.autoPingTimer.fire.map fun timer => ({ s with autoPingTimer := timer }, [])
  | .timerReadable =>
    s.autoPingTimer.takeEvent.map fun timer =>
      ({ s with autoPingTimer := timer }.onEvAutoPingNowTimerFired, [])

end BlobStreamMqSender

end FlowIpc.MqStream
