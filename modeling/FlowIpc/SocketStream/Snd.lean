import FlowIpc.Found.Timer
import FlowIpc.Lib.LittleEndian
import FlowIpc.Negotiation.Negotiator
import FlowIpc.SocketStream.Socket

/-!
# The sending direction of a socket stream

`Native_socket_stream::Impl`, the `m_snd_*` half: the `sync_io` core that sends handles and blobs over a
local stream socket. A message is one low-level payload or two: the first has the handle, if any, and
two bytes, the length of the blob; the second has the blob, if it is not empty. The other values of the
two bytes stand for the graceful close (0 without a handle), a ping (all ones) and, first of all, the
protocol version. A payload, or the part of one, that would block is queued, and an event-loop wait on
the socket being writable is kept up while any is.

The part of the object that low-level writing touches is `Out`.

Source: `sync_io/detail/native_socket_stream_impl_snd.cpp`, `native_socket_stream_impl.cpp`.
-/

namespace FlowIpc.SocketStream

open Negotiation

/-! ## Special payloads -/

/-- `S_META_BLOB_LENGTH_PING_SENTINEL` -/
def metaBlobLengthPingSentinel : Nat := 2 ^ 16 - 1

/-- `S_MAX_META_BLOB_LENGTH` -/
def maxMetaBlobLength : Nat := metaBlobLengthPingSentinel - 1

/-- The bytes of a `low_lvl_payload_blob_length_t`, a `uint16_t`. -/
def lengthBytes (metaLengthRaw : Nat) : Blob :=
  LittleEndian.encode 2 metaLengthRaw

/-- A length is two bytes. -/
@[simp] theorem length_lengthBytes (n : Nat) : (lengthBytes n).length = 2 := by
  simp [lengthBytes]

/-- A length is not empty. -/
theorem lengthBytes_ne_nil (n : Nat) : lengthBytes n ≠ [] := by
  intro h
  have hlen := length_lengthBytes n
  rw [h] at hlen
  cases hlen

/-! ## Low-level writing -/

/-- `Snd_low_lvl_payload` -/
structure SndLowLvlPayload where
  /-- `m_hndl_or_null` -/
  hndlOrNull : NativeHandle
  /-- `m_blob` -/
  blob : Blob
  deriving DecidableEq

/-- The parts of a sender that low-level writing touches. -/
structure Out where
  /-- `m_peer_socket` and `m_peer_socket_hosed` -/
  peerSocket : PeerSocket
  /-- `m_snd_pending_payloads_q` -/
  pendingPayloadsQ : List SndLowLvlPayload
  /-- `m_snd_pending_err_code` -/
  pendingErrCode : ErrorCode
  /-- Waits for the socket to be writable, asked of the event loop through `m_snd_ev_wait_func`. -/
  evWaits : Nat
  /-- Some assertion of low-level writing has failed; execution goes on, as in a build without
  assertions. -/
  assertFailed : Bool
  deriving DecidableEq

namespace Out

/-- `assert(p)` -/
def assert (o : Out) (p : Prop) [Decidable p] : Out :=
  { o with assertFailed := o.assertFailed || !decide p }

/-- An assertion that holds leaves no trace. -/
@[simp] theorem assert_of {o : Out} {p : Prop} [Decidable p] (h : p) : o.assert p = o := by
  simp [assert, h]

/-- `snd_async_write_q_head_payload()`
Source: `native_socket_stream_impl_snd.cpp` `snd_async_write_q_head_payload` -/
def asyncWriteQHeadPayload (o : Out) : Out :=
  let o := o.assert (o.pendingPayloadsQ ≠ [])
  let o := o.assert (o.pendingErrCode = none)
  let p := o.peerSocket.lock
  if p.alive then { o with peerSocket := p, evWaits := o.evWaits + 1 }
  else
    { o with
      peerSocket := p
      pendingErrCode := Code.lowLvlTransportHosedCannotSend.toErrorCode }

/-- The second half of `snd_sync_write_or_q_payload()`, where `nSentOrZero` bytes of the payload could be
written at once.
Source: `native_socket_stream_impl_snd.cpp` `snd_sync_write_or_q_payload` -/
def queuePayload (o : Out) (hndlOrNull : NativeHandle) (origBlob : Blob) (nSentOrZero : Nat)
    (avoidQing : Bool) : Bool × Out :=
  let o := if avoidQing then o.assert (hndlOrNull = none) else o
  if avoidQing ∧ nSentOrZero = 0 then (decide (o.pendingPayloadsQ = []), o)
  else
    let newLowLvlPayload : SndLowLvlPayload :=
      ⟨if nSentOrZero = 0 then hndlOrNull else none, origBlob.drop nSentOrZero⟩
    let o := { o with pendingPayloadsQ := o.pendingPayloadsQ ++ [newLowLvlPayload] }
    if o.pendingPayloadsQ.length = 1 then
      let o := o.asyncWriteQHeadPayload
      (o.pendingErrCode.isSome, o)
    else (false, o.assert (o.pendingErrCode = none))

/-- `snd_sync_write_or_q_payload()`
Source: `native_socket_stream_impl_snd.cpp` `snd_sync_write_or_q_payload` -/
def syncWriteOrQPayload (o : Out) (hndlOrNull : NativeHandle) (origBlob : Blob)
    (avoidQing : Bool) : Bool × Out :=
  let o := o.assert (o.pendingErrCode = none)
  if o.pendingPayloadsQ = [] then
    let (nSentOrZero, err, p) := o.peerSocket.sndNbWriteLowLvlPayload hndlOrNull origBlob
    let o := { o with peerSocket := p, pendingErrCode := err }
    if err.isSome then (true, o.assert (nSentOrZero = 0))
    else if nSentOrZero = origBlob.length then (true, o)
    else o.queuePayload hndlOrNull origBlob nSentOrZero avoidQing
  else o.queuePayload hndlOrNull origBlob 0 avoidQing

/-- The writing of a message, payload by payload.
Source: `native_socket_stream_impl_snd.cpp` `send_native_handle` -/
def sendLowLvlPayloads (o : Out) (hndlOrNull : NativeHandle) (metaBlob : Blob) : Out :=
  let (_, o) := o.syncWriteOrQPayload hndlOrNull (lengthBytes metaBlob.length) false
  if metaBlob.length ≠ 0 ∧ o.pendingErrCode = none then
    (o.syncWriteOrQPayload none metaBlob false).2
  else o

/-- The loop of the writable event: writes queued payloads until one would block or fails, or none is
left. The result is the socket, the payloads left, and `m_snd_pending_err_code`.
Source: `native_socket_stream_impl_snd.cpp` `snd_on_ev_peer_socket_writable_or_error`, the
`do`-`while` -/
def drain (p : PeerSocket) : List SndLowLvlPayload → PeerSocket × List SndLowLvlPayload × ErrorCode
  | [] => (p, [], none)
  | lowLvlPayload :: q =>
    match p.sndNbWriteLowLvlPayload lowLvlPayload.hndlOrNull lowLvlPayload.blob with
    | (_, some e, p) => (p, lowLvlPayload :: q, some e)
    | (nSentOrZero, none, p) =>
      if nSentOrZero = lowLvlPayload.blob.length then drain p q
      else if nSentOrZero ≠ 0 then
        (p, ⟨none, lowLvlPayload.blob.drop nSentOrZero⟩ :: q, none)
      else (p, lowLvlPayload :: q, none)

end Out

/-! ## The sender -/

/-- The sending direction of a `Native_socket_stream::Impl`. Handlers are told apart by number.
Source: `native_socket_stream_impl.hpp` `Native_socket_stream::Impl` -/
structure NativeSocketStreamSnd where
  /-- The socket, the payloads waiting for it, the error that ended them. -/
  out : Out
  /-- `m_state == State::S_PEER` -/
  statePeer : Bool
  /-- `m_protocol_negotiator` -/
  protocolNegotiator : ProtocolNegotiator
  /-- `!m_snd_ev_wait_func.empty()` -/
  started : Bool
  /-- `m_snd_finished` -/
  finished : Bool
  /-- `m_snd_pending_on_last_send_done_func_or_empty` -/
  pendingOnLastSendDoneFunc : Option Nat
  /-- `m_snd_auto_ping_period`; 0 for `zero()`. -/
  autoPingPeriod : Nat
  /-- `m_snd_auto_ping_timer` and `m_snd_auto_ping_timer_fired_peer`. -/
  autoPingTimer : Timer
  /-- Some other assertion has failed. -/
  assertFailed : Bool

/-- The only version there is. -/
def versionOne : VersionRange := .one

namespace NativeSocketStreamSnd

/-- The constructors: in the PEER state around a connected socket, or in the NULL state.
Source: `native_socket_stream_impl.cpp` `Impl()` -/
def ctor (statePeer : Bool) (peerSocket : PeerSocket) : NativeSocketStreamSnd where
  out := ⟨peerSocket, [], none, 0, false⟩
  statePeer := statePeer
  protocolNegotiator := .ctor versionOne
  started := false
  finished := false
  pendingOnLastSendDoneFunc := none
  autoPingPeriod := 0
  autoPingTimer := .inactive
  assertFailed := false

/-- `assert(p)` -/
def assert (s : NativeSocketStreamSnd) (p : Prop) [Decidable p] : NativeSocketStreamSnd :=
  { s with assertFailed := s.assertFailed || !decide p }

/-- An assertion that holds leaves no trace. -/
@[simp] theorem assert_of {s : NativeSocketStreamSnd} {p : Prop} [Decidable p] (h : p) :
    s.assert p = s := by
  simp [assert, h]

/-- `start_send_native_handle_ops()`, `start_send_blob_ops()`
Source: `native_socket_stream_impl_snd.cpp` `start_send_native_handle_ops` -/
def startSendNativeHandleOps (s : NativeSocketStreamSnd) : Bool × NativeSocketStreamSnd :=
  if s.started then (false, s)
  else
    let s := { s with started := true }
    let (protocolVerToSendIfNeeded, negotiator) := s.protocolNegotiator.localMaxProtoVerForSending
    let s := { s with protocolNegotiator := negotiator }
    if protocolVerToSendIfNeeded ≠ verUnknown then
      let s := s.assert (s.protocolNegotiator.localMaxProtoVerForSending.1 = verUnknown)
      let s := s.assert (s.out.pendingErrCode = none)
      let (_, out) :=
        s.out.syncWriteOrQPayload none (lengthBytes protocolVerToSendIfNeeded.toNat) false
      (true, { s with out := out })
    else (true, s)

/-- The rescheduling of the next ping after a message was sent.
Source: `native_socket_stream_impl_snd.cpp` `send_native_handle` -/
def rescheduleAutoPing (s : NativeSocketStreamSnd) : NativeSocketStreamSnd :=
  let (nCanceled, timer) := s.autoPingTimer.expiresAfter
  if nCanceled = 1 then { s with autoPingTimer := timer.asyncWait }
  else { s with autoPingTimer := timer }.assert (nCanceled = 0)

/-- `send_native_handle()`, with a non-null `err_code`: what it returns, and `*err_code`.
`send_blob()` is this with a null handle.
Source: `native_socket_stream_impl_snd.cpp` `send_native_handle` -/
def sendNativeHandle (s : NativeSocketStreamSnd) (hndlOrNull : NativeHandle) (metaBlob : Blob) :
    Bool × ErrorCode × NativeSocketStreamSnd :=
  if s.started = false ∨ s.statePeer = false then (false, none, s)
  else
    let s := s.assert (hndlOrNull ≠ none ∨ metaBlob.length ≠ 0)
    if s.finished then (true, Code.sendsFinishedCannotSend.toErrorCode, s)
    else if maxMetaBlobLength < metaBlob.length then (true, Code.invalidArgument.toErrorCode, s)
    else if s.out.pendingErrCode.isSome then (true, s.out.pendingErrCode, s)
    else
      let s := { s with out := s.out.sendLowLvlPayloads hndlOrNull metaBlob }
      if s.out.pendingErrCode.isSome then (true, s.out.pendingErrCode, s)
      else if s.autoPingPeriod ≠ 0 then (true, s.out.pendingErrCode, s.rescheduleAutoPing)
      else (true, s.out.pendingErrCode, s)

/-- `async_end_sending_impl()`: what it returns, and what it leaves in
`*sync_err_code_ptr_or_null`. The handler `onDoneFunc` and that pointer are given together or not at
all.
Source: `native_socket_stream_impl_snd.cpp` `async_end_sending_impl` -/
def asyncEndSendingImpl (s : NativeSocketStreamSnd) (onDoneFunc : Option Nat) :
    Bool × ErrorCode × NativeSocketStreamSnd :=
  if s.started = false ∨ s.statePeer = false then (false, none, s)
  else if s.finished then (false, none, s)
  else
    let s := { s with finished := true }
    if s.out.pendingErrCode.isSome then (true, s.out.pendingErrCode, s)
    else
      let s := s.assert (s.pendingOnLastSendDoneFunc = none)
      -- The handler is moved from here on, and so is empty.
      let s := { s with pendingOnLastSendDoneFunc := onDoneFunc }
      let (flushed, out) := s.out.syncWriteOrQPayload none (lengthBytes 0) false
      let qd := !flushed
      let s := { s with out := out }
      let s :=
        if qd ∧ onDoneFunc.isSome then
          let s := s.assert (s.pendingOnLastSendDoneFunc = none)
          { s with pendingOnLastSendDoneFunc := none }
        else s
      let s := if s.out.pendingErrCode.isSome then s.assert (qd = false) else s
      (true, if qd then wouldBlock else s.out.pendingErrCode, s)

/-- `end_sending()`
Source: `native_socket_stream_impl_snd.cpp` `end_sending` -/
def endSending (s : NativeSocketStreamSnd) : Bool × NativeSocketStreamSnd :=
  let (ok, _, s) := s.asyncEndSendingImpl none
  (ok, s)

/-- `async_end_sending()` with a non-null pointer: what it returns, and the code it leaves there, if
it accepts.
Source: `native_socket_stream_impl_snd.cpp` `async_end_sending` -/
def asyncEndSending (s : NativeSocketStreamSnd) (onDoneFunc : Nat) :
    Bool × ErrorCode × NativeSocketStreamSnd :=
  s.asyncEndSendingImpl (some onDoneFunc)

/-- `auto_ping()`
Source: `native_socket_stream_impl_snd.cpp` `auto_ping` -/
def autoPing (s : NativeSocketStreamSnd) (period : Nat) : Bool × NativeSocketStreamSnd :=
  if s.started = false ∨ s.statePeer = false then (false, s)
  else
    let s := s.assert (0 < period)
    if s.finished then (false, s)
    else if s.autoPingPeriod ≠ 0 then (false, s)
    else
      let s := { s with autoPingPeriod := period }
      if s.out.pendingErrCode.isSome then (true, s)
      else
        let (_, out) :=
          s.out.syncWriteOrQPayload none (lengthBytes metaBlobLengthPingSentinel) true
        let s := { s with out := out }
        if s.out.pendingErrCode.isSome then (true, s)
        else (true, { s with autoPingTimer := s.autoPingTimer.schedule })

/-- `snd_on_ev_auto_ping_now_timer_fired()`
Source: `native_socket_stream_impl_snd.cpp` `snd_on_ev_auto_ping_now_timer_fired` -/
def onEvAutoPingNowTimerFired (s : NativeSocketStreamSnd) : NativeSocketStreamSnd :=
  let s := { s with autoPingTimer := s.autoPingTimer.consumeTimerFiringSignal }
  if s.out.pendingErrCode.isSome then s
  else if s.finished then s
  else
    let (_, out) :=
      s.out.syncWriteOrQPayload none (lengthBytes metaBlobLengthPingSentinel) true
    let s := { s with out := out }
    if s.out.pendingErrCode.isSome then s
    else { s with autoPingTimer := s.autoPingTimer.schedule }

/-- `snd_on_ev_peer_socket_writable_or_error()`. The second result is the handler invoked, if any, and
with what.
Source: `native_socket_stream_impl_snd.cpp` `snd_on_ev_peer_socket_writable_or_error` -/
def onEvPeerSocketWritableOrError (s : NativeSocketStreamSnd) :
    NativeSocketStreamSnd × Option (Nat × ErrorCode) :=
  let s := s.assert (s.out.pendingPayloadsQ ≠ [])
  let s := s.assert (s.out.pendingErrCode = none)
  let (p, q, err) := Out.drain s.out.peerSocket s.out.pendingPayloadsQ
  let s :=
    { s with out := { s.out with peerSocket := p, pendingPayloadsQ := q, pendingErrCode := err } }
  let s :=
    if s.out.pendingErrCode = none ∧ s.out.pendingPayloadsQ ≠ [] then
      { s with out := s.out.asyncWriteQHeadPayload }
    else s
  let (invokeOnDone, s) :=
    if s.out.pendingErrCode.isSome then
      (s.pendingOnLastSendDoneFunc.isSome, s.assert (s.out.pendingPayloadsQ ≠ []))
    else if s.out.pendingPayloadsQ = [] then (s.pendingOnLastSendDoneFunc.isSome, s)
    else (false, s)
  match s.pendingOnLastSendDoneFunc with
  | some f =>
    if invokeOnDone then
      ({ s with pendingOnLastSendDoneFunc := none }, some (f, s.out.pendingErrCode))
    else (s, none)
  | none => (s, none)

/-! ## Steps -/

/-- What a message must be to be given to `send_native_handle()`: not nothing. -/
abbrev UserMsg := {m : NativeHandle × Blob // m.1 ≠ none ∨ m.2 ≠ []}

/-- What the user of a sender, its event loop and its worker thread can do. -/
inductive Input where
  /-- `sync_connect()` has succeeded. -/
  | connected
  /-- `start_send_native_handle_ops()`, `start_send_blob_ops()` -/
  | startSendNativeHandleOps
  /-- `send_native_handle()`, `send_blob()`; the contract asks for a message that is not nothing. -/
  | sendNativeHandle (m : UserMsg)
  /-- `end_sending()` -/
  | endSending
  /-- `async_end_sending()` -/
  | asyncEndSending (onDoneFunc : Nat)
  /-- `auto_ping()`; the contract asks for a positive period. -/
  | autoPing (period : {n : Nat // 0 < n})
  /-- The socket is reported writable. -/
  | socketWritable
  /-- The ping timer fires in its worker thread. -/
  | timerFires
  /-- The signal pipe of the ping timer is reported readable. -/
  | timerReadable
  deriving DecidableEq

/-- What a step lets the outside see. -/
inductive Obs where
  /-- `send_native_handle()` returned `true` without an error. -/
  | accepted (m : UserMsg)
  /-- A call of `*end_sending()` returned `ok`, and the code `err` if it had a handler. -/
  | ended (ok : Bool) (onDoneFunc : Option Nat) (err : ErrorCode)
  /-- A handler was invoked. -/
  | invoked (onDoneFunc : Nat) (err : ErrorCode)
  deriving DecidableEq

/-- The answers the socket will give during the next operation. -/
def withAnswers (s : NativeSocketStreamSnd) (ks : List SockAnswer) : NativeSocketStreamSnd :=
  { s with out := { s.out with peerSocket := { s.out.peerSocket with answers := ks } } }

/-- The handler invoked by an event, as seen. -/
def invocations : Option (Nat × ErrorCode) → List Obs
  | none => []
  | some (f, err) => [.invoked f err]

/-- One step, during which the socket gives the answers `ks`; events need a wait for them. -/
def step (s : NativeSocketStreamSnd) (i : Input) (ks : List SockAnswer) :
    Option (NativeSocketStreamSnd × List Obs) :=
  let s := s.withAnswers ks
  match i with
  | .connected => some ({ s with statePeer := true }, [])
  | .startSendNativeHandleOps => some (s.startSendNativeHandleOps.2, [])
  | .sendNativeHandle m =>
    match s.sendNativeHandle m.val.1 m.val.2 with
    | (true, none, s) => some (s, [.accepted m])
    | (_, _, s) => some (s, [])
  | .endSending =>
    let (ok, s) := s.endSending
    some (s, [.ended ok none none])
  | .asyncEndSending f =>
    let (ok, err, s) := s.asyncEndSending f
    some (s, [.ended ok (some f) err])
  | .autoPing period => some ((s.autoPing period).2, [])
  | .socketWritable =>
    if 0 < s.out.evWaits then
      let (s, invoked) :=
        { s with out := { s.out with evWaits := s.out.evWaits - 1 } }.onEvPeerSocketWritableOrError
      some (s, invocations invoked)
    else none
  | .timerFires =>
    s.autoPingTimer.fire.map fun timer => ({ s with autoPingTimer := timer }, [])
  | .timerReadable =>
    s.autoPingTimer.takeEvent.map fun timer =>
      ({ s with autoPingTimer := timer }.onEvAutoPingNowTimerFired, [])

end NativeSocketStreamSnd

end FlowIpc.SocketStream
