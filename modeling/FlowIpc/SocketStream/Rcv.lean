import FlowIpc.SocketStream.Snd
import Mathlib.Tactic.SplitIfs

/-!
# The receiving direction of a socket stream

`Native_socket_stream::Impl`, the `m_rcv_*` half: the `sync_io` core that receives handles and blobs
from a local stream socket, one request at a time. Where a message has come in only partly, the wait
for the rest records which part of it is being read, and how many bytes of that are left.

Special payloads are skipped by calling `rcv_read_msg()` again, the last thing done in each case. Here
the functions leave that to their caller, with the result `none`, and `readMsg` goes around; each turn
uses up one of the socket's answers.

Source: `sync_io/detail/native_socket_stream_impl_rcv.cpp`, `native_socket_stream_impl.cpp`.
-/

namespace FlowIpc.SocketStream

open Negotiation

/-- `Rcv_msg_state`, with the bytes left: what is being read of a message.
Source: `native_socket_stream_impl.hpp` `Rcv_msg_state` -/
inductive RcvMsgState where
  /-- `S_MSG_START` -/
  | msgStart
  /-- `S_HEAD_PAYLOAD`, with `n_left` bytes left of it. -/
  | headPayload (nLeft : Nat)
  /-- `S_META_BLOB_PAYLOAD`, with `n_left` bytes left of it. -/
  | metaBlobPayload (nLeft : Nat)
  deriving DecidableEq

/-- `Rcv_user_request`; what the user's pointers point to is part of it.
Source: `native_socket_stream_impl.hpp` `Rcv_user_request` -/
structure RcvUserRequest where
  /-- `*m_target_hndl_ptr`, if that is not null. -/
  targetHndl : Option NativeHandle
  /-- `m_target_meta_blob` -/
  targetMetaBlob : Blob
  /-- `m_on_done_func` -/
  onDoneFunc : Nat
  deriving DecidableEq

/-- The bytes of a buffer after some were written into it at an offset. -/
def writeAt (buf : Blob) (offset : Nat) (bytes : Blob) : Blob :=
  buf.take offset ++ bytes ++ buf.drop (offset + bytes.length)

/-! ## Low-level reading -/

/-- What low-level reading has for its caller at the end: `*sync_err_code` and `*sync_sz`. -/
abbrev Result := ErrorCode × Nat

/-- The parts of a receiver that low-level reading touches. -/
structure In where
  /-- `m_peer_socket` and `m_peer_socket_hosed` -/
  peerSocket : PeerSocket
  /-- `m_protocol_negotiator` -/
  protocolNegotiator : ProtocolNegotiator
  /-- The bytes of `m_rcv_target_meta_length`. -/
  targetMetaLength : Blob
  /-- `m_rcv_pending_err_code` -/
  pendingErrCode : ErrorCode
  /-- `m_rcv_user_request` -/
  userRequest : Option RcvUserRequest
  /-- `m_rcv_idle_timeout`; 0 for `zero()`. -/
  idleTimeout : Nat
  /-- `m_rcv_idle_timer` and `m_rcv_idle_timer_fired_peer`. -/
  idleTimer : Timer
  /-- Waits for the socket to be readable, asked of the event loop through `m_rcv_ev_wait_func`, each
  with what the function to be called has captured. -/
  evWaits : List RcvMsgState
  /-- Some assertion has failed; execution goes on, as in a build without assertions. -/
  assertFailed : Bool

namespace In

/-- `assert(p)` -/
def assert (r : In) (p : Prop) [Decidable p] : In :=
  { r with assertFailed := r.assertFailed || !decide p }

/-- An assertion that holds leaves no trace. -/
@[simp] theorem assert_of {r : In} {p : Prop} [Decidable p] (h : p) : r.assert p = r := by
  simp [assert, h]

/-- `rcv_not_idle()`
Source: `native_socket_stream_impl_rcv.cpp` `rcv_not_idle` -/
def notIdle (r : In) : In :=
  if r.idleTimeout = 0 then r
  else
    let (nCanceled, timer) := r.idleTimer.expiresAfter
    if nCanceled = 0 then { r with idleTimer := timer }
    else { r with idleTimer := timer.asyncWait }.assert (nCanceled = 1)

/-- A timer in order, if it is put off, is as it was. -/
theorem notIdle_eq {r : In} (ht : r.idleTimer.Ok) : r.notIdle = r := by
  unfold notIdle
  have hle := Timer.expiresAfter_le_one ht
  split
  · rfl
  · dsimp only
    split
    · rename_i hzero
      rw [Timer.expiresAfter_of_zero hzero]
    · rename_i hne
      have hone : r.idleTimer.expiresAfter.1 = 1 := by omega
      rw [assert_of hone, ht.rewait_eq hone]

/-- `m_rcv_target_meta_length` -/
def metaLength (r : In) : Nat :=
  LittleEndian.decode r.targetMetaLength

/-- The conversion of a `low_lvl_payload_blob_length_t` to a `proto_ver_t`, an `int16_t`. -/
def toProtoVer (n : Nat) : Int := (n : Int).bmod (2 ^ 16)

/-- `m_rcv_user_request->m_target_meta_blob.size()` -/
def userTargetSize (r : In) : Nat :=
  (r.userRequest.map (·.targetMetaBlob.length)).getD 0

/-- `m_rcv_user_request->m_target_hndl_ptr`, if there is a request and that is not null. -/
def targetHndl (r : In) : Option NativeHandle :=
  r.userRequest.bind (·.targetHndl)

/-- The end of several functions, where an error has been found. -/
def emitErr (r : In) : Option Result × In :=
  let r := r.assert (r.pendingErrCode.isSome)
  (some (r.pendingErrCode, 0), r)

/-- The part of several functions that asks for a wait for the socket to be readable, unless that has
been put away. -/
def asyncWait (r : In) (msgState : RcvMsgState) : Option Result × In :=
  let p := r.peerSocket.lock
  if p.alive then
    (some (wouldBlock, 0), { r with peerSocket := p, evWaits := r.evWaits ++ [msgState] })
  else
    { r with
      peerSocket := p
      pendingErrCode := Code.lowLvlTransportHosedCannotReceive.toErrorCode }.emitErr

/-- `compute_negotiated_proto_ver()` on the receiver's negotiator and error. -/
def negotiate (r : In) (opposingMaxProtoVer : Int) : In :=
  let (ok, err, negotiator) :=
    r.protocolNegotiator.computeNegotiatedProtoVer opposingMaxProtoVer r.pendingErrCode
  { r with protocolNegotiator := negotiator, pendingErrCode := err }.assert (ok = true)

/-- The bytes read go to where the target is: the last `n_left` bytes of the part being read.
Source: `native_socket_stream_impl_rcv.cpp` `rcv_on_ev_peer_socket_readable_or_error`,
`rcv_on_head_payload`, `rcv_read_msg` -/
def store (r : In) (msgState : RcvMsgState) (bytes : Blob) : In :=
  match msgState with
  | .msgStart => { r with targetMetaLength := writeAt r.targetMetaLength 0 bytes }
  | .headPayload nLeft =>
    { r with targetMetaLength := writeAt r.targetMetaLength (2 - nLeft) bytes }
  | .metaBlobPayload nLeft =>
    { r with
      userRequest := r.userRequest.map fun request =>
        { request with
          targetMetaBlob := writeAt request.targetMetaBlob (r.metaLength - nLeft) bytes } }

/-- `rcv_read_blob()`, given what it does in the end, where all of the target has been read: one of
the two below.
Source: `native_socket_stream_impl_rcv.cpp` `rcv_read_blob` -/
def readBlobThen (onAll : In → Option Result × In) (msgState : Nat → RcvMsgState) (r : In)
    (size : Nat) : Option Result × In :=
  let r := r.assert (r.pendingErrCode = none)
  let r := r.assert (r.userRequest.isSome)
  let (got, err, p) := r.peerSocket.rcvNbReadLowLvlPayload size
  let r :=
    { r with peerSocket := p, pendingErrCode := err }.store (msgState size) (got.map Cell.byte)
  if err.isSome then r.emitErr
  else if got.length = size then onAll r
  else r.asyncWait (msgState (size - got.length))

/-- All of the meta-blob has been read.
Source: `native_socket_stream_impl_rcv.cpp` `rcv_read_blob`, `case S_META_BLOB_PAYLOAD` -/
def onMetaBlobPayload (r : In) : Option Result × In :=
  let r := r.notIdle
  (some (none, r.metaLength), r)

/-- `rcv_on_head_payload()`
Source: `native_socket_stream_impl_rcv.cpp` `rcv_on_head_payload` -/
def onHeadPayload (r : In) : Option Result × In :=
  let r := r.assert (r.userRequest.isSome)
  let r := r.assert (r.pendingErrCode = none)
  if r.protocolNegotiator.negotiatedProtoVer = verUnknown then
    let r := r.negotiate (toProtoVer r.metaLength)
    if r.pendingErrCode.isSome then (some (r.pendingErrCode, 0), r)
    else (none, r.notIdle)
  else if r.metaLength = metaBlobLengthPingSentinel then (none, r.notIdle)
  else if r.metaLength ≠ 0 then
    if r.metaLength ≤ r.userTargetSize then
      readBlobThen onMetaBlobPayload .metaBlobPayload r r.metaLength
    else
      let r := { r with pendingErrCode := Code.messageSizeExceedsUserStorage.toErrorCode }
      (some (r.pendingErrCode, 0), r)
  else if r.targetHndl.join ≠ none then
    let r := r.notIdle
    (some (r.pendingErrCode, 0), r)
  else
    let r := { r with pendingErrCode := Code.receivesFinishedCannotReceive.toErrorCode }
    (some (r.pendingErrCode, 0), r)

/-- `rcv_on_handle_finalized()`
Source: `native_socket_stream_impl_rcv.cpp` `rcv_on_handle_finalized` -/
def onHandleFinalized (r : In) (hndlOrNull : NativeHandle) (nRcvd : Nat) : Option Result × In :=
  let r := r.assert (r.userRequest.isSome)
  let r := r.assert (r.pendingErrCode = none)
  let r := r.assert (nRcvd ≠ 0)
  let protoNegotiating : Prop := r.protocolNegotiator.negotiatedProtoVer = verUnknown
  if protoNegotiating ∧ hndlOrNull ≠ none then (r.negotiate verUnknown).emitErr
  else if hndlOrNull ≠ none ∧ r.targetHndl = none then
    { r with pendingErrCode := Code.blobReceiverGotNonBlob.toErrorCode }.emitErr
  else
    let r :=
      if protoNegotiating then r
      else
        { r with
          userRequest := r.userRequest.map fun request =>
            { request with targetHndl := request.targetHndl.map fun _ => hndlOrNull } }
    if nRcvd = 2 then r.onHeadPayload else r.asyncWait (.headPayload (2 - nRcvd))

/-- `rcv_read_msg()`, once; `none` is to call it again.
Source: `native_socket_stream_impl_rcv.cpp` `rcv_read_msg` -/
def readMsgOnce (r : In) : Option Result × In :=
  let r := r.assert (r.pendingErrCode = none)
  let (got, err, p) := r.peerSocket.rcvNbReadLowLvlPayload 2
  let r := { r with peerSocket := p, pendingErrCode := err }.store .msgStart (got.map Cell.byte)
  if err.isSome then r.emitErr
  else if got.length ≠ 0 then r.onHandleFinalized (got.findSome? Cell.hndl) got.length
  else r.asyncWait .msgStart

/-! What is done with the cells read leaves the socket alone, but for reading on. -/

variable {r r' : In} {res : Result}

@[simp] theorem assert_peerSocket {p : Prop} [Decidable p] :
    (r.assert p).peerSocket = r.peerSocket := rfl

@[simp] theorem negotiate_peerSocket {ver : Int} :
    (r.negotiate ver).peerSocket = r.peerSocket := rfl

/-- Putting off the idle timer changes the timer, and perhaps fails an assertion. -/
theorem notIdle_with (r : In) : ∃ timer b, r.notIdle = { r with idleTimer := timer, assertFailed := b } := by
  unfold notIdle
  split
  · exact ⟨r.idleTimer, r.assertFailed, rfl⟩
  · simp only
    split
    · exact ⟨_, r.assertFailed, rfl⟩
    · exact ⟨_, _, rfl⟩

/-- Putting off the idle timer leaves the socket alone. -/
@[simp] theorem notIdle_peerSocket : r.notIdle.peerSocket = r.peerSocket := by
  obtain ⟨timer, b, heq⟩ := r.notIdle_with
  rw [heq]

/-- Putting off the idle timer is no error. -/
@[simp] theorem notIdle_pendingErrCode : r.notIdle.pendingErrCode = r.pendingErrCode := by
  obtain ⟨timer, b, heq⟩ := r.notIdle_with
  rw [heq]

/-- Putting off the idle timer does not wait for the socket. -/
@[simp] theorem notIdle_evWaits : r.notIdle.evWaits = r.evWaits := by
  obtain ⟨timer, b, heq⟩ := r.notIdle_with
  rw [heq]

/-- Storing bytes leaves the socket alone. -/
@[simp] theorem store_peerSocket {msgState : RcvMsgState} {bytes : Blob} :
    (r.store msgState bytes).peerSocket = r.peerSocket := by
  unfold store
  split <;> rfl

/-- Storing bytes is no error. -/
@[simp] theorem store_pendingErrCode {msgState : RcvMsgState} {bytes : Blob} :
    (r.store msgState bytes).pendingErrCode = r.pendingErrCode := by
  unfold store
  split <;> rfl

/-- Storing bytes does not wait for the socket. -/
@[simp] theorem store_evWaits {msgState : RcvMsgState} {bytes : Blob} :
    (r.store msgState bytes).evWaits = r.evWaits := by
  unfold store
  split <;> rfl

/-- After waiting has been asked for reading does not go on. -/
theorem asyncWait_ne_none {msgState : RcvMsgState} : r.asyncWait msgState ≠ (none, r') := by
  unfold asyncWait emitErr
  simp only
  split <;> simp

/-- There is always something to say when a meta-blob has been tried to read. -/
theorem readBlobThen_metaBlobPayload_ne_none {size : Nat} :
    readBlobThen onMetaBlobPayload .metaBlobPayload r size ≠ (none, r') := by
  unfold readBlobThen onMetaBlobPayload emitErr
  simp only
  split
  · simp
  · split
    · simp
    · exact asyncWait_ne_none

/-- Where reading goes on after the head of a message, nothing more has been read. -/
theorem onHeadPayload_none (h : r.onHeadPayload = (none, r')) : r'.peerSocket = r.peerSocket := by
  unfold onHeadPayload at h
  simp only at h
  split at h
  · split at h
    · cases h
    · cases h
      simp
  · split at h
    · cases h
      simp
    · split at h
      · split at h
        · exact absurd h readBlobThen_metaBlobPayload_ne_none
        · cases h
      · split at h
        · cases h
        · cases h

/-- Where reading goes on after a handle, nothing more has been read. -/
theorem onHandleFinalized_none {hndl : NativeHandle} {n : Nat}
    (h : r.onHandleFinalized hndl n = (none, r')) : r'.peerSocket = r.peerSocket := by
  unfold onHandleFinalized emitErr at h
  simp only at h
  split at h
  · cases h
  · split at h
    · cases h
    · split at h
      · have hsame := onHeadPayload_none h
        rw [hsame]
        split <;> rfl
      · exact absurd h asyncWait_ne_none

/-- A message is read over only after another, so each time uses up an answer. -/
theorem readMsgOnce_answers (h : r.readMsgOnce = (none, r')) :
    r'.peerSocket.answers.length < r.peerSocket.answers.length := by
  unfold readMsgOnce emitErr at h
  rcases hread : r.peerSocket.rcvNbReadLowLvlPayload 2 with ⟨got, err, p⟩
  simp only [assert_peerSocket, hread] at h
  split at h
  · cases h
  · split at h
    · rename_i hgot
      rw [onHandleFinalized_none h, store_peerSocket]
      exact PeerSocket.rcvNbRead_answers hread hgot
    · exact absurd h asyncWait_ne_none

/-- `rcv_read_msg()`
Source: `native_socket_stream_impl_rcv.cpp` `rcv_read_msg` -/
def readMsg (r : In) : Result × In :=
  match _h : r.readMsgOnce with
  | (some res, r) => (res, r)
  | (none, r) => r.readMsg
termination_by r.peerSocket.answers.length
decreasing_by exact readMsgOnce_answers ‹_›

/-- Reading, from some point on. -/
def readOn : Option Result × In → Result × In
  | (some res, r) => (res, r)
  | (none, r) => r.readMsg

/-- To read a message is to read its start, and then on. -/
theorem readMsg_eq (r : In) : r.readMsg = readOn r.readMsgOnce := by
  rcases honce : r.readMsgOnce with ⟨_ | res, r₁⟩
  · rw [readMsg, honce]
    rfl
  · rw [readMsg, honce]
    rfl

/-- Where reading a message is resumed.
Source: `native_socket_stream_impl_rcv.cpp` `rcv_on_ev_peer_socket_readable_or_error`, the `switch` -/
def resume (r : In) (msgState : RcvMsgState) : Result × In :=
  match msgState with
  | .msgStart => r.readMsg
  | .headPayload nLeft => readOn (readBlobThen onHeadPayload .headPayload r nLeft)
  | .metaBlobPayload nLeft => readOn (readBlobThen onMetaBlobPayload .metaBlobPayload r nLeft)

end In

/-! ## The receiver -/

/-- What the user finds when a request is done: the code, what is in the target for the handle, if
there is one, and the bytes in the target for the blob. -/
structure Received where
  /-- `*sync_err_code`, or the code given to the handler. -/
  err : ErrorCode
  /-- `*target_hndl`, if `target_hndl` is not null. -/
  hndl : Option NativeHandle
  /-- The first `*sync_sz` bytes of `target_meta_blob`. -/
  blob : Blob
  deriving DecidableEq

/-- The receiving direction of a `Native_socket_stream::Impl`. Handlers are told apart by number.
Source: `native_socket_stream_impl.hpp` `Native_socket_stream::Impl` -/
structure NativeSocketStreamRcv where
  /-- The socket, the request being served, and how far that has got. -/
  inp : In
  /-- `m_state == State::S_PEER` -/
  statePeer : Bool
  /-- `!m_rcv_ev_wait_func.empty()` -/
  started : Bool

namespace NativeSocketStreamRcv

/-- The constructors: in the PEER state around a connected socket, or in the NULL state.
Source: `native_socket_stream_impl.cpp` `Impl()` -/
def ctor (statePeer : Bool) (peerSocket : PeerSocket) : NativeSocketStreamRcv where
  inp := ⟨peerSocket, .ctor versionOne, [0, 0], none, none, 0, .inactive, [], false⟩
  statePeer := statePeer
  started := false

/-- `assert(p)` -/
def assert (r : NativeSocketStreamRcv) (p : Prop) [Decidable p] : NativeSocketStreamRcv :=
  { r with inp := r.inp.assert p }

/-- An assertion that holds leaves no trace. -/
@[simp] theorem assert_of {r : NativeSocketStreamRcv} {p : Prop} [Decidable p] (h : p) :
    r.assert p = r := by
  simp [assert, h]

/-- `start_receive_native_handle_ops()`, `start_receive_blob_ops()`
Source: `native_socket_stream_impl_rcv.cpp` `start_receive_native_handle_ops` -/
def startReceiveNativeHandleOps (r : NativeSocketStreamRcv) : Bool × NativeSocketStreamRcv :=
  if r.started then (false, r) else (true, { r with started := true })

/-- What the user of the request being served finds, if it is done with this result. -/
def received (r : NativeSocketStreamRcv) (res : Result) : Received where
  err := res.1
  hndl := r.inp.targetHndl
  blob := ((r.inp.userRequest.map (·.targetMetaBlob)).getD []).take res.2

/-- The request being served is done with. -/
def resetRequest (r : NativeSocketStreamRcv) : NativeSocketStreamRcv :=
  { r with inp := { r.inp with userRequest := none } }

/-- `async_receive_native_handle_impl()` with a non-null `sync_err_code_ptr`: what it returns, and
what it leaves for the caller. The target for the handle is given with what is in it, or is null.
Source: `native_socket_stream_impl_rcv.cpp` `async_receive_native_handle_impl` -/
def asyncReceiveNativeHandleImpl (r : NativeSocketStreamRcv) (targetHndlOrNull : Option NativeHandle)
    (targetMetaBlob : Blob) (onDoneFunc : Nat) : Bool × Received × NativeSocketStreamRcv :=
  if r.started = false ∨ r.statePeer = false then (false, ⟨none, targetHndlOrNull, []⟩, r)
  else if r.inp.userRequest.isSome then (false, ⟨none, targetHndlOrNull, []⟩, r)
  else if r.inp.pendingErrCode.isSome then
    (true, ⟨r.inp.pendingErrCode, targetHndlOrNull, []⟩, r.resetRequest)
  else
    let request : RcvUserRequest := ⟨targetHndlOrNull, targetMetaBlob, onDoneFunc⟩
    let (res, inp) := { r.inp with userRequest := some request }.readMsg
    let r := { r with inp := inp }
    (true, r.received res, if res.1 ≠ wouldBlock then r.resetRequest else r)

/-- `async_receive_native_handle()`
Source: `native_socket_stream_impl_rcv.cpp` `async_receive_native_handle` -/
def asyncReceiveNativeHandle (r : NativeSocketStreamRcv) (targetHndl : NativeHandle)
    (targetMetaBlob : Blob) (onDoneFunc : Nat) : Bool × Received × NativeSocketStreamRcv :=
  r.asyncReceiveNativeHandleImpl (some targetHndl) targetMetaBlob onDoneFunc

/-- `async_receive_blob()`
Source: `native_socket_stream_impl_rcv.cpp` `async_receive_blob` -/
def asyncReceiveBlob (r : NativeSocketStreamRcv) (targetBlob : Blob) (onDoneFunc : Nat) :
    Bool × Received × NativeSocketStreamRcv :=
  r.asyncReceiveNativeHandleImpl none targetBlob onDoneFunc

/-- `idle_timer_run()`
Source: `native_socket_stream_impl_rcv.cpp` `idle_timer_run` -/
def idleTimerRun (r : NativeSocketStreamRcv) (timeout : Nat) : Bool × NativeSocketStreamRcv :=
  let r := r.assert (0 < timeout)
  if r.started = false ∨ r.statePeer = false then (false, r)
  else if r.inp.idleTimeout ≠ 0 then (false, r)
  else
    let inp := { r.inp with idleTimeout := timeout }
    if inp.pendingErrCode.isSome then (true, { r with inp := inp })
    else (true, { r with inp := { inp with idleTimer := inp.idleTimer.schedule } })

/-- The handler of the request being served, and what it is told. -/
def invocation (r : NativeSocketStreamRcv) (res : Result) : Option (Nat × Received) :=
  r.inp.userRequest.map fun request => (request.onDoneFunc, r.received res)

/-- `rcv_on_ev_idle_timer_fired()`, with the handler invoked, if any, and what it is told.
Source: `native_socket_stream_impl_rcv.cpp` `rcv_on_ev_idle_timer_fired` -/
def onEvIdleTimerFired (r : NativeSocketStreamRcv) :
    NativeSocketStreamRcv × Option (Nat × Received) :=
  let inp := { r.inp with idleTimer := r.inp.idleTimer.consumeTimerFiringSignal }
  if inp.pendingErrCode.isSome then ({ r with inp := inp }, none)
  else
    let r := { r with inp := { inp with pendingErrCode := Code.receiverIdleTimeout.toErrorCode } }
    (r.resetRequest, r.invocation (r.inp.pendingErrCode, 0))

/-- `rcv_on_ev_peer_socket_readable_or_error()`
Source: `native_socket_stream_impl_rcv.cpp` `rcv_on_ev_peer_socket_readable_or_error` -/
def onEvPeerSocketReadableOrError (r : NativeSocketStreamRcv) (msgState : RcvMsgState) :
    NativeSocketStreamRcv × Option (Nat × Received) :=
  if r.inp.pendingErrCode.isSome then (r.assert (r.inp.userRequest = none), none)
  else
    let r := r.assert (r.inp.userRequest.isSome)
    let (res, inp) := r.inp.resume msgState
    let r := { r with inp := inp }
    if res.1 = wouldBlock then (r, none) else (r.resetRequest, r.invocation res)

/-! ## Steps -/

/-- What the user of a receiver, its event loop and its worker thread can do. -/
inductive Input where
  /-- `sync_connect()` has succeeded. -/
  | connected
  /-- `start_receive_native_handle_ops()`, `start_receive_blob_ops()` -/
  | startReceiveNativeHandleOps
  /-- `async_receive_native_handle()`, given what is in the targets. -/
  | asyncReceiveNativeHandle (targetHndl : NativeHandle) (targetMetaBlob : Blob) (onDoneFunc : Nat)
  /-- `async_receive_blob()`, given what is in the target. -/
  | asyncReceiveBlob (targetBlob : Blob) (onDoneFunc : Nat)
  /-- `idle_timer_run()`; the contract asks for a positive timeout. -/
  | idleTimerRun (timeout : {n : Nat // 0 < n})
  /-- The socket is reported readable to whoever waits for it with this captured. -/
  | socketReadable (msgState : RcvMsgState)
  /-- The idle timer fires in its worker thread. -/
  | timerFires
  /-- The signal pipe of the idle timer is reported readable. -/
  | timerReadable
  deriving DecidableEq

/-- What a step lets the outside see. -/
inductive Obs where
  /-- A request was made, and `ok` was returned; if that is `true`, this was found, or would-block. -/
  | returned (ok : Bool) (onDoneFunc : Nat) (rcvd : Received)
  /-- A handler was invoked. -/
  | invoked (onDoneFunc : Nat) (rcvd : Received)
  deriving DecidableEq

/-- The answers the socket will give during the next operation. -/
def withAnswers (r : NativeSocketStreamRcv) (ks : List SockAnswer) : NativeSocketStreamRcv :=
  { r with inp := { r.inp with peerSocket := { r.inp.peerSocket with answers := ks } } }

/-- The handler invoked by an event, as seen. -/
def invocations : Option (Nat × Received) → List Obs
  | none => []
  | some (f, rcvd) => [.invoked f rcvd]

/-- One step, during which the socket gives the answers `ks`; events need a wait for them. -/
def step (r : NativeSocketStreamRcv) (i : Input) (ks : List SockAnswer) :
    Option (NativeSocketStreamRcv × List Obs) :=
  let r := r.withAnswers ks
  match i with
  | .connected => some ({ r with statePeer := true }, [])
  | .startReceiveNativeHandleOps => some (r.startReceiveNativeHandleOps.2, [])
  | .asyncReceiveNativeHandle hndl blob f =>
    let (ok, rcvd, r) := r.asyncReceiveNativeHandle hndl blob f
    some (r, [.returned ok f rcvd])
  | .asyncReceiveBlob blob f =>
    let (ok, rcvd, r) := r.asyncReceiveBlob blob f
    some (r, [.returned ok f rcvd])
  | .idleTimerRun timeout => some ((r.idleTimerRun timeout).2, [])
  | .socketReadable msgState =>
    if msgState ∈ r.inp.evWaits then
      let (r, invoked) :=
        { r with inp := { r.inp with evWaits := r.inp.evWaits.erase msgState } }
          |>.onEvPeerSocketReadableOrError msgState
      some (r, invocations invoked)
    else none
  | .timerFires =>
    r.inp.idleTimer.fire.map fun timer => ({ r with inp := { r.inp with idleTimer := timer } }, [])
  | .timerReadable =>
    r.inp.idleTimer.takeEvent.map fun timer =>
      let (r, invoked) := { r with inp := { r.inp with idleTimer := timer } }.onEvIdleTimerFired
      (r, invocations invoked)

end NativeSocketStreamRcv

end FlowIpc.SocketStream
