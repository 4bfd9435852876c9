import FlowIpc.AsioSocket.NbRead
import FlowIpc.SocketStream.Rcv

/-!
# Receiving, one read at a time

The functions that read a message go on from one low-level read to the next, or to where `m_peer_socket_mutex`
is locked for a wait to be asked for; there the other direction may have been at the socket. Here each of them
says what is `Next`, and what the read came to is handed to `onRead`, whatever `recvmsg()` has left.

With the answers of a socket that carries cells they are the functions of the receiver again
(`readMsgOnce_eq_proceed`): there a handle never comes but properly.

Source: `sync_io/detail/native_socket_stream_impl_rcv.cpp`.
-/

namespace FlowIpc.SocketStream

open Negotiation AsioSocket

/-- What a function that reads a message needs next. -/
inductive Next where
  /-- `rcv_nb_read_low_lvl_payload()` is called, for what is left of this part of the message. -/
  | reads (msgState : RcvMsgState)
  /-- `m_peer_socket_mutex` is locked, to wait for what is left of this part. -/
  | locks (msgState : RcvMsgState)
  /-- It has come to an end: `*sync_err_code` and `*sync_sz`. -/
  | done (res : Result)
  deriving DecidableEq

namespace In

/-- The end of several functions, where an error has been found. -/
def emitErrNext (r : In) : Next × In :=
  let r := r.assert (r.pendingErrCode.isSome)
  (.done (r.pendingErrCode, 0), r)

/-- The part of several functions that asks for a wait for the socket to be readable, unless that has
been put away. -/
def onLock (r : In) (msgState : RcvMsgState) : Next × In :=
  if r.peerSocket.alive then (.done (wouldBlock, 0), { r with evWaits := r.evWaits ++ [msgState] })
  else { r with pendingErrCode := Code.lowLvlTransportHosedCannotReceive.toErrorCode }.emitErrNext

/-- `rcv_nb_read_low_lvl_payload()`, given what the read from the socket, if it is there, leaves.
Source: `native_socket_stream_impl_rcv.cpp` `rcv_nb_read_low_lvl_payload` -/
def nbReadLowLvlPayload (r : In) (read : NbRead) : NbRead × In :=
  if r.peerSocket.alive then
    let r := r.assert ((read.errCode = none ∧ read.nRcvd ≠ 0) ∨ (read.errCode ≠ none ∧ read.nRcvd = 0))
    if read.errCode = some asioWouldBlock then ({ read with errCode := none }, r)
    else if read.errCode.isSome then (read, { r with peerSocket := { r.peerSocket with alive := false } })
    else (read, r)
  else (⟨[], 0, none, Code.lowLvlTransportHosedCannotReceive.toErrorCode⟩, r)

/-- All of the meta-blob has been read.
Source: `native_socket_stream_impl_rcv.cpp` `rcv_read_blob`, `case S_META_BLOB_PAYLOAD` -/
def onMetaBlobPayloadNext (r : In) : Next × In :=
  let r := r.notIdle
  (.done (none, r.metaLength), r)

/-- `rcv_on_head_payload()`
Source: `native_socket_stream_impl_rcv.cpp` `rcv_on_head_payload` -/
def onHeadPayloadNext (r : In) : Next × In :=
  let r := r.assert (r.userRequest.isSome)
  let r := r.assert (r.pendingErrCode = none)
  if r.protocolNegotiator.negotiatedProtoVer = verUnknown then
    let r := r.negotiate (toProtoVer r.metaLength)
    if r.pendingErrCode.isSome then (.done (r.pendingErrCode, 0), r)
    else (.reads .msgStart, r.notIdle)
  else if r.metaLength = metaBlobLengthPingSentinel then (.reads .msgStart, r.notIdle)
  else if r.metaLength ≠ 0 then
    if r.metaLength ≤ r.userTargetSize then (.reads (.metaBlobPayload r.metaLength), r)
    else
      let r := { r with pendingErrCode := Code.messageSizeExceedsUserStorage.toErrorCode }
      (.done (r.pendingErrCode, 0), r)
  else if r.targetHndl.join ≠ none then
    let r := r.notIdle
    (.done (r.pendingErrCode, 0), r)
  else
    let r := { r with pendingErrCode := Code.receivesFinishedCannotReceive.toErrorCode }
    (.done (r.pendingErrCode, 0), r)

/-- `rcv_on_handle_finalized()`
Source: `native_socket_stream_impl_rcv.cpp` `rcv_on_handle_finalized` -/
def onHandleFinalizedNext (r : In) (hndlOrNull : NativeHandle) (nRcvd : ℕ) : Next × In :=
  let r := r.assert (r.userRequest.isSome)
  let r := r.assert (r.pendingErrCode = none)
  let r := r.assert (nRcvd ≠ 0)
  let protoNegotiating : Prop := r.protocolNegotiator.negotiatedProtoVer = verUnknown
  if protoNegotiating ∧ hndlOrNull ≠ none then (r.negotiate verUnknown).emitErrNext
  else if hndlOrNull ≠ none ∧ r.targetHndl = none then
    { r with pendingErrCode := Code.blobReceiverGotNonBlob.toErrorCode }.emitErrNext
  else
    let r :=
      if protoNegotiating then r
      else
        { r with
          userRequest := r.userRequest.map fun request =>
            { request with targetHndl := request.targetHndl.map fun _ => hndlOrNull } }
    if nRcvd = 2 then r.onHeadPayloadNext else (.locks (.headPayload (2 - nRcvd)), r)

/-- `rcv_read_blob()`, from its read on, given what it does where all of the target has been read.
Source: `native_socket_stream_impl_rcv.cpp` `rcv_read_blob` -/
def onReadBlob (onAll : In → Next × In) (msgState : ℕ → RcvMsgState) (r : In) (size : ℕ) (read : NbRead) :
    Next × In :=
  let r := r.assert (r.pendingErrCode = none)
  let r := r.assert (r.userRequest.isSome)
  let r := { r with pendingErrCode := read.errCode }.store (msgState size) read.written
  if read.errCode.isSome then r.emitErrNext
  else if read.nRcvd = size then onAll r
  else (.locks (msgState (size - read.nRcvd)), r)

/-- What is read next has been read: `rcv_read_msg()`, or `rcv_read_blob()`, goes on.
Source: `native_socket_stream_impl_rcv.cpp` `rcv_read_msg`, `rcv_read_blob` -/
def onRead (r : In) (msgState : RcvMsgState) (read : NbRead) : Next × In :=
  match msgState with
  | .msgStart =>
    let r := r.assert (r.pendingErrCode = none)
    let r := { r with pendingErrCode := read.errCode }.store .msgStart read.written
    if read.errCode.isSome then r.emitErrNext
    else if read.nRcvd ≠ 0 then r.onHandleFinalizedNext read.hndl read.nRcvd
    else (.locks .msgStart, r)
  | .headPayload nLeft => onReadBlob onHeadPayloadNext .headPayload r nLeft read
  | .metaBlobPayload nLeft => onReadBlob onMetaBlobPayloadNext .metaBlobPayload r nLeft read

/-! ## The receiver's own functions -/

/-- What is needed next is done, with what the socket has for an answer; only the start of a message is
left to the caller. -/
def proceed : Next × In → Option Result × In
  | (.reads .msgStart, r) => (none, r)
  | (.reads (.headPayload nLeft), r) => readBlobThen onHeadPayload .headPayload r nLeft
  | (.reads (.metaBlobPayload nLeft), r) => readBlobThen onMetaBlobPayload .metaBlobPayload r nLeft
  | (.locks msgState, r) => r.asyncWait msgState
  | (.done res, r) => (some res, r)

/-- What it is to have read these cells. -/
def readOfCells (got : List Cell) (err : ErrorCode) : NbRead :=
  ⟨got.map Cell.byte, got.length, got.findSome? Cell.hndl, err⟩

/-- What `recvmsg()` returns for these cells: the handle is by itself. -/
def recvmsgOfCells (c : Cell) (cs : List Cell) : RecvmsgResult :=
  .received c.byte (cs.map Cell.byte) (((c :: cs).findSome? Cell.hndl).toList.map fun fd => .rights fd []) 0

variable {r : In} {msgState : RcvMsgState}

/-- Cells come properly, and all that has come is what the caller is given. -/
theorem nbRead_recvmsgOfCells {c : Cell} {cs : List Cell} {size : ℕ} (hsize : (c :: cs).length ≤ size) :
    (recvmsgOfCells c cs).Proper ∧
      nbReadSomeWithNativeHandle size (recvmsgOfCells c cs) = readOfCells (c :: cs) none := by
  have htake : (c.byte :: cs.map Cell.byte).take size = (c :: cs).map Cell.byte :=
    List.take_of_length_le (by simpa using hsize)
  unfold recvmsgOfCells readOfCells
  rcases (c :: cs).findSome? Cell.hndl with _ | fd
  · refine ⟨.inl rfl, ?_⟩
    simp [nbReadSomeWithNativeHandle, htake]
  · refine ⟨.inr ⟨⟨fd, rfl⟩, rfl⟩, ?_⟩
    simp [nbReadSomeWithNativeHandle, htake]

/-- Waiting for the socket is to look whether it is there, and to proceed. -/
theorem asyncWait_eq_proceed :
    r.asyncWait msgState = proceed ({ r with peerSocket := r.peerSocket.lock }.onLock msgState) := by
  unfold asyncWait onLock
  by_cases halive : r.peerSocket.lock.alive = true
  · simp only [if_pos halive]
    rfl
  · simp only [if_neg halive]
    rfl

/-- What is done with the head of a message is to see what is next, and to proceed. -/
theorem onHeadPayload_eq_proceed (r : In) : r.onHeadPayload = proceed r.onHeadPayloadNext := by
  unfold onHeadPayload onHeadPayloadNext
  simp only
  split
  · split <;> rfl
  · split
    · rfl
    · split
      · split <;> rfl
      · split <;> rfl

/-- So it is with a handle. -/
theorem onHandleFinalized_eq_proceed {hndl : NativeHandle} {n : ℕ} :
    r.onHandleFinalized hndl n = proceed (r.onHandleFinalizedNext hndl n) := by
  unfold onHandleFinalized onHandleFinalizedNext
  simp only
  split
  · rfl
  · split
    · rfl
    · by_cases hn : n = 2
      · rw [if_pos hn, if_pos hn]
        exact onHeadPayload_eq_proceed _
      · rw [if_neg hn, if_neg hn]
        rfl

/-- The start of a message is read so. -/
theorem readMsgOnce_eq_proceed {got : List Cell} {err : ErrorCode} {p : PeerSocket}
    (hread : r.peerSocket.rcvNbReadLowLvlPayload 2 = (got, err, p)) :
    r.readMsgOnce = proceed ({ r with peerSocket := p }.onRead .msgStart (readOfCells got err)) := by
  unfold readMsgOnce onRead readOfCells
  simp only [assert_peerSocket, hread]
  split
  · rfl
  · split
    · exact onHandleFinalized_eq_proceed
    · rfl

/-- And so is the rest of a part of it. -/
theorem readBlobThen_eq_proceed {onAll : In → Option Result × In} {onAllNext : In → Next × In}
    {ms : ℕ → RcvMsgState} {size : ℕ} {got : List Cell} {err : ErrorCode} {p : PeerSocket}
    (hall : ∀ r, onAll r = proceed (onAllNext r))
    (hread : r.peerSocket.rcvNbReadLowLvlPayload size = (got, err, p)) :
    readBlobThen onAll ms r size =
      proceed (onReadBlob onAllNext ms { r with peerSocket := p } size (readOfCells got err)) := by
  unfold readBlobThen onReadBlob readOfCells
  simp only [assert_peerSocket, hread]
  split
  · rfl
  · split
    · exact hall _
    · rfl

/-- Where reading a message is resumed. -/
theorem readBlobThen_eq_onRead {size : ℕ} {got : List Cell} {err : ErrorCode} {p : PeerSocket}
    (hread : r.peerSocket.rcvNbReadLowLvlPayload size = (got, err, p)) :
    readBlobThen onHeadPayload .headPayload r size =
        proceed ({ r with peerSocket := p }.onRead (.headPayload size) (readOfCells got err)) ∧
      readBlobThen onMetaBlobPayload .metaBlobPayload r size =
        proceed ({ r with peerSocket := p }.onRead (.metaBlobPayload size) (readOfCells got err)) :=
  ⟨readBlobThen_eq_proceed onHeadPayload_eq_proceed hread, readBlobThen_eq_proceed (fun _ => rfl) hread⟩

end In

end FlowIpc.SocketStream
