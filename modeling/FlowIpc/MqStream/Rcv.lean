import FlowIpc.MqStream.Snd
import Mathlib.Tactic.SplitIfs

/-!
# The receiver of a queue stream

`Blob_stream_mq_receiver_impl`, the `sync_io` core that receives blobs from a message queue: one
request at a time, which is answered at once or by a handler, from the event of the queue being
readable or from that of the idle timer.

Reading a message may mean reading several: escapes, commands that the user does not see. The loop of
`read_msg()` is `readMsgLoop`; each turn uses up one of the queue's answers.

Source: `sync_io/detail/blob_stream_mq_rcv_impl.hpp`.
-/

namespace FlowIpc.MqStream

open Negotiation

/-- `User_request`: the size of the target buffer, and the handler. -/
structure UserRequest where
  /-- `m_target_blob.size()` -/
  targetBlobSize : Nat
  /-- `m_on_done_func` -/
  onDoneFunc : Nat
  deriving DecidableEq

/-! ## Low-level reading -/

/-- What `read_msg()` has for its caller at the end: `*sync_err_code`, and the `*sync_sz` bytes in the
target buffer. -/
abbrev Result := ErrorCode × Blob

/-- The parts of a receiver that low-level reading touches. -/
structure In where
  /-- `*m_mq` -/
  mq : Mq
  /-- `m_mq_max_msg_sz`, which is the size of `m_target_control_blob` too. -/
  mqMaxMsgSz : Nat
  /-- `m_protocol_negotiator` -/
  protocolNegotiator : ProtocolNegotiator
  /-- `m_control_state` -/
  controlState : Bool
  /-- `m_pending_err_code` -/
  pendingErrCode : ErrorCode
  /-- `m_idle_timeout`; 0 for `zero()`. -/
  idleTimeout : Nat
  /-- `m_idle_timer` and `m_idle_timer_fired_peer`. -/
  idleTimer : Timer
  /-- Waits for the queue to be readable, asked of the event loop through `m_ev_wait_func`. -/
  evWaits : Nat
  /-- Some assertion has failed; execution goes on, as in a build without assertions. -/
  assertFailed : Bool

namespace In

/-- `assert(p)` -/
def assert (r : In) (p : Prop) [Decidable p] : In :=
  { r with assertFailed := r.assertFailed || !decide p }

/-- An assertion that holds leaves no trace. -/
@[simp] theorem assert_of {r : In} {p : Prop} [Decidable p] (h : p) : r.assert p = r := by
  simp [assert, h]

/-- `not_idle()`
Source: `blob_stream_mq_rcv_impl.hpp` `not_idle` -/
def notIdle (r : In) : In :=
  if r.idleTimeout = 0 then r
  else
    let (nCanceled, timer) := r.idleTimer.expiresAfter
    if nCanceled = 0 then { r with idleTimer := timer }
    else { r with idleTimer := timer.asyncWait }.assert (nCanceled = 1)

/-- A timer in order, if it is put off, is as it was. -/
theorem notIdle_eq {r : In} (ht : r.idleTimer.Ok) : r.notIdle = r := by
  unfold notIdle
  have hle := Timer.expiresAfter_le_one ht
  split
  · rfl
  · dsimp only
    split
    · rename_i hzero
      rw [Timer.expiresAfter_of_zero hzero]
    · rename_i hne
      have hone : r.idleTimer.expiresAfter.1 = 1 := by omega
      rw [assert_of hone, ht.rewait_eq hone]

/-- The narrowing of a command to a `proto_ver_t`, an `int16_t`. -/
def toProtoVer (z : Int) : Int := z.bmod (2 ^ 16)

/-- The end of `read_msg()`, where its loop is left to emit something.
Source: `blob_stream_mq_rcv_impl.hpp` `read_msg` -/
def emit (r : In) (targetBlob : Blob) : Option Result × In :=
  let r := r.assert (r.pendingErrCode.isSome ∨ (r.controlState = false ∧ targetBlob.length ≠ 0))
  (some (r.pendingErrCode, if r.pendingErrCode.isSome then [] else targetBlob), r)

/-- `compute_negotiated_proto_ver()` on the receiver's negotiator and error. -/
def negotiate (r : In) (opposingMaxProtoVer : Int) : In :=
  let (ok, err, negotiator) :=
    r.protocolNegotiator.computeNegotiatedProtoVer opposingMaxProtoVer r.pendingErrCode
  { r with protocolNegotiator := negotiator, pendingErrCode := err }.assert (ok = true)

/-- The command in a message that came after an escape.
Source: `blob_stream_mq_rcv_impl.hpp` `read_msg`, the `if (m_control_state)` -/
def onCtlCmd (r : In) (targetBlob : Blob) : In :=
  if targetBlob.length = 8 then
    let rawCmd := LittleEndian.decodeInt targetBlob
    if r.protocolNegotiator.negotiatedProtoVer = verUnknown then r.negotiate (toProtoVer (-rawCmd))
    else if ctlEndSentinel ≤ rawCmd then
      { r with pendingErrCode := Code.blobStreamMqReceiverBadCtlCmd.toErrorCode }
    else if rawCmd = ctlEndSending then
      { r with pendingErrCode := Code.receivesFinishedCannotReceive.toErrorCode }
    else if rawCmd = ctlPing then r.notIdle
    -- A negative value is none of the `case`s.
    else r
  else { r with pendingErrCode := Code.blobStreamMqReceiverBadCtlCmd.toErrorCode }

/-- What is done with a message received; `none` is to go around the loop again.
Source: `blob_stream_mq_rcv_impl.hpp` `read_msg`, the `if (rcvd_else_would_block_or_error)` -/
def onMsg (r : In) (targetBlob : Blob) : Option Result × In :=
  if r.controlState then
    let r := { r with controlState := false }.onCtlCmd targetBlob
    if r.pendingErrCode.isSome then r.emit targetBlob else (none, r)
  else if targetBlob.length = 0 then (none, { r with controlState := true })
  else if r.protocolNegotiator.negotiatedProtoVer = verUnknown then
    let r := r.negotiate verUnknown
    (r.assert (r.pendingErrCode.isSome)).emit targetBlob
  else r.notIdle.emit targetBlob

/-- One turn of the loop of `read_msg()`, with a user's buffer of `userBlobSize` bytes; `none` is to go
around again.
Source: `blob_stream_mq_rcv_impl.hpp` `read_msg`, the `do`-`while` -/
def readMsgOnce (r : In) (userBlobSize : Nat) : Option Result × In :=
  match r.mq.tryReceive (if r.controlState then r.mqMaxMsgSz else userBlobSize) with
  | (_, some e, mq) => { r with mq := mq, pendingErrCode := some e }.emit []
  | (some targetBlob, none, mq) => { r with mq := mq, pendingErrCode := none }.onMsg targetBlob
  | (none, none, mq) =>
    (some (wouldBlock, []), { r with mq := mq, pendingErrCode := none, evWaits := r.evWaits + 1 })

variable {r r' : In} {msg : Blob} {userBlobSize : Nat}

/-! Interpreting a message touches neither the queue nor the size limit. -/

@[simp] theorem assert_mq {p : Prop} [Decidable p] : (r.assert p).mq = r.mq := rfl

@[simp] theorem assert_mqMaxMsgSz {p : Prop} [Decidable p] :
    (r.assert p).mqMaxMsgSz = r.mqMaxMsgSz := rfl

@[simp] theorem emit_mq : (r.emit msg).2.mq = r.mq := rfl

@[simp] theorem emit_mqMaxMsgSz : (r.emit msg).2.mqMaxMsgSz = r.mqMaxMsgSz := rfl

@[simp] theorem negotiate_mq {ver : Int} : (r.negotiate ver).mq = r.mq := rfl

@[simp] theorem negotiate_mqMaxMsgSz {ver : Int} :
    (r.negotiate ver).mqMaxMsgSz = r.mqMaxMsgSz := rfl

/-- Only the timer is touched where it is not idle. -/
theorem notIdle_same : r.notIdle.mq = r.mq ∧ r.notIdle.mqMaxMsgSz = r.mqMaxMsgSz := by
  unfold notIdle
  split
  · exact ⟨rfl, rfl⟩
  · simp only
    split
    · exact ⟨rfl, rfl⟩
    · exact ⟨rfl, rfl⟩

@[simp] theorem notIdle_mq : r.notIdle.mq = r.mq := notIdle_same.1

@[simp] theorem notIdle_mqMaxMsgSz : r.notIdle.mqMaxMsgSz = r.mqMaxMsgSz := notIdle_same.2

/-- Putting off the idle timer is no error. -/
@[simp] theorem notIdle_pendingErrCode : r.notIdle.pendingErrCode = r.pendingErrCode := by
  unfold notIdle
  split
  · rfl
  · simp only
    split <;> rfl

/-- A command leaves the queue and the size limit alone. -/
theorem onCtlCmd_same :
    (r.onCtlCmd msg).mq = r.mq ∧ (r.onCtlCmd msg).mqMaxMsgSz = r.mqMaxMsgSz := by
  unfold onCtlCmd
  simp only
  split_ifs <;> simp

@[simp] theorem onCtlCmd_mq : (r.onCtlCmd msg).mq = r.mq := onCtlCmd_same.1

@[simp] theorem onCtlCmd_mqMaxMsgSz : (r.onCtlCmd msg).mqMaxMsgSz = r.mqMaxMsgSz := onCtlCmd_same.2

/-- What is done with a message leaves the queue and the size limit alone. -/
theorem onMsg_same :
    (r.onMsg msg).2.mq = r.mq ∧ (r.onMsg msg).2.mqMaxMsgSz = r.mqMaxMsgSz := by
  unfold onMsg
  simp only
  split_ifs <;> simp

@[simp] theorem onMsg_mq : (r.onMsg msg).2.mq = r.mq := onMsg_same.1

@[simp] theorem onMsg_mqMaxMsgSz : (r.onMsg msg).2.mqMaxMsgSz = r.mqMaxMsgSz := onMsg_same.2

/-- A turn of the loop leaves the size limit as it is. -/
theorem readMsgOnce_mqMaxMsgSz (r : In) (userBlobSize : Nat) :
    (r.readMsgOnce userBlobSize).2.mqMaxMsgSz = r.mqMaxMsgSz := by
  unfold readMsgOnce
  split
  · rfl
  · simp
  · rfl

/-- The loop goes around again only after a message, so each turn uses up an answer. -/
theorem readMsgOnce_answers (h : r.readMsgOnce userBlobSize = (none, r')) :
    r'.mq.answers.length < r.mq.answers.length := by
  unfold readMsgOnce at h
  split at h
  · cases h
  · rename_i m mq hrcv
    have hmq : r'.mq = mq := by
      have := congrArg (fun p => p.2.mq) h
      simpa using this.symm
    rw [hmq]
    exact Mq.tryReceive_answers hrcv
  · cases h

/-- The loop of `read_msg()`, from some turn on.
Source: `blob_stream_mq_rcv_impl.hpp` `read_msg`, the `do`-`while` -/
def readMsgLoop (r : In) (userBlobSize : Nat) : Result × In :=
  match _h : r.readMsgOnce userBlobSize with
  | (some res, r) => (res, r)
  | (none, r) => r.readMsgLoop userBlobSize
termination_by r.mq.answers.length
decreasing_by exact readMsgOnce_answers ‹_›

/-- The loop leaves the size limit as it is. -/
theorem readMsgLoop_mqMaxMsgSz : (r.readMsgLoop userBlobSize).2.mqMaxMsgSz = r.mqMaxMsgSz := by
  induction r using readMsgLoop.induct userBlobSize with
  | case1 r res r₁ honce =>
      have hsame := r.readMsgOnce_mqMaxMsgSz userBlobSize
      rw [honce] at hsame
      rw [readMsgLoop, honce]
      exact hsame
  | case2 r r₁ honce ih =>
      have hsame := r.readMsgOnce_mqMaxMsgSz userBlobSize
      rw [honce] at hsame
      rw [readMsgLoop, honce]
      exact ih.trans hsame

end In

/-! ## The receiver -/

/-- A `Blob_stream_mq_receiver_impl`. Handlers are told apart by number.
Source: `blob_stream_mq_rcv_impl.hpp` `Blob_stream_mq_receiver_impl` -/
structure BlobStreamMqReceiver where
  /-- The queue, and how far it has been read. -/
  inp : In
  /-- `!m_ev_wait_func.empty()` -/
  started : Bool
  /-- `m_user_request` -/
  userRequest : Option UserRequest

namespace BlobStreamMqReceiver

/-- The constructor, on a queue handle for which it did not fail.
Source: `blob_stream_mq_rcv_impl.hpp` `Blob_stream_mq_receiver_impl()` -/
def ctor (mq : Mq) : BlobStreamMqReceiver where
  inp := ⟨mq, mq.maxMsgSize, .ctor BlobStreamMqSender.versionOne, false, none, 0, .inactive, 0, false⟩
  started := false
  userRequest := none

/-- `assert(p)` -/
def assert (r : BlobStreamMqReceiver) (p : Prop) [Decidable p] : BlobStreamMqReceiver :=
  { r with inp := r.inp.assert p }

/-- An assertion that holds leaves no trace. -/
@[simp] theorem assert_of {r : BlobStreamMqReceiver} {p : Prop} [Decidable p] (h : p) :
    r.assert p = r := by
  simp [assert, h]

/-- `start_receive_blob_ops()`
Source: `blob_stream_mq_rcv_impl.hpp` `start_receive_blob_ops` -/
def startReceiveBlobOps (r : BlobStreamMqReceiver) : Bool × BlobStreamMqReceiver :=
  if r.started then (false, r) else (true, { r with started := true })

/-- `read_msg()`
Source: `blob_stream_mq_rcv_impl.hpp` `read_msg` -/
def readMsg (r : BlobStreamMqReceiver) : Result × BlobStreamMqReceiver :=
  let r := r.assert (r.inp.pendingErrCode = none)
  let r := r.assert (r.userRequest.isSome)
  let (res, inp) := r.inp.readMsgLoop ((r.userRequest.map (·.targetBlobSize)).getD 0)
  (res, { r with inp := inp })

/-- `async_receive_blob()` with a non-null `sync_err_code_ptr`: what it returns, and what it leaves
for the caller.
Source: `blob_stream_mq_rcv_impl.hpp` `async_receive_blob` -/
def asyncReceiveBlob (r : BlobStreamMqReceiver) (targetBlobSize : Nat) (onDoneFunc : Nat) :
    Bool × Result × BlobStreamMqReceiver :=
  if r.started = false then (false, (none, []), r)
  else if r.userRequest.isSome then (false, (none, []), r)
  else
    let (res, r) : Result × BlobStreamMqReceiver :=
      if r.inp.pendingErrCode.isSome then ((r.inp.pendingErrCode, []), r)
      else if targetBlobSize < r.inp.mqMaxMsgSz then ((Code.invalidArgument.toErrorCode, []), r)
      else { r with userRequest := some ⟨targetBlobSize, onDoneFunc⟩ }.readMsg
    (true, res, if res.1 ≠ wouldBlock then { r with userRequest := none } else r)

/-- `idle_timer_run()`
Source: `blob_stream_mq_rcv_impl.hpp` `idle_timer_run` -/
def idleTimerRun (r : BlobStreamMqReceiver) (timeout : Nat) : Bool × BlobStreamMqReceiver :=
  let r := r.assert (0 < timeout)
  if r.started = false then (false, r)
  else if r.inp.idleTimeout ≠ 0 then (false, r)
  else
    let inp := { r.inp with idleTimeout := timeout }
    if inp.pendingErrCode.isSome then (true, { r with inp := inp })
    else (true, { r with inp := { inp with idleTimer := inp.idleTimer.schedule } })

/-- `on_ev_idle_timer_fired()`, with the handler invoked, if any, and what it is told.
Source: `blob_stream_mq_rcv_impl.hpp` `on_ev_idle_timer_fired` -/
def onEvIdleTimerFired (r : BlobStreamMqReceiver) :
    BlobStreamMqReceiver × Option (Nat × Result) :=
  let inp := { r.inp with idleTimer := r.inp.idleTimer.consumeTimerFiringSignal }
  if inp.pendingErrCode.isSome then ({ r with inp := inp }, none)
  else
    let inp := { inp with pendingErrCode := Code.receiverIdleTimeout.toErrorCode }
    let invoked := r.userRequest.map fun request => (request.onDoneFunc, inp.pendingErrCode, [])
    ({ r with inp := inp, userRequest := none }, invoked)

/-- The event: the queue is readable, or has an error.
Source: `blob_stream_mq_rcv_impl.hpp` `read_msg`, the event -/
def onEvMqReadable (r : BlobStreamMqReceiver) : BlobStreamMqReceiver × Option (Nat × Result) :=
  if r.inp.pendingErrCode.isSome then (r.assert (r.userRequest = none), none)
  else
    let r := r.assert (r.userRequest.isSome)
    let (res, r) := r.readMsg
    if res.1 = wouldBlock then (r, none)
    else ({ r with userRequest := none }, r.userRequest.map fun request => (request.onDoneFunc, res))

/-! ## Steps -/

/-- What the user of a receiver, its event loop and its worker thread can do. -/
inductive Input where
  /-- `start_receive_blob_ops()` -/
  | startReceiveBlobOps
  /-- `async_receive_blob()` -/
  | asyncReceiveBlob (targetBlobSize : Nat) (onDoneFunc : Nat)
  /-- `idle_timer_run()`; the contract asks for a positive timeout. -/
  | idleTimerRun (timeout : {n : Nat // 0 < n})
  /-- The queue is reported readable. -/
  | mqReadable
  /-- The idle timer fires in its worker thread. -/
  | timerFires
  /-- The signal pipe of the idle timer is reported readable. -/
  | timerReadable
  deriving DecidableEq

/-- What a step lets the outside see. -/
inductive Obs where
  /-- `async_receive_blob()` returned `ok`, and left `res` if it accepted. -/
  | returned (ok : Bool) (onDoneFunc : Nat) (res : Result)
  /-- A handler was invoked. -/
  | invoked (onDoneFunc : Nat) (res : Result)
  deriving DecidableEq

/-- The answers the queue will give during the next operation. -/
def withAnswers (r : BlobStreamMqReceiver) (ks : List MqAnswer) : BlobStreamMqReceiver :=
  { r with inp := { r.inp with mq := { r.inp.mq with answers := ks } } }

/-- The handler invoked by an event, as seen. -/
def invocations : Option (Nat × Result) → List Obs
  | none => []
  | some (f, res) => [.invoked f res]

/-- One step, during which the queue gives the answers `ks`; events need a wait for them. -/
def step (r : BlobStreamMqReceiver) (i : Input) (ks : List MqAnswer) :
    Option (BlobStreamMqReceiver × List Obs) :=
  let r := r.withAnswers ks
  match i with
  | .startReceiveBlobOps => some (r.startReceiveBlobOps.2, [])
  | .asyncReceiveBlob size f =>
    let (ok, res, r) := r.asyncReceiveBlob size f
    some (r, [.returned ok f res])
  | .idleTimerRun timeout => some ((r.idleTimerRun timeout).2, [])
  | .mqReadable =>
    if 0 < r.inp.evWaits then
      let (r, invoked) :=
        { r with inp := { r.inp with evWaits := r.inp.evWaits - 1 } }.onEvMqReadable
      some (r, invocations invoked)
    else none
  | .timerFires =>
    r.inp.idleTimer.fire.map fun timer => ({ r with inp := { r.inp with idleTimer := timer } }, [])
  | .timerReadable =>
    r.inp.idleTimer.takeEvent.map fun timer =>
      let (r, invoked) := { r with inp := { r.inp with idleTimer := timer } }.onEvIdleTimerFired
      (r, invocations invoked)

/-! The size limit is never touched. -/

variable {r r' : BlobStreamMqReceiver}

/-- Reading a message leaves the size limit as it is. -/
theorem readMsg_mqMaxMsgSz : r.readMsg.2.inp.mqMaxMsgSz = r.inp.mqMaxMsgSz := by
  unfold readMsg
  exact In.readMsgLoop_mqMaxMsgSz

/-- A request leaves the size limit as it is. -/
theorem asyncReceiveBlob_mqMaxMsgSz {n f : Nat} :
    (r.asyncReceiveBlob n f).2.2.inp.mqMaxMsgSz = r.inp.mqMaxMsgSz := by
  -- Ending the request does not touch the limit either.
  have hend : ∀ p : Result × BlobStreamMqReceiver,
      (if p.1.1 ≠ wouldBlock then { p.2 with userRequest := none } else p.2).inp.mqMaxMsgSz =
        p.2.inp.mqMaxMsgSz := by
    intro p
    split <;> rfl
  unfold asyncReceiveBlob
  split
  · rfl
  split
  · rfl
  refine (hend _).trans ?_
  split
  · rfl
  split
  · rfl
  · exact readMsg_mqMaxMsgSz

/-- The queue's event leaves the size limit as it is. -/
theorem onEvMqReadable_mqMaxMsgSz : r.onEvMqReadable.1.inp.mqMaxMsgSz = r.inp.mqMaxMsgSz := by
  unfold onEvMqReadable
  split
  · rfl
  · have hread := readMsg_mqMaxMsgSz (r := r.assert (r.userRequest.isSome))
    simp only
    split
    · exact hread
    · exact hread

/-- The timer's event leaves the size limit as it is. -/
theorem onEvIdleTimerFired_mqMaxMsgSz :
    r.onEvIdleTimerFired.1.inp.mqMaxMsgSz = r.inp.mqMaxMsgSz := by
  unfold onEvIdleTimerFired
  simp only
  split <;> rfl

/-- Every step leaves the size limit as it is. -/
theorem step_mqMaxMsgSz {i : Input} {ks : List MqAnswer} {obs : List Obs}
    (h : r.step i ks = some (r', obs)) : r'.inp.mqMaxMsgSz = r.inp.mqMaxMsgSz := by
  unfold step at h
  cases i with
  | startReceiveBlobOps =>
      cases h
      unfold startReceiveBlobOps
      split <;> rfl
  | asyncReceiveBlob n f =>
      cases h
      exact asyncReceiveBlob_mqMaxMsgSz
  | idleTimerRun timeout =>
      cases h
      unfold idleTimerRun
      simp only
      split_ifs <;> rfl
  | mqReadable =>
      simp only at h
      split at h
      · cases h
        exact onEvMqReadable_mqMaxMsgSz
      · cases h
  | timerFires =>
      simp only [Option.map_eq_some_iff] at h
      obtain ⟨t, -, heq⟩ := h
      cases heq
      rfl
  | timerReadable =>
      simp only [Option.map_eq_some_iff] at h
      obtain ⟨t, -, heq⟩ := h
      cases heq
      exact onEvIdleTimerFired_mqMaxMsgSz

end BlobStreamMqReceiver

end FlowIpc.MqStream
