import FlowIpc.MqPeers.Construct

/-!
# Making a channel of queues

`Mqs_channel` makes a sender of one queue and a receiver of the other, in that order, and has them for its
blobs pipe; `Mqs_socket_stream_channel` adds a socket stream for its handles pipe. What fails first is what
fails.

* Either stream's constructor leaves the error it is given a place for as it was, unless it fails
  (`construct_emit`).
* The channel gives them a place of its own, which holds success to begin with, and writes to its caller's on
  success, too (`mqsChannel_eq`).
* So `Mqs_socket_stream_channel`, which goes by what is in its caller's place, adds the stream just where
  there is a blobs pipe (`mqsSocketStreamChannel_eq`).

Source: `channel.hpp` `Mqs_channel`, `Mqs_socket_stream_channel`.
-/

namespace FlowIpc.ChannelMake

open MqPeers

/-! ## A stream of one queue -/

/-- A queue handle that is passed to a constructor, and what the system may refuse the constructor. -/
structure MqArg where
  /-- `absolute_name()` -/
  name : MqName
  /-- The queue object. -/
  obj : Nat
  /-- Why the sentinel is refused, if it is. -/
  fault : Option Nat
  /-- Why the pipe is refused, if it is. -/
  pipeFault : Option Nat

/-- The constructor of a sender or receiver.
Source: `blob_stream_mq_snd_impl.hpp` `Blob_stream_mq_sender_impl()`,
`blob_stream_mq_rcv_impl.hpp` `Blob_stream_mq_receiver_impl()` -/
def MqArg.construct (mq : MqArg) (hasNativeHandle : Bool) (k : Kernel) (sndElseRcv : Bool) : Construction :=
  MqPeers.construct hasNativeHandle k mq.name sndElseRcv mq.obj mq.fault mq.pipeFault

/-- What that fails with, if it does: the sentinel is refused, or is there already; or the pipe is refused,
where there is to be one. -/
def MqArg.failure (mq : MqArg) (hasNativeHandle : Bool) (k : Kernel) (sndElseRcv : Bool) : ErrorCode :=
  match mq.fault with
  | some errno => some (.system errno)
  | none =>
    if k.sentinel mq.name sndElseRcv then peerExists sndElseRcv
    else if hasNativeHandle then none
    else mq.pipeFault.map .system

variable {hasNativeHandle : Bool} {k : Kernel}

/-- What the caller of a stream's constructor is left with, given a place for the error. -/
theorem construct_emit (mq : MqArg) (hasNativeHandle : Bool) (k : Kernel) (sndElseRcv : Bool) (err : ErrorCode) :
    (mq.construct hasNativeHandle k sndElseRcv).emit (some err) =
      .ret () ((mq.failure hasNativeHandle k sndElseRcv).or err) := by
  obtain ⟨name, obj, fault, pipeFault⟩ := mq
  unfold MqArg.construct MqPeers.construct ensureUniquePeer MqArg.failure
  rcases fault with _ | errno
  · by_cases hsentinel : k.sentinel name sndElseRcv = true
    · simp only [hsentinel, if_true]
      cases sndElseRcv <;> rfl
    · simp only [hsentinel]
      cases hasNativeHandle
      · cases pipeFault <;> rfl
      · rfl
  · rfl

/-! ## The channels -/

/-- What a channel has.
Source: `channel.hpp` `Channel` -/
structure Channel where
  /-- `m_blob_snd` -/
  blobSnd : Option Nat
  /-- `m_blob_rcv` -/
  blobRcv : Option Nat
  /-- `m_hndl_snd`, which serves both ways. -/
  hndlSnd : Option Nat
  /-- Some assertion has failed. -/
  assertFailed : Bool
  deriving DecidableEq

/-- Source: `channel.hpp` `Channel(Logger*, String_view)` -/
def Channel.empty : Channel := ⟨none, none, none, false⟩

/-- Source: `channel.hpp` `init_blob_pipe` -/
def Channel.initBlobPipe (c : Channel) (snd rcv : Option Nat) : Channel :=
  { c with blobSnd := snd, blobRcv := rcv }

/-- It does nothing if there is a handles pipe.
Source: `channel.hpp` `init_native_handle_pipe` -/
def Channel.initNativeHandlePipe (c : Channel) (sndAndRcv : Nat) : Channel :=
  if c.hndlSnd.isSome then c else { c with hndlSnd := some sndAndRcv }

/-- `initialized()`, where there are to be two pipes, or only that for blobs.
Source: `channel.hpp` `initialized` -/
def Channel.initialized (c : Channel) (hasNativeHandlePipe : Bool) : Bool :=
  c.blobSnd.isSome && c.blobRcv.isSome && c.hndlSnd.isSome == hasNativeHandlePipe

/-- `assert()` -/
def Channel.assert (c : Channel) (b : Bool) : Channel :=
  { c with assertFailed := c.assertFailed || !b }

/-- `handle_result()`, given an error, and what follows it.
Source: `channel.hpp` `Mqs_channel()` -/
def handleResult (ptr : Option ErrorCode) (e : Err) : Emit Channel :=
  match ptr with
  | some _ => .ret .empty (some e)
  | none => .threw e

/-- The constructor of `Mqs_channel`, which has no handles pipe to come if `blobsOnly`. If the receiver fails,
the sender goes away again, and its queue with it.
Source: `channel.hpp` `Mqs_channel()` -/
def mqsChannel (hasNativeHandle blobsOnly : Bool) (k : Kernel) (mqOut mqIn : MqArg) (ptr : Option ErrorCode) :
    Emit Channel × Kernel :=
  let ourErrCode : ErrorCode := none
  let sndOut := mqOut.construct hasNativeHandle k true
  match (sndOut.emit (some ourErrCode)).emitted with
  | some e => (handleResult ptr e, sndOut.kernel)
  | none =>
    let rcvIn := mqIn.construct hasNativeHandle sndOut.kernel false
    match (rcvIn.emit (some ourErrCode)).emitted with
    | some e => (handleResult ptr e, (runRemovals mqOut.name (deleterRemovals true) rcvIn.kernel).2)
    | none =>
      -- `err_code->clear()`, if it is not null.
      let c := Channel.empty.initBlobPipe sndOut.mq rcvIn.mq
      (.ret (c.assert (!blobsOnly || c.initialized false)) none, rcvIn.kernel)

/-- The constructor of `Mqs_socket_stream_channel`.
Source: `channel.hpp` `Mqs_socket_stream_channel()` -/
def mqsSocketStreamChannel (hasNativeHandle : Bool) (k : Kernel) (mqOut mqIn : MqArg) (sockStm : Nat)
    (ptr : Option ErrorCode) : Emit Channel × Kernel :=
  match mqsChannel hasNativeHandle false k mqOut mqIn ptr with
  | (.threw e, k) => (.threw e, k)
  | (.ret c err, k) =>
    if ptr.isSome && err.isSome then (.ret c err, k)
    else
      let c := c.initNativeHandlePipe sockStm
      (.ret (c.assert (c.initialized true)) err, k)

/-! ## What they come to -/

/-- What the making of the blobs pipe fails with, if it does. -/
def failure (hasNativeHandle : Bool) (k : Kernel) (mqOut mqIn : MqArg) : ErrorCode :=
  (mqOut.failure hasNativeHandle k true).or
    (mqIn.failure hasNativeHandle (mqOut.construct hasNativeHandle k true).kernel false)

/-- The queue of a stream that has been made is its own. -/
theorem construct_mq (mq : MqArg) {sndElseRcv : Bool} (h : mq.failure hasNativeHandle k sndElseRcv = none) :
    (mq.construct hasNativeHandle k sndElseRcv).mq = some mq.obj := by
  obtain ⟨name, obj, fault, pipeFault⟩ := mq
  unfold MqArg.construct MqPeers.construct ensureUniquePeer
  unfold MqArg.failure at h
  rcases fault with _ | errno
  · by_cases hsentinel : k.sentinel name sndElseRcv = true
    · simp only [hsentinel, if_true] at h
      cases sndElseRcv <;> cases h
    · simp only [hsentinel] at h ⊢
      cases hasNativeHandle
      · rcases pipeFault with _ | errno
        · rfl
        · cases h
      · rfl
  · cases h

/-- **The making of an `Mqs_channel`**, with a place for the error. -/
theorem mqsChannel_eq (hasNativeHandle blobsOnly : Bool) (k : Kernel) (mqOut mqIn : MqArg) (err : ErrorCode) :
    (mqsChannel hasNativeHandle blobsOnly k mqOut mqIn (some err)).1 =
      match failure hasNativeHandle k mqOut mqIn with
      | some e => .ret .empty (some e)
      | none => .ret ⟨some mqOut.obj, some mqIn.obj, none, false⟩ none := by
  unfold mqsChannel failure
  dsimp only
  rw [construct_emit, construct_emit, Option.or_none, Option.or_none]
  rcases hout : mqOut.failure hasNativeHandle k true with _ | e
  · rw [Option.none_or]
    rcases hin : mqIn.failure hasNativeHandle (mqOut.construct hasNativeHandle k true).kernel false with _ | e
    · simp only [Emit.emitted, construct_mq mqOut hout, construct_mq mqIn hin]
      cases blobsOnly <;> rfl
    · rfl
  · rfl

/-- **The making of an `Mqs_socket_stream_channel`**, with a place for the error. -/
theorem mqsSocketStreamChannel_eq (hasNativeHandle : Bool) (k : Kernel) (mqOut mqIn : MqArg) (sockStm : Nat)
    (err : ErrorCode) : (mqsSocketStreamChannel hasNativeHandle k mqOut mqIn sockStm (some err)).1 =
      match failure hasNativeHandle k mqOut mqIn with
      | some e => .ret .empty (some e)
      | none => .ret ⟨some mqOut.obj, some mqIn.obj, some sockStm, false⟩ none := by
  have hbase := mqsChannel_eq hasNativeHandle false k mqOut mqIn err
  unfold mqsSocketStreamChannel
  rcases hmqs : mqsChannel hasNativeHandle false k mqOut mqIn (some err) with ⟨emit, k'⟩
  rw [hmqs] at hbase
  dsimp only at hbase
  rcases hfailure : failure hasNativeHandle k mqOut mqIn with _ | e
  · rw [hfailure] at hbase
    subst hbase
    rfl
  · rw [hfailure] at hbase
    subst hbase
    rfl

end FlowIpc.ChannelMake
