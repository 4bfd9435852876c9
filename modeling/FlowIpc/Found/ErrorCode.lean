import Mathlib.Tactic.TypeStar

/-!
# Error codes

The `enum class Code` of `ipc::transport::error` and flow's `Error_code`, the value every fallible
API of the library emits. An `Error_code` is falsy for success, and otherwise holds either one of the
library's own codes or one of the operating system's.
-/

namespace FlowIpc

/-- The codes of `ipc::transport::error::Code`, in declaration order.
Source: `error.hpp` `error::Code` -/
inductive Code where
  /-- `S_SENDS_FINISHED_CANNOT_SEND` -/
  | sendsFinishedCannotSend
  /-- `S_RECEIVES_FINISHED_CANNOT_RECEIVE` -/
  | receivesFinishedCannotReceive
  /-- `S_LOW_LVL_TRANSPORT_HOSED_CANNOT_SEND` -/
  | lowLvlTransportHosedCannotSend
  /-- `S_LOW_LVL_TRANSPORT_HOSED_CANNOT_RECEIVE` -/
  | lowLvlTransportHosedCannotReceive
  /-- `S_LOW_LVL_TRANSPORT_HOSED` -/
  | lowLvlTransportHosed
  /-- `S_LOW_LVL_UNEXPECTED_STREAM_PAYLOAD_BEYOND_HNDL` -/
  | lowLvlUnexpectedStreamPayloadBeyondHndl
  /-- `S_MESSAGE_SIZE_EXCEEDS_USER_STORAGE` -/
  | messageSizeExceedsUserStorage
  /-- `S_BLOB_RECEIVER_GOT_NON_BLOB` -/
  | blobReceiverGotNonBlob
  /-- `S_RECEIVER_IDLE_TIMEOUT` -/
  | receiverIdleTimeout
  /-- `S_PROTOCOL_NEGOTIATION_OPPOSING_VER_INVALID` -/
  | protocolNegotiationOpposingVerInvalid
  /-- `S_PROTOCOL_NEGOTIATION_OPPOSING_VER_TOO_OLD` -/
  | protocolNegotiationOpposingVerTooOld
  /-- `S_INVALID_ARGUMENT` -/
  | invalidArgument
  /-- `S_TIMEOUT` -/
  | timeout
  /-- `S_INTERRUPTED` -/
  | interrupted
  /-- `S_OBJECT_SHUTDOWN_ABORTED_COMPLETION_HANDLER` -/
  | objectShutdownAbortedCompletionHandler
  /-- `S_MQ_MESSAGE_SIZE_OVER_OR_UNDERFLOW` -/
  | mqMessageSizeOverOrUnderflow
  /-- `S_MQ_BIPC_MISC_LIBRARY_ERROR` -/
  | mqBipcMiscLibraryError
  /-- `S_BLOB_STREAM_MQ_SENDER_EXISTS` -/
  | blobStreamMqSenderExists
  /-- `S_BLOB_STREAM_MQ_RECEIVER_EXISTS` -/
  | blobStreamMqReceiverExists
  /-- `S_BLOB_STREAM_MQ_RECEIVER_BAD_CTL_CMD` -/
  | blobStreamMqReceiverBadCtlCmd
  /-- `S_SYNC_IO_WOULD_BLOCK` -/
  | syncIoWouldBlock
  deriving DecidableEq, Repr

/-- A truthy error: a code of the library, or one of the system's (`errno`-like) values. -/
inductive Err where
  /-- One of `error::Code`. -/
  | code (c : Code)
  /-- A system error. -/
  | system (n : Nat)
  /-- `boost::asio::error::operation_aborted`: the system error `ECANCELED`, which is for what asio has
  canceled; no call that writes to or reads from a transport fails so. -/
  | operationAborted
  deriving DecidableEq, Repr

/-- `Error_code`: `none` is the falsy value, success. -/
abbrev ErrorCode := Option Err

/-- A library code as an `Error_code`, as by `make_error_code()`. -/
abbrev Code.toErrorCode (c : Code) : ErrorCode := some (.code c)

/-- `S_SYNC_IO_WOULD_BLOCK`, the code by which a `sync_io` operation says that it is pending. -/
abbrev wouldBlock : ErrorCode := Code.syncIoWouldBlock.toErrorCode

/-- `boost::asio::error::operation_aborted` as an `Error_code`. -/
abbrev operationAborted : ErrorCode := some .operationAborted

/-- The code is success, or an error that a transport or a `sync_io` core may come to. The others are
for those who wait: would-block, and the two codes for what was aborted. -/
def Genuine (err : ErrorCode) : Prop :=
  err ≠ wouldBlock ∧ err ≠ operationAborted ∧
    err ≠ Code.objectShutdownAbortedCompletionHandler.toErrorCode

/-- No error is a genuine result. -/
@[simp] theorem genuine_none : Genuine none := by
  simp [Genuine]

/-- A system error is one. -/
@[simp] theorem genuine_system (n : Nat) : Genuine (some (.system n)) := by
  simp [Genuine]

/-- So is every code but the two that stand for no result. -/
@[simp] theorem genuine_code {c : Code} : Genuine c.toErrorCode ↔
    c ≠ .syncIoWouldBlock ∧ c ≠ .objectShutdownAbortedCompletionHandler := by
  simp [Genuine]

/-! ## Emission to the caller -/

/-- What a call taking an `Error_code*` does to its caller: it returns a value, or, given a null
pointer and a truthy code, throws that code.
Source: flow's `Error_code` emission convention -/
inductive Emit (α : Type*) where
  /-- The call returned `val`; `*err_code` now holds `err` (`none` if the pointer was null). -/
  | ret (val : α) (err : ErrorCode)
  /-- The call threw. -/
  | threw (e : Err)
  deriving DecidableEq, Repr

/-- The truthy code the caller can see after the call, if any. -/
def Emit.emitted {α : Type*} : Emit α → ErrorCode
  | .ret _ err => err
  | .threw e => some e

/-- A body that writes to `*err_code`, called with `err_code = ptr`: given a null pointer it is run
on a local falsy `Error_code`, whose truthy result is thrown.
Source: flow's `FLOW_ERROR_EXEC_AND_THROW_ON_ERROR()` -/
def execAndThrowOnError {α σ : Type*} (ptr : Option ErrorCode)
    (body : ErrorCode → α × ErrorCode × σ) : Emit α × σ :=
  match ptr with
  | some err =>
    let (val, err, s) := body err
    (.ret val err, s)
  | none =>
    match body none with
    | (val, none, s) => (.ret val none, s)
    | (_, some e, s) => (.threw e, s)

/-- The standard way to report `e` from an accepted call: through the pointer, or, if it is null, by
throwing a truthy code. -/
def report (ptr : Option ErrorCode) (e : ErrorCode) : Emit Bool :=
  match ptr, e with
  | none, some e => .threw e
  | none, none => .ret true none
  | some _, e => .ret true e

/-- The state a body leaves behind does not depend on how its error reaches the caller. -/
@[simp] theorem execAndThrowOnError_none_snd {α σ : Type*}
    (body : ErrorCode → α × ErrorCode × σ) :
    (execAndThrowOnError none body).2 = (body none).2.2 := by
  unfold execAndThrowOnError
  rcases h : body none with ⟨val, _ | e, s⟩ <;> rfl

/-- A caller with a clear `Error_code`, or with none, sees exactly the code the body emits. -/
@[simp] theorem execAndThrowOnError_emitted {α σ : Type*} (ptr : Option ErrorCode)
    (hptr : ptr.getD none = none) (body : ErrorCode → α × ErrorCode × σ) :
    (execAndThrowOnError ptr body).1.emitted = (body none).2.1 := by
  unfold execAndThrowOnError
  rcases ptr with _ | err
  · rcases h : body none with ⟨val, _ | e, s⟩ <;> rfl
  · cases hptr
    rfl

end FlowIpc
