import FlowIpc.Found.ErrorCode

/-!
# The message queue of the system

A `Persistent_mq_handle` (POSIX or boost.interprocess queue) keeps messages in order and whole. What
it answers to a non-blocking operation is not for its users to foresee, so the answers are part of
the input: an operation on a stream comes with the list of the answers the queue will give during it,
and a queue that has none left would block.

Source: `persistent_mq_handle.hpp` (concept), `posix_mq_handle.cpp` `try_send`, `try_receive`.
-/

namespace FlowIpc.MqStream

/-- The bytes of a low-level message, or of a user's blob. -/
abbrev Blob := List UInt8

/-- What is wrong when a queue operation fails.
Source: `posix_mq_handle.cpp` `handle_mq_api_result`, `bipc_mq_handle.cpp` -/
inductive MqErr where
  /-- A system error. -/
  | system (n : Nat)
  /-- An exception of the library without a system code. -/
  | bipcMisc
  /-- The message does not fit. -/
  | size
  deriving DecidableEq

/-- The code for it. -/
def MqErr.toErr : MqErr → Err
  | .system n => .system n
  | .bipcMisc => .code .mqBipcMiscLibraryError
  | .size => .code .mqMessageSizeOverOrUnderflow

/-- A queue does not fail with a code that is for those who wait. -/
theorem MqErr.genuine_toErr (e : MqErr) : Genuine (some e.toErr) := by
  cases e with
  | system n => simp [toErr]
  | bipcMisc => simp [toErr]
  | size => simp [toErr]

/-- The answer to one non-blocking operation. -/
inductive MqAnswer where
  /-- It can be done now (a receive only if there is a message). -/
  | ready
  /-- It would block. -/
  | wouldBlock
  /-- It fails. -/
  | failed (e : MqErr)
  deriving DecidableEq

/-- A queue, with all the messages ever put on it. -/
structure Mq where
  /-- `max_msg_size()` -/
  maxMsgSize : Nat
  /-- The messages put on the queue so far, oldest first. -/
  sent : List Blob
  /-- How many of these have been taken off it. -/
  received : Nat
  /-- The answers to come. -/
  answers : List MqAnswer
  deriving DecidableEq

namespace Mq

/-- `try_send()`: whether the message was sent, and `*err_code`.
Source: `posix_mq_handle.cpp` `try_send` -/
def trySend (mq : Mq) (blob : Blob) : Bool × ErrorCode × Mq :=
  if mq.maxMsgSize < blob.length then (false, some MqErr.size.toErr, mq)
  else
    match mq.answers with
    | [] => (false, none, mq)
    | .ready :: ks => (true, none, { mq with sent := mq.sent ++ [blob], answers := ks })
    | .wouldBlock :: ks => (false, none, { mq with answers := ks })
    | .failed e :: ks => (false, some e.toErr, { mq with answers := ks })

/-- `try_receive()` into a buffer of size `size`: the message if one was received, and `*err_code`.
Source: `posix_mq_handle.cpp` `try_receive` -/
def tryReceive (mq : Mq) (size : Nat) : Option Blob × ErrorCode × Mq :=
  if size < mq.maxMsgSize then (none, some MqErr.size.toErr, mq)
  else
    match mq.answers with
    | [] => (none, none, mq)
    | .ready :: ks =>
      match mq.sent[mq.received]? with
      | none => (none, none, { mq with answers := ks })
      | some blob => (some blob, none, { mq with received := mq.received + 1, answers := ks })
    | .wouldBlock :: ks => (none, none, { mq with answers := ks })
    | .failed e :: ks => (none, some e.toErr, { mq with answers := ks })

/-- The messages taken off the queue. -/
def taken (mq : Mq) : List Blob :=
  mq.sent.take mq.received

/-- No more messages are taken off a queue than were put on it. -/
def Ok (mq : Mq) : Prop :=
  mq.received ≤ mq.sent.length

/-- What a send can do: it fails and changes nothing but the answers to come, or would block and so
does, or puts the message at the end. -/
theorem trySend_cases {mq mq' : Mq} {blob : Blob} {sent : Bool} {err : ErrorCode}
    (h : mq.trySend blob = (sent, err, mq')) :
    mq'.maxMsgSize = mq.maxMsgSize ∧ mq'.received = mq.received ∧
      ((∃ e, err = some (MqErr.toErr e) ∧ sent = false ∧ mq'.sent = mq.sent) ∨
        (err = none ∧ sent = false ∧ mq'.sent = mq.sent) ∨
        (err = none ∧ sent = true ∧ mq'.sent = mq.sent ++ [blob])) := by
  unfold trySend at h
  split at h
  · cases h
    exact ⟨rfl, rfl, .inl ⟨.size, rfl, rfl, rfl⟩⟩
  · split at h
    · cases h
      exact ⟨rfl, rfl, .inr (.inl ⟨rfl, rfl, rfl⟩)⟩
    · cases h
      exact ⟨rfl, rfl, .inr (.inr ⟨rfl, rfl, rfl⟩)⟩
    · cases h
      exact ⟨rfl, rfl, .inr (.inl ⟨rfl, rfl, rfl⟩)⟩
    · rename_i e ks _
      cases h
      exact ⟨rfl, rfl, .inl ⟨e, rfl, rfl, rfl⟩⟩

/-- What a receive can do: it fails, would block, or takes the oldest message left. -/
theorem tryReceive_cases {mq mq' : Mq} {size : Nat} {msg : Option Blob} {err : ErrorCode}
    (hmq : mq.Ok) (h : mq.tryReceive size = (msg, err, mq')) :
    mq'.maxMsgSize = mq.maxMsgSize ∧ mq'.sent = mq.sent ∧ mq'.Ok ∧
      ((∃ e, err = some (MqErr.toErr e) ∧ msg = none ∧ mq'.taken = mq.taken) ∨
        (err = none ∧ msg = none ∧ mq'.taken = mq.taken) ∨
        (∃ blob, err = none ∧ msg = some blob ∧ mq'.taken = mq.taken ++ [blob])) := by
  unfold tryReceive at h
  split at h
  · cases h
    exact ⟨rfl, rfl, hmq, .inl ⟨.size, rfl, rfl, rfl⟩⟩
  · split at h
    · cases h
      exact ⟨rfl, rfl, hmq, .inr (.inl ⟨rfl, rfl, rfl⟩)⟩
    · cases hget : mq.sent[mq.received]? with
      | none =>
          rw [hget] at h
          cases h
          exact ⟨rfl, rfl, hmq, .inr (.inl ⟨rfl, rfl, rfl⟩)⟩
      | some blob =>
          rw [hget] at h
          cases h
          obtain ⟨hlt, _⟩ := List.getElem?_eq_some_iff.mp hget
          refine ⟨rfl, rfl, hlt, .inr (.inr ⟨blob, rfl, rfl, ?_⟩)⟩
          unfold taken
          rw [List.take_add_one, hget]
          rfl
    · cases h
      exact ⟨rfl, rfl, hmq, .inr (.inl ⟨rfl, rfl, rfl⟩)⟩
    · rename_i e ks _
      cases h
      exact ⟨rfl, rfl, hmq, .inl ⟨e, rfl, rfl, rfl⟩⟩

/-- A receive fails with an error of the queue's own. -/
theorem tryReceive_err {mq mq' : Mq} {size : Nat} {msg : Option Blob} {e : Err}
    (h : mq.tryReceive size = (msg, some e, mq')) : ∃ q : MqErr, e = q.toErr := by
  unfold tryReceive at h
  split at h
  · cases h
    exact ⟨.size, rfl⟩
  · split at h
    · cases h
    · split at h <;> cases h
    · cases h
    · cases h
      exact ⟨_, rfl⟩

/-- Receiving a message uses up an answer. -/
theorem tryReceive_answers {mq mq' : Mq} {size : Nat} {blob : Blob} {err : ErrorCode}
    (h : mq.tryReceive size = (some blob, err, mq')) :
    mq'.answers.length < mq.answers.length := by
  unfold tryReceive at h
  split at h
  · cases h
  · split at h
    · cases h
    · rename_i ks hks
      split at h
      · cases h
      · cases h
        rw [hks]
        exact Nat.lt_succ_self _
    · cases h
    · cases h

/-- What is taken off a queue are the first messages put on it. -/
theorem taken_prefix (mq : Mq) : mq.taken <+: mq.sent :=
  List.take_prefix _ _

end Mq

end FlowIpc.MqStream
