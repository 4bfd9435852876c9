import FlowIpc.Adapter.MqSndCore
import FlowIpc.Adapter.SndOnce
import FlowIpc.Adapter.SocketSndCore

/-!
# The end of sending, over either core

With the sender of a queue stream for its core the adapter reports the end of sending once, whatever
happens. With that of a socket stream it does as long as no accepted `async_end_sending()` has to queue
the graceful close (`endsOnce_either`). Where one has to, the core loses the adapter's handler, so the user's
is left in its slot: it is invoked only on destruction, and told that it was aborted, even if everything
has long been sent (`invoked_aborted`).
-/

namespace FlowIpc.Adapter

open Lts SocketStream

/-- The cores that an `Async_adapter_sender` is made around. -/
inductive SndCoreKind where
  /-- `Native_socket_stream::Impl` -/
  | nativeSocketStream
  /-- `Blob_stream_mq_sender_impl` -/
  | blobStreamMqSender
  deriving DecidableEq

/-- The core itself. -/
def SndCoreKind.core : SndCoreKind → SndCore
  | nativeSocketStream => socketSndCore
  | blobStreamMqSender => mqSndCore

/-- The sender of a queue stream loses no handler, so nothing need be asked of the steps. -/
theorem SndWorld.Reached.keeping {w : SndWorld mqSndCore} (h : w.Reached) : w.ReachedKeeping := by
  obtain ⟨w₀, ms, hinit, hrun⟩ := h
  refine ⟨w₀, ms, hinit, hrun.mono ?_⟩
  intro w m w' hstep
  refine ⟨?_, hstep⟩
  cases m with
  | asyncEndSending f ans =>
      cases f with
      | none => exact trivial
      | some f => exact trivial
  | _ => exact trivial

/-- **The end of sending is reported once**, over either core, where no step loses a handler; over the
sender of a queue stream, everywhere. -/
theorem endsOnce_either (k : SndCoreKind) (w : SndWorld k.core)
    (h : w.ReachedKeeping ∨ k = .blobStreamMqSender ∧ w.Reached) : w.EndsOnce := by
  cases k with
  | nativeSocketStream =>
      rcases h with h | ⟨hk, -⟩
      · exact h.endsOnce
      · cases hk
  | blobStreamMqSender =>
      rcases h with h | ⟨-, h⟩
      · exact h.endsOnce
      · exact SndWorld.ReachedKeeping.endsOnce (SndWorld.Reached.keeping h)

namespace SndWorld

/-- Around a connected socket that takes the version. -/
def sampleInit : SndWorld socketSndCore :=
  ⟨.ctor (.ctor true ⟨true, [], 0, []⟩) [.moves 1], [], [], [], false⟩

/-- It has just been constructed. -/
theorem init_sampleInit : Init sampleInit :=
  ⟨_, _, ⟨_, rfl, rfl⟩, rfl⟩

/-- A message is sent, and the socket takes the graceful close at once. -/
def sampleMoves : List (SndMove socketSndCore) :=
  [.send ⟨(none, [7]), by simp⟩ [.moves 1, .moves 1], .asyncEndSending (some 7) [.moves 1],
    .asyncEndSending (some 8) [], .destroy]

/-- In such a run no handler is lost, and the first is told of the success. -/
theorem endsOnce_sampleMoves : ∃ w, Run (Restrict Step Keeps) sampleInit sampleMoves w ∧
    w.invoked = [(7, none)] ∧ w.EndsOnce := by
  have hrun : ∃ w, Run (Restrict Step Keeps) sampleInit sampleMoves w ∧ w.invoked = [(7, none)] := by
    refine ⟨_, run_cons_iff.mpr ⟨_, ⟨trivial, rfl⟩, run_cons_iff.mpr ⟨_, ⟨?_, rfl⟩,
      run_cons_iff.mpr ⟨_, ⟨.inl rfl, rfl⟩, .single ⟨trivial, rfl⟩⟩⟩⟩, rfl⟩
    -- Nothing is queued, and the socket takes both bytes of the graceful close.
    exact .inr (.inr ⟨rfl, .inr (.inl (by decide))⟩)
  obtain ⟨w, hrun, hinvoked⟩ := hrun
  exact ⟨w, hrun, hinvoked, endsOnce_either .nativeSocketStream w
    (.inl ⟨sampleInit, sampleMoves, init_sampleInit, hrun⟩)⟩

/-- The graceful close has to be queued, is sent later, and then the adapter is destroyed. -/
def queuedMoves : List (SndMove socketSndCore) :=
  [.asyncEndSending (some 7) [.wouldBlock], .event .socketWritable [.moves 1], .destroy]

/-- In such a run all is sent, no error comes up, and the handler is told that it was aborted. -/
theorem invoked_aborted : ∃ w : SndWorld socketSndCore, w.Reached ∧
    socketSndCore.hosed w.adapter.syncIo = none ∧
      socketSndCore.Handed w.adapter.syncIo w.accepted ∧ w.invoked = [(7, aborted)] ∧
        ¬ w.EndsOnce := by
  have hrun : ∃ w, Run Step sampleInit queuedMoves w ∧
      socketSndCore.hosed w.adapter.syncIo = none ∧
        socketSndCore.Handed w.adapter.syncIo w.accepted ∧ w.invoked = [(7, aborted)] ∧
          socketSndCore.assertFailed w.adapter.syncIo = true :=
    ⟨_, run_cons_iff.mpr ⟨_, rfl, run_cons_iff.mpr ⟨_, rfl, .single rfl⟩⟩, rfl,
      ⟨[], by decide +kernel, rfl⟩, rfl, rfl⟩
  obtain ⟨w, hrun, hhosed, hhanded, hinvoked, hfail⟩ := hrun
  refine ⟨w, ⟨sampleInit, queuedMoves, init_sampleInit, hrun⟩, hhosed, hhanded, hinvoked, ?_⟩
  intro honce
  rw [honce.noFailure.2] at hfail
  cases hfail

end SndWorld

end FlowIpc.Adapter
