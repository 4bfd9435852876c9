import FlowIpc.MqStream.RcvHandoff
import FlowIpc.MqStream.SndHandoff
import Mathlib.Data.PNat.Defs

/-!
# Thread W and the user thread are never at a queue at once

A sender or a receiver over a queue without a native handle, its blocking worker, the pipe between them,
the event loop, and the destructor, which interrupts the queue's waits and then joins the worker. A call
or an event is not one step here: its acts are carried out one by one, and the worker may move between
any two of them. `HandedOff` is what `Handoff` says of every state of every such run, together with that
the acts are all that is done to the queue; `handed_off` is that both keep to it, from their constructors
on and whatever the queue answers.

Source: `sync_io/detail/blob_stream_mq_snd_impl.hpp`, `sync_io/detail/blob_stream_mq_rcv_impl.hpp`.
-/

namespace FlowIpc.MqStream

open Handoff Lts

/-- The sender's acts are all that a step does to the queue. -/
def BlobStreamMqSender.Accounts (s : BlobStreamMqSender) : Prop :=
  ∀ i ks s' obs, s.step i ks = some (s', obs) →
    s'.out.mq = Out.replay (s.withAnswers ks).out.mq (s.acts i ks)

/-- The receiver's acts are all that a step does to the queue. -/
def BlobStreamMqReceiver.Accounts (r : BlobStreamMqReceiver) : Prop :=
  ∀ i ks r' obs, r.step i ks = some (r', obs) →
    r'.inp.mq = In.replay (r.withAnswers ks).inp.mq (r.acts i ks)

/-- A sender that waits when it should accounts for its events. -/
theorem Out.Waits.accounts {s : BlobStreamMqSender} (h : s.out.Waits) : s.Accounts := by
  intro i ks s' obs hstep
  by_cases hi : i = .mqWritable
  · subst hi
    have hone : s.out.evWaits = 1 := by
      have hle := h.le_one
      by_contra hne
      have hzero : (s.withAnswers ks).out.evWaits = 0 := by
        change s.out.evWaits = 0
        omega
      simp [BlobStreamMqSender.step, hzero] at hstep
    obtain ⟨t, obs', as, hstep', has, hdoes⟩ := BlobStreamMqSender.does_mqWritable h hone ks
    rw [hstep] at hstep'
    cases hstep'
    rw [has]
    exact hdoes.mq_eq
  · exact (BlobStreamMqSender.does_step h hi hstep).mq_eq

/-- So does a receiver. -/
theorem BlobStreamMqReceiver.Waits.accounts {r : BlobStreamMqReceiver} (h : r.Waits) :
    r.Accounts := by
  intro i ks r' obs hstep
  by_cases hi : i = .mqReadable
  · subst hi
    have hone : r.inp.evWaits = 1 := by
      have hle := h.le_one
      by_contra hne
      have hzero : (r.withAnswers ks).inp.evWaits = 0 := by
        change r.inp.evWaits = 0
        omega
      simp [BlobStreamMqReceiver.step, hzero] at hstep
    obtain ⟨t, obs', as, hstep', has, hdoes, -⟩ := BlobStreamMqReceiver.does_mqReadable h hone ks
    rw [hstep] at hstep'
    cases hstep'
    rw [has]
    exact hdoes.mq_eq
  · exact (BlobStreamMqReceiver.does_step h hi hstep).inp.mq_eq

/-- A sender and its worker, in some run. -/
def SndReached (s : State BlobStreamMqSender Blob) : Prop :=
  Reachable (Step BlobStreamMqSender.user) (fun s => ∃ core, core.Constructed ∧ s = .init core) s

/-- A receiver and its worker, in some run. -/
def RcvReached (r : State BlobStreamMqReceiver Nat) : Prop :=
  Reachable (Step BlobStreamMqReceiver.user) (fun r => ∃ core, core.Constructed ∧ r = .init core) r

/-- In every run of a sender and its worker, and in every run of a receiver and its worker, the queue is
handed over and back as it should be, and no thread is stuck. -/
theorem handed_off :
    (∀ s, SndReached s → s.core.Accounts ∧ Exclusive s ∧ Live BlobStreamMqSender.user s) ∧
      ∀ r, RcvReached r → r.core.Accounts ∧ Exclusive r ∧ Live BlobStreamMqReceiver.user r := by
  constructor
  · intro s hs
    obtain ⟨hwaits, hexcl, hlive⟩ :=
      BlobStreamMqSender.disciplined.reachable (fun core hcore => hcore.waits) hs
    exact ⟨hwaits.accounts, hexcl, hlive⟩
  · intro r hr
    obtain ⟨hwaits, hexcl, hlive⟩ :=
      BlobStreamMqReceiver.disciplined.reachable (fun core hcore => hcore.waits) hr
    exact ⟨hwaits.accounts, hexcl, hlive⟩

/-- A sender finds the queue full when it starts, queues the rest of its version, is called back and finds
it full again, and is destroyed while the worker waits. -/
def sndSampleMoves : List (Move (BlobStreamMqSender.Input × List MqAnswer)) :=
  [.turn (.startSendBlobOps, [.wouldBlock]), .act, .act, .start, .act,
    .turn (.sendBlob (blobOf 7 []), [.ready]), .ends .ready, .signal,
    .turn (.mqWritable, [.ready, .wouldBlock]), .act, .act, .act, .act, .start, .act, .interrupt,
    .ends .interrupted, .join]

/-- A receiver waits for a message, and an idle timeout answers the request; the worker is done only then,
and the callback has nothing left to do. -/
def rcvSampleMoves : List (Move (BlobStreamMqReceiver.Input × List MqAnswer)) :=
  [.turn (.startReceiveBlobOps, []), .turn (.asyncReceiveBlob 8 0, [.wouldBlock]), .act, .act, .act,
    .start, .turn (.idleTimerRun (Nat.succPNat 4), []), .turn (.timerFires, []),
    .turn (.timerReadable, []), .turn (.asyncReceiveBlob 8 1, [.ready]), .ends .failed, .signal,
    .turn (.mqReadable, [.ready]), .act]

/-- So it is in these two runs. -/
theorem handed_off_sampleMoves :
    ∃ s r, sndSampleMoves.foldlM (State.next BlobStreamMqSender.user)
        (.init (.ctor ⟨8, [], 0, []⟩)) = some s ∧
      rcvSampleMoves.foldlM (State.next BlobStreamMqReceiver.user)
        (.init (.ctor ⟨8, [], 0, []⟩)) = some r ∧
      s.phase = .gone ∧ s.core.out.pendingPayloadsQ.length = 2 ∧ r.bytes = 0 ∧
      r.core.userRequest = none ∧
      (s.core.Accounts ∧ Exclusive s ∧ Live BlobStreamMqSender.user s) ∧
      r.core.Accounts ∧ Exclusive r ∧ Live BlobStreamMqReceiver.user r := by
  have hsnd : ((sndSampleMoves.foldlM (State.next BlobStreamMqSender.user)
      (.init (.ctor ⟨8, [], 0, []⟩))).map fun s =>
        (decide (s.phase = .gone), s.core.out.pendingPayloadsQ.length)) = some (true, 2) := by
    decide +kernel
  have hrcv : ((rcvSampleMoves.foldlM (State.next BlobStreamMqReceiver.user)
      (.init (.ctor ⟨8, [], 0, []⟩))).map fun r => (r.bytes, r.core.userRequest)) =
        some (0, none) := by
    decide +kernel
  obtain ⟨s, hs, hsseen⟩ := Option.map_eq_some_iff.mp hsnd
  obtain ⟨r, hr, hrseen⟩ := Option.map_eq_some_iff.mp hrcv
  have hsreached : SndReached s := ⟨_, _, ⟨_, .inl ⟨_, rfl⟩, rfl⟩, .of_foldlM hs⟩
  have hrreached : RcvReached r := ⟨_, _, ⟨_, .inl ⟨_, rfl⟩, rfl⟩, .of_foldlM hr⟩
  simp only [Prod.mk.injEq, decide_eq_true_eq] at hsseen hrseen
  exact ⟨s, r, hs, hr, hsseen.1, hsseen.2, hrseen.1, hrseen.2, handed_off.1 s hsreached,
    handed_off.2 r hrreached⟩

end FlowIpc.MqStream
