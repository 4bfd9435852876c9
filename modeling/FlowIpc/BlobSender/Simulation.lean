import FlowIpc.BlobSender.OfMq
import FlowIpc.BlobSender.OfSocket

/-!
# Two senders of blobs, and one machine

A socket stream in the PEER state and the sender of a queue stream were written one after the other,
over transports that have little in common. `blobSenders` says that they are the same sender: whatever
is done to either, in whatever order, and whatever its transport answers, the machine over items does
the same and replies the same; and what the machine says of calls that are refused, of errors and of
what is done once is true of both. The constructor of a queue stream can fail and yet leave a sender
behind, which is the machine with the error kept from the first.

Source: `sync_io/detail/native_socket_stream_impl_snd.cpp`, `sync_io/detail/blob_stream_mq_snd_impl.hpp`.
-/

namespace FlowIpc.BlobSender

open Lts

/-- One end of a pipe for blobs, as its user has it. -/
structure Pipe where
  /-- Its states. -/
  State : Type
  /-- What the transport can answer. -/
  Answer : Type
  /-- What the transport carries. -/
  Cell : Type
  /-- A call or an event during which the transport gives these answers, and what is seen of it. -/
  react : State → Op → List Answer → Option (State × Reply)
  /-- What of it its user has to do with. -/
  view : State → Sender (Cells Cell)
  /-- The cells of an item. -/
  enc : Item → List Cell
  /-- `send_blob_max_size()` -/
  max : Nat
  /-- It has just been constructed, or connected. -/
  Init : State → Prop

/-- A call or an event, and what is seen of it, whatever the transport answers. -/
def Pipe.Step (P : Pipe) (s : P.State) (l : Op × Reply) (s' : P.State) : Prop :=
  ∃ ks, P.react s l.1 ks = some (s', l.2)

/-- What a sender of blobs promises, over every run from where it was constructed. -/
structure Pipe.IsBlobSender (P : Pipe) : Prop where
  /-- The machine over items does the same and replies the same, from where nothing has been done to it but
  that an error of the constructor is kept; the transport carries the cells of the items passed on, and at most
  a proper part of the next one's. -/
  simulated : ∀ s₀ tr s, P.Init s₀ → Run P.Step s₀ tr s →
    ∃ a, Run (BlobSender.Step itemMedium P.max) (.made ⟨[], []⟩ (P.view s₀).latched) tr a ∧
      Refines P.enc (P.view s) a
  /-- A send is refused, or declined as finished, too large or after an error, in this order, or else
  returns what sending came to. -/
  sends : ∀ s b r s', Reachable P.Step P.Init s → P.Step s (.sendBlob b, r) s' →
    r = ((P.view s).declined P.max b).getD (.returned true (P.view s').latched)
  /-- After a call that was refused, or a blob that was declined as finished or as too large, every
  call and every event is as if that had not been. -/
  idle : ∀ s l s', Reachable P.Step P.Init s → P.Step s l s' → l.2.idle = true →
    P.view s' = P.view s ∧ ∀ op ks, P.react s' op ks = P.react s op ks
  /-- The first error is kept, and nothing is written after it. -/
  latched : ∀ s tr s', Reachable P.Step P.Init s → (P.view s).latched.isSome → Run P.Step s tr s' →
    (P.view s').latched = (P.view s).latched ∧ (P.view s').store = (P.view s).store
  /-- The end and the pings are asked for once. -/
  once : ∀ s₀ tr s, P.Init s₀ → Run P.Step s₀ tr s → tr.countP ends ≤ 1 ∧ tr.countP pings ≤ 1

/-! ## What is to be shown of a pipe -/

/-- In the states in which `Good` holds every step is one of the machine over the pipe's cells. -/
structure Pipe.Lawful (P : Pipe) (Good : P.State → Prop) : Prop where
  enc_ne_nil : ∀ f, P.enc f ≠ []
  init : ∀ s, P.Init s → Good s ∧ P.view s = .made ⟨[], []⟩ (P.view s).latched
  step : ∀ s op ks s' r, Good s → P.react s op ks = some (s', r) →
    Good s' ∧ BlobSender.Step (cellMedium P.enc) P.max (P.view s) (op, r) (P.view s')
  idle : ∀ s op ks s' r, Good s → P.react s op ks = some (s', r) → r.idle = true →
    ∀ op ks, P.react s' op ks = P.react s op ks

namespace Pipe.Lawful

variable {P : Pipe} {Good : P.State → Prop} {s₀ s s' : P.State} {tr : List (Op × Reply)}

/-- Every state that is reached is good. -/
theorem good_of_reachable (hP : P.Lawful Good) (h : Reachable P.Step P.Init s) : Good s := by
  refine Reachable.invariant (P := Good) (fun s hs => (hP.init s hs).1) ?_ h
  rintro s l s' hs ⟨ks, hstep⟩
  exact (hP.step s l.1 ks s' l.2 hs hstep).1

/-- A run is one of the machine over the pipe's cells. -/
theorem run_view (hP : P.Lawful Good) (hs : Good s) (h : Run P.Step s tr s') :
    Run (BlobSender.Step (cellMedium P.enc) P.max) (P.view s) tr (P.view s') ∧ Good s' := by
  induction h with
  | nil => exact ⟨Run.nil _, hs⟩
  | @snoc t u tr l _ hstep ih =>
      obtain ⟨hrun, ht⟩ := ih
      obtain ⟨ks, hreact⟩ := hstep
      obtain ⟨hu, hview⟩ := hP.step t l.1 ks u l.2 ht hreact
      exact ⟨hrun.snoc hview, hu⟩

/-- A run of the machine over cells is one of the machine over items. -/
theorem run_items {α : Type} {enc : Item → List α} (henc : ∀ f, enc f ≠ []) {max : Nat}
    {m m' : Sender (cellMedium enc).Store} {a : Sender itemMedium.Store}
    (h : Run (BlobSender.Step (cellMedium enc) max) m tr m') (ha : Refines enc m a) :
    ∃ a', Run (BlobSender.Step itemMedium max) a tr a' ∧ Refines enc m' a' := by
  induction h with
  | nil => exact ⟨a, Run.nil _, ha⟩
  | snoc _ hstep ih =>
      obtain ⟨a₁, hrun, ha₁⟩ := ih
      obtain ⟨a₂, hstep', ha₂⟩ := ha₁.step henc hstep
      exact ⟨a₂, hrun.snoc hstep', ha₂⟩

/-- What the machine says of `send_blob()`. -/
theorem sends_eq {M : Medium} {max : Nat} {m m' : Sender M.Store} {b : {b : Blob // b ≠ []}}
    {r : Reply} (h : BlobSender.Step M max m (.sendBlob b, r) m') :
    r = (m.declined max b).getD (.returned true m'.latched) := by
  cases h with
  | sendDeclined hdec =>
      rw [hdec]
      rfl
  | send hdec _ =>
      rw [hdec]
      rfl

/-- **A lawful pipe is a sender of blobs.** -/
theorem isBlobSender (hP : P.Lawful Good) : P.IsBlobSender where
  simulated s₀ tr s hs₀ h := by
    obtain ⟨hgood, hinit⟩ := hP.init s₀ hs₀
    obtain ⟨hrun, -⟩ := hP.run_view hgood h
    rw [hinit] at hrun
    exact run_items hP.enc_ne_nil hrun (refines_made hP.enc_ne_nil _)
  sends s b r s' hs hstep := by
    obtain ⟨ks, hreact⟩ := hstep
    exact sends_eq (hP.step s _ ks s' r (hP.good_of_reachable hs) hreact).2
  idle s l s' hs hstep hidle := by
    obtain ⟨ks, hreact⟩ := hstep
    have hgood := hP.good_of_reachable hs
    have hview := (hP.step s l.1 ks s' l.2 hgood hreact).2.idle hidle
    exact ⟨hview, hP.idle s l.1 ks s' l.2 hgood hreact hidle⟩
  latched s tr s' hs herr h := by
    obtain ⟨hrun, -⟩ := hP.run_view (hP.good_of_reachable hs) h
    refine Run.invariant (P := fun m => m.latched = (P.view s).latched ∧
      m.store = (P.view s).store) ?_ hrun ⟨rfl, rfl⟩
    rintro m l m' ⟨hlatched, hstore⟩ hstep
    obtain ⟨hlatched', hstore'⟩ := hstep.latched (hlatched ▸ herr)
    exact ⟨hlatched'.trans hlatched, hstore'.trans hstore⟩
  once s₀ tr s hs₀ h := by
    obtain ⟨hgood, hinit⟩ := hP.init s₀ hs₀
    obtain ⟨hrun, -⟩ := hP.run_view hgood h
    rw [hinit] at hrun
    obtain ⟨hends, hpings⟩ := counts (M := cellMedium P.enc) rfl rfl hrun
    rw [hends, hpings]
    exact ⟨Bool.toNat_le _, Bool.toNat_le _⟩

end Pipe.Lawful

/-! ## The two pipes -/

section MqPipe

open MqStream (BlobStreamMqSender Mq MqAnswer)

/-- The sender of a queue stream, on a queue nothing was sent on, with this limit on messages; its constructor may
have failed. -/
def mqPipe (max : Nat) : Pipe where
  State := BlobStreamMqSender
  Answer := MqAnswer
  Cell := MqStream.Blob
  react := BlobStreamMqSender.react
  view := BlobStreamMqSender.view
  enc := MqStream.itemEnc
  max := max
  Init s := ∃ mq : Mq, mq.sent = [] ∧ mq.maxMsgSize = max ∧
    (s = BlobStreamMqSender.ctor mq ∨ ∃ e, s = BlobStreamMqSender.ctorFailed mq max e)

/-- A sender in a run from its constructor, whether that failed or not. -/
def MqSound (max : Nat) (s : BlobStreamMqSender) : Prop :=
  ((∃ fs, s.Inv fs) ∨ ∃ mq e, s.Dead mq max e) ∧ s.mqMaxMsgSz = max

/-- What a sound sender does is what the machine does, and it stays sound. -/
theorem MqSound.acts {max : Nat} {s s' : BlobStreamMqSender} {op : Op} {ks : List MqAnswer} {r : Reply}
    (h : MqSound max s) (hreact : s.react op ks = some (s', r)) :
    BlobStreamMqSender.Acts (s.withAnswers ks) op r s' ∧ MqSound max s' := by
  obtain ⟨hsound, hmax⟩ := h
  obtain ⟨obs, hstep⟩ := BlobStreamMqSender.step_of_react hreact
  rcases hsound with ⟨fs, hinv⟩ | ⟨mq, e, hdead⟩
  · have hacts := hinv.acts hreact
    obtain ⟨-, new, hinv', -⟩ := hinv.step hstep
    exact ⟨hacts, .inl ⟨_, hinv'⟩, hacts.mqMaxMsgSz_eq.trans hmax⟩
  · have hacts := hdead.acts hreact
    exact ⟨hacts, .inr ⟨mq, e, hdead.step ⟨ks, obs, hstep⟩⟩, hacts.mqMaxMsgSz_eq.trans hmax⟩

/-- The sender of a queue stream is lawful. -/
theorem lawful_mqPipe (max : Nat) : (mqPipe max).Lawful (MqSound max) where
  enc_ne_nil := MqStream.itemEnc_ne_nil
  init := by
    rintro s ⟨mq, hsent, hmax, rfl | ⟨e, rfl⟩⟩
    · refine ⟨⟨.inl ⟨[], BlobStreamMqSender.inv_ctor hsent⟩, hmax⟩, ?_⟩
      simp [mqPipe, BlobStreamMqSender.view, BlobStreamMqSender.ctor, MqStream.Out.toCells, hsent,
        Sender.made, Sender.init]
    · refine ⟨⟨.inr ⟨mq, e, BlobStreamMqSender.dead_ctorFailed mq max e⟩, rfl⟩, ?_⟩
      simp [mqPipe, BlobStreamMqSender.view, BlobStreamMqSender.ctorFailed, BlobStreamMqSender.ctor,
        MqStream.Out.toCells, hsent, Sender.made, Sender.init]
  step := by
    intro s op ks s' r hsound hreact
    obtain ⟨hacts, hsound'⟩ := hsound.acts hreact
    have hview := hacts.step
    rw [show (s.withAnswers ks).mqMaxMsgSz = max from hsound.2] at hview
    exact ⟨hsound', hview⟩
  idle := by
    intro s op ks s' r hsound hreact hidle op' ks'
    rw [(hsound.acts hreact).1.idle hidle]
    rfl

end MqPipe

section SocketPipe

open SocketStream (NativeSocketStreamSnd PeerSocket SockAnswer)

/-- A socket stream in the PEER state, on a socket nothing was sent on. -/
def socketPipe : Pipe where
  State := NativeSocketStreamSnd
  Answer := SockAnswer
  Cell := SocketStream.Cell
  react := NativeSocketStreamSnd.react
  view := NativeSocketStreamSnd.view
  enc := SocketStream.itemEnc
  max := SocketStream.maxMetaBlobLength
  Init s := ∃ p : PeerSocket, p.sent = [] ∧ s = NativeSocketStreamSnd.ctor true p

/-- The sender of a socket stream is lawful. -/
theorem lawful_socketPipe :
    socketPipe.Lawful fun s : NativeSocketStreamSnd =>
      (∃ is obs, NativeSocketStreamSnd.Queues is s obs) ∧ s.statePeer = true where
  enc_ne_nil := SocketStream.itemEnc_ne_nil
  init := by
    rintro s ⟨p, hsent, rfl⟩
    refine ⟨⟨⟨[], [], NativeSocketStreamSnd.queues_ctor hsent⟩, rfl⟩, ?_⟩
    simp [socketPipe, NativeSocketStreamSnd.view, NativeSocketStreamSnd.ctor,
      SocketStream.Out.toCells, hsent, Sender.made, Sender.init]
  step := by
    rintro s op ks s' r ⟨⟨is, obs, hq⟩, hpeer⟩ hreact
    have hacts := hq.acts hpeer hreact
    obtain ⟨obs', hstep⟩ := NativeSocketStreamSnd.step_of_react hreact
    exact ⟨⟨⟨_, _, hq.step hstep⟩, hacts.statePeer_eq.trans hpeer⟩, hacts.step⟩
  idle := by
    rintro s op ks s' r ⟨⟨is, obs, hq⟩, hpeer⟩ hreact hidle op' ks'
    rw [(hq.acts hpeer hreact).idle hidle]
    rfl

end SocketPipe

/-- **One machine for both.** A socket stream in the PEER state, and the sender of a queue stream over
any queue, be it one whose constructor failed, are senders of blobs. -/
theorem blobSenders : socketPipe.IsBlobSender ∧ ∀ max, (mqPipe max).IsBlobSender :=
  ⟨lawful_socketPipe.isBlobSender, fun max => (lawful_mqPipe max).isBlobSender⟩

end FlowIpc.BlobSender
