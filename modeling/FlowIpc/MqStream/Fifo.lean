import FlowIpc.Lib.Transition
import FlowIpc.MqStream.RcvInv
import FlowIpc.MqStream.SndInv
import Mathlib.Data.PNat.Defs

/-!
# A queue stream from end to end

A sender and a receiver on one message queue, their steps interleaved in any order, each operation on
the queue succeeding, failing or finding it full or empty as it may.

**Result.** In every reachable state (`fifo`)
* an escape is followed on the queue by its command, and a ping is dropped with both its messages or
  not at all;
* the blobs delivered are the first of those accepted, in order and as they were;
* once the graceful close has been reported they are all of them, and it was asked for.

The frames that the sender has been told to send, and those of them that the receiver has read, are
all that the two invariants (`BlobStreamMqSender.Inv`, `BlobStreamMqReceiver.Inv`) have to share.
-/

namespace FlowIpc.MqStream

open PrefixCode

/-! ## The system -/

/-- A sender, a receiver and what has been seen of them. -/
structure World where
  /-- The sender. -/
  snd : BlobStreamMqSender
  /-- The receiver. -/
  rcv : BlobStreamMqReceiver
  /-- The blobs that `send_blob()` has accepted, oldest first. -/
  accepted : List {b : Blob // b ≠ []}
  /-- The blobs that requests have been answered with, oldest first. -/
  delivered : List Blob
  /-- `end_sending()` or `async_end_sending()` has been called. -/
  endCalled : Bool
  /-- A request has been answered with the graceful close. -/
  closed : Bool

/-- Whose turn it is, what it does, and what the queue answers to it. -/
inductive Move where
  /-- A step of the sender. -/
  | snd (i : BlobStreamMqSender.Input) (ks : List MqAnswer)
  /-- A step of the receiver. -/
  | rcv (i : BlobStreamMqReceiver.Input) (ks : List MqAnswer)

/-- A call of one of the functions that end the sending. -/
def BlobStreamMqSender.Input.isEnd : BlobStreamMqSender.Input → Bool
  | .endSending => true
  | .asyncEndSending _ => true
  | _ => false

/-- A step that pings if it does anything. -/
def BlobStreamMqSender.Input.IsPing (i : BlobStreamMqSender.Input) : Prop :=
  i.frame? = some .ping

namespace World

/-- A sender and a receiver just constructed on an empty queue. -/
def init (maxMsgSize : Nat) : World :=
  let mq : Mq := ⟨maxMsgSize, [], 0, []⟩
  ⟨.ctor mq, .ctor mq, [], [], false, false⟩

/-- One step; the queue is the same for both. -/
def next (w : World) : Move → Option World
  | .snd i ks =>
    (w.snd.step i ks).map fun (snd, obs) =>
      { w with
        snd := snd
        rcv := { w.rcv with inp := { w.rcv.inp with mq := snd.out.mq } }
        accepted := w.accepted ++ BlobStreamMqSender.accepted obs
        endCalled := w.endCalled || i.isEnd }
  | .rcv i ks =>
    (w.rcv.step i ks).map fun (rcv, obs) =>
      { w with
        rcv := rcv
        snd := { w.snd with out := { w.snd.out with mq := rcv.inp.mq } }
        delivered := w.delivered ++ BlobStreamMqReceiver.delivered obs
        closed := w.closed || obs.any (decide <| BlobStreamMqReceiver.Obs.IsClose ·) }

/-- The step relation. -/
def Step (w : World) (m : Move) (w' : World) : Prop :=
  w.next m = some w'

/-- A state that a sender and a receiver on one queue can come to. -/
def Reached (w : World) : Prop :=
  Lts.Reachable Step (fun w => ∃ n, w = init n) w

end World

/-! ## What holds of it -/

/-- The commands there are. -/
def ctlCmds : List Blob :=
  [ctlBytes (-1), ctlBytes ctlPing, ctlBytes ctlEndSending]

/-- Each escape has its command behind it: on the queue if anything is, and else, unless the queue has
failed, at the head of what is still to be sent. -/
structure EscapesFollowed (o : Out) : Prop where
  onQueue : ∀ pre msg post, o.mq.sent = pre ++ [] :: msg :: post → msg ∈ ctlCmds
  handed : o.pendingErrCode = none → ∀ pre post, o.mq.sent ++ o.pendingPayloadsQ = pre ++ [] :: post →
    ∃ msg rest, post = msg :: rest ∧ msg ∈ ctlCmds

/-- Pinging adds both messages of a ping or neither. -/
def PingsWhole (w : World) : Prop :=
  ∀ i ks w', i.IsPing → w.Step (.snd i ks) w' → w.snd.out.pendingErrCode = none →
    w'.snd.out.pendingErrCode = none →
      w'.snd.out.handed = w.snd.out.handed ∨
        w'.snd.out.handed = w.snd.out.handed ++ [[], ctlBytes ctlPing]

/-- In a stream of frames each escape is followed by a command. -/
theorem escape_followed {fs : List Frame} {pre post : List Blob}
    (h : stream Frame.enc fs = pre ++ [] :: post) :
    ∃ msg rest, post = msg :: rest ∧ msg ∈ ctlCmds := by
  induction fs generalizing pre with
  | nil => simp at h
  | cons f fs ih =>
      rw [stream_cons] at h
      cases f with
      | blob b =>
          cases pre with
          | nil =>
              simp only [Frame.enc, List.singleton_append, List.nil_append, List.cons.injEq] at h
              exact absurd h.1 b.property
          | cons m pre =>
              simp only [Frame.enc, List.cons_append, List.cons.injEq] at h
              exact ih h.2
      | _ =>
          cases pre with
          | nil =>
              simp only [Frame.enc, List.cons_append, List.nil_append, List.cons.injEq] at h
              exact ⟨_, _, h.2.symm, by simp [ctlCmds]⟩
          | cons m pre =>
              cases pre with
              | nil =>
                  simp only [Frame.enc, List.cons_append, List.nil_append, List.cons.injEq] at h
                  have hlen := congrArg List.length h.2.1
                  simp at hlen
              | cons m' pre =>
                  simp only [Frame.enc, List.cons_append, List.nil_append, List.cons.injEq] at h
                  exact ih h.2.2

/-- What a sender has put out is in whole frames. -/
theorem Out.Carries.escapesFollowed {o : Out} {fs : List Frame} (h : o.Carries fs) :
    EscapesFollowed o where
  onQueue pre msg post hsent := by
    obtain ⟨rest, hrest⟩ := h.sent_prefix
    rw [hsent, List.append_assoc, List.cons_append, List.cons_append] at hrest
    obtain ⟨msg', rest', heq, hmem⟩ := escape_followed hrest.symm
    rw [(List.cons.inj heq).1]
    exact hmem
  handed herr pre post hsplit := by
    exact escape_followed ((h.handed_eq herr).symm.trans hsplit)

/-! ## The invariant -/

/-- The sender has been told to send the frames `fs`, and the receiver has read `done` of them. -/
structure World.Inv (w : World) (fs done : List Frame) : Prop where
  snd : w.snd.Inv fs
  rcv : w.rcv.Inv fs done
  sent_eq : w.rcv.inp.mq.sent = w.snd.out.mq.sent
  received_eq : w.rcv.inp.mq.received = w.snd.out.mq.received
  accepted_eq : w.accepted = blobs fs
  delivered_eq : w.delivered = (blobs done).map Subtype.val
  endCalled : .endSending ∈ fs → w.endCalled = true
  closed : w.closed = true → .endSending ∈ done

/-- A sender keeps to the order of frames. -/
theorem BlobStreamMqSender.Inv.ordered {s : BlobStreamMqSender} {fs : List Frame} (h : s.Inv fs) :
    Ordered fs where
  version_first := by
    cases hs : s.started with
    | false => exact .inl (h.fresh hs).1
    | true => exact .inr (h.begun hs)
  end_last := h.last

/-- What the receiver does to the queue is no matter to the sender. -/
theorem BlobStreamMqSender.Inv.setMq {s : BlobStreamMqSender} {fs : List Frame} {mq : Mq}
    (h : s.Inv fs) (hsent : mq.sent = s.out.mq.sent) :
    ({ s with out := { s.out with mq := mq } } : BlobStreamMqSender).Inv fs :=
  { h with
    carries := {
      ok := ⟨h.carries.ok.noFailure, h.carries.ok.genuine, h.carries.ok.evWaits_eq⟩
      sent_prefix := by
        rw [hsent]
        exact h.carries.sent_prefix
      handed_eq := fun herr => by
        rw [Out.handed, hsent]
        exact h.carries.handed_eq herr } }

namespace World

variable {w w' : World} {fs done : List Frame}

/-- A sender and a receiver just constructed are in order. -/
theorem inv_init (n : Nat) : (init n).Inv [] [] where
  snd := BlobStreamMqSender.inv_ctor rfl
  rcv := BlobStreamMqReceiver.inv_ctor rfl List.nil_prefix
  sent_eq := rfl
  received_eq := rfl
  accepted_eq := rfl
  delivered_eq := rfl
  endCalled h := by simp at h
  closed h := by cases h

/-- A step of the sender tells some more frames. -/
theorem Inv.snd_step {i : BlobStreamMqSender.Input} {ks : List MqAnswer} (h : w.Inv fs done)
    (hstep : w.Step (.snd i ks) w') :
    ∃ new, w'.Inv (fs ++ new) done ∧ (new = [] ∨ ∃ f, i.frame? = some f ∧ new = [f]) := by
  unfold Step next at hstep
  simp only [Option.map_eq_some_iff] at hstep
  obtain ⟨⟨s, obs⟩, hsnd, rfl⟩ := hstep
  obtain ⟨hext, new, hs, hacc, hnew⟩ := h.snd.step hsnd
  refine ⟨new, ?_, hnew⟩
  exact {
    snd := hs
    rcv := {
      reads := by
        apply h.rcv.reads.grow (List.prefix_append _ _)
        · rw [h.sent_eq]
          exact hext.sent_prefix
        · exact hs.carries.sent_prefix
        · rw [hext.received_eq, h.received_eq]
      waits := h.rcv.waits
      request := h.rcv.request }
    sent_eq := rfl
    received_eq := rfl
    accepted_eq := by
      simp only
      rw [h.accepted_eq, blobs_append, hacc]
    delivered_eq := h.delivered_eq
    endCalled := fun hmem => by
      rcases List.mem_append.mp hmem with hmem | hmem
      · simp [h.endCalled hmem]
      · rcases hnew with rfl | ⟨f, hf, rfl⟩
        · simp at hmem
        · rw [← List.mem_singleton.mp hmem] at hf
          cases i with
          | endSending => simp [BlobStreamMqSender.Input.isEnd]
          | asyncEndSending _ => simp [BlobStreamMqSender.Input.isEnd]
          | _ => simp [BlobStreamMqSender.Input.frame?] at hf
    closed := h.closed }

/-- A step of the receiver reads some more frames. -/
theorem Inv.rcv_step {i : BlobStreamMqReceiver.Input} {ks : List MqAnswer} (h : w.Inv fs done)
    (hstep : w.Step (.rcv i ks) w') : ∃ new, w'.Inv fs (done ++ new) := by
  unfold Step next at hstep
  simp only [Option.map_eq_some_iff] at hstep
  obtain ⟨⟨r, obs⟩, hrcv, rfl⟩ := hstep
  obtain ⟨hsent, new, hr, hdel, hclose⟩ := h.rcv.step h.snd.ordered hrcv
  refine ⟨new, ?_⟩
  exact {
    snd := h.snd.setMq (hsent.trans h.sent_eq)
    rcv := hr
    sent_eq := rfl
    received_eq := rfl
    accepted_eq := h.accepted_eq
    delivered_eq := by
      simp only
      rw [h.delivered_eq, blobs_append, List.map_append, hdel]
    endCalled := h.endCalled
    closed := fun hclosed => by
      rw [Bool.or_eq_true, List.any_eq_true] at hclosed
      rcases hclosed with hclosed | ⟨o, ho, hisclose⟩
      · exact List.mem_append_left _ (h.closed hclosed)
      · exact hclose o ho (of_decide_eq_true hisclose) }

/-- In every reachable state some frames have been told, and some of these read. -/
theorem Reached.inv (h : w.Reached) : ∃ fs done, w.Inv fs done := by
  apply Lts.Reachable.invariant (P := fun w => ∃ fs done, World.Inv w fs done) _ _ h
  · rintro w ⟨n, rfl⟩
    exact ⟨[], [], inv_init n⟩
  · rintro w (⟨i, ks⟩ | ⟨i, ks⟩) w' ⟨fs, done, hinv⟩ hstep
    · obtain ⟨new, hinv', -⟩ := hinv.snd_step hstep
      exact ⟨fs ++ new, done, hinv'⟩
    · obtain ⟨new, hinv'⟩ := hinv.rcv_step hstep
      exact ⟨fs, done ++ new, hinv'⟩

/-- No assertion of the sender or of the receiver fails. -/
theorem Reached.noFailure (h : w.Reached) :
    w.snd.out.assertFailed = false ∧ w.rcv.inp.assertFailed = false := by
  obtain ⟨fs, done, hinv⟩ := h.inv
  exact ⟨hinv.snd.noFailure, hinv.rcv.noFailure⟩

/-- The receiver reports no error of the protocol. -/
theorem Reached.expected (h : w.Reached) {e : Err} (he : w.rcv.inp.pendingErrCode = some e) :
    In.Expected e := by
  obtain ⟨fs, done, hinv⟩ := h.inv
  exact hinv.rcv.reads.expected e he

/-- Pings are put out whole, or not at all. -/
theorem Inv.pingsWhole (h : w.Inv fs done) : PingsWhole w := by
  intro i ks w' hi hstep herr herr'
  obtain ⟨new, hinv, hnew⟩ := h.snd_step hstep
  rw [hinv.snd.carries.handed_eq herr', h.snd.carries.handed_eq herr]
  rcases hnew with rfl | ⟨f, hf, rfl⟩
  · exact .inl (by rw [List.append_nil])
  · rw [hi] at hf
    cases hf
    exact .inr (by rw [stream_append, stream_singleton]; rfl)

end World

/-! ## The result -/

/-- A queue stream is first in, first out from end to end. -/
theorem fifo {w : World} (h : w.Reached) :
    EscapesFollowed w.snd.out ∧ PingsWhole w ∧
      w.delivered <+: w.accepted.map Subtype.val ∧
      (w.closed = true → w.endCalled = true ∧ w.delivered = w.accepted.map Subtype.val) := by
  obtain ⟨fs, done, hinv⟩ := h.inv
  have hdone := hinv.rcv.reads.done_prefix
  refine ⟨hinv.snd.carries.escapesFollowed, hinv.pingsWhole, ?_, ?_⟩
  · rw [hinv.delivered_eq, hinv.accepted_eq]
    exact (blobs_mono hdone).map _
  · intro hclosed
    have hmem := hinv.closed hclosed
    -- The graceful close is the last frame, so whoever has read it has read all.
    have hall : done = fs := hinv.snd.ordered.eq_of_end_mem hdone hmem
    refine ⟨hinv.endCalled (hall ▸ hmem), ?_⟩
    rw [hinv.delivered_eq, hinv.accepted_eq, hall]

/-- A blob goes through, then a ping and the graceful close, which finds the queue full half-way. -/
def sampleMoves : List Move :=
  [.snd .startSendBlobOps [.ready, .ready], .snd (.sendBlob (blobOf 7 [])) [.ready],
    .rcv .startReceiveBlobOps [], .rcv (.asyncReceiveBlob 8 0) [.ready, .ready, .ready],
    .rcv (.asyncReceiveBlob 8 1) [], .snd (.autoPing (Nat.succPNat 4)) [.ready, .ready],
    .snd (.asyncEndSending 2) [.ready, .wouldBlock], .snd .mqWritable [.ready],
    .rcv .mqReadable [.ready, .ready, .ready, .ready]]

/-- In such a run the blob is delivered and the close reported. -/
theorem fifo_sampleMoves : ∃ w, sampleMoves.foldlM World.next (World.init 8) = some w ∧
    w.delivered = [[7]] ∧ w.closed = true ∧ EscapesFollowed w.snd.out ∧ PingsWhole w ∧
      w.delivered <+: w.accepted.map Subtype.val ∧
      (w.closed = true → w.endCalled = true ∧ w.delivered = w.accepted.map Subtype.val) := by
  have hrun : ((sampleMoves.foldlM World.next (World.init 8)).map
      fun w => (w.delivered, w.closed)) = some ([[7]], true) := by decide +kernel
  obtain ⟨w, hw, hseen⟩ := Option.map_eq_some_iff.mp hrun
  have hreached : w.Reached := ⟨World.init 8, sampleMoves, ⟨8, rfl⟩, .of_foldlM hw⟩
  exact ⟨w, hw, congrArg Prod.fst hseen, congrArg Prod.snd hseen, fifo hreached⟩

end FlowIpc.MqStream
