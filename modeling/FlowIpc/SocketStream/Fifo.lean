import FlowIpc.Lib.Transition
import FlowIpc.SocketStream.RcvInv
import FlowIpc.SocketStream.SndInv
import Mathlib.Data.PNat.Defs

/-!
# A socket stream from end to end

The sender at one end of a local stream socket and the receiver at the other, their steps interleaved
in any order, each write and each read moving as many bytes as it may, or none, or failing.

**Result.** In every reachable state (`inOrder`)
* the handles and blobs delivered are the first of those accepted, in order, as they were, each handle
  with its blob;
* once the graceful close has been reported they are all of them, and it was asked for;
* no assertion of the reading or of low-level writing has failed, and the receiver has come to no error
  of the protocol.

None of it depends on the buffers of requests being large enough, or on their having a place for a
handle: a message that does not fit ends the pipe, and is not delivered.
-/

namespace FlowIpc.SocketStream

open PrefixCode

/-! ## The system -/

/-- A sender, a receiver and what has been seen of them. -/
structure World where
  /-- The sender. -/
  snd : NativeSocketStreamSnd
  /-- The receiver. -/
  rcv : NativeSocketStreamRcv
  /-- The messages that `send_native_handle()` and `send_blob()` have accepted, oldest first. -/
  accepted : List NativeSocketStreamSnd.UserMsg
  /-- The messages that requests have been answered with, oldest first. -/
  delivered : List (NativeHandle × Blob)
  /-- `end_sending()` or `async_end_sending()` has been called. -/
  endCalled : Bool
  /-- A request has been answered with the graceful close. -/
  closed : Bool

/-- Whose turn it is, what it does, and what its socket answers to it. -/
inductive Move where
  /-- A step of the sender. -/
  | snd (i : NativeSocketStreamSnd.Input) (ks : List SockAnswer)
  /-- A step of the receiver. -/
  | rcv (i : NativeSocketStreamRcv.Input) (ks : List SockAnswer)

namespace World

/-- A sender and a receiver just constructed around the two ends of a socket. -/
def init (sndPeer rcvPeer : Bool) : World :=
  let p : PeerSocket := ⟨true, [], 0, []⟩
  ⟨.ctor sndPeer p, .ctor rcvPeer p, [], [], false, false⟩

/-- One step; what is put in at one end can be read at the other. -/
def next (w : World) : Move → Option World
  | .snd i ks =>
    (w.snd.step i ks).map fun (snd, obs) =>
      { w with
        snd := snd
        rcv := { w.rcv with
          inp := { w.rcv.inp with
            peerSocket := { w.rcv.inp.peerSocket with sent := snd.out.peerSocket.sent } } }
        accepted := w.accepted ++ NativeSocketStreamSnd.accepted obs
        endCalled := w.endCalled || i.isEnd }
  | .rcv i ks =>
    (w.rcv.step i ks).map fun (rcv, obs) =>
      { w with
        rcv := rcv
        delivered := w.delivered ++ NativeSocketStreamRcv.delivered obs
        closed := w.closed || obs.any NativeSocketStreamRcv.Obs.isClose }

/-- The step relation. -/
def Step (w : World) (m : Move) (w' : World) : Prop :=
  w.next m = some w'

/-- A state that a sender and a receiver on one socket can come to. -/
def Reached (w : World) : Prop :=
  Lts.Reachable Step (fun w => ∃ sndPeer rcvPeer, w = init sndPeer rcvPeer) w

end World

/-! ## The invariant -/

/-- What a sender has told it has put on the wire, but for what it has queued. -/
def NativeSocketStreamSnd.Inv.onWire {s : NativeSocketStreamSnd} {told : Option (List Frame)}
    (h : s.Inv told) : OnWire :=
  ⟨told, s.out.peerSocket.sent, h.carries.sent_le⟩

/-- The sender has told its version and some frames, and the receiver has read `done` of these. -/
structure World.Inv (w : World) (told done : Option (List Frame)) : Prop where
  snd : w.snd.Inv told
  rcv : w.rcv.Inv snd.onWire done
  accepted_eq : w.accepted = (msgs (frames told)).map NativeSocketStreamSnd.userMsg
  delivered_eq : w.delivered = (msgs (frames done)).map found
  endCalled : .endSending ∈ frames told → w.endCalled = true
  closed : w.closed = true → .endSending ∈ frames done

/-- What has been told stays told. -/
theorem NativeSocketStreamSnd.Told.within {told told' : Option (List Frame)}
    {acc : List NativeSocketStreamSnd.UserMsg} {ends : Bool}
    (h : NativeSocketStreamSnd.Told told told' acc ends) : Within told told' := by
  rcases h with ⟨rfl, -⟩ | ⟨rfl, rfl, -⟩ | ⟨fs, f, rfl, rfl, -⟩
  · cases told' with
    | none => exact trivial
    | some fs => exact List.prefix_rfl
  · exact trivial
  · exact List.prefix_append _ _

/-- What is within the one is within what that is within. -/
theorem Within.trans {a b c : Option (List Frame)} (h : Within a b) (h' : Within b c) :
    Within a c := by
  cases a with
  | none => exact trivial
  | some as =>
      cases b with
      | none => exact h.elim
      | some bs =>
          cases c with
          | none => exact h'.elim
          | some cs => exact List.IsPrefix.trans h h'

/-- A receiver after its peer has put more on the wire. -/
def In.grow (r : In) (sent : List Cell) : In :=
  { r with peerSocket := { r.peerSocket with sent := sent } }

section Grow

variable {r : In} {w w' : OnWire} {done : Option (List Frame)} {part : List Cell}

/-- The wire may grow while the receiver does nothing. -/
theorem In.Sound.grow (h : r.Sound w done) (hpre : w.sent <+: w'.sent)
    (htold : Within w.told w'.told) : (r.grow w'.sent).Sound w' done :=
  { h with
    sockOk := by
      have hok := h.sockOk
      unfold PeerSocket.Ok at hok ⊢
      rw [h.sent_eq] at hok
      exact hok.trans hpre.length_le
    sent_eq := rfl
    within := h.within.trans htold }

/-- What has been read stays right when more is sent. -/
theorem In.Reads.grow (h : r.Reads w done part) (hpre : w.sent <+: w'.sent)
    (htold : Within w.told w'.told) : (r.grow w'.sent).Reads w' done part :=
  { h.toSound.grow hpre htold with
    taken_eq := fun herr => by
      have htaken := h.taken_eq herr
      have hok := h.sockOk
      obtain ⟨rest, hrest⟩ := hpre
      unfold PeerSocket.Ok at hok
      unfold PeerSocket.taken at htaken ⊢
      rw [h.sent_eq] at htaken hok
      rw [← htaken]
      change w'.sent.take r.peerSocket.received = _
      rw [← hrest, List.take_append_of_le_length hok] }

/-- A receiver stays in order when more is sent. -/
theorem NativeSocketStreamRcv.Inv.grow {r : NativeSocketStreamRcv} (w' : OnWire)
    (h : r.Inv w done) (hpre : w.sent <+: w'.sent) (htold : Within w.told w'.told) :
    ({ r with inp := r.inp.grow w'.sent } : NativeSocketStreamRcv).Inv w' done where
  sound := h.sound.grow hpre htold
  idle herr hreq := by
    obtain ⟨hreads, hwaits⟩ := h.idle herr hreq
    exact ⟨hreads.grow hpre htold, hwaits⟩
  busy q hreq := by
    obtain ⟨herr, msgState, part, hreads, hwaits, hmid⟩ := h.busy q hreq
    exact ⟨herr, msgState, part, hreads.grow hpre htold, hwaits, hmid.congr rfl rfl⟩

end Grow

namespace World

variable {w w' : World} {told done : Option (List Frame)}

/-- Nothing has been sent at first. -/
theorem inv_init (sndPeer rcvPeer : Bool) : (init sndPeer rcvPeer).Inv none none where
  snd := NativeSocketStreamSnd.inv_ctor rfl
  rcv := NativeSocketStreamRcv.inv_ctor rfl rfl
  accepted_eq := rfl
  delivered_eq := rfl
  endCalled h := by simp [frames] at h
  closed h := by cases h

/-- A step of the sender tells some more. -/
theorem Inv.snd_step {i : NativeSocketStreamSnd.Input} {ks : List SockAnswer} (h : w.Inv told done)
    (hstep : w.Step (.snd i ks) w') : ∃ told', w'.Inv told' done := by
  unfold Step next at hstep
  simp only [Option.map_eq_some_iff] at hstep
  obtain ⟨⟨s, obs⟩, hsnd, rfl⟩ := hstep
  obtain ⟨hext, told', hs, htold⟩ := h.snd.step hsnd
  refine ⟨told', ?_⟩
  exact {
    snd := hs
    rcv := h.rcv.grow hs.onWire hext.sent_le htold.within
    accepted_eq := by
      simp only
      rw [h.accepted_eq]
      rcases htold with ⟨rfl, hacc⟩ | ⟨rfl, rfl, hacc⟩ | ⟨fs, f, rfl, rfl, hacc, -⟩
      · rw [hacc, List.append_nil]
      · rw [hacc]
        rfl
      · rw [frames, frames, Option.getD_some, Option.getD_some, msgs_append, List.map_append, hacc]
    delivered_eq := h.delivered_eq
    endCalled := fun hmem => by
      rw [Bool.or_eq_true]
      rcases htold with ⟨rfl, -⟩ | ⟨rfl, rfl, -⟩ | ⟨fs, f, rfl, rfl, -, hend⟩
      · exact .inl (h.endCalled hmem)
      · cases hmem
      · rcases List.mem_append.mp hmem with hmem | hmem
        · exact .inl (h.endCalled hmem)
        · exact .inr (hend (List.mem_singleton.mp hmem).symm)
    closed := h.closed }

/-- A step of the receiver reads some more. -/
theorem Inv.rcv_step {i : NativeSocketStreamRcv.Input} {ks : List SockAnswer} (h : w.Inv told done)
    (hstep : w.Step (.rcv i ks) w') : ∃ done', w'.Inv told done' := by
  unfold Step next at hstep
  simp only [Option.map_eq_some_iff] at hstep
  obtain ⟨⟨r, obs⟩, hrcv, rfl⟩ := hstep
  obtain ⟨done', hr, hshows⟩ := h.rcv.step hrcv
  refine ⟨done', ?_⟩
  exact {
    snd := h.snd
    rcv := hr
    accepted_eq := h.accepted_eq
    delivered_eq := by
      simp only
      rw [h.delivered_eq, hshows.delivered_eq]
    endCalled := h.endCalled
    closed := fun hclosed => by
      rw [Bool.or_eq_true, List.any_eq_true] at hclosed
      rcases hclosed with hclosed | ⟨o, ho, hisclose⟩
      · exact hshows.close_kept (h.closed hclosed)
      · exact hshows.close_mem o ho hisclose }

/-- In every reachable state something has been told, and some of it read. -/
theorem Reached.inv (h : w.Reached) : ∃ told done, w.Inv told done := by
  apply Lts.Reachable.invariant (P := fun w => ∃ told done, World.Inv w told done) _ _ h
  · rintro w ⟨sndPeer, rcvPeer, rfl⟩
    exact ⟨none, none, inv_init sndPeer rcvPeer⟩
  · rintro w (⟨i, ks⟩ | ⟨i, ks⟩) w' ⟨told, done, hinv⟩ hstep
    · obtain ⟨told', hinv'⟩ := hinv.snd_step hstep
      exact ⟨told', done, hinv'⟩
    · obtain ⟨done', hinv'⟩ := hinv.rcv_step hstep
      exact ⟨told, done', hinv'⟩

/-- Whoever has read the graceful close has read every frame. -/
theorem Inv.frames_eq (h : w.Inv told done) (hmem : .endSending ∈ frames done) :
    frames done = frames told := by
  apply eq_of_mem_of_not_mem_dropLast h.rcv.sound.within.frames_prefix hmem
  cases told with
  | none => exact List.not_mem_nil
  | some fs => exact h.snd.last fs rfl

end World

/-! ## The result -/

/-- A socket stream delivers in order, from end to end. -/
theorem inOrder {w : World} (h : w.Reached) :
    w.delivered <+: w.accepted.map Subtype.val ∧
      (w.closed = true → w.endCalled = true ∧ w.delivered = w.accepted.map Subtype.val) ∧
      w.snd.out.assertFailed = false ∧ w.rcv.inp.assertFailed = false ∧
      ∀ e, w.rcv.inp.pendingErrCode = some e → In.Expected e := by
  obtain ⟨told, done, hinv⟩ := h.inv
  have hfound : w.accepted.map Subtype.val = (msgs (frames told)).map found := by
    rw [hinv.accepted_eq, List.map_map]
    rfl
  have hsound := hinv.rcv.sound
  refine ⟨?_, ?_, hinv.snd.noFailure, hsound.noFailure, hsound.expected⟩
  · rw [hinv.delivered_eq, hfound]
    exact (msgs_mono hsound.within.frames_prefix).map _
  · intro hclosed
    have hmem := hinv.closed hclosed
    have hall := hinv.frames_eq hmem
    refine ⟨hinv.endCalled (hall ▸ hmem), ?_⟩
    rw [hinv.delivered_eq, hfound, hall]

/-- A blob with a handle goes through in parts, then a ping and the graceful close. -/
def sampleMoves : List Move :=
  [.snd .startSendNativeHandleOps [.moves 1], .snd (.sendNativeHandle ⟨(some 5, [7, 8]), by simp⟩)
    [.moves 0], .rcv .startReceiveNativeHandleOps [],
    .rcv (.asyncReceiveNativeHandle none [0, 0, 0] 0) [.moves 5, .moves 5],
    .snd .socketWritable [.moves 0, .moves 9], .rcv (.socketReadable (.headPayload 1))
    [.moves 3, .moves 0], .rcv (.socketReadable (.metaBlobPayload 1)) [.moves 9],
    .snd (.autoPing (Nat.succPNat 4)) [.moves 1], .snd (.asyncEndSending 2) [.moves 1],
    .rcv (.asyncReceiveBlob [0, 0] 1) [.moves 9, .moves 9]]

/-- In such a run the blob is delivered with its handle, and the close reported. -/
theorem inOrder_sampleMoves : ∃ w, sampleMoves.foldlM World.next (World.init true true) = some w ∧
    w.delivered = [(some 5, [7, 8])] ∧ w.closed = true ∧
      w.delivered <+: w.accepted.map Subtype.val ∧
      (w.closed = true → w.endCalled = true ∧ w.delivered = w.accepted.map Subtype.val) ∧
      w.snd.out.assertFailed = false ∧ w.rcv.inp.assertFailed = false ∧
      ∀ e, w.rcv.inp.pendingErrCode = some e → In.Expected e := by
  have hrun : ((sampleMoves.foldlM World.next (World.init true true)).map
      fun w => (w.delivered, w.closed)) = some ([(some 5, [7, 8])], true) := by decide +kernel
  obtain ⟨w, hw, hseen⟩ := Option.map_eq_some_iff.mp hrun
  have hreached : w.Reached := ⟨World.init true true, sampleMoves, ⟨true, true, rfl⟩, .of_foldlM hw⟩
  exact ⟨w, hw, congrArg Prod.fst hseen, congrArg Prod.snd hseen, inOrder hreached⟩

end FlowIpc.SocketStream
