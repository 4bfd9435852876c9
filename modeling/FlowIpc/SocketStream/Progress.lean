import FlowIpc.SocketStream.Fifo
import FlowIpc.SocketStream.SndSteps

/-!
# A socket stream does not get stuck

Whatever a sender and a receiver have been through, in whatever parts their messages have gone through the
socket so far, all that has been accepted can still be delivered (`allArrives`). What it takes is the socket's
moving bytes, the event loop's saying so where it has been asked to, and requests with room for any message.

What the receiver reads off the socket comes nearer to its end with each readable event or request
(`In.Eased`, `Inv.read_moves`); what the sender has queued goes out in one writable event
(`Inv.socketWritable_moves`). Once all has been sent and read, it has been read as what it was
(`Account.done_eq`).

Source: `sync_io/detail/native_socket_stream_impl_snd.cpp` `snd_on_ev_peer_socket_writable_or_error`;
`sync_io/detail/native_socket_stream_impl_rcv.cpp` `rcv_read_msg`.
-/

namespace FlowIpc.SocketStream

open Negotiation PrefixCode Lts

/-! ## A socket that moves bytes -/

namespace PeerSocket

/-- A socket in use that will move something whenever it is asked to. -/
structure Willing (p : PeerSocket) : Prop where
  alive : p.alive = true
  moves : ∀ k ∈ p.answers, ∃ n, k = .moves n

variable {p p' : PeerSocket} {got : List Cell} {err : ErrorCode} {size : Nat}

/-- A willing socket is there whenever it is looked for. -/
theorem Willing.lock_eq (h : p.Willing) : p.lock = p := by
  unfold lock
  split
  · rename_i ks hks
    obtain ⟨n, hn⟩ := h.moves .hosed (by rw [hks]; exact List.mem_cons_self)
    cases hn
  · rfl

/-- Reading off it does not fail, and gets something if there is something. -/
theorem Willing.rcvNbRead (h : p.Willing) (hread : p.rcvNbReadLowLvlPayload size = (got, err, p')) :
    err = none ∧ p'.Willing ∧ got.length ≤ size ∧ p.received ≤ p'.received ∧
      (0 < size → p.answers ≠ [] → p.received < p.sent.length → p.received < p'.received) := by
  unfold rcvNbReadLowLvlPayload at hread
  simp only [h.lock_eq, h.alive, if_true] at hread
  unfold readSome at hread
  cases hans : p.answers with
  | nil =>
      simp only [hans] at hread
      cases hread
      exact ⟨rfl, h, Nat.zero_le _, Nat.le_refl _, fun _ hne => absurd rfl hne⟩
  | cons k ks =>
      obtain ⟨n, rfl⟩ := h.moves k (hans ▸ List.mem_cons_self)
      simp only [hans] at hread
      cases hread
      refine ⟨rfl, ⟨h.alive, fun k hk => h.moves k (hans ▸ List.mem_cons_of_mem _ hk)⟩,
        List.length_take_le _ _, Nat.le_add_right _ _, fun hsize _ hmore => ?_⟩
      simp only [List.length_take, List.length_drop]
      omega

end PeerSocket

/-! ## The sender -/

/-- No payload is longer than all that is queued. -/
theorem length_le_queued {payload : SndLowLvlPayload} {q : List SndLowLvlPayload} (h : payload ∈ q) :
    payload.blob.length ≤ (queued q).length := by
  induction q with
  | nil => cases h
  | cons payload' q ih =>
      rw [queued_cons, List.length_append, length_cells]
      rcases List.mem_cons.mp h with rfl | h
      · exact Nat.le_add_right _ _
      · exact (ih h).trans (Nat.le_add_left _ _)

/-- A socket that moves enough takes all the payloads that are queued. -/
theorem Out.drain_moves (p : PeerSocket) {q : List SndLowLvlPayload} {n : Nat} (halive : p.alive = true)
    (hfits : ∀ payload ∈ q, payload.blob.length ≤ n) :
    drain { p with answers := List.replicate q.length (.moves n) } q =
      ({ p with sent := p.sent ++ queued q, answers := [] }, [], none) := by
  induction q generalizing p with
  | nil =>
      rw [drain, queued_nil, List.append_nil]
      rfl
  | cons payload q ih =>
      have hlen : payload.blob.length ≤ n + 1 :=
        (hfits payload List.mem_cons_self).trans (Nat.le_succ n)
      have hwrite : PeerSocket.sndNbWriteLowLvlPayload
          { p with answers := List.replicate (payload :: q).length (.moves n) }
          payload.hndlOrNull payload.blob =
          (payload.blob.length, none,
            { p with
              sent := p.sent ++ cells payload.hndlOrNull payload.blob
              answers := List.replicate q.length (.moves n) }) := by
        unfold PeerSocket.sndNbWriteLowLvlPayload
        simp only [List.length_cons, List.replicate_succ, PeerSocket.lock, halive, if_true,
          PeerSocket.writeSome]
        rw [Nat.min_eq_right hlen, List.take_of_length_le (by rw [length_cells]; exact hlen)]
      rw [drain, hwrite]
      simp only [if_true]
      have hrest := ih { p with sent := p.sent ++ cells payload.hndlOrNull payload.blob } halive
        fun payload' hmem => hfits payload' (List.mem_cons_of_mem _ hmem)
      rw [hrest, queued_cons, List.append_assoc]

namespace NativeSocketStreamSnd

variable {s s' : NativeSocketStreamSnd} {told told' : Option (List Frame)} {i : Input}
  {ks : List SockAnswer} {obs : List Obs}

/-- A sender that has queued something sends it all when its socket moves enough. -/
theorem Inv.socketWritable_moves (h : s.Inv told) (herr : s.out.pendingErrCode = none)
    (hq : s.out.pendingPayloadsQ ≠ []) (halive : s.out.peerSocket.alive = true) :
    ∃ ks s', s.step .socketWritable ks = some (s', []) ∧ s'.started = s.started ∧
      s'.finished = s.finished ∧ s'.out.pendingErrCode = none ∧ s'.out.pendingPayloadsQ = [] ∧
      s'.out.peerSocket.alive = true := by
  have hone : s.out.evWaits = 1 := by rw [h.carries.ok.evWaits_eq, if_pos ⟨herr, hq⟩]
  have hdrain := Out.drain_moves s.out.peerSocket (q := s.out.pendingPayloadsQ) halive
    fun payload hmem => length_le_queued hmem
  refine ⟨List.replicate s.out.pendingPayloadsQ.length (.moves (queued s.out.pendingPayloadsQ).length), ?_⟩
  unfold NativeSocketStreamSnd.step NativeSocketStreamSnd.withAnswers
  simp only
  rw [if_pos (by rw [hone]; exact Nat.one_pos)]
  unfold NativeSocketStreamSnd.onEvPeerSocketWritableOrError
  rw [assert_of (by exact hq)]
  simp only
  rw [assert_of (by exact herr)]
  simp only [hdrain, ne_eq, not_true_eq_false, and_false, if_false, Option.isSome_none,
    Bool.false_eq_true, if_true, h.handler_eq_none_of_queue herr hq]
  exact ⟨_, rfl, rfl, rfl, rfl, rfl, halive⟩

/-- What is finished is finished by a call to end the sending. -/
theorem finished_step (h : s.Inv told) (hstep : s.step i ks = some (s', obs)) (hend : i.isEnd = false) :
    s'.finished = s.finished := by
  have hu := h.withAnswers ks
  change s'.finished = (s.withAnswers ks).finished
  unfold NativeSocketStreamSnd.step at hstep
  generalize s.withAnswers ks = u at hu hstep ⊢
  cases i with
  | connected =>
      cases hstep
      rfl
  | startSendNativeHandleOps =>
      cases hstep
      unfold NativeSocketStreamSnd.startSendNativeHandleOps
      simp only
      split_ifs <;> rfl
  | sendNativeHandle m =>
      rcases hcall : u.sendNativeHandle m.val.1 m.val.2 with ⟨ok, err, t⟩
      have hsame : t.finished = u.finished := by
        rcases sendNativeHandle_cases hcall with ⟨-, rfl⟩ | ⟨-, -, -, -, rfl | rfl⟩
        · rfl
        · rfl
        · unfold NativeSocketStreamSnd.rescheduleAutoPing
          simp only
          split_ifs <;> rfl
      simp only [hcall] at hstep
      split at hstep
      · rename_i heq
        cases heq
        cases hstep
        exact hsame
      · rename_i heq
        cases heq
        cases hstep
        exact hsame
  | endSending => cases hend
  | asyncEndSending g => cases hend
  | autoPing period =>
      cases hstep
      unfold NativeSocketStreamSnd.autoPing
      rw [assert_of period.property]
      simp only
      split_ifs <;> rfl
  | socketWritable =>
      simp only [Option.ite_none_right_eq_some] at hstep
      obtain ⟨hw, hstep⟩ := hstep
      rcases hcall : NativeSocketStreamSnd.onEvPeerSocketWritableOrError
        { u with out := { u.out with evWaits := u.out.evWaits - 1 } } with ⟨t, r⟩
      obtain ⟨-, -, -, hsame⟩ := hu.onEvPeerSocketWritableOrError hw hcall
      rw [hcall] at hstep
      cases hstep
      rw [hsame]
  | timerFires =>
      obtain ⟨t, -, heq⟩ := Option.map_eq_some_iff.mp hstep
      cases heq
      rfl
  | timerReadable =>
      obtain ⟨t, -, heq⟩ := Option.map_eq_some_iff.mp hstep
      cases heq
      unfold NativeSocketStreamSnd.onEvAutoPingNowTimerFired
      simp only
      split_ifs <;> rfl

/-- An error stays. -/
theorem err_none_of_step (h : s.Inv told) (hstep : s.step i ks = some (s', obs))
    (herr : s'.out.pendingErrCode = none) : s.out.pendingErrCode = none := by
  change (s.withAnswers ks).out.pendingErrCode = none
  cases h.wrote hstep with
  | nothing out _ _ => rw [← out, herr]
  | version before _ _ _ => exact ((h.withAnswers ks).fresh before).2.2.1
  | frame f _ sending _ _ _ => exact sending.noError
  | queue wait _ _ _ => exact ((h.withAnswers ks).of_evWaits wait).1

/-- What a sender without an error has told is told by what it has handed over. -/
theorem Inv.told_unique (h : s.Inv told) (h' : s.Inv told') (herr : s.out.pendingErrCode = none) :
    told = told' := by
  have heq : wire told = wire told' := by
    rw [← h.carries.handed_eq herr, h'.carries.handed_eq herr]
  have hver : ∀ fs, wire (some fs) ≠ wire none := by
    intro fs hnil
    have hlen := congrArg List.length hnil
    simp [wire] at hlen
  cases told with
  | none =>
      cases told' with
      | none => rfl
      | some fs => exact absurd heq.symm (hver fs)
  | some fs =>
      cases told' with
      | none => exact absurd heq (hver fs)
      | some gs =>
          rw [wire, wire, List.append_cancel_left_eq] at heq
          have hle : fs <+: gs := prefix_of_stream Frame.isPrefixCode_enc (by rw [heq])
          have hge : gs <+: fs := prefix_of_stream Frame.isPrefixCode_enc (by rw [heq])
          rw [hle.eq_of_length_le hge.length_le]

/-- Sending that is finished, and has not failed, has been finished by the graceful close. -/
def Ended (s : NativeSocketStreamSnd) (told : Option (List Frame)) : Prop :=
  s.finished = true → s.out.pendingErrCode = none → .endSending ∈ frames told

/-- What was put out last at the end of sending stays last. -/
theorem Ended.step {acc : List UserMsg} (hended : s.Ended told) (h : s.Inv told)
    (hstep : s.step i ks = some (s', obs)) (h' : s'.Inv told') (htold : Told told told' acc i.isEnd) :
    s'.Ended told' := by
  intro hfin herr
  have hnone := err_none_of_step h hstep herr
  have hkept (hold : .endSending ∈ frames told) : .endSending ∈ frames told' :=
    htold.within.frames_prefix.subset hold
  -- A call that ends the sending tells the graceful close, or changes nothing.
  have hcall {u : NativeSocketStreamSnd} (hu : u.Inv told) (hufin : u.finished = s.finished) {g : Option Nat}
      (heq : s' = (u.asyncEndSendingImpl g).2.2) : .endSending ∈ frames told' := by
    rcases hcall : u.asyncEndSendingImpl g with ⟨ok, err, t⟩
    rw [hcall] at heq
    obtain rfl : s' = t := heq
    have hends : (∃ fs, told = some fs ∧ s'.Inv (some (fs ++ [.endSending]))) →
        .endSending ∈ frames told' := by
      rintro ⟨fs, -, hinv⟩
      rw [h'.told_unique hinv herr]
      exact List.mem_append_right fs List.mem_cons_self
    obtain ⟨-, hout⟩ := hu.asyncEndSendingImpl hcall
    cases hout with
    | refused _ _ hsame _ =>
        rw [hsame] at hfin
        exact hkept (hended (hufin.symm.trans hfin) hnone)
    | failed _ hfail _ _ _ =>
        rw [hfail.2, herr] at hfail
        cases hfail.1
    | flushed _ _ hinv _ _ _ => exact hends hinv
    | queued _ _ hinv _ _ _ => exact hends hinv
  cases hi : i.isEnd with
  | false => exact hkept (hended ((finished_step h hstep hi).symm.trans hfin) hnone)
  | true =>
      unfold NativeSocketStreamSnd.step at hstep
      cases i with
      | endSending =>
          cases hstep
          exact hcall (h.withAnswers ks) rfl rfl
      | asyncEndSending g =>
          cases hstep
          exact hcall (h.withAnswers ks) rfl rfl
      | _ => cases hi

end NativeSocketStreamSnd

/-! ## The receiver -/

/-- The errors that come of the socket, of the timer, or of a request that has not the room. -/
def Outer (e : Err) : Prop :=
  e = .code .receiverIdleTimeout ∨ e = .code .messageSizeExceedsUserStorage ∨
    e = .code .blobReceiverGotNonBlob ∨ e = .code .lowLvlTransportHosedCannotReceive ∨ ∃ n, e = .system n

/-- A request with room for any message. -/
def RcvUserRequest.Roomy (q : RcvUserRequest) : Prop :=
  q.targetHndl.isSome ∧ maxMetaBlobLength ≤ q.targetMetaBlob.length

/-- A buffer does not get shorter by what is written into it. -/
theorem le_length_writeAt (buf bytes : Blob) (offset : Nat) : buf.length ≤ (writeAt buf offset bytes).length := by
  simp only [writeAt, List.length_append, List.length_take, List.length_drop]
  omega

namespace In

/-- Reading goes on with a willing socket and a roomy request, no outer error has come up, and at least `n` cells
have been read. -/
structure Eased (n : Nat) (r : In) : Prop where
  socket : r.peerSocket.Willing
  room : ∃ q, r.userRequest = some q ∧ q.Roomy
  noOuter : ∀ e, r.pendingErrCode = some e → ¬ Outer e
  length_eq : r.targetMetaLength.length = 2
  got : n ≤ r.peerSocket.received

variable {m n : Nat} {r r' : In} {p : PeerSocket} {msgState : RcvMsgState} {bytes : Blob}

/-- Reading is at ease after an assertion. -/
theorem Eased.assert (h : r.Eased n) (a : Prop) [Decidable a] : (r.assert a).Eased n :=
  ⟨h.socket, h.room, h.noOuter, h.length_eq, h.got⟩

/-- Reading is at ease after the idle timer has been put off. -/
theorem Eased.notIdle (h : r.Eased n) : r.notIdle.Eased n := by
  obtain ⟨timer, b, heq⟩ := r.notIdle_with
  rw [heq]
  exact ⟨h.socket, h.room, h.noOuter, h.length_eq, h.got⟩

/-- An error that is not one of the outer ones. -/
theorem Eased.fail {err : ErrorCode} (h : r.Eased n) (herr : ∀ e, err = some e → ¬ Outer e) :
    ({ r with pendingErrCode := err } : In).Eased n :=
  ⟨h.socket, h.room, herr, h.length_eq, h.got⟩

/-- Reading is at ease after an error has been emitted. -/
theorem Eased.emitErr (h : r.Eased n) : r.emitErr.2.Eased n :=
  h.assert _

/-- Reading is at ease after the socket has been waited for. -/
theorem Eased.asyncWait (h : r.Eased n) (msgState : RcvMsgState) : (r.asyncWait msgState).2.Eased n := by
  unfold In.asyncWait
  rw [h.socket.lock_eq]
  simp only [h.socket.alive, if_true]
  exact ⟨h.socket, h.room, h.noOuter, h.length_eq, h.got⟩

/-- A version that does not suit is no outer error. -/
theorem Eased.negotiate (h : r.Eased n) (ver : Int) : (r.negotiate ver).Eased n := by
  unfold In.negotiate ProtocolNegotiator.computeNegotiatedProtoVer
  have hcodes : ¬ Outer (.code .protocolNegotiationOpposingVerInvalid) ∧
      ¬ Outer (.code .protocolNegotiationOpposingVerTooOld) := by simp [Outer]
  have hall {err : ErrorCode} (herr : ∀ e, err = some e → ¬ Outer e) (v : ProtocolNegotiator) (b : Bool) :
      (In.assert { r with protocolNegotiator := v, pendingErrCode := err } (b = true)).Eased n :=
    ⟨h.socket, h.room, herr, h.length_eq, h.got⟩
  split_ifs
  · exact hall h.noOuter _ _
  · apply hall
    rintro e ⟨⟩
    exact hcodes.1
  · exact hall h.noOuter _ _
  · exact hall h.noOuter _ _
  · apply hall
    rintro e ⟨⟩
    exact hcodes.2

/-- Where what is stored leaves the length two bytes. -/
theorem Eased.store (h : r.Eased n) (hlen : (r.store msgState bytes).targetMetaLength.length = 2) :
    (r.store msgState bytes).Eased n := by
  refine ⟨?_, ?_, ?_, hlen, ?_⟩
  · rw [store_peerSocket]
    exact h.socket
  · obtain ⟨q, hq, hroom⟩ := h.room
    unfold In.store
    split
    · exact ⟨q, hq, hroom⟩
    · exact ⟨q, hq, hroom⟩
    · exact ⟨_, congrArg (Option.map _) hq, hroom.1, hroom.2.trans (le_length_writeAt _ _ _)⟩
  · rw [store_pendingErrCode]
    exact h.noOuter
  · rw [store_peerSocket]
    exact h.got

/-- What can be stored of a part that is being read leaves the length two bytes. -/
theorem length_store (h : r.targetMetaLength.length = 2) {size : Nat} (hbytes : bytes.length ≤ size)
    (hstate : msgState = .msgStart ∧ size = 2 ∨ msgState = .headPayload size ∧ size ≤ 2 ∨
      msgState = .metaBlobPayload size) : (r.store msgState bytes).targetMetaLength.length = 2 := by
  rcases hstate with ⟨rfl, rfl⟩ | ⟨rfl, hsize⟩ | rfl
  · exact (length_writeAt (by omega)).trans h
  · exact (length_writeAt (by omega)).trans h
  · exact h

/-- Cells that are read, of a part of a message. -/
theorem Eased.read {size : Nat} {got : List Cell} {err : ErrorCode} (h : r.Eased m)
    (hread : r.peerSocket.rcvNbReadLowLvlPayload size = (got, err, p)) (hgot : n ≤ p.received)
    (hstate : msgState = .msgStart ∧ size = 2 ∨ msgState = .headPayload size ∧ size ≤ 2 ∨
      msgState = .metaBlobPayload size) :
    err = none ∧
      (({ r with peerSocket := p, pendingErrCode := err } : In).store msgState (got.map Cell.byte)).Eased n := by
  obtain ⟨rfl, hsocket, hlen, -, -⟩ := h.socket.rcvNbRead hread
  have hu : ({ r with peerSocket := p, pendingErrCode := none } : In).Eased n :=
    ⟨hsocket, h.room, fun e he => (by cases he), h.length_eq, hgot⟩
  refine ⟨rfl, hu.store ?_⟩
  exact length_store hu.length_eq (by rw [List.length_map]; exact hlen) hstate

/-- How many cells will have been read after the next read. -/
def receivedNext (r : In) (size : Nat) : Nat :=
  (r.peerSocket.rcvNbReadLowLvlPayload size).2.2.received

/-- The next read takes back no cell. -/
theorem Eased.le_receivedNext (h : r.Eased n) (size : Nat) : n ≤ r.receivedNext size := by
  rcases hread : r.peerSocket.rcvNbReadLowLvlPayload size with ⟨got, err, p⟩
  obtain ⟨-, -, -, hle, -⟩ := h.socket.rcvNbRead hread
  rw [receivedNext, hread]
  exact h.got.trans hle

/-- Reading bytes is at ease, if what is done in the end is. -/
theorem Eased.readBlobThen {onAll : In → Option Result × In} {msgState : Nat → RcvMsgState} {size : Nat}
    (h : r.Eased m) (hn : n ≤ r.receivedNext size)
    (hstate : msgState size = .headPayload size ∧ size ≤ 2 ∨ msgState size = .metaBlobPayload size)
    (hall : ∀ u : In, u.Eased n → (onAll u).2.Eased n) : (readBlobThen onAll msgState r size).2.Eased n := by
  have hu := (h.assert (r.pendingErrCode = none)).assert ((r.assert (r.pendingErrCode = none)).userRequest.isSome)
  unfold In.readBlobThen
  simp only
  change n ≤ receivedNext ((r.assert (r.pendingErrCode = none)).assert
    ((r.assert (r.pendingErrCode = none)).userRequest.isSome)) size at hn
  generalize (r.assert (r.pendingErrCode = none)).assert
    ((r.assert (r.pendingErrCode = none)).userRequest.isSome) = u at hu hn
  rcases hread : u.peerSocket.rcvNbReadLowLvlPayload size with ⟨got, err, p⟩
  rw [receivedNext, hread] at hn
  obtain ⟨rfl, hstored⟩ := hu.read hread hn (.inr hstate)
  simp only [Option.isSome_none, Bool.false_eq_true, if_false]
  split
  · exact hall _ hstored
  · exact hstored.asyncWait _

/-- Reading is at ease after a blob. -/
theorem Eased.onMetaBlobPayload (h : r.Eased n) : r.onMetaBlobPayload.2.Eased n :=
  h.notIdle

/-- No length but that of a ping exceeds the room. -/
theorem Eased.fits (h : r.Eased n) (hping : r.metaLength ≠ metaBlobLengthPingSentinel) :
    r.metaLength ≤ r.userTargetSize := by
  obtain ⟨q, hq, -, hroom⟩ := h.room
  have hlt : r.metaLength < 2 ^ 16 := by
    have hdecode := LittleEndian.decode_lt r.targetMetaLength
    rw [h.length_eq] at hdecode
    exact hdecode
  rw [userTargetSize, hq]
  refine le_trans ?_ hroom
  simp only [maxMetaBlobLength, metaBlobLengthPingSentinel] at hping ⊢
  omega

/-- Reading is at ease after the head of a message. -/
theorem Eased.onHeadPayload (h : r.Eased n) : r.onHeadPayload.2.Eased n := by
  unfold In.onHeadPayload
  have hu := (h.assert r.userRequest.isSome).assert ((r.assert r.userRequest.isSome).pendingErrCode = none)
  simp only
  generalize (r.assert r.userRequest.isSome).assert ((r.assert r.userRequest.isSome).pendingErrCode = none) = u at hu
  have hneg := hu.negotiate (toProtoVer u.metaLength)
  split
  · split
    · exact hneg
    · exact hneg.notIdle
  · split
    · exact hu.notIdle
    · rename_i hping
      split
      · rw [if_pos (hu.fits hping)]
        exact hu.readBlobThen (hu.le_receivedNext _) (.inr rfl) fun v hv => hv.onMetaBlobPayload
      · split
        · exact hu.notIdle
        · apply hu.fail
          rintro e ⟨⟩
          simp [Outer]

/-- Reading is at ease after a handle. -/
theorem Eased.onHandleFinalized (h : r.Eased n) (hndl : NativeHandle) (nRcvd : Nat) :
    (r.onHandleFinalized hndl nRcvd).2.Eased n := by
  unfold In.onHandleFinalized
  simp only
  have hu := ((h.assert r.userRequest.isSome).assert
    ((r.assert r.userRequest.isSome).pendingErrCode = none)).assert (nRcvd ≠ 0)
  generalize ((r.assert r.userRequest.isSome).assert
    ((r.assert r.userRequest.isSome).pendingErrCode = none)).assert (nRcvd ≠ 0) = u at hu
  -- There is a target for the handle.
  have htarget : ¬ (hndl ≠ none ∧ u.targetHndl = none) := by
    rintro ⟨-, hnone⟩
    obtain ⟨q, hq, hroom, -⟩ := hu.room
    rw [targetHndl, hq] at hnone
    rw [show q.targetHndl = none from hnone] at hroom
    cases hroom
  rw [if_neg htarget]
  split
  · exact (hu.negotiate _).emitErr
  · have hput : ({ u with
        userRequest := u.userRequest.map fun request =>
          { request with targetHndl := request.targetHndl.map fun _ => hndl } } : In).Eased n := by
      refine ⟨hu.socket, ?_, hu.noOuter, hu.length_eq, hu.got⟩
      obtain ⟨q, hq, hroom⟩ := hu.room
      exact ⟨_, congrArg (Option.map _) hq, (Option.isSome_map.trans hroom.1), hroom.2⟩
    split
    · split
      · exact hu.onHeadPayload
      · exact hput.onHeadPayload
    · split
      · exact hu.asyncWait _
      · exact hput.asyncWait _

/-- Reading is at ease after the start of a message. -/
theorem Eased.readMsgOnce (h : r.Eased m) (hn : n ≤ r.receivedNext 2) : r.readMsgOnce.2.Eased n := by
  have hu := h.assert (r.pendingErrCode = none)
  unfold In.readMsgOnce
  simp only
  change n ≤ receivedNext (r.assert (r.pendingErrCode = none)) 2 at hn
  generalize r.assert (r.pendingErrCode = none) = u at hu hn
  rcases hread : u.peerSocket.rcvNbReadLowLvlPayload 2 with ⟨got, err, p⟩
  rw [receivedNext, hread] at hn
  obtain ⟨rfl, hstored⟩ := hu.read hread hn (.inl ⟨rfl, rfl⟩)
  simp only [Option.isSome_none, Bool.false_eq_true, if_false]
  split
  · exact hstored.onHandleFinalized _ _
  · exact hstored.asyncWait _

/-- Reading a message, and those to be skipped before it. -/
theorem Eased.readMsg (h : r.Eased m) (hn : n ≤ r.receivedNext 2) : r.readMsg.2.Eased n := by
  induction r using In.readMsg.induct generalizing m with
  | case1 r res r₁ honce =>
      have honce' := h.readMsgOnce hn
      rw [honce] at honce'
      rw [readMsg_eq, honce]
      exact honce'
  | case2 r r₁ honce ih =>
      have honce' := h.readMsgOnce hn
      rw [honce] at honce'
      rw [readMsg_eq, honce]
      exact ih honce' (honce'.le_receivedNext 2)

/-- Reading on is at ease. -/
theorem Eased.readOn {a : Option Result × In} (h : a.2.Eased n) : (readOn a).2.Eased n := by
  rcases a with ⟨_ | res, r⟩
  · exact Eased.readMsg h (Eased.le_receivedNext h 2)
  · exact h

/-- How much is to be read next, where reading is resumed. -/
def sizeNext : RcvMsgState → Nat
  | .msgStart => 2
  | .headPayload nLeft => nLeft
  | .metaBlobPayload nLeft => nLeft

/-- Reading that is resumed is at ease. -/
theorem Eased.resume (h : r.Eased m) (hn : n ≤ r.receivedNext (sizeNext msgState))
    (hstate : ∀ nLeft, msgState = .headPayload nLeft → nLeft ≤ 2) : (r.resume msgState).2.Eased n := by
  cases msgState with
  | msgStart => exact h.readMsg hn
  | headPayload nLeft =>
      exact (h.readBlobThen hn (.inl ⟨rfl, hstate nLeft rfl⟩) fun u hu => hu.onHeadPayload).readOn
  | metaBlobPayload nLeft => exact (h.readBlobThen hn (.inr rfl) fun u hu => hu.onMetaBlobPayload).readOn

/-- Where no outer error has come up there is none, or the graceful close, and the result is the same. -/
theorem Turn.close_or_none {w : OnWire} {done : Option (List Frame)} {res : Result}
    (h : Turn w done (some res, r)) (heased : r.Eased n) :
    r.pendingErrCode = none ∨
      (r.pendingErrCode = Code.receivesFinishedCannotReceive.toErrorCode ∧
        res.1 = Code.receivesFinishedCannotReceive.toErrorCode) := by
  cases h with
  | got _ _ _ _ err _ _ _ _ => exact .inl err
  | wouldBlock _ _ _ _ _ err _ _ _ => exact .inl err
  | failed _ e sound _ err _ _ =>
      have hno := heased.noOuter e err
      rcases sound.expected e err with rfl | houter
      · exact .inr ⟨err, rfl⟩
      · exact absurd houter hno

end In

namespace NativeSocketStreamRcv

variable {r r' : NativeSocketStreamRcv} {w : OnWire} {done : Option (List Frame)}

/-- The request that is outstanding, if there is one, has room for any message. -/
def Roomy (r : NativeSocketStreamRcv) : Prop :=
  ∀ q, r.inp.userRequest = some q → q.Roomy

/-- In use, as far as it is itself concerned: receiving has been started, on a connected socket. -/
structure InUse (r : NativeSocketStreamRcv) : Prop where
  started : r.started = true
  peer : r.statePeer = true
  alive : r.inp.peerSocket.alive = true
  roomy : r.Roomy

/-- What serves a request: the socket is reported readable, or there is a new request. -/
def Input.IsService : Input → Prop
  | .socketReadable _ => True
  | .asyncReceiveNativeHandle _ _ _ => True
  | _ => False

/-- A receiver after a turn of reading with nothing against it. -/
theorem InUse.afterTurn {inp : In} {n : Nat} (h : r.InUse) (heased : inp.Eased n) (res : Result) :
    (afterTurn { r with inp := inp } res).InUse ∧
      (afterTurn { r with inp := inp } res).inp.pendingErrCode = inp.pendingErrCode ∧
      n ≤ (afterTurn { r with inp := inp } res).inp.peerSocket.received := by
  unfold NativeSocketStreamRcv.afterTurn
  split
  · refine ⟨⟨h.started, h.peer, heased.socket.alive, fun q hq => ?_⟩, rfl, heased.got⟩
    obtain ⟨q', hq', hroom⟩ := heased.room
    cases hq.symm.trans hq'
    exact hroom
  · exact ⟨⟨h.started, h.peer, heased.socket.alive, fun q hq => (by cases hq)⟩, rfl, heased.got⟩

/-- With one byte to be moved, reading is at ease, and will get that byte. -/
theorem Inv.eased {inp : In} (h : r.Inv w done) (hsocket : inp.peerSocket =
      { r.inp.peerSocket with answers := [.moves 0] }) (hlen : inp.targetMetaLength = r.inp.targetMetaLength)
    (herr : inp.pendingErrCode = none) (halive : r.inp.peerSocket.alive = true)
    (hroom : ∃ q, inp.userRequest = some q ∧ q.Roomy)
    (hmore : r.inp.peerSocket.received < r.inp.peerSocket.sent.length) :
    inp.Eased r.inp.peerSocket.received ∧
      ∀ size, 0 < size → r.inp.peerSocket.received + 1 ≤ inp.receivedNext size := by
  have hwilling : inp.peerSocket.Willing := by
    rw [hsocket]
    refine ⟨halive, fun k hk => ⟨0, ?_⟩⟩
    exact List.mem_singleton.mp hk
  constructor
  · refine ⟨hwilling, hroom, fun e he => ?_, hlen ▸ h.sound.length_eq, Nat.le_of_eq ?_⟩
    · rw [herr] at he
      cases he
    · rw [hsocket]
  · intro size hsize
    rcases hread : inp.peerSocket.rcvNbReadLowLvlPayload size with ⟨got, err, p⟩
    obtain ⟨-, -, -, -, hget⟩ := hwilling.rcvNbRead hread
    rw [In.receivedNext, hread]
    rw [hsocket] at hget
    exact hget hsize (by simp) hmore

/-- Where there is more to be read, and no error, more is read: for the request that is outstanding, or for a
new one. -/
theorem Inv.read_moves (h : r.Inv w done) (huse : r.InUse) (herr : r.inp.pendingErrCode = none)
    (hmore : r.inp.peerSocket.received < r.inp.peerSocket.sent.length) :
    ∃ i r' obs, i.IsService ∧ r.step i [.moves 0] = some (r', obs) ∧ r'.InUse ∧
      r.inp.peerSocket.received < r'.inp.peerSocket.received ∧
      (r'.inp.pendingErrCode = none ∨
        (r'.inp.pendingErrCode = Code.receivesFinishedCannotReceive.toErrorCode ∧
          obs.any Obs.isClose = true)) := by
  have hu := h.withAnswers [.moves 0]
  have hclose_ne : Code.receivesFinishedCannotReceive.toErrorCode ≠ wouldBlock := by decide
  rcases hreq : r.inp.userRequest with _ | q
  · -- A new request is made, with all the room there can be need of.
    let q : RcvUserRequest := ⟨some none, List.replicate maxMetaBlobLength 0, 0⟩
    let inp₀ : In := { (r.withAnswers [.moves 0]).inp with userRequest := some q }
    obtain ⟨heased, hnext⟩ : inp₀.Eased r.inp.peerSocket.received ∧
        ∀ size, 0 < size → r.inp.peerSocket.received + 1 ≤ inp₀.receivedNext size :=
      h.eased rfl rfl herr huse.alive ⟨q, rfl, rfl, Nat.le_of_eq List.length_replicate.symm⟩ hmore
    have heased' := heased.readMsg (hnext 2 Nat.two_pos)
    obtain ⟨hreads, hwaits⟩ := hu.idle herr hreq
    have hturn := (hreads.setRequest (some q) r.inp.evWaits).readMsg herr hwaits rfl
    change In.Turn w done (some inp₀.readMsg.1, inp₀.readMsg.2) at hturn
    rcases hread : inp₀.readMsg with ⟨res, inp⟩
    rw [hread] at hturn heased'
    simp only at hturn heased'
    obtain ⟨huse', herr', hrcvd⟩ := huse.afterTurn heased' res
    have hcall : (r.withAnswers [.moves 0]).asyncReceiveNativeHandle none
        (List.replicate maxMetaBlobLength 0) 0 =
          (true, received { r with inp := inp } res, afterTurn { r with inp := inp } res) := by
      unfold NativeSocketStreamRcv.asyncReceiveNativeHandle NativeSocketStreamRcv.asyncReceiveNativeHandleImpl
      have hread' : In.readMsg { (r.withAnswers [.moves 0]).inp with
          userRequest := some ⟨some none, List.replicate maxMetaBlobLength 0, 0⟩ } = (res, inp) := hread
      have hstarted : ¬ ((r.withAnswers [.moves 0]).started = false ∨
          (r.withAnswers [.moves 0]).statePeer = false) := by
        simp [NativeSocketStreamRcv.withAnswers, huse.started, huse.peer]
      have hnone : ¬ (r.withAnswers [.moves 0]).inp.userRequest.isSome = true := by
        simp [NativeSocketStreamRcv.withAnswers, hreq]
      have hnoErr : ¬ (r.withAnswers [.moves 0]).inp.pendingErrCode.isSome = true := by
        simp [NativeSocketStreamRcv.withAnswers, herr]
      rw [if_neg hstarted, if_neg hnone, if_neg hnoErr]
      simp only [hread', ite_not]
      rfl
    refine ⟨.asyncReceiveNativeHandle none (List.replicate maxMetaBlobLength 0) 0,
      afterTurn { r with inp := inp } res, [.returned true 0 (received { r with inp := inp } res)], trivial,
      ?_, huse', hrcvd, ?_⟩
    · unfold NativeSocketStreamRcv.step
      simp only [hcall]
    · rw [herr']
      rcases hturn.close_or_none heased' with hnone | ⟨hclose, hres⟩
      · exact .inl hnone
      · exact .inr ⟨hclose, by simp [Obs.isClose, received, hres]⟩
  · obtain ⟨-, msgState, part, hreads, hwaits, hmid⟩ := hu.busy q hreq
    have hwait : msgState ∈ (r.withAnswers [.moves 0]).inp.evWaits := by
      rw [hwaits]
      exact List.mem_cons_self
    let inp₀ : In := { (r.withAnswers [.moves 0]).inp with
      evWaits := (r.withAnswers [.moves 0]).inp.evWaits.erase msgState }
    obtain ⟨heased, hnext⟩ : inp₀.Eased r.inp.peerSocket.received ∧
        ∀ size, 0 < size → r.inp.peerSocket.received + 1 ≤ inp₀.receivedNext size :=
      h.eased rfl rfl herr huse.alive ⟨q, hreq, huse.roomy q hreq⟩ hmore
    have hsize : 0 < In.sizeNext msgState ∧ ∀ nLeft, msgState = .headPayload nLeft → nLeft ≤ 2 := by
      cases hmid with
      | msgStart => exact ⟨Nat.two_pos, fun _ hstate => (by cases hstate)⟩
      | headPayload _ _ _ =>
          refine ⟨Nat.one_pos, fun nLeft hstate => ?_⟩
          cases hstate
          exact Nat.le_succ 1
      | metaBlobPayload _ _ _ left _ _ => exact ⟨left.1, fun _ hstate => (by cases hstate)⟩
    have heased' := heased.resume (hnext _ hsize.1) hsize.2
    have hnone : inp₀.evWaits = [] := by
      change (r.withAnswers [.moves 0]).inp.evWaits.erase msgState = []
      rw [hwaits]
      simp
    have hreads₀ : inp₀.Reads w done part := { hreads with }
    have hturn := hreads₀.resume herr hnone hreq (hmid.congr rfl rfl)
    rcases hread : inp₀.resume msgState with ⟨res, inp⟩
    rw [hread] at hturn heased'
    simp only at hturn heased'
    obtain ⟨q', hq'⟩ := hturn.request
    obtain ⟨huse', herr', hrcvd⟩ := huse.afterTurn heased' res
    have hcall : NativeSocketStreamRcv.onEvPeerSocketReadableOrError
        { r.withAnswers [.moves 0] with inp := inp₀ } msgState =
        (afterTurn { r with inp := inp } res,
          if res.1 = wouldBlock then none else invocation { r with inp := inp } res) := by
      unfold NativeSocketStreamRcv.onEvPeerSocketReadableOrError NativeSocketStreamRcv.afterTurn
      have hnoErr : ¬ inp₀.pendingErrCode.isSome = true := by
        simp [inp₀, NativeSocketStreamRcv.withAnswers, herr]
      simp only
      rw [if_neg hnoErr, assert_of (by exact hreq ▸ rfl)]
      simp only [hread]
      split <;> rfl
    refine ⟨.socketReadable msgState, afterTurn { r with inp := inp } res,
      invocations (if res.1 = wouldBlock then none else invocation { r with inp := inp } res), trivial, ?_,
      huse', hrcvd, ?_⟩
    · unfold NativeSocketStreamRcv.step
      simp only
      rw [if_pos hwait]
      simp only [inp₀] at hcall
      simp only [hcall]
    · rw [herr']
      rcases hturn.close_or_none heased' with hnone | ⟨hclose, hres⟩
      · exact .inl hnone
      · refine .inr ⟨hclose, ?_⟩
        rw [if_neg (by rw [hres]; exact hclose_ne), invocation,
          show (NativeSocketStreamRcv.inp { r with inp := inp }).userRequest = some q' from hq']
        simp [invocations, Obs.isClose, received, hres]

end NativeSocketStreamRcv

/-! ## The two of them -/

/-- A wait that records part of a message records less than the whole of it. -/
theorem In.Midway.eq_nil {r : In} {q : RcvUserRequest} {msgState : RcvMsgState} {rest : List Frame}
    (h : r.Midway q msgState (stream Frame.enc rest)) (hlen : r.targetMetaLength.length = 2) : rest = [] := by
  rcases rest with _ | ⟨f, rest⟩
  · rfl
  exfalso
  have hpre : f.enc <+: stream Frame.enc (f :: rest) := by
    rw [stream_cons]
    exact List.prefix_append _ _
  have hle := hpre.length_le
  rw [f.length_enc] at hle
  generalize stream Frame.enc (f :: rest) = part at h hpre hle
  cases h with
  | msgStart => simp at hle
  | headPayload c _ _ =>
      rw [List.length_singleton] at hle
      omega
  | metaBlobPayload _ head tail left _ notPing =>
      have hhead := Frame.head_of_prefix (.inr hpre) head hlen
      have htail := f.length_tail
      rw [hhead] at htail
      simp only at htail
      rw [show LittleEndian.decode r.targetMetaLength = r.metaLength from rfl, if_neg notPing] at htail
      have hbytes := congrArg List.length tail
      rw [List.length_map, List.length_drop, List.length_take] at hbytes
      omega

namespace World

variable {w w' : World} {told done : Option (List Frame)}

/-- Where all that was sent has been read, it has been read as what it was. -/
theorem Inv.done_eq (h : w.Inv told done) (hsnd : w.snd.out.pendingErrCode = none)
    (hrcv : w.rcv.inp.pendingErrCode = none) (hq : w.snd.out.pendingPayloadsQ = [])
    (hall : w.rcv.inp.peerSocket.sent.length ≤ w.rcv.inp.peerSocket.received) : frames done = frames told := by
  have hsent : w.rcv.inp.peerSocket.taken = wire told := by
    have hhanded := h.snd.carries.handed_eq hsnd
    rw [Out.handed, hq, queued_nil, List.append_nil] at hhanded
    rw [PeerSocket.taken, List.take_of_length_le hall, h.rcv.sound.sent_eq, ← hhanded]
    rfl
  -- What has been read of a message, if anything, is recorded by the wait.
  have hpart : ∃ part, w.rcv.inp.Reads h.snd.onWire done part ∧
      (part = [] ∨ ∃ q msgState, w.rcv.inp.Midway q msgState part) := by
    cases hreq : w.rcv.inp.userRequest with
    | none => exact ⟨[], (h.rcv.idle hrcv hreq).1, .inl rfl⟩
    | some q =>
        obtain ⟨-, msgState, part, hreads, -, hmid⟩ := h.rcv.busy q hreq
        exact ⟨part, hreads, .inr ⟨q, msgState, hmid⟩⟩
  obtain ⟨part, hreads, hmid⟩ := hpart
  have hwire : wire told = wire done ++ part := hsent.symm.trans (hreads.taken_eq hrcv)
  have hwithin : Within done told := hreads.within
  cases done with
  | none =>
      cases told with
      | none => rfl
      | some fs =>
          exfalso
          have hpart : verCells ++ stream Frame.enc fs = part := hwire
          have hlen := congrArg List.length hpart
          rw [List.length_append, length_verCells] at hlen
          rcases hmid with rfl | ⟨q, msgState, hmid⟩
          · simp at hlen
          · cases hmid with
            | msgStart => simp at hlen
            | headPayload _ _ _ =>
                rw [List.length_singleton] at hlen
                omega
            | metaBlobPayload neg _ _ _ _ _ => exact neg ((hreads.negotiated hrcv).mpr rfl)
  | some ds =>
      cases told with
      | none => exact hwithin.elim
      | some fs =>
          obtain ⟨rest, rfl⟩ := hwithin
          rw [wire, wire, stream_append, List.append_assoc, List.append_cancel_left_eq,
            List.append_cancel_left_eq] at hwire
          have hrest : rest = [] := by
            rcases hmid with rfl | ⟨q, msgState, hmid⟩
            · cases rest with
              | nil => rfl
              | cons f rest =>
                  rw [stream_cons, List.append_eq_nil_iff] at hwire
                  exact absurd hwire.1 (Frame.isPrefixCode_enc.ne_nil f)
            · rw [← hwire] at hmid
              exact hmid.eq_nil hreads.length_eq
          rw [hrest, List.append_nil]

/-- All that is known of a sender and a receiver on one socket. -/
structure Account (w : World) (told done : Option (List Frame)) : Prop where
  inv : w.Inv told done
  ended : w.snd.Ended told

/-- A step of the sender adds what it puts out. -/
theorem Account.snd_step {i : NativeSocketStreamSnd.Input} {ks : List SockAnswer} (h : w.Account told done)
    (hstep : w.Step (.snd i ks) w') : ∃ told', w'.Account told' done := by
  obtain ⟨told', hinv⟩ := h.inv.snd_step hstep
  obtain ⟨⟨s, obs⟩, hsnd, rfl⟩ := Option.map_eq_some_iff.mp hstep
  obtain ⟨-, told'', hs, htold⟩ := h.inv.snd.step hsnd
  refine ⟨told', hinv, fun hfin herr => ?_⟩
  rw [hinv.snd.told_unique hs herr]
  exact h.ended.step h.inv.snd hsnd hs htold hfin herr

/-- A step of the receiver adds what it takes in. -/
theorem Account.rcv_step {i : NativeSocketStreamRcv.Input} {ks : List SockAnswer} (h : w.Account told done)
    (hstep : w.Step (.rcv i ks) w') : ∃ done', w'.Account told done' := by
  obtain ⟨done', hinv⟩ := h.inv.rcv_step hstep
  obtain ⟨⟨r, obs⟩, -, rfl⟩ := Option.map_eq_some_iff.mp hstep
  exact ⟨done', hinv, h.ended⟩

/-- What is on its way is accounted for in every state that is reached. -/
theorem Reached.account (h : w.Reached) : ∃ told done, w.Account told done := by
  apply Lts.Reachable.invariant (P := fun w => ∃ told done, World.Account w told done) _ _ h
  · rintro w ⟨sndPeer, rcvPeer, rfl⟩
    refine ⟨none, none, inv_init sndPeer rcvPeer, fun hfin => ?_⟩
    cases hfin
  · rintro w (⟨i, ks⟩ | ⟨i, ks⟩) w' ⟨told, done, hacc⟩ hstep
    · obtain ⟨told', hacc'⟩ := hacc.snd_step hstep
      exact ⟨told', done, hacc'⟩
    · obtain ⟨done', hacc'⟩ := hacc.rcv_step hstep
      exact ⟨told, done', hacc'⟩

/-- Both ends are in use, and neither knows of an error, but for the graceful close, which has then been
reported. -/
structure Going (w : World) : Prop where
  sndErr : w.snd.out.pendingErrCode = none
  sndAlive : w.snd.out.peerSocket.alive = true
  rcvInUse : w.rcv.InUse
  rcvErr : w.rcv.inp.pendingErrCode = none ∨
    (w.rcv.inp.pendingErrCode = Code.receivesFinishedCannotReceive.toErrorCode ∧ w.closed = true)

/-- Nothing is left to be done: all has been sent and read, or the graceful close has been reported. -/
def Settled (w : World) : Prop :=
  w.closed = true ∨ (w.rcv.inp.pendingErrCode = none ∧ w.snd.out.pendingPayloadsQ = [] ∧
    w.rcv.inp.peerSocket.sent.length ≤ w.rcv.inp.peerSocket.received)

/-- The steps that it takes: the event loop reports that the socket is ready, and requests are made. -/
def IsService : Move → Prop
  | .snd i _ => i = .socketWritable
  | .rcv i _ => i.IsService

/-- What such a step leaves as it was. -/
def Same (w w' : World) : Prop :=
  w'.accepted = w.accepted ∧ w'.snd.finished = w.snd.finished

/-- What is queued is sent, all of it. -/
theorem Account.flushed (h : w.Account told done) (hgoing : w.Going)
    (hq : w.snd.out.pendingPayloadsQ ≠ []) :
    ∃ m w', IsService m ∧ w.Step m w' ∧ (∃ told', w'.Account told' done) ∧ w'.Going ∧ w.Same w' ∧
      w'.snd.out.pendingPayloadsQ = [] := by
  obtain ⟨ks, s, hsnd, -, hfin, herr, hnil, halive⟩ :=
    h.inv.snd.socketWritable_moves hgoing.sndErr hq hgoing.sndAlive
  have hstep : w.Step (.snd .socketWritable ks) _ := Option.map_eq_some_iff.mpr ⟨(s, []), hsnd, rfl⟩
  refine ⟨.snd .socketWritable ks, _, rfl, hstep, h.snd_step hstep, ⟨herr, halive, ?_, hgoing.rcvErr⟩, ⟨?_, hfin⟩, hnil⟩
  · exact ⟨hgoing.rcvInUse.started, hgoing.rcvInUse.peer, hgoing.rcvInUse.alive, hgoing.rcvInUse.roomy⟩
  · exact List.append_nil _

/-- What has been sent is read, byte by byte if need be. -/
theorem Account.advances (h : w.Account told done) (hgoing : w.Going) (herr : w.rcv.inp.pendingErrCode = none)
    (hmore : w.rcv.inp.peerSocket.received < w.rcv.inp.peerSocket.sent.length) :
    ∃ m w', IsService m ∧ w.Step m w' ∧ (∃ done', w'.Account told done') ∧ w'.Going ∧ w.Same w' ∧
      w'.snd.out.pendingPayloadsQ = w.snd.out.pendingPayloadsQ ∧
      w'.rcv.inp.peerSocket.sent.length - w'.rcv.inp.peerSocket.received <
        w.rcv.inp.peerSocket.sent.length - w.rcv.inp.peerSocket.received := by
  obtain ⟨i, r, obs, hi, hrcv, huse, hrcvd, herr'⟩ := h.inv.rcv.read_moves hgoing.rcvInUse herr hmore
  obtain ⟨_, hinv, -⟩ := h.inv.rcv.step hrcv
  have hstep : w.Step (.rcv i [.moves 0]) _ := Option.map_eq_some_iff.mpr ⟨(r, obs), hrcv, rfl⟩
  refine ⟨.rcv i [.moves 0], _, hi, hstep, h.rcv_step hstep,
    ⟨hgoing.sndErr, hgoing.sndAlive, huse, ?_⟩, ⟨rfl, rfl⟩, rfl, ?_⟩
  · rcases herr' with hnone | ⟨hclose, hseen⟩
    · exact .inl hnone
    · refine .inr ⟨hclose, ?_⟩
      simp only
      rw [hseen, Bool.or_true]
  · simp only
    rw [hinv.sound.sent_eq, ← h.inv.rcv.sound.sent_eq]
    omega

/-- What has been sent is read to the end. -/
theorem Account.settles (h : w.Account told done) (hgoing : w.Going) (hq : w.snd.out.pendingPayloadsQ = []) :
    ∃ ms w', (∀ m ∈ ms, IsService m) ∧ Run Step w ms w' ∧ w.Same w' ∧ w'.Going ∧ w'.Settled ∧
      ∃ done', w'.Account told done' := by
  have hrun : ∃ ms w', (∀ m ∈ ms, IsService m) ∧ Run Step w ms w' ∧
      ((∃ done, w'.Account told done) ∧ w'.Going ∧ w.Same w' ∧ w'.snd.out.pendingPayloadsQ = []) ∧
      w'.Settled := by
    refine exists_run_of_decreasing
      (P := fun v => (∃ done, v.Account told done) ∧ v.Going ∧ w.Same v ∧ v.snd.out.pendingPayloadsQ = [])
      (fun v => v.rcv.inp.peerSocket.sent.length - v.rcv.inp.peerSocket.received) ?_
      ⟨⟨done, h⟩, hgoing, ⟨rfl, rfl⟩, hq⟩
    rintro v ⟨⟨done, hv⟩, hgoing, ⟨hacc, hfin⟩, hq⟩ hmore
    have herr : v.rcv.inp.pendingErrCode = none := by
      rcases hgoing.rcvErr with herr | ⟨-, hclosed⟩
      · exact herr
      · exact absurd (.inl hclosed) hmore
    have hlt : v.rcv.inp.peerSocket.received < v.rcv.inp.peerSocket.sent.length := by
      by_contra hle
      exact hmore (.inr ⟨herr, hq, Nat.not_lt.mp hle⟩)
    obtain ⟨m, v', hm, hstep, hv', hgoing', hsame, hq', hless⟩ := hv.advances hgoing herr hlt
    exact ⟨m, v', hm, hstep, ⟨hv', hgoing', ⟨hsame.1.trans hacc, hsame.2.trans hfin⟩, hq'.trans hq⟩, hless⟩
  obtain ⟨ms, w', hms, hrun, ⟨hacc, hgoing', hsame, -⟩, hsettled⟩ := hrun
  exact ⟨ms, w', hms, hrun, hsame, hgoing', hsettled, hacc⟩

/-- What is settled has been delivered. -/
theorem Account.delivered (h : w.Account told done) (hgoing : w.Going) (hsettled : w.Settled) :
    w.delivered = w.accepted.map Subtype.val ∧ (w.snd.finished = true → w.closed = true) := by
  have hdone : frames done = frames told := by
    rcases hsettled with hclosed | ⟨herr, hq, hall⟩
    · exact h.inv.frames_eq (h.inv.closed hclosed)
    · exact h.inv.done_eq hgoing.sndErr herr hq hall
  constructor
  · rw [h.inv.delivered_eq, h.inv.accepted_eq, hdone, List.map_map]
    rfl
  · intro hfin
    rcases hsettled with hclosed | ⟨herr, -, -⟩
    · exact hclosed
    · have hmem := h.ended hfin hgoing.sndErr
      rw [← hdone] at hmem
      have hsome := h.inv.rcv.sound.closed hmem
      rw [herr] at hsome
      cases hsome

/-! ## The result -/

/-- **A socket stream does not get stuck.** Whatever a sender and a receiver have been through, if both are in
use and neither knows of an error, and the request that is outstanding, if any, has room for any message, then
some run delivers all that has been accepted, and the graceful close if sending has been finished. It takes no
call of the sender's user: the event loop reports that the socket is ready where it has been asked to, and
handles with blobs are requested. -/
theorem allArrives (h : w.Reached) (hgoing : w.Going) :
    ∃ ms w', (∀ m ∈ ms, IsService m) ∧ Run Step w ms w' ∧ w'.accepted = w.accepted ∧
      w'.delivered = w.accepted.map Subtype.val ∧ (w.snd.finished = true → w'.closed = true) := by
  obtain ⟨told, done, hacc⟩ := h.account
  by_cases hq : w.snd.out.pendingPayloadsQ = []
  · obtain ⟨ms, w', hms, hrun, hsame, hgoing', hsettled, done', hacc'⟩ := hacc.settles hgoing hq
    obtain ⟨hdelivered, hclosed⟩ := hacc'.delivered hgoing' hsettled
    refine ⟨ms, w', hms, hrun, hsame.1, ?_, fun hfin => hclosed (hsame.2.trans hfin)⟩
    rw [hdelivered, hsame.1]
  · obtain ⟨m, v, hm, hstep, ⟨told', hv⟩, hgoingv, hsamev, hqv⟩ := hacc.flushed hgoing hq
    obtain ⟨ms, w', hms, hrun, hsame, hgoing', hsettled, done', hacc'⟩ := hv.settles hgoingv hqv
    obtain ⟨hdelivered, hclosed⟩ := hacc'.delivered hgoing' hsettled
    refine ⟨m :: ms, w', List.forall_mem_cons.mpr ⟨hm, hms⟩, run_cons_iff.mpr ⟨v, hstep, hrun⟩,
      hsame.1.trans hsamev.1, ?_, fun hfin => hclosed (hsame.2.trans (hsamev.2.trans hfin))⟩
    rw [hdelivered, hsame.1, hsamev.1]

/-- A message has been received; another, and the graceful close, have been queued after half of the first two
bytes has gone. -/
def halfwayMoves : List Move :=
  [.snd .startSendNativeHandleOps [.moves 9], .rcv .startReceiveNativeHandleOps [],
    .snd (.sendNativeHandle ⟨(some 2, [9]), by simp⟩) [.moves 9, .moves 9],
    .rcv (.asyncReceiveNativeHandle none [0] 3) [.moves 9, .moves 9, .moves 9],
    .snd (.sendNativeHandle ⟨(some 6, [4, 1]), by simp⟩) [.moves 0], .snd .endSending []]

/-- A message that is halfway arrives, and so does the end. -/
theorem allArrives_halfwayMoves : ∃ w ms w', halfwayMoves.foldlM next (init true true) = some w ∧
    w.delivered = [(some 2, [9])] ∧ Run Step w ms w' ∧
    w'.delivered = [(some 2, [9]), (some 6, [4, 1])] ∧ w'.closed = true := by
  have hseen : (halfwayMoves.foldlM next (init true true)).map
      (fun w => (w.delivered, w.accepted.map Subtype.val, w.snd.finished)) =
        some ([(some 2, [9])], [(some 2, [9]), (some 6, [4, 1])], true) := by decide +kernel
  have hsnd : (halfwayMoves.foldlM next (init true true)).map
      (fun w => (w.snd.out.pendingErrCode, w.snd.out.peerSocket.alive, w.rcv.inp.pendingErrCode)) =
        some (none, true, none) := by decide +kernel
  have hrcv : (halfwayMoves.foldlM next (init true true)).map
      (fun w => (w.rcv.started, w.rcv.statePeer, w.rcv.inp.peerSocket.alive, w.rcv.inp.userRequest)) =
        some (true, true, true, none) := by decide +kernel
  obtain ⟨w, hfold, hseen⟩ := Option.map_eq_some_iff.mp hseen
  rw [hfold, Option.map_some, Option.some.injEq] at hsnd hrcv
  simp only [Prod.mk.injEq] at hseen hsnd hrcv
  obtain ⟨hone, haccepted, hfin⟩ := hseen
  obtain ⟨hsndErr, hsndAlive, hrcvErr⟩ := hsnd
  obtain ⟨hstart, hpeer, halive, hreq⟩ := hrcv
  have hreached : w.Reached := ⟨_, _, ⟨true, true, rfl⟩, .of_foldlM hfold⟩
  have hroomy : w.rcv.Roomy := by
    intro q hq
    rw [hreq] at hq
    cases hq
  obtain ⟨ms, w', -, hrun, -, hdelivered, hclosed⟩ :=
    allArrives hreached ⟨hsndErr, hsndAlive, ⟨hstart, hpeer, halive, hroomy⟩, .inl hrcvErr⟩
  exact ⟨w, ms, w', hfold, hone, hrun, hdelivered.trans haccepted, hclosed hfin⟩

end World

end FlowIpc.SocketStream
