import FlowIpc.BlobSender.Cells
import FlowIpc.SocketStream.OutQueue

/-!
# A socket stream that sends blobs is a sender of blobs

The cells of the sending direction of a `Native_socket_stream::Impl` are the bytes on its socket, none
with a handle as long as only blobs are sent: two for the version, a ping or the graceful close, and the
blob behind two for a blob. `Acts` says that a call or an event of a stream in the PEER state is a step
of the machine over them, and that one that is refused, or a blob that is declined, leaves every part of
the stream as it was.

Source: `sync_io/detail/native_socket_stream_impl_snd.cpp`.
-/

namespace FlowIpc.SocketStream

open BlobSender (Item Reply Cells Sender cellMedium declines)

/-- The cells of an item. -/
def itemEnc : Item → List Cell
  | .version => verCells
  | .blob b => cells none (lengthBytes b.val.length) ++ cells none b.val
  | .ping => cells none (lengthBytes metaBlobLengthPingSentinel)
  | .endSending => cells none (lengthBytes 0)

/-- No item is without cells. -/
theorem itemEnc_ne_nil (f : Item) : itemEnc f ≠ [] := by
  cases f <;> simp [itemEnc, verCells, cells_eq_nil, lengthBytes_ne_nil]

/-! ## Writing -/

/-- The socket's codes are not those that the sender has for itself. -/
theorem PeerSocket.declines_sndNbWrite {p p' : PeerSocket} {hndl : NativeHandle} {blob : Blob}
    {n : Nat} {err : ErrorCode} (h : p.sndNbWriteLowLvlPayload hndl blob = (n, err, p')) :
    declines err = false := by
  unfold sndNbWriteLowLvlPayload at h
  simp only at h
  split at h
  · unfold writeSome at h
    split at h
    · cases h
      rfl
    · rename_i hw
      split at hw
      · cases hw
      · cases hw
        cases h
        rfl
      · cases hw
      · cases hw
  · cases h
    rfl

namespace Out

variable {o o' : Out} {hndl : NativeHandle} {blob : Blob} {n : Nat} {avoid flushed : Bool}

/-- The cells on the socket, and those held back. -/
def toCells (o : Out) : Cells Cell :=
  ⟨o.peerSocket.sent, queued o.pendingPayloadsQ⟩

/-- Asking for the wait may find that the socket has been put away. -/
theorem asyncWriteQHeadPayload_declines (herr : declines o.pendingErrCode = false) :
    declines o.asyncWriteQHeadPayload.pendingErrCode = false := by
  unfold asyncWriteQHeadPayload
  simp only
  split
  · exact herr
  · rfl

/-- Queueing a payload leaves the error, if any, as it is. -/
theorem queuePayload_declines (herr : declines o.pendingErrCode = false)
    (h : o.queuePayload hndl blob n avoid = (flushed, o')) :
    declines o'.pendingErrCode = false := by
  unfold queuePayload at h
  have hassert : (if avoid = true then o.assert (hndl = none) else o).pendingErrCode =
      o.pendingErrCode := by
    split <;> rfl
  rw [← hassert] at herr
  generalize (⟨if n = 0 then hndl else none, blob.drop n⟩ : SndLowLvlPayload) = new at h
  simp only at h
  generalize (if avoid = true then o.assert (hndl = none) else o) = v at herr h
  split at h
  · cases h
    exact herr
  · split at h
    · cases h
      exact asyncWriteQHeadPayload_declines herr
    · cases h
      exact herr

/-- Behind others a payload is queued, or dropped if it may be. -/
theorem syncWriteOrQPayload_behind (herr : o.pendingErrCode = none)
    (hhndl : avoid = true → hndl = none) (hq : o.pendingPayloadsQ ≠ [])
    (h : o.syncWriteOrQPayload hndl blob avoid = (flushed, o')) :
    o'.peerSocket = o.peerSocket ∧ o'.pendingErrCode = none ∧
      (if avoid = true then o' = o else o'.pendingPayloadsQ ≠ []) := by
  have hlen : o.pendingPayloadsQ.length ≠ 0 := fun hlen => hq (List.length_eq_zero_iff.mp hlen)
  unfold syncWriteOrQPayload at h
  rw [assert_of herr, if_neg hq] at h
  unfold queuePayload at h
  cases avoid with
  | true =>
      simp only [if_true] at h
      rw [assert_of (hhndl rfl), if_pos ⟨trivial, trivial⟩] at h
      cases h
      exact ⟨rfl, herr, rfl⟩
  | false =>
      simp only [Bool.false_eq_true, if_false, false_and, List.length_append, List.length_singleton]
        at h
      rw [if_neg (by omega)] at h
      cases h
      exact ⟨rfl, herr, by simp [assert]⟩

/-- Where a payload is written at once, a failure is the socket's. -/
theorem syncWriteOrQPayload_declines (herr : o.pendingErrCode = none)
    (h : o.syncWriteOrQPayload hndl blob avoid = (flushed, o')) :
    declines o'.pendingErrCode = false := by
  unfold syncWriteOrQPayload at h
  rw [assert_of herr] at h
  simp only at h
  split at h
  · rcases hwrite : o.peerSocket.sndNbWriteLowLvlPayload hndl blob with ⟨n, err, p⟩
    have hdec := PeerSocket.declines_sndNbWrite hwrite
    simp only [hwrite] at h
    split at h
    · cases h
      exact hdec
    · split at h
      · cases h
        exact hdec
      · exact queuePayload_declines hdec h
  · refine queuePayload_declines ?_ h
    rw [herr]
    rfl

/-- A payload is handed over; one that may be dropped is if there are others. -/
theorem put_payload (hok : o.Ok) (herr : o.pendingErrCode = none) {f : Item} {b : Blob}
    (hf : itemEnc f = cells none b) (hb : b ≠ [])
    (h : o.syncWriteOrQPayload none b avoid = (flushed, o')) :
    ((avoid = true → o.pendingPayloadsQ = []) ∧
        Cells.Put itemEnc o.toCells f o'.toCells o'.pendingErrCode) ∨
      (avoid = true ∧ o'.toCells = o.toCells ∧ o'.pendingErrCode = none) := by
  obtain ⟨hext, hout⟩ := syncWriteOrQPayload_cases hok herr hb (fun _ => rfl) h
  have hdec := syncWriteOrQPayload_declines herr h
  cases hout with
  | dropped havoid herr' hq hsent =>
      exact .inr ⟨havoid, by simp [toCells, hq, hsent], herr'⟩
  | failed herr' _ hq hsent =>
      refine .inl ⟨fun _ => hq, ?_⟩
      obtain ⟨e, he⟩ := Option.isSome_iff_exists.mp herr'
      obtain ⟨l, hpre, hne, hsent⟩ := hsent
      rw [he] at hdec ⊢
      rw [← hf] at hpre hne
      have hcells : o'.toCells = ⟨o.toCells.sent ++ l, queued o'.pendingPayloadsQ⟩ := by
        simp [toCells, hsent]
      rw [hcells]
      exact .failed (by simp [toCells, hq]) hpre hne e hdec
  | written herr' _ hhanded _ =>
      by_cases hq : o.pendingPayloadsQ = []
      · obtain ⟨l, hl⟩ := hext.sent_le
        rw [herr', ← hf] at *
        exact .inl ⟨fun _ => hq,
          .added (l := l) hhanded hl.symm fun hne => absurd (by simp [toCells, hq]) hne⟩
      · obtain ⟨hmq, -, hdrop⟩ := syncWriteOrQPayload_behind herr (fun _ => rfl) hq h
        cases avoid with
        | true =>
            rw [if_pos rfl] at hdrop
            exact .inr ⟨rfl, by rw [hdrop], herr'⟩
        | false =>
            rw [herr', ← hf] at *
            refine .inl ⟨fun ha => (by cases ha), .added (l := []) hhanded ?_ fun _ => rfl⟩
            simp [toCells, hmq]

/-- A blob is handed over: its length, and then its bytes. -/
theorem put_blob (hok : o.Ok) (herr : o.pendingErrCode = none) {b : {b : Blob // b ≠ []}}
    (h : o.sendLowLvlPayloads none b.val = o') :
    Cells.Put itemEnc o.toCells (.blob b) o'.toCells o'.pendingErrCode := by
  unfold sendLowLvlPayloads at h
  rcases h₁ : o.syncWriteOrQPayload none (lengthBytes b.val.length) false with ⟨fl, p⟩
  simp only [h₁] at h
  obtain ⟨hext, hout⟩ := syncWriteOrQPayload_cases hok herr (lengthBytes_ne_nil _) (by simp) h₁
  have hlen : b.val.length ≠ 0 := fun hlen => b.property (List.length_eq_zero_iff.mp hlen)
  have henc : itemEnc (.blob b) = cells none (lengthBytes b.val.length) ++ cells none b.val := rfl
  have hne : cells none b.val ≠ [] := fun hnil => b.property (cells_eq_nil.mp hnil)
  have hdec₁ := syncWriteOrQPayload_declines herr h₁
  cases hout with
  | dropped havoid => cases havoid
  | failed herr₁ _ hq hsent =>
      obtain ⟨l, hpre, -, hsent⟩ := hsent
      rw [if_neg (by simp [Option.ne_none_iff_isSome.mpr herr₁])] at h
      subst h
      obtain ⟨e, he⟩ := Option.isSome_iff_exists.mp herr₁
      rw [he] at hdec₁ ⊢
      have hcells : p.toCells = ⟨o.toCells.sent ++ l, queued p.pendingPayloadsQ⟩ := by
        simp [toCells, hsent]
      rw [hcells]
      refine .failed (by simp [toCells, hq]) (hpre.trans (List.prefix_append _ _)) ?_ e hdec₁
      intro heq
      rw [henc] at heq
      rw [heq] at hpre
      have hle := hpre.length_le
      rw [List.length_append] at hle
      exact hne (List.length_eq_zero_iff.mp (by omega))
  | written herr₁ _ hhanded hbefore =>
      rw [if_pos ⟨hlen, herr₁⟩] at h
      rcases h₂ : p.syncWriteOrQPayload none b.val false with ⟨fl₂, p₂⟩
      simp only [h₂] at h
      subst h
      obtain ⟨hext₂, hout₂⟩ := syncWriteOrQPayload_cases hext.ok herr₁ b.property (fun _ => rfl) h₂
      have hdec₂ := syncWriteOrQPayload_declines herr₁ h₂
      cases hout₂ with
      | dropped havoid => cases havoid
      | failed herr₂ _ hq hsent =>
          obtain ⟨l, hpre, hne', hsent⟩ := hsent
          obtain ⟨e, he⟩ := Option.isSome_iff_exists.mp herr₂
          rw [he] at hdec₂ ⊢
          -- The queue was empty after the length, so the length has been sent.
          have hq₀ := hbefore hq
          have hsent₁ : p.peerSocket.sent =
              o.peerSocket.sent ++ cells none (lengthBytes b.val.length) := by
            simpa [handed, hq, hq₀] using hhanded
          have hcells : p₂.toCells =
              ⟨o.toCells.sent ++ (cells none (lengthBytes b.val.length) ++ l),
                queued p₂.pendingPayloadsQ⟩ := by
            simp [toCells, hsent, hsent₁]
          rw [hcells]
          refine .failed (by simp [toCells, hq₀]) ?_ ?_ e hdec₂
          · rw [henc, List.prefix_append_right_inj]
            exact hpre
          · rw [henc, Ne, List.append_cancel_left_eq]
            exact hne'
      | written herr₂ _ hhanded₂ _ =>
          rw [herr₂]
          obtain ⟨l, hl⟩ := (hext.trans hext₂).sent_le
          have happend : p₂.toCells.sent ++ p₂.toCells.pend =
              o.toCells.sent ++ o.toCells.pend ++ itemEnc (.blob b) := by
            change p₂.handed = o.handed ++ _
            rw [hhanded₂, hhanded, henc, List.append_assoc]
          refine .added (l := l) happend hl.symm fun hpend => ?_
          have hq : o.pendingPayloadsQ ≠ [] := by
            intro hq
            exact hpend (by simp [toCells, hq])
          obtain ⟨hmq, -, hq₁⟩ := syncWriteOrQPayload_behind herr (by simp) hq h₁
          obtain ⟨hmq₂, -⟩ := syncWriteOrQPayload_behind herr₁ (by simp) hq₁ h₂
          rw [hmq₂, hmq] at hl
          simpa using hl

/-- Payloads that are not empty have cells. -/
theorem queued_ne_nil {q : List SndLowLvlPayload} (hfilled : Filled q) (hq : q ≠ []) :
    queued q ≠ [] := by
  cases q with
  | nil => exact absurd rfl hq
  | cons payload q =>
      intro hnil
      rw [queued_cons] at hnil
      have hcells := (List.append_eq_nil_iff.mp hnil).1
      exact hfilled payload List.mem_cons_self (cells_eq_nil.mp hcells)

/-- What the writable event passes on, as long as no payload is empty. -/
theorem flush_onWritable (hfilled : Filled o.onWritable.pendingPayloadsQ) :
    Cells.Flush o.toCells o.onWritable.toCells o.onWritable.pendingErrCode := by
  unfold onWritable at hfilled ⊢
  rcases hd : drain o.peerSocket o.pendingPayloadsQ with ⟨p, q, err⟩
  obtain ⟨-, ⟨l, hl⟩, hcells, hleft, -⟩ := drain_cases hd
  rw [← hl, List.append_assoc, List.append_cancel_left_eq] at hcells
  simp only [hd] at hfilled ⊢
  split
  · rename_i hmore
    rw [if_pos hmore] at hfilled
    -- Asking for the wait again leaves the queue, and what was sent, alone.
    have hlock : ∀ o₁ : Out, o₁.asyncWriteQHeadPayload.toCells = o₁.toCells ∧
        o₁.asyncWriteQHeadPayload.pendingPayloadsQ = o₁.pendingPayloadsQ := by
      intro o₁
      unfold asyncWriteQHeadPayload assert toCells
      simp only
      split <;> exact ⟨by simp, rfl⟩
    rw [(hlock _).2] at hfilled
    rw [(hlock _).1]
    simp only [toCells, ← hl]
    exact .passed hcells fun _ => queued_ne_nil hfilled hmore.2
  · rename_i hmore
    rw [if_neg hmore] at hfilled
    simp only [toCells, ← hl]
    exact .passed hcells fun herr => queued_ne_nil hfilled (hleft herr)

end Out

/-! ## Calls and events -/

namespace NativeSocketStreamSnd

open Negotiation BlobSender

/-- What of a stream the user who sends blobs has to do with. -/
def view (s : NativeSocketStreamSnd) : Sender (Cells Cell) :=
  ⟨s.started, s.finished, decide (s.autoPingPeriod ≠ 0), s.out.pendingErrCode, s.autoPingTimer,
    s.out.toCells⟩

/-- The message that is a blob. -/
def blobMsg (b : {b : Blob // b ≠ []}) : UserMsg :=
  ⟨(none, b.val), .inr b.property⟩

/-- A call or an event, and what is seen of it, during which the socket gives the answers `ks`. -/
def react (s : NativeSocketStreamSnd) (op : BlobSender.Op) (ks : List SockAnswer) :
    Option (NativeSocketStreamSnd × Reply) :=
  let s := s.withAnswers ks
  match op with
  | .startSendBlobOps =>
    let (ok, s) := s.startSendNativeHandleOps
    some (s, .returned ok none)
  | .sendBlob b =>
    let (ok, err, s) := s.sendNativeHandle none b.val
    some (s, .returned ok err)
  | .endSending =>
    let (ok, s) := s.endSending
    some (s, .returned ok none)
  | .autoPing period =>
    let (ok, s) := s.autoPing period
    some (s, .returned ok none)
  | .writable =>
    if 0 < s.out.evWaits then
      some ({ s with
        out := { s.out with evWaits := s.out.evWaits - 1 } }.onEvPeerSocketWritableOrError.1, .event)
    else none
  | .timerFires => s.autoPingTimer.fire.map fun timer => ({ s with autoPingTimer := timer }, .event)
  | .timerReadable =>
    s.autoPingTimer.takeEvent.map fun timer =>
      ({ s with autoPingTimer := timer }.onEvAutoPingNowTimerFired, .event)

/-- The call, or the event, as an input. -/
def toInput : BlobSender.Op → Input
  | .startSendBlobOps => .startSendNativeHandleOps
  | .sendBlob b => .sendNativeHandle (blobMsg b)
  | .endSending => .endSending
  | .autoPing period => .autoPing period
  | .writable => .socketWritable
  | .timerFires => .timerFires
  | .timerReadable => .timerReadable

variable {s s' : NativeSocketStreamSnd} {told : Option (List Frame)} {op : BlobSender.Op} {r : Reply}
  {ks : List SockAnswer}

/-- To react is to take a step. -/
theorem step_of_react (h : s.react op ks = some (s', r)) :
    ∃ obs, s.step (toInput op) ks = some (s', obs) := by
  unfold react at h
  unfold step
  cases op with
  | startSendBlobOps =>
      cases h
      exact ⟨_, rfl⟩
  | sendBlob b =>
      rcases hcall : (s.withAnswers ks).sendNativeHandle none b.val with ⟨ok, err, t⟩
      simp only [hcall] at h
      cases h
      simp only [toInput, blobMsg, hcall]
      split <;> (rename_i heq; cases heq; exact ⟨_, rfl⟩)
  | endSending =>
      cases h
      exact ⟨_, rfl⟩
  | autoPing period =>
      cases h
      exact ⟨_, rfl⟩
  | writable =>
      simp only at h
      split at h
      · rename_i hw
        cases h
        simp only [toInput, if_pos hw]
        exact ⟨_, rfl⟩
      · cases h
  | timerFires =>
      simp only [Option.map_eq_some_iff, toInput] at h ⊢
      obtain ⟨t, hfire, heq⟩ := h
      cases heq
      exact ⟨_, t, hfire, rfl⟩
  | timerReadable =>
      simp only [Option.map_eq_some_iff, toInput] at h ⊢
      obtain ⟨t, htake, heq⟩ := h
      cases heq
      exact ⟨_, t, htake, rfl⟩

/-- What a call or an event is: a step of the machine over cells. -/
structure Acts (s : NativeSocketStreamSnd) (op : BlobSender.Op) (r : Reply) (s' : NativeSocketStreamSnd) :
    Prop where
  step : BlobSender.Step (cellMedium itemEnc) maxMetaBlobLength s.view (op, r) s'.view
  idle : r.idle = true → s' = s
  statePeer_eq : s'.statePeer = s.statePeer

/-- Starting the operations is a step of the machine. -/
theorem Inv.acts_start (h : s.Inv told) :
    Acts s .startSendBlobOps (.returned s.startSendNativeHandleOps.1 none)
      s.startSendNativeHandleOps.2 := by
  unfold NativeSocketStreamSnd.startSendNativeHandleOps
  split
  · rename_i hstart
    exact ⟨.startRefused hstart, fun _ => rfl, rfl⟩
  · rename_i hstart
    have hstart : s.started = false := by simpa using hstart
    obtain ⟨-, -, herr, -, hneg, -⟩ := h.fresh hstart
    -- The version is 1, and it is asked for once.
    have hver : (ProtocolNegotiator.ctor versionOne).localMaxProtoVerForSending.1 = 1 := by decide
    have hnext : (ProtocolNegotiator.ctor versionOne).localMaxProtoVerForSending.2
        |>.localMaxProtoVerForSending.1 = verUnknown := by decide
    rcases hw : s.out.syncWriteOrQPayload none (lengthBytes 1) false with ⟨fl, out⟩
    simp only [hneg, hver]
    rw [if_pos (by decide), assert_of (by exact herr), assert_of (by exact hnext)]
    simp only [Int.toNat_one, hw]
    refine ⟨?_, fun hidle => (by cases hidle), rfl⟩
    rcases Out.put_payload h.carries.ok herr (f := .version) rfl (lengthBytes_ne_nil 1) hw with
      ⟨-, hput⟩ | ⟨havoid, -⟩
    · exact BlobSender.Step.start (M := cellMedium itemEnc) (m := s.view) hstart herr hput
    · cases havoid

/-- What is declined is declined in the same words. -/
theorem declined_view (s : NativeSocketStreamSnd) {b : Blob} :
    s.view.declined maxMetaBlobLength b =
      if s.started = false then some (.returned false none)
      else if s.finished = true then some (.returned true Code.sendsFinishedCannotSend.toErrorCode)
      else if maxMetaBlobLength < b.length then
        some (.returned true Code.invalidArgument.toErrorCode)
      else if s.out.pendingErrCode.isSome then some (.returned true s.out.pendingErrCode)
      else none :=
  rfl

/-- Putting off the next ping is the machine's, the assertion apart. -/
theorem view_rescheduleAutoPing (herr : s.out.pendingErrCode = none) (hping : s.autoPingPeriod ≠ 0) :
    s.rescheduleAutoPing.view = s.view.putOff ∧ s.rescheduleAutoPing.statePeer = s.statePeer := by
  have hview : s.view.pinging = true := decide_eq_true hping
  unfold NativeSocketStreamSnd.rescheduleAutoPing
  simp only
  split
  · rename_i hone
    exact ⟨(Sender.putOff_of_one (m := s.view) herr hview hone).symm, rfl⟩
  · rename_i hne
    exact ⟨(Sender.putOff_of_not_one (m := s.view) herr hview hne).symm, rfl⟩

/-- Sending a blob, or declining it, is a step of the machine. -/
theorem Inv.acts_send (h : s.Inv told) (hpeer : s.statePeer = true) (b : {b : Blob // b ≠ []}) :
    Acts s (.sendBlob b)
      (.returned (s.sendNativeHandle none b.val).1 (s.sendNativeHandle none b.val).2.1)
      (s.sendNativeHandle none b.val).2.2 := by
  rcases hcall : s.sendNativeHandle none b.val with ⟨ok, err, s'⟩
  simp only
  unfold NativeSocketStreamSnd.sendNativeHandle at hcall
  rw [assert_of (.inr (by simpa using b.property))] at hcall
  simp only at hcall
  have hdec := s.declined_view (b := b.val)
  split at hcall
  · rename_i hshut
    have hstart : s.started = false := hshut.resolve_right (by simp [hpeer])
    cases hcall
    rw [if_pos hstart] at hdec
    exact ⟨.sendDeclined hdec, fun _ => rfl, rfl⟩
  · rename_i hopen
    rw [if_neg (fun hstart => hopen (.inl hstart))] at hdec
    split at hcall
    · rename_i hfin
      cases hcall
      rw [if_pos hfin] at hdec
      exact ⟨.sendDeclined hdec, fun _ => rfl, rfl⟩
    · rename_i hfin
      rw [if_neg hfin] at hdec
      split at hcall
      · rename_i hlen
        cases hcall
        rw [if_pos hlen] at hdec
        exact ⟨.sendDeclined hdec, fun _ => rfl, rfl⟩
      · rename_i hlen
        rw [if_neg hlen] at hdec
        split at hcall
        · rename_i herr
          cases hcall
          rw [if_pos herr] at hdec
          exact ⟨.sendDeclined hdec, fun _ => rfl, rfl⟩
        · rename_i herr
          rw [if_neg herr] at hdec
          have herr : s.out.pendingErrCode = none := by simpa using herr
          have hput := Out.put_blob h.carries.ok herr (b := b) rfl
          generalize s.out.sendLowLvlPayloads none b.val = out at hput hcall
          have hidle : Reply.idle (.returned true out.pendingErrCode) = false :=
            (cellMedium itemEnc).put_err hput
          have hstep := BlobSender.Step.send (M := cellMedium itemEnc) (n := maxMetaBlobLength) hdec hput
          -- The ping is put off if the blob was handed over, and there are pings.
          split at hcall
          · rename_i herr'
            cases hcall
            rw [Sender.putOff_of_not] at hstep
            · exact ⟨hstep, fun hi => absurd hi (by simp [hidle]), rfl⟩
            · rintro ⟨hnone, -⟩
              exact Option.ne_none_iff_isSome.mpr herr' hnone
          · rename_i herr'
            have herr' : out.pendingErrCode = none := by simpa using herr'
            split at hcall
            · rename_i hping
              cases hcall
              obtain ⟨hview, hstate⟩ :=
                view_rescheduleAutoPing (s := { s with out := out }) herr' hping
              refine ⟨?_, fun hi => absurd hi (by simp [hidle]), hstate⟩
              rw [hview]
              exact hstep
            · rename_i hping
              cases hcall
              rw [Sender.putOff_of_not] at hstep
              · exact ⟨hstep, fun hi => absurd hi (by simp [hidle]), rfl⟩
              · rintro ⟨-, hon⟩
                exact hping (of_decide_eq_true hon)

/-- The end of sending is a step of the machine. -/
theorem Inv.acts_end (h : s.Inv told) (hpeer : s.statePeer = true) :
    Acts s .endSending (.returned s.endSending.1 none) s.endSending.2 := by
  rcases hcall : s.asyncEndSendingImpl none with ⟨ok, err, s'⟩
  unfold NativeSocketStreamSnd.endSending
  rw [hcall]
  simp only
  unfold NativeSocketStreamSnd.asyncEndSendingImpl at hcall
  split at hcall
  · rename_i hshut
    have hstart : s.started = false := hshut.resolve_right (by simp [hpeer])
    cases hcall
    exact ⟨.endRefused (.inl hstart), fun _ => rfl, rfl⟩
  · rename_i hopen
    have hstart : s.started = true := by
      by_contra hstart
      exact hopen (.inl (by simpa using hstart))
    split at hcall
    · rename_i hfin
      cases hcall
      exact ⟨.endRefused (.inr hfin), fun _ => rfl, rfl⟩
    · rename_i hfin
      have hfin : s.finished = false := by simpa using hfin
      have hnone : s.pendingOnLastSendDoneFunc = none := h.handler_eq_none hfin
      simp only at hcall
      split at hcall
      · rename_i herr
        cases hcall
        exact ⟨BlobSender.Step.endLatched (M := cellMedium itemEnc) (m := s.view) hstart hfin herr,
          fun hidle => (by cases hidle), rfl⟩
      · rename_i herr
        have herr : s.out.pendingErrCode = none := by simpa using herr
        rw [assert_of (by exact hnone)] at hcall
        rcases hw : s.out.syncWriteOrQPayload none (lengthBytes 0) false with ⟨fl, out⟩
        have hput : Cells.Put itemEnc s.out.toCells .endSending out.toCells out.pendingErrCode := by
          rcases Out.put_payload h.carries.ok herr (f := .endSending) rfl (lengthBytes_ne_nil 0) hw
            with ⟨-, hput⟩ | ⟨havoid, -⟩
          · exact hput
          · cases havoid
        have hstep := BlobSender.Step.endSending (M := cellMedium itemEnc) (n := maxMetaBlobLength)
          (m := s.view) hstart hfin herr hput
        simp only [hw, Option.isSome_none, Bool.false_eq_true, and_false, if_false] at hcall
        have hview : s'.view = { s.view.took out.toCells out.pendingErrCode with finished := true } ∧
            s'.statePeer = s.statePeer ∧ ok = true := by
          cases hcall
          split <;> exact ⟨rfl, rfl, rfl⟩
        obtain ⟨hview, hstate, rfl⟩ := hview
        exact ⟨hview ▸ hstep, fun hidle => (by cases hidle), hstate⟩

/-- A ping is tried. -/
theorem Inv.ping (h : s.Inv told) (herr : s.out.pendingErrCode = none) {fl : Bool} {out : Out}
    (hw : s.out.syncWriteOrQPayload none (lengthBytes metaBlobLengthPingSentinel) true = (fl, out)) :
    (cellMedium itemEnc).Ping s.out.toCells out.toCells out.pendingErrCode := by
  rcases Out.put_payload h.carries.ok herr (f := .ping) rfl (lengthBytes_ne_nil _) hw with
    ⟨hidle, hput⟩ | ⟨-, heq, herr'⟩
  · refine .put ?_ hput
    change queued s.out.pendingPayloadsQ = []
    rw [hidle rfl]
    rfl
  · rw [heq, herr']
    exact .dropped

/-- Asking for pings is a step of the machine. -/
theorem Inv.acts_autoPing (h : s.Inv told) (hpeer : s.statePeer = true)
    (period : {n : Nat // 0 < n}) :
    Acts s (.autoPing period) (.returned (s.autoPing period).1 none) (s.autoPing period).2 := by
  have hne : decide (period.val ≠ 0) = true := decide_eq_true (Nat.pos_iff_ne_zero.mp period.property)
  unfold NativeSocketStreamSnd.autoPing
  rw [assert_of period.property]
  simp only
  split
  · rename_i hshut
    have hstart : s.started = false := hshut.resolve_right (by simp [hpeer])
    exact ⟨.pingRefused (.inl hstart), fun _ => rfl, rfl⟩
  · rename_i hopen
    have hstart : s.started = true := by
      by_contra hstart
      exact hopen (.inl (by simpa using hstart))
    split
    · rename_i hfin
      exact ⟨.pingRefused (.inr (.inl hfin)), fun _ => rfl, rfl⟩
    · rename_i hfin
      have hfin : s.finished = false := by simpa using hfin
      split
      · rename_i hping
        exact ⟨.pingRefused (.inr (.inr (decide_eq_true hping))), fun _ => rfl, rfl⟩
      · rename_i hping
        have hping : s.view.pinging = false := decide_eq_false hping
        split
        · rename_i herr
          refine ⟨?_, fun hidle => (by cases hidle), rfl⟩
          have hstep := BlobSender.Step.pingLatched (M := cellMedium itemEnc) (n := maxMetaBlobLength)
            (m := s.view) (p := period) hstart hfin hping herr
          unfold view
          rw [hne]
          exact hstep
        · rename_i herr
          have herr : s.out.pendingErrCode = none := by simpa using herr
          rcases hw : s.out.syncWriteOrQPayload none (lengthBytes metaBlobLengthPingSentinel) true
            with ⟨fl, out⟩
          have hstep := BlobSender.Step.ping (M := cellMedium itemEnc) (n := maxMetaBlobLength) (m := s.view)
            (p := period) hstart hfin hping herr (h.ping herr hw)
          simp only
          split
          · rename_i herr'
            refine ⟨?_, fun hidle => (by cases hidle), rfl⟩
            rw [Sender.schedule_of_isSome herr'] at hstep
            unfold view
            rw [hne]
            exact hstep
          · rename_i herr'
            have herr' : out.pendingErrCode = none := by simpa using herr'
            refine ⟨?_, fun hidle => (by cases hidle), rfl⟩
            rw [Sender.schedule_of_none herr'] at hstep
            unfold view
            rw [hne]
            exact hstep

/-- A ping that is due is a step of the machine. -/
theorem Inv.acts_due (h : s.Inv told) {t : Timer} (ht : s.autoPingTimer.takeEvent = some t) :
    Acts s .timerReadable .event { s with autoPingTimer := t }.onEvAutoPingNowTimerFired := by
  unfold NativeSocketStreamSnd.onEvAutoPingNowTimerFired
  simp only
  split
  · rename_i herr
    exact ⟨BlobSender.Step.dueLatched (M := cellMedium itemEnc) (m := s.view) ht (.inl herr),
      fun hidle => (by cases hidle), rfl⟩
  · rename_i herr
    have herr : s.out.pendingErrCode = none := by simpa using herr
    split
    · rename_i hfin
      exact ⟨BlobSender.Step.dueLatched (M := cellMedium itemEnc) (m := s.view) ht (.inr hfin),
        fun hidle => (by cases hidle), rfl⟩
    · rename_i hfin
      have hfin : s.finished = false := by simpa using hfin
      rcases hw : s.out.syncWriteOrQPayload none (lengthBytes metaBlobLengthPingSentinel) true
        with ⟨fl, out⟩
      have hstep := BlobSender.Step.due (M := cellMedium itemEnc) (n := maxMetaBlobLength) (m := s.view) ht hfin
        herr (h.ping herr hw)
      split
      · rename_i herr'
        refine ⟨?_, fun hidle => (by cases hidle), rfl⟩
        rw [Sender.schedule_of_isSome herr'] at hstep
        exact hstep
      · rename_i herr'
        have herr' : out.pendingErrCode = none := by simpa using herr'
        refine ⟨?_, fun hidle => (by cases hidle), rfl⟩
        rw [Sender.schedule_of_none herr'] at hstep
        exact hstep

/-- What is done when the socket is writable is a step of the machine. -/
theorem Inv.acts_writable (h : s.Inv told) (hw : 0 < s.out.evWaits)
    (hfilled : Filled s.out.pendingPayloadsQ) (hfilled' : Filled s.out.onWritable.pendingPayloadsQ) :
    Acts s .writable .event { s with
      out := { s.out with evWaits := s.out.evWaits - 1 } }.onEvPeerSocketWritableOrError.1 := by
  obtain ⟨herr, hq, -⟩ := h.of_evWaits hw
  have hheld : s.view.store.pend ≠ [] := Out.queued_ne_nil hfilled hq
  have hstep := BlobSender.Step.flush (M := cellMedium itemEnc) (n := maxMetaBlobLength) (m := s.view) hheld herr
    (Out.flush_onWritable hfilled')
  rcases hcall : NativeSocketStreamSnd.onEvPeerSocketWritableOrError
    { s with out := { s.out with evWaits := s.out.evWaits - 1 } } with ⟨s', r⟩
  have hview : s'.view = s.view.took s.out.onWritable.toCells s.out.onWritable.pendingErrCode ∧
      s'.statePeer = s.statePeer := by
    unfold NativeSocketStreamSnd.onEvPeerSocketWritableOrError at hcall
    rw [assert_of (by exact hq)] at hcall
    simp only at hcall
    rw [assert_of (by exact herr)] at hcall
    unfold Out.onWritable
    rcases hd : Out.drain s.out.peerSocket s.out.pendingPayloadsQ with ⟨p, q, err⟩
    simp only [hd] at hcall ⊢
    -- Whether a handler is invoked makes no difference to the rest.
    by_cases hmore : err = none ∧ q ≠ []
    · simp only [if_pos hmore] at hcall ⊢
      split_ifs at hcall <;> split at hcall <;> (cases hcall; exact ⟨rfl, rfl⟩)
    · simp only [if_neg hmore] at hcall ⊢
      split_ifs at hcall <;> split at hcall <;> (cases hcall; exact ⟨rfl, rfl⟩)
  exact ⟨hview.1 ▸ hstep, fun hidle => (by cases hidle), hview.2⟩

/-- Every call and every event is a step of the machine. -/
theorem Queues.acts {is : List (Input × List SockAnswer)} {obs : List Obs} (h : Queues is s obs)
    (hpeer : s.statePeer = true) (hreact : s.react op ks = some (s', r)) :
    Acts (s.withAnswers ks) op r s' := by
  have hu := h.withAnswers ks
  have hpeer : (s.withAnswers ks).statePeer = true := hpeer
  unfold react at hreact
  generalize s.withAnswers ks = u at hu hpeer hreact ⊢
  obtain ⟨told, hinv⟩ := hu.inv
  cases op with
  | startSendBlobOps =>
      cases hreact
      exact hinv.acts_start
  | sendBlob b =>
      cases hreact
      exact hinv.acts_send hpeer b
  | endSending =>
      cases hreact
      exact hinv.acts_end hpeer
  | autoPing period =>
      cases hreact
      exact hinv.acts_autoPing hpeer period
  | writable =>
      simp only at hreact
      split at hreact
      · rename_i hw
        cases hreact
        obtain ⟨herr, hq, -⟩ := hinv.of_evWaits hw
        have hstart : u.started = true := by
          by_contra hs
          exact hq (hinv.fresh (by simpa using hs)).2.2.2.1
        obtain ⟨ts, -, -, hcut⟩ := hu.cut hstart herr
        have hps := filled_payloads (framesOf ts)
        exact hinv.acts_writable hw (hcut.filled hps) ((Out.cut_onWritable hps hcut).filled hps)
      · cases hreact
  | timerFires =>
      simp only [Option.map_eq_some_iff] at hreact
      obtain ⟨t, hfire, heq⟩ := hreact
      cases heq
      exact ⟨BlobSender.Step.timerFires (M := cellMedium itemEnc) (m := u.view) hfire,
        fun hidle => (by cases hidle), rfl⟩
  | timerReadable =>
      simp only [Option.map_eq_some_iff] at hreact
      obtain ⟨t, htake, heq⟩ := hreact
      cases heq
      exact hinv.acts_due htake

end NativeSocketStreamSnd

end FlowIpc.SocketStream
