import FlowIpc.SocketStream.Frames
import FlowIpc.SocketStream.Rcv

/-!
# The receiver reads the frames in order

`In.Reads r w done part`: of what is on the wire, `w`, the receiver has read exactly `done`, and then the
cells `part` of the next frame; `Midway` says how a wait records these. Each function of the reading
comes to a `Turn`: some more frames were read, at most the last of them a message, which is then what
the user finds. The only errors that come up are those of the socket, the idle timeout, the graceful
close, and the two by which a message does not fit the request.
-/

namespace FlowIpc.SocketStream

open Negotiation PrefixCode

/-- To write into a buffer does not change its size. -/
theorem length_writeAt {buf bytes : Blob} {offset : Nat} (h : offset + bytes.length ≤ buf.length) :
    (writeAt buf offset bytes).length = buf.length := by
  simp only [writeAt, List.length_append, List.length_take, List.length_drop]
  omega

/-- What was there before the offset is kept, and the bytes come after it. -/
theorem take_writeAt (buf bytes : Blob) {offset : Nat} (h : offset ≤ buf.length) :
    (writeAt buf offset bytes).take (offset + bytes.length) = buf.take offset ++ bytes := by
  rw [writeAt, List.take_left']
  simp only [List.length_append, List.length_take]
  omega

namespace In

/-- The errors a receiver may come to. -/
def Expected (e : Err) : Prop :=
  e = .code .receivesFinishedCannotReceive ∨ e = .code .receiverIdleTimeout ∨
    e = .code .messageSizeExceedsUserStorage ∨ e = .code .blobReceiverGotNonBlob ∨
    e = .code .lowLvlTransportHosedCannotReceive ∨ ∃ n, e = .system n

/-- None of them is the code of a request that is outstanding. -/
theorem Expected.ne_wouldBlock {e : Err} (h : Expected e) : (some e : ErrorCode) ≠ wouldBlock := by
  rcases h with rfl | rfl | rfl | rfl | rfl | ⟨n, rfl⟩ <;> simp

/-- What holds of a receiver that has read the frames `done`, wherever it is in the next. -/
structure Sound (r : In) (w : OnWire) (done : Option (List Frame)) : Prop where
  noFailure : r.assertFailed = false
  sockOk : r.peerSocket.Ok
  sent_eq : r.peerSocket.sent = w.sent
  within : Within done w.told
  range_eq : r.protocolNegotiator.range = versionOne
  length_eq : r.targetMetaLength.length = 2
  /-- The version is settled by the first payload. -/
  negotiated : r.pendingErrCode = none →
    (r.protocolNegotiator.negotiatedProtoVer = verUnknown ↔ done = none)
  /-- The graceful close is an error, and that error is the graceful close. -/
  closed : .endSending ∈ frames done → r.pendingErrCode.isSome
  closed_of_err : r.pendingErrCode = Code.receivesFinishedCannotReceive.toErrorCode →
    .endSending ∈ frames done
  expected : ∀ e, r.pendingErrCode = some e → Expected e
  timer : r.idleTimer.Ok
  timer_off : r.idleTimeout = 0 → r.idleTimer.evWaits = 0

/-- The receiver has read `done` and then the cells `part`. -/
structure Reads (r : In) (w : OnWire) (done : Option (List Frame)) (part : List Cell) : Prop
    extends r.Sound w done where
  taken_eq : r.pendingErrCode = none → r.peerSocket.taken = wire done ++ part

/-- The handle that is known of the message being read: none before the version is settled, and then
what has been put in the user's target. -/
def hndlKept (r : In) (q : RcvUserRequest) : NativeHandle :=
  if r.protocolNegotiator.negotiatedProtoVer = verUnknown then none else q.targetHndl.join

/-- What a wait records of the cells of a message that have been read. -/
inductive Midway (r : In) (q : RcvUserRequest) : RcvMsgState → List Cell → Prop where
  /-- There are none. -/
  | msgStart : Midway r q .msgStart []
  /-- There is the first of two, with the handle. -/
  | headPayload (c : Cell) (byte : r.targetMetaLength.take 1 = [c.byte])
      (hndl : c.hndl = r.hndlKept q) : Midway r q (.headPayload 1) [c]
  /-- There are the first two, and some bytes of the blob. -/
  | metaBlobPayload {n : Nat} {part : List Cell}
      (negotiated : r.protocolNegotiator.negotiatedProtoVer ≠ verUnknown)
      (head : part.take 2 = cells q.targetHndl.join r.targetMetaLength)
      (tail : (part.drop 2).map Cell.byte = q.targetMetaBlob.take (r.metaLength - n))
      (left : 0 < n ∧ n ≤ r.metaLength) (fits : r.metaLength ≤ q.targetMetaBlob.length)
      (notPing : r.metaLength ≠ metaBlobLengthPingSentinel) : Midway r q (.metaBlobPayload n) part

/-- It is a matter of the length and the version. -/
theorem Midway.congr {r r' : In} {q : RcvUserRequest} {msgState : RcvMsgState} {part : List Cell}
    (h : r.Midway q msgState part) (hlen : r'.targetMetaLength = r.targetMetaLength)
    (hneg : r'.protocolNegotiator = r.protocolNegotiator) : r'.Midway q msgState part := by
  have hmeta : r'.metaLength = r.metaLength := by rw [metaLength, hlen, metaLength]
  cases h with
  | msgStart => exact .msgStart
  | headPayload c byte hndl =>
      exact .headPayload c (hlen ▸ byte) (by rw [hndl, hndlKept, hndlKept, hneg])
  | metaBlobPayload neg head tail left fits notPing =>
      rw [← hneg] at neg
      rw [← hmeta] at tail left fits notPing
      exact .metaBlobPayload neg (hlen ▸ head) tail left fits notPing

/-- What reading comes to for the request being served, where nothing is being waited for before. -/
inductive Turn (w : OnWire) (done : Option (List Frame)) : Option Result × In → Prop where
  /-- A frame was skipped, and the next is to be read. -/
  | again {r' : In} {q' : RcvUserRequest} (done' : Option (List Frame))
      (reads : r'.Reads w done' []) (noMsg : msgs (frames done') = msgs (frames done))
      (err : r'.pendingErrCode = none) (waits : r'.evWaits = [])
      (request : r'.userRequest = some q') : Turn w done (none, r')
  /-- The last frame was a message. -/
  | got {r' : In} {q' : RcvUserRequest} (done' : Option (List Frame)) (m : Msg)
      (reads : r'.Reads w done' [])
      (oneMsg : msgs (frames done') = msgs (frames done) ++ [m])
      (err : r'.pendingErrCode = none) (waits : r'.evWaits = [])
      (request : r'.userRequest = some q') (hndl : q'.targetHndl.join = m.hndl)
      (blob : q'.targetMetaBlob.take m.blob.length = m.blob) :
      Turn w done (some (none, m.blob.length), r')
  /-- An error was found. -/
  | failed {r' : In} {q' : RcvUserRequest} (done' : Option (List Frame)) (e : Err)
      (sound : r'.Sound w done') (noMsg : msgs (frames done') = msgs (frames done))
      (err : r'.pendingErrCode = some e) (waits : r'.evWaits = [])
      (request : r'.userRequest = some q') : Turn w done (some (some e, 0), r')
  /-- There is nothing more to read, and the socket is waited for. -/
  | wouldBlock {r' : In} {q' : RcvUserRequest} (done' : Option (List Frame))
      (msgState : RcvMsgState) (part : List Cell) (reads : r'.Reads w done' part)
      (noMsg : msgs (frames done') = msgs (frames done)) (err : r'.pendingErrCode = none)
      (waits : r'.evWaits = [msgState]) (request : r'.userRequest = some q')
      (midway : r'.Midway q' msgState part) :
      Turn w done (some (FlowIpc.wouldBlock, 0), r')

variable {r r' : In} {w : OnWire} {done done' : Option (List Frame)} {part : List Cell}
  {q : RcvUserRequest}

/-- Reading may have got further before. -/
theorem Turn.of_noMsg {p : Option Result × In} (h : Turn w done' p)
    (hmsgs : msgs (frames done') = msgs (frames done)) : Turn w done p := by
  cases h with
  | again d reads noMsg err waits request =>
      exact .again d reads (noMsg.trans hmsgs) err waits request
  | got d m reads oneMsg err waits request hndl blob =>
      exact .got d m reads (by rw [oneMsg, hmsgs]) err waits request hndl blob
  | failed d e sound noMsg err waits request =>
      exact .failed d e sound (noMsg.trans hmsgs) err waits request
  | wouldBlock d msgState part reads noMsg err waits request midway =>
      exact .wouldBlock d msgState part reads (noMsg.trans hmsgs) err waits request midway

/-- The request is still there at the end. -/
theorem Turn.request {p : Option Result × In} (h : Turn w done p) :
    ∃ q', p.2.userRequest = some q' := by
  cases h with
  | again _ _ _ _ _ request => exact ⟨_, request⟩
  | got _ _ _ _ _ _ request _ _ => exact ⟨_, request⟩
  | failed _ _ _ _ _ _ request => exact ⟨_, request⟩
  | wouldBlock _ _ _ _ _ _ _ request _ => exact ⟨_, request⟩

/-! ## The parts of it -/

/-- A frame was skipped, and that was no idleness. -/
theorem Reads.again (h : r.Reads w done' []) (hmsgs : msgs (frames done') = msgs (frames done))
    (herr : r.pendingErrCode = none) (hwaits : r.evWaits = []) (hreq : r.userRequest = some q) :
    Turn w done (none, r.notIdle) := by
  rw [notIdle_eq h.timer]
  exact .again done' h hmsgs herr hwaits hreq

/-- A message was read, and that was no idleness. -/
theorem Reads.got {m : Msg} (h : r.Reads w done' [])
    (hmsgs : msgs (frames done') = msgs (frames done) ++ [m]) (herr : r.pendingErrCode = none)
    (hwaits : r.evWaits = []) (hreq : r.userRequest = some q) (hhndl : q.targetHndl.join = m.hndl)
    (hblob : q.targetMetaBlob.take m.blob.length = m.blob) :
    Turn w done (some (none, m.blob.length), r.notIdle) := by
  rw [notIdle_eq h.timer]
  exact .got done' m h hmsgs herr hwaits hreq hhndl hblob

/-- Without an error the graceful close has not been read. -/
theorem Sound.end_not_mem (h : r.Sound w done) (herr : r.pendingErrCode = none) :
    .endSending ∉ frames done := by
  intro hmem
  have hsome := h.closed hmem
  rw [herr] at hsome
  cases hsome

/-- An error that is no graceful close can come at any time. -/
theorem Sound.fail {e : Err} (h : r.Sound w done) (he : Expected e)
    (hne : e ≠ .code .receivesFinishedCannotReceive) :
    ({ r with pendingErrCode := some e } : In).Sound w done :=
  { h with
    negotiated := fun hnone => by cases hnone
    closed := fun _ => rfl
    closed_of_err := fun hcode => absurd (Option.some.inj hcode) hne
    expected := fun e' he' => by
      cases he'
      exact he }

/-- Neither the request nor the waits are part of what was read. -/
theorem Sound.setRequest (h : r.Sound w done) (q : Option RcvUserRequest)
    (ws : List RcvMsgState) :
    ({ r with userRequest := q, evWaits := ws } : In).Sound w done :=
  { h with }

/-- What has been read does not depend on who asks for it, or waits. -/
theorem Reads.setRequest (h : r.Reads w done part) (q : Option RcvUserRequest)
    (ws : List RcvMsgState) :
    ({ r with userRequest := q, evWaits := ws } : In).Reads w done part :=
  { h with }

/-- Reporting an error that there is. -/
theorem emitErr_of {e : Err} (h : r.pendingErrCode = some e) :
    r.emitErr = (some (some e, 0), r) := by
  unfold emitErr
  rw [assert_of (by simp [h])]
  simp only [h]

/-- Asking for the wait, where none was asked for, with what it is to record. -/
theorem Reads.asyncWait {msgState : RcvMsgState} (h : r.Reads w done part)
    (herr : r.pendingErrCode = none) (hwaits : r.evWaits = []) (hreq : r.userRequest = some q)
    (hmid : r.Midway q msgState part) : Turn w done (r.asyncWait msgState) := by
  have hlock : ∀ ws, ({ r with peerSocket := r.peerSocket.lock, evWaits := ws } : In).Reads
      w done part := by
    intro ws
    exact {
      h with
      sockOk := by
        unfold PeerSocket.Ok
        rw [PeerSocket.lock_received, PeerSocket.lock_sent]
        exact h.sockOk
      sent_eq := by
        rw [PeerSocket.lock_sent]
        exact h.sent_eq
      taken_eq := fun _ => by
        rw [PeerSocket.taken, PeerSocket.lock_received, PeerSocket.lock_sent]
        exact h.taken_eq herr }
  unfold In.asyncWait
  simp only
  split
  · exact .wouldBlock done msgState part (hlock _) rfl herr (by simp [hwaits]) hreq
      (hmid.congr rfl rfl)
  · rw [emitErr_of rfl]
    have hfail := (hlock r.evWaits).toSound.fail (e := .code .lowLvlTransportHosedCannotReceive)
      (.inr (.inr (.inr (.inr (.inl rfl))))) (by simp)
    exact .failed done _ hfail rfl rfl hwaits hreq

/-- The cells that were read are the next on the wire. -/
theorem Reads.wire_prefix (h : r.Reads w done part) (herr : r.pendingErrCode = none) :
    ∃ l, Short w.told l ∧ wire done ++ part <+: wire w.told ++ l := by
  obtain ⟨l, hl, hsent⟩ := w.sent_le
  refine ⟨l, hl, ?_⟩
  rw [← h.taken_eq herr]
  rw [← h.sent_eq] at hsent
  exact (PeerSocket.taken_prefix _).trans hsent

/-- After some whole frames, the cells that were read are of the next. -/
theorem Reads.next_frame {ds : List Frame} (h : r.Reads w (some ds) part)
    (herr : r.pendingErrCode = none) :
    ∃ f : Frame, (part <+: f.enc ∨ f.enc <+: part) ∧
      (f.enc <+: part → Within (some (ds ++ [f])) w.told) := by
  obtain ⟨l, hl, hpre⟩ := h.wire_prefix herr
  have hwithin := h.within
  cases htold : w.told with
  | none =>
      rw [htold] at hwithin
      exact hwithin.elim
  | some fs =>
      rw [htold] at hl hpre hwithin
      exact SocketStream.next_frame hl hwithin hpre

/-- A frame that has been read whole, and is not the graceful close. -/
theorem Reads.readFrame {ds : List Frame} {f : Frame} (h : r.Reads w (some ds) f.enc)
    (herr : r.pendingErrCode = none) (hf : Within (some (ds ++ [f])) w.told) (hend : f ≠ .endSending) :
    r.Reads w (some (ds ++ [f])) [] :=
  { h with
    within := hf
    negotiated := fun hnone => by simpa using h.negotiated hnone
    closed := fun hmem => by
      rcases List.mem_append.mp hmem with hmem | hmem
      · exact h.closed hmem
      · exact absurd (List.mem_singleton.mp hmem).symm hend
    closed_of_err := fun hcode => by simp [herr] at hcode
    taken_eq := fun hnone => by
      rw [h.taken_eq hnone, List.append_nil, wire_snoc] }

/-- Reading cells off the socket. -/
theorem Reads.read {got : List Cell} {err : ErrorCode} {p : PeerSocket} {size : Nat}
    (h : r.Reads w done part) (herr : r.pendingErrCode = none)
    (hread : r.peerSocket.rcvNbReadLowLvlPayload size = (got, err, p)) :
    (∃ e, err = some e ∧ got = [] ∧
      ({ r with peerSocket := p, pendingErrCode := some e } : In).Sound w done) ∨
    (err = none ∧ got.length ≤ size ∧
      ({ r with peerSocket := p } : In).Reads w done (part ++ got)) := by
  obtain ⟨hsent, hok, htaken, hlen, hfail⟩ := PeerSocket.rcvNbRead_cases h.sockOk hread
  have hu : ({ r with peerSocket := p } : In).Sound w done :=
    { h.toSound with
      sockOk := hok
      sent_eq := hsent.trans h.sent_eq }
  cases err with
  | none =>
      refine .inr ⟨rfl, hlen, hu, fun _ => ?_⟩
      rw [htaken, h.taken_eq herr, List.append_assoc]
  | some e =>
      obtain ⟨rfl, he⟩ := hfail e rfl
      refine .inl ⟨e, rfl, rfl, ?_⟩
      rcases he with rfl | ⟨n, rfl⟩
      · exact hu.fail (.inr (.inr (.inr (.inr (.inl rfl))))) (by simp)
      · exact hu.fail (.inr (.inr (.inr (.inr (.inr ⟨n, rfl⟩))))) (by simp)

/-- Nothing read leaves the target as it is. -/
theorem store_nil (msgState : RcvMsgState) : r.store msgState [] = r := by
  have hwrite : ∀ buf : Blob, ∀ n, writeAt buf n [] = buf := by
    intro buf n
    simp [writeAt]
  unfold store
  split
  · rw [hwrite]
  · rw [hwrite]
  · simp only [hwrite, Option.map_id']

/-- What reading on comes to, given what it comes to with the cells that are read. -/
theorem Reads.readBlob {onAll : In → Option Result × In} {msgState : Nat → RcvMsgState}
    {size : Nat} (h : r.Reads w done part) (herr : r.pendingErrCode = none)
    (hwaits : r.evWaits = []) (hreq : r.userRequest = some q)
    (hgot : ∀ got p, got.length ≤ size →
      ({ r with peerSocket := p } : In).Reads w done (part ++ got) →
      let u := ({ r with peerSocket := p } : In).store (msgState size) (got.map Cell.byte)
      if got.length = size then Turn w done (onAll u)
      else Turn w done (u.asyncWait (msgState (size - got.length)))) :
    Turn w done (In.readBlobThen onAll msgState r size) := by
  have hreq' : r.userRequest.isSome := by rw [hreq]; rfl
  unfold In.readBlobThen
  simp only [assert_of herr, assert_of hreq']
  rcases hread : r.peerSocket.rcvNbReadLowLvlPayload size with ⟨got, err, p⟩
  simp only
  rcases h.read herr hread with ⟨e, rfl, rfl, hsound⟩ | ⟨rfl, hlen, hreads⟩
  · rw [List.map_nil, store_nil, if_pos (by simp), emitErr_of rfl]
    exact .failed done e hsound rfl rfl hwaits hreq
  · have hturn := hgot got p hlen hreads
    have hnone : ({ r with peerSocket := p, pendingErrCode := none } : In) =
        { r with peerSocket := p } := by rw [← herr]
    rw [hnone, if_neg (by simp)]
    split
    · rename_i hall
      rw [if_pos hall] at hturn
      exact hturn
    · rename_i hpart
      rw [if_neg hpart] at hturn
      exact hturn

/-- The bytes of a blob are put behind those that have been read. -/
theorem take_writeAt_blob (buf bytes : Blob) {len n : Nat} (hn : n ≤ len)
    (hlen : bytes.length ≤ n) (hfits : len ≤ buf.length) :
    (writeAt buf (len - n) bytes).take (len - (n - bytes.length)) =
      buf.take (len - n) ++ bytes := by
  have hsum : len - (n - bytes.length) = len - n + bytes.length := by omega
  rw [hsum, take_writeAt buf bytes (by omega)]

/-- What is read of a blob, that is a message's whose handle and length are known. -/
theorem Reads.readMetaBlob {ds : List Frame} {n : Nat} (h : r.Reads w (some ds) part)
    (herr : r.pendingErrCode = none) (hwaits : r.evWaits = []) (hreq : r.userRequest = some q)
    (hmid : r.Midway q (.metaBlobPayload n) part) :
    Turn w (some ds) (readBlobThen onMetaBlobPayload .metaBlobPayload r n) := by
  cases hmid with
  | metaBlobPayload hneg hhead htail hleft hfits hping =>
    apply h.readBlob herr hwaits hreq
    intro got p hlen hreads
    let q' : RcvUserRequest := { q with
      targetMetaBlob := writeAt q.targetMetaBlob (r.metaLength - n) (got.map Cell.byte) }
    let u : In := { r with peerSocket := p, userRequest := some q' }
    have hstore : ({ r with peerSocket := p } : In).store (.metaBlobPayload n) (got.map Cell.byte) =
        u := by
      simp only [store, hreq]
      rfl
    have hu : u.Reads w (some ds) (part ++ got) := { hreads with }
    -- The frame that all this is of is known by its head.
    obtain ⟨f, hf, htold⟩ := hu.next_frame herr
    have hpart : 2 ≤ part.length := by
      have := congrArg List.length hhead
      rw [List.length_take, length_cells, h.length_eq] at this
      omega
    have hhead' : (part ++ got).take 2 = cells q.targetHndl.join r.targetMetaLength := by
      rw [List.take_append_of_le_length hpart, hhead]
    have hfhead := Frame.head_of_prefix hf hhead' h.length_eq
    obtain ⟨m, rfl⟩ := Frame.eq_msg_of_head (f := f)
      (by rw [hfhead]; exact (Nat.lt_of_lt_of_le hleft.1 hleft.2).ne')
      (by rw [hfhead]; exact hping)
    have hmlen : m.blob.length = r.metaLength := congrArg Prod.snd hfhead
    have hmhndl : m.hndl = q.targetHndl.join := congrArg Prod.fst hfhead
    have htail' : ((part ++ got).drop 2).map Cell.byte =
        q'.targetMetaBlob.take (r.metaLength - (n - got.length)) := by
      have hbytes := take_writeAt_blob q.targetMetaBlob (got.map Cell.byte)
        hleft.2 (by simpa using hlen) hfits
      rw [List.length_map] at hbytes
      rw [hbytes, List.drop_append_of_le_length hpart, List.map_append, htail]
    have hlenq : q'.targetMetaBlob.length = q.targetMetaBlob.length := by
      apply length_writeAt
      rw [List.length_map]
      omega
    have hplen : (part ++ got).length = 2 + (r.metaLength - (n - got.length)) := by
      have := congrArg List.length htail'
      rw [List.length_map, List.length_drop, List.length_take, hlenq] at this
      rw [List.length_append] at this ⊢
      omega
    simp only [hstore]
    split
    · rename_i hall
      rw [hall, Nat.sub_self, Nat.sub_zero] at htail' hplen
      have hwhole : part ++ got = (Frame.msg m).enc :=
        Frame.eq_enc_of_length hf (by rw [hplen, ← hmlen]; rfl)
      rw [hwhole] at hu htail' htold
      have hblob : q'.targetMetaBlob.take m.blob.length = m.blob := by
        rw [hmlen, ← htail', Frame.map_drop_enc]
        rfl
      have hread := hu.readFrame herr (htold List.prefix_rfl) (by simp)
      have hmsgs : msgs (frames (some (ds ++ [.msg m]))) = msgs (frames (some ds)) ++ [m] :=
        msgs_append _ _
      have hmeta : u.notIdle.metaLength = m.blob.length := by
        rw [notIdle_eq hread.timer, hmlen]
        rfl
      rw [onMetaBlobPayload, hmeta]
      exact hread.got hmsgs herr hwaits rfl hmhndl.symm hblob
    · rename_i hrest
      have hmid : u.Midway q' (.metaBlobPayload (n - got.length)) (part ++ got) :=
        .metaBlobPayload hneg hhead' htail' (by
          change 0 < n - got.length ∧ n - got.length ≤ r.metaLength
          omega) (by rw [hlenq]; exact hfits) hping
      exact hu.asyncWait herr hwaits rfl hmid

/-- The version that the sender announces is the one the receiver settles on. -/
theorem Sound.negotiate_one (h : r.Sound w done) (herr : r.pendingErrCode = none)
    (hneg : r.protocolNegotiator.negotiatedProtoVer = verUnknown) :
    r.negotiate 1 =
      { r with protocolNegotiator := { r.protocolNegotiator with negotiatedProtoVer := 1 } } := by
  have hcode : ProtocolNegotiator.emittedCode versionOne 1 = none := by decide
  have hver : ProtocolNegotiator.negotiatedVer versionOne 1 = 1 := by decide
  unfold negotiate
  rw [herr, ProtocolNegotiator.compute_of_unknown _ _ hneg, h.range_eq, hcode, hver]
  simp only
  rw [assert_of trivial, ← herr, ← h.range_eq]

/-- The first payload, where it is the version. -/
theorem Reads.onVersion (h : r.Reads w none part) (herr : r.pendingErrCode = none)
    (hwaits : r.evWaits = []) (hreq : r.userRequest = some q)
    (hpart : part = cells none r.targetMetaLength) : Turn w none r.onHeadPayload := by
  have hreq' : r.userRequest.isSome := by rw [hreq]; rfl
  have hneg := (h.negotiated herr).mpr rfl
  obtain ⟨l, hl, hpre⟩ := h.wire_prefix herr
  change part <+: _ at hpre
  have hlen : part.length = 2 := by rw [hpart, length_cells, h.length_eq]
  obtain ⟨hver, htold⟩ := next_version hl hpre (Nat.le_of_eq hlen)
  have hwhole : part = verCells := hver.eq_of_length (by rw [hlen, length_verCells])
  obtain ⟨fs, hfs⟩ := htold hwhole
  have hbytes : r.targetMetaLength = lengthBytes 1 := by
    rw [hpart] at hwhole
    simpa [verCells] using congrArg (List.map Cell.byte) hwhole
  have hone : toProtoVer r.metaLength = 1 := by
    rw [metaLength, hbytes]
    decide
  unfold In.onHeadPayload
  simp only [assert_of hreq', assert_of herr]
  rw [if_pos hneg, hone, h.negotiate_one herr hneg, if_neg (by simp [herr])]
  let u : In := { r with
    protocolNegotiator := { r.protocolNegotiator with negotiatedProtoVer := 1 } }
  have hu : u.Reads w (some []) [] := {
    h with
    within := by
      rw [hfs]
      exact List.nil_prefix
    negotiated := fun _ => by simp [u, verUnknown]
    taken_eq := fun _ => by
      rw [show u.peerSocket.taken = r.peerSocket.taken from rfl, h.taken_eq herr, hwhole]
      simp [wire] }
  exact hu.again rfl herr hwaits hreq

/-- The first payload of a frame. -/
theorem Reads.onFrame {ds : List Frame} (h : r.Reads w (some ds) part)
    (herr : r.pendingErrCode = none) (hwaits : r.evWaits = []) (hreq : r.userRequest = some q)
    (hpart : part = cells q.targetHndl.join r.targetMetaLength) :
    Turn w (some ds) r.onHeadPayload := by
  have hreq' : r.userRequest.isSome := by rw [hreq]; rfl
  have hneg : r.protocolNegotiator.negotiatedProtoVer ≠ verUnknown := by
    intro hunk
    cases (h.negotiated herr).mp hunk
  have hlen : part.length = 2 := by rw [hpart, length_cells, h.length_eq]
  have hhead : part.take 2 = cells q.targetHndl.join r.targetMetaLength := by
    rw [List.take_of_length_le (Nat.le_of_eq hlen), hpart]
  obtain ⟨f, hf, htold⟩ := h.next_frame herr
  have hfhead := Frame.head_of_prefix hf hhead h.length_eq
  -- A frame without a blob has been read whole.
  have hwhole : f.tail = [] → part = f.enc := by
    intro htail
    exact Frame.eq_enc_of_length hf (by rw [hlen, htail]; rfl)
  have hfhndl : f.head.1 = r.targetHndl.join := by
    rw [hfhead, targetHndl, hreq]
    rfl
  have hflen : f.head.2 = r.metaLength := congrArg Prod.snd hfhead
  unfold In.onHeadPayload
  simp only [assert_of hreq', assert_of herr]
  rw [if_neg hneg]
  split
  · rename_i hping
    obtain rfl := Frame.eq_ping_of_head (hflen.trans hping)
    obtain rfl := hwhole rfl
    have hread := h.readFrame herr (htold List.prefix_rfl) (by simp)
    have hmsgs : msgs (frames (some (ds ++ [.ping]))) = msgs ds := by
      simp [frames, msgs, Frame.msg?]
    exact hread.again hmsgs herr hwaits hreq
  · rename_i hping
    split
    · rename_i hpos
      have hsize : r.userTargetSize = q.targetMetaBlob.length := by
        rw [userTargetSize, hreq]
        rfl
      split
      · rename_i hfits
        rw [hsize] at hfits
        have hmid : r.Midway q (.metaBlobPayload r.metaLength) part := by
          refine .metaBlobPayload hneg hhead ?_ ⟨Nat.pos_of_ne_zero hpos, Nat.le_refl _⟩ hfits hping
          rw [Nat.sub_self, List.drop_of_length_le (Nat.le_of_eq hlen)]
          rfl
        exact h.readMetaBlob herr hwaits hreq hmid
      · have hfail := h.toSound.fail (e := .code .messageSizeExceedsUserStorage)
          (.inr (.inr (.inl rfl))) (by simp)
        exact .failed (some ds) _ hfail rfl rfl hwaits hreq
    · rename_i hzero
      have hzero : r.metaLength = 0 := by simpa using hzero
      rcases Frame.of_head_zero (hflen.trans hzero) with ⟨m, rfl, hnil, hhndl⟩ | ⟨rfl, hhndl⟩
      · rw [if_pos (by rw [← hfhndl]; exact hhndl)]
        obtain rfl := hwhole hnil
        have hread := h.readFrame herr (htold List.prefix_rfl) (by simp)
        have hkept : q.targetHndl.join = m.hndl := (congrArg Prod.fst hfhead).symm
        have hmsgs : msgs (frames (some (ds ++ [.msg m]))) = msgs (frames (some ds)) ++ [m] :=
          msgs_append _ _
        have herr' : r.notIdle.pendingErrCode = none := by rw [notIdle_eq h.timer, herr]
        have hturn := hread.got hmsgs herr hwaits hreq hkept (by simp [hnil])
        rw [hnil] at hturn
        rw [herr']
        exact hturn
      · rw [if_neg (by rw [← hfhndl]; exact not_not.mpr hhndl)]
        obtain rfl := hwhole rfl
        have hsound : ({ r with
            pendingErrCode := Code.receivesFinishedCannotReceive.toErrorCode } : In).Sound w
              (some (ds ++ [.endSending])) := {
          h.toSound with
          within := htold List.prefix_rfl
          negotiated := fun hnone => by cases hnone
          closed := fun _ => rfl
          closed_of_err := fun _ => by simp [frames]
          expected := fun e he => by
            cases he
            exact .inl rfl }
        refine .failed (some (ds ++ [.endSending])) _ hsound ?_ rfl hwaits hreq
        simp [frames, msgs, Frame.msg?]

/-- The first payload, whichever it is. -/
theorem Reads.onHeadPayload (h : r.Reads w done part) (herr : r.pendingErrCode = none)
    (hwaits : r.evWaits = []) (hreq : r.userRequest = some q)
    (hpart : part = cells (r.hndlKept q) r.targetMetaLength) : Turn w done r.onHeadPayload := by
  cases done with
  | none =>
      rw [hndlKept, if_pos ((h.negotiated herr).mpr rfl)] at hpart
      exact h.onVersion herr hwaits hreq hpart
  | some ds =>
      rw [hndlKept, if_neg (fun hunk => by cases (h.negotiated herr).mp hunk)] at hpart
      exact h.onFrame herr hwaits hreq hpart

/-- The second cell of a first payload has no handle. -/
theorem Reads.hndl_second {c c' : Cell} (h : r.Reads w done [c, c'])
    (herr : r.pendingErrCode = none) : c'.hndl = none := by
  have hcells : ∃ hndl n, [c, c'] = cells hndl (lengthBytes n) := by
    cases done with
    | none =>
        obtain ⟨l, hl, hpre⟩ := h.wire_prefix herr
        change [c, c'] <+: _ at hpre
        exact ⟨none, 1, (next_version hl hpre (Nat.le_refl _)).1.eq_of_length rfl⟩
    | some ds =>
        obtain ⟨f, hf, -⟩ := h.next_frame herr
        exact ⟨_, _, Frame.take_two hf (Nat.le_refl _)⟩
  obtain ⟨hndl, n, heq⟩ := hcells
  simp only [lengthBytes, LittleEndian.encode, cells, List.map_cons, List.map_nil,
    List.cons.injEq, and_true] at heq
  rw [heq.2]

/-- Two cells of a first payload are told by their bytes and the handle of the first. -/
theorem Reads.eq_cells {c c' : Cell} (h : r.Reads w done [c, c'])
    (herr : r.pendingErrCode = none) : [c, c'] = cells c.hndl [c.byte, c'.byte] := by
  simp [cells, ← h.hndl_second herr]

/-- The second of the two cells of a first payload. -/
theorem Reads.readHeadPayload {c : Cell} (h : r.Reads w done [c])
    (herr : r.pendingErrCode = none) (hwaits : r.evWaits = []) (hreq : r.userRequest = some q)
    (hmid : r.Midway q (.headPayload 1) [c]) :
    Turn w done (readBlobThen In.onHeadPayload .headPayload r 1) := by
  cases hmid with
  | headPayload _ hbyte hhndl =>
    apply h.readBlob herr hwaits hreq
    intro got p hlen hreads
    rcases got with _ | ⟨c', _ | ⟨c'', got⟩⟩
    · rw [List.map_nil, store_nil]
      exact hreads.asyncWait herr hwaits hreq (.headPayload _ hbyte hhndl)
    · have hbytes : writeAt r.targetMetaLength 1 [c'.byte] = [c.byte, c'.byte] := by
        have hdrop : r.targetMetaLength.drop 2 = [] :=
          List.drop_of_length_le (Nat.le_of_eq h.length_eq)
        simp [writeAt, hbyte, hdrop]
      let u : In := { r with peerSocket := p, targetMetaLength := [c.byte, c'.byte] }
      have hu : u.Reads w done [c, c'] := { hreads with length_eq := rfl }
      have hstore : ({ r with peerSocket := p } : In).store (.headPayload 1)
          (List.map Cell.byte [c']) = u := by
        simp only [store, List.map_cons, List.map_nil]
        rw [hbytes]
      rw [hstore]
      apply hu.onHeadPayload herr hwaits hreq
      rw [hu.eq_cells herr, hhndl]
      rfl
    · simp at hlen

/-- No handle comes with the version. -/
theorem Reads.hndl_version {c : Cell} {rest : List Cell} (h : r.Reads w none (c :: rest))
    (herr : r.pendingErrCode = none) (hlen : (c :: rest).length ≤ 2) : c.hndl = none := by
  obtain ⟨l, hl, hpre⟩ := h.wire_prefix herr
  change c :: rest <+: _ at hpre
  obtain ⟨tail, htail⟩ := (next_version hl hpre hlen).1
  rw [List.cons_append, verCells, lengthBytes, LittleEndian.encode, cells] at htail
  rw [(List.cons.inj htail).1]

/-- The handle read is that of the first cell. -/
theorem Reads.findSome_hndl {c : Cell} {rest : List Cell} (h : r.Reads w done (c :: rest))
    (herr : r.pendingErrCode = none) (hlen : (c :: rest).length ≤ 2) :
    (c :: rest).findSome? Cell.hndl = c.hndl := by
  rcases rest with _ | ⟨c', _ | ⟨c'', rest⟩⟩
  · cases hc : c.hndl <;> simp [hc]
  · have hnone := h.hndl_second herr
    cases hc : c.hndl <;> simp [hc, hnone]
  · simp at hlen

/-- Once the handle is known, the rest of the first payload is to be read. -/
theorem Reads.onHndlKept {c : Cell} {rest : List Cell} (h : r.Reads w done (c :: rest))
    (herr : r.pendingErrCode = none) (hwaits : r.evWaits = []) (hreq : r.userRequest = some q)
    (hlen : (c :: rest).length ≤ 2)
    (hbytes : r.targetMetaLength.take (c :: rest).length = (c :: rest).map Cell.byte)
    (hkept : c.hndl = r.hndlKept q) :
    Turn w done (if (c :: rest).length = 2 then r.onHeadPayload
      else r.asyncWait (.headPayload (2 - (c :: rest).length))) := by
  rcases rest with _ | ⟨c', _ | ⟨c'', rest⟩⟩
  · rw [if_neg (by simp)]
    exact h.asyncWait herr hwaits hreq (.headPayload c hbytes hkept)
  · rw [if_pos (by simp)]
    apply h.onHeadPayload herr hwaits hreq
    have hall : r.targetMetaLength = [c.byte, c'.byte] := by
      rw [← List.take_of_length_le (Nat.le_of_eq h.length_eq)]
      exact hbytes
    rw [h.eq_cells herr, hkept, hall]
  · simp at hlen

/-- The handle is known with the first cell. -/
theorem Reads.onHandleFinalized {c : Cell} {rest : List Cell} (h : r.Reads w done (c :: rest))
    (herr : r.pendingErrCode = none) (hwaits : r.evWaits = []) (hreq : r.userRequest = some q)
    (hlen : (c :: rest).length ≤ 2)
    (hbytes : r.targetMetaLength.take (c :: rest).length = (c :: rest).map Cell.byte) :
    Turn w done (r.onHandleFinalized c.hndl (c :: rest).length) := by
  have hreq' : r.userRequest.isSome := by rw [hreq]; rfl
  have hpos : (c :: rest).length ≠ 0 := by simp
  unfold In.onHandleFinalized
  simp only [assert_of hreq', assert_of herr, assert_of hpos]
  by_cases hneg : r.protocolNegotiator.negotiatedProtoVer = verUnknown
  · obtain rfl := (h.negotiated herr).mp hneg
    have hnone := h.hndl_version herr hlen
    have hkept : c.hndl = r.hndlKept q := by rw [hnone, hndlKept, if_pos hneg]
    rw [if_neg (by simp [hnone]), if_neg (by simp [hnone]), if_pos hneg]
    exact h.onHndlKept herr hwaits hreq hlen hbytes hkept
  · rw [if_neg (by simp [hneg])]
    have htarget : r.targetHndl = q.targetHndl := by
      rw [targetHndl, hreq]
      rfl
    by_cases hnon : c.hndl ≠ none ∧ r.targetHndl = none
    · have hfail := h.toSound.fail (e := .code .blobReceiverGotNonBlob)
        (.inr (.inr (.inr (.inl rfl)))) (by simp)
      rw [if_pos hnon, emitErr_of rfl]
      exact .failed done _ hfail rfl rfl hwaits hreq
    · rw [if_neg hnon, if_neg hneg, hreq]
      rw [htarget] at hnon
      let q' : RcvUserRequest := { q with targetHndl := q.targetHndl.map fun _ => c.hndl }
      let u : In := { r with userRequest := some q' }
      have hu : u.Reads w done (c :: rest) := { h with }
      have hkept : c.hndl = u.hndlKept q' := by
        rw [hndlKept, if_neg (by exact hneg)]
        cases hq : q.targetHndl with
        | none =>
            have hnone : c.hndl = none := by
              by_contra hne
              exact hnon ⟨hne, hq⟩
            simp [q', hq, hnone]
        | some _ => simp [q', hq]
      exact hu.onHndlKept herr hwaits rfl hlen hbytes hkept

/-- The start of a message. -/
theorem Reads.readMsgOnce (h : r.Reads w done []) (herr : r.pendingErrCode = none)
    (hwaits : r.evWaits = []) (hreq : r.userRequest = some q) : Turn w done r.readMsgOnce := by
  unfold In.readMsgOnce
  simp only [assert_of herr]
  rcases hread : r.peerSocket.rcvNbReadLowLvlPayload 2 with ⟨got, err, p⟩
  simp only
  rcases h.read herr hread with ⟨e, rfl, rfl, hsound⟩ | ⟨rfl, hlen, hreads⟩
  · rw [List.map_nil, store_nil, if_pos (by simp), emitErr_of rfl]
    exact .failed done e hsound rfl rfl hwaits hreq
  · have hnone : ({ r with peerSocket := p, pendingErrCode := none } : In) =
        { r with peerSocket := p } := by rw [← herr]
    rw [hnone, if_neg (by simp)]
    rw [List.nil_append] at hreads
    cases got with
    | nil =>
        rw [List.map_nil, store_nil, if_neg (by simp)]
        exact hreads.asyncWait herr hwaits hreq .msgStart
    | cons c rest =>
        rw [if_pos (by simp), hreads.findSome_hndl herr hlen]
        let bytes := writeAt r.targetMetaLength 0 ((c :: rest).map Cell.byte)
        let u : In := { r with peerSocket := p, targetMetaLength := bytes }
        have hu : u.Reads w done (c :: rest) := {
          hreads with
          length_eq := by
            rw [← h.length_eq]
            apply length_writeAt
            rw [List.length_map, h.length_eq, Nat.zero_add]
            exact hlen }
        apply hu.onHandleFinalized herr hwaits hreq hlen
        have htake := take_writeAt r.targetMetaLength ((c :: rest).map Cell.byte) (Nat.zero_le _)
        rw [Nat.zero_add, List.length_map] at htake
        exact htake

/-- Reading a message, and those to be skipped before it. -/
theorem Reads.readMsg (h : r.Reads w done []) (herr : r.pendingErrCode = none)
    (hwaits : r.evWaits = []) (hreq : r.userRequest = some q) :
    Turn w done (some r.readMsg.1, r.readMsg.2) := by
  induction r using In.readMsg.induct generalizing done q with
  | case1 r res r₁ honce =>
      have hturn := h.readMsgOnce herr hwaits hreq
      rw [honce] at hturn
      rw [readMsg_eq, honce]
      exact hturn
  | case2 r r₁ honce ih =>
      have hturn := h.readMsgOnce herr hwaits hreq
      rw [honce] at hturn
      rw [readMsg_eq, honce]
      cases hturn with
      | again done' reads noMsg err waits request =>
          exact (ih reads err waits request).of_noMsg noMsg

/-- Reading on from what a turn has come to. -/
theorem Turn.readOn {p : Option Result × In} (h : Turn w done p) :
    Turn w done (some (readOn p).1, (readOn p).2) := by
  rcases p with ⟨_ | res, r⟩
  · cases h with
    | again done' reads noMsg err waits request =>
        exact (reads.readMsg err waits request).of_noMsg noMsg
  · exact h

/-- Resuming, with what was recorded. -/
theorem Reads.resume {msgState : RcvMsgState} (h : r.Reads w done part)
    (herr : r.pendingErrCode = none) (hwaits : r.evWaits = []) (hreq : r.userRequest = some q)
    (hmid : r.Midway q msgState part) :
    Turn w done (some (r.resume msgState).1, (r.resume msgState).2) := by
  cases hmid with
  | msgStart => exact h.readMsg herr hwaits hreq
  | headPayload c byte hndl =>
      exact (h.readHeadPayload herr hwaits hreq (.headPayload c byte hndl)).readOn
  | metaBlobPayload neg head tail left fits notPing =>
      cases done with
      | none => exact absurd ((h.negotiated herr).mpr rfl) neg
      | some ds =>
          exact (h.readMetaBlob herr hwaits hreq
            (.metaBlobPayload neg head tail left fits notPing)).readOn

end In

/-! ## The receiver -/

/-- A message as the user finds it. -/
def found (m : Msg) : NativeHandle × Blob :=
  (m.hndl, m.blob)

/-- The message that the user of a request finds, if there is no error. -/
def Received.message? (rcvd : Received) : Option (NativeHandle × Blob) :=
  if rcvd.err = none then some (rcvd.hndl.join, rcvd.blob) else none

namespace NativeSocketStreamRcv

/-- Of what is on the wire the receiver has read `done`. While a request is outstanding, what it has
read of the next message is recorded by the only wait; otherwise it has read nothing of it. -/
structure Inv (r : NativeSocketStreamRcv) (w : OnWire) (done : Option (List Frame)) : Prop where
  sound : r.inp.Sound w done
  idle : r.inp.pendingErrCode = none → r.inp.userRequest = none →
    r.inp.Reads w done [] ∧ r.inp.evWaits = []
  busy : ∀ q, r.inp.userRequest = some q → r.inp.pendingErrCode = none ∧
    ∃ msgState part, r.inp.Reads w done part ∧ r.inp.evWaits = [msgState] ∧
      r.inp.Midway q msgState part

variable {r r' : NativeSocketStreamRcv} {w : OnWire} {done : Option (List Frame)}

/-- No assertion has failed. -/
theorem Inv.noFailure (h : r.Inv w done) : r.inp.assertFailed = false :=
  h.sound.noFailure

/-- A receiver with an error has no request any more. -/
theorem Inv.request_eq_none (h : r.Inv w done) (herr : r.inp.pendingErrCode.isSome) :
    r.inp.userRequest = none := by
  cases hreq : r.inp.userRequest with
  | none => rfl
  | some q =>
      rw [(h.busy q hreq).1] at herr
      cases herr

/-- Where there is an error, what has been read does not matter any more. -/
theorem inv_of_err (hsound : r.inp.Sound w done) (herr : r.inp.pendingErrCode.isSome)
    (hreq : r.inp.userRequest = none) : r.Inv w done where
  sound := hsound
  idle hnone := by simp [hnone] at herr
  busy q hq := by simp [hreq] at hq

/-- Between requests. -/
theorem inv_of_idle (hreads : r.inp.Reads w done []) (hwaits : r.inp.evWaits = [])
    (hreq : r.inp.userRequest = none) : r.Inv w done where
  sound := hreads.toSound
  idle _ _ := ⟨hreads, hwaits⟩
  busy q hq := by simp [hreq] at hq

/-- A receiver that has just been constructed has read nothing. -/
theorem inv_ctor {statePeer : Bool} {p : PeerSocket} (hrcvd : p.received = 0)
    (hsent : p.sent = w.sent) : (ctor statePeer p).Inv w none := by
  apply inv_of_idle _ rfl rfl
  exact {
    noFailure := rfl
    sockOk := by
      unfold PeerSocket.Ok
      rw [show (ctor statePeer p).inp.peerSocket = p from rfl, hrcvd]
      exact Nat.zero_le _
    sent_eq := hsent
    within := trivial
    range_eq := rfl
    length_eq := rfl
    negotiated := fun _ => by simp [ctor, ProtocolNegotiator.ctor]
    closed := fun hmem => by simp [frames] at hmem
    closed_of_err := fun hcode => by cases hcode
    expected := fun e he => by cases he
    timer := Timer.ok_inactive
    timer_off := fun _ => rfl
    taken_eq := fun _ => by simp [ctor, PeerSocket.taken, hrcvd, wire] }

/-! ## What is seen of it -/

/-- The message that an answer to a request consists in, if it does. -/
def Obs.delivered? : Obs → Option (NativeHandle × Blob)
  | .returned ok _ rcvd => if ok then rcvd.message? else none
  | .invoked _ rcvd => rcvd.message?

/-- The messages delivered. -/
def delivered (obs : List Obs) : List (NativeHandle × Blob) :=
  obs.filterMap Obs.delivered?

/-- An answer to a request is the graceful close. -/
def Obs.isClose : Obs → Bool
  | .returned ok _ rcvd => ok && rcvd.err = Code.receivesFinishedCannotReceive.toErrorCode
  | .invoked _ rcvd => rcvd.err = Code.receivesFinishedCannotReceive.toErrorCode

/-- What a step shows of the frames read in it: the messages, and the graceful close only once it is
among those read. -/
structure Shows (obs : List Obs) (done done' : Option (List Frame)) : Prop where
  delivered_eq : (msgs (frames done')).map found = (msgs (frames done)).map found ++ delivered obs
  close_mem : ∀ o ∈ obs, o.isClose → .endSending ∈ frames done'
  close_kept : .endSending ∈ frames done → .endSending ∈ frames done'

/-- Where nothing is read nothing need be shown. -/
theorem shows_nil : Shows [] done done :=
  ⟨(List.append_nil _).symm, fun _ ho => (by cases ho), id⟩

/-- A result that is no message and no graceful close shows nothing. -/
theorem shows_of_none {o : Obs} (hmsg : o.delivered? = none) (hclose : o.isClose = false) :
    Shows [o] done done where
  delivered_eq := by simp [delivered, hmsg]
  close_mem o' ho hisclose := by
    rw [List.mem_singleton.mp ho, hclose] at hisclose
    cases hisclose
  close_kept := id

/-- The answer to a request, from what its user finds. -/
theorem shows_single {o : Obs} {rcvd : Received} {done' : Option (List Frame)}
    (hmsg : o.delivered? = rcvd.message?)
    (hclose : o.isClose = (rcvd.err = Code.receivesFinishedCannotReceive.toErrorCode))
    (hnew : (msgs (frames done')).map found =
      (msgs (frames done)).map found ++ rcvd.message?.toList)
    (hend : rcvd.err = Code.receivesFinishedCannotReceive.toErrorCode →
      .endSending ∈ frames done')
    (hkept : .endSending ∈ frames done → .endSending ∈ frames done') : Shows [o] done done' where
  delivered_eq := by
    rw [hnew, delivered, ← hmsg]
    cases ho : o.delivered? with
    | none => simp [ho]
    | some m => simp [ho]
  close_mem o' ho hisclose := by
    rw [List.mem_singleton.mp ho] at hisclose
    exact hend (hclose ▸ hisclose)
  close_kept := hkept

/-- A receiver after a turn of reading: the request is done with unless it would block. -/
def afterTurn (r : NativeSocketStreamRcv) (res : Result) : NativeSocketStreamRcv :=
  if res.1 = wouldBlock then r else r.resetRequest

/-- What a turn of reading leaves, and what the user of the request finds. -/
theorem inv_of_turn {inp : In} {res : Result} (hturn : In.Turn w done (some res, inp)) :
    ∃ done', (afterTurn { r with inp := inp } res).Inv w done' ∧
      (msgs (frames done')).map found = (msgs (frames done)).map found ++
        (received { r with inp := inp } res).message?.toList ∧
      (res.1 = Code.receivesFinishedCannotReceive.toErrorCode → .endSending ∈ frames done') := by
  cases hturn with
  | got done' m reads oneMsg err waits request hndl blob =>
      refine ⟨done', ?_, ?_, fun hcode => by cases hcode⟩
      · rw [afterTurn, if_neg (by simp)]
        exact inv_of_idle (reads.setRequest none inp.evWaits) waits rfl
      · simp [oneMsg, Received.message?, received, In.targetHndl, request, hndl, blob, found]
  | failed done' e sound noMsg err waits request =>
      have hne := (sound.expected e err).ne_wouldBlock
      refine ⟨done', ?_, ?_, fun hcode => sound.closed_of_err (err.trans hcode)⟩
      · rw [afterTurn, if_neg hne]
        apply inv_of_err (sound.setRequest none inp.evWaits) _ rfl
        rw [show (resetRequest { r with inp := inp }).inp.pendingErrCode = inp.pendingErrCode from rfl,
          err]
        rfl
      · simp [noMsg, Received.message?, received]
  | wouldBlock done' msgState part reads noMsg err waits request midway =>
      refine ⟨done', ?_, ?_, fun hcode => by simp at hcode⟩
      · rw [afterTurn, if_pos rfl]
        exact {
          sound := reads.toSound
          idle := fun _ hreq => by
            rw [show inp.userRequest = none from hreq] at request
            cases request
          busy := fun q hq => by
            rw [show inp.userRequest = some q from hq] at request
            cases request
            exact ⟨err, msgState, part, reads, waits, midway⟩ }
      · simp [noMsg, Received.message?, received]

/-! ## Operations -/

/-- A request shows what has been read. -/
theorem Inv.asyncReceiveNativeHandleImpl {hndl : Option NativeHandle} {buf : Blob} {f : Nat}
    {ok : Bool} {rcvd : Received} (h : r.Inv w done)
    (hcall : r.asyncReceiveNativeHandleImpl hndl buf f = (ok, rcvd, r')) :
    ∃ done', r'.Inv w done' ∧ Shows [.returned ok f rcvd] done done' := by
  unfold NativeSocketStreamRcv.asyncReceiveNativeHandleImpl at hcall
  split at hcall
  · cases hcall
    exact ⟨done, h, shows_of_none rfl rfl⟩
  · split at hcall
    · cases hcall
      exact ⟨done, h, shows_of_none rfl rfl⟩
    · rename_i hreq
      have hreq : r.inp.userRequest = none := by simpa using hreq
      split at hcall
      · rename_i herr
        cases hcall
        refine ⟨done, inv_of_err (h.sound.setRequest none r.inp.evWaits) herr rfl, ?_⟩
        apply shows_single rfl (by simp [Obs.isClose])
        · simp [Received.message?, Option.ne_none_iff_isSome.mpr herr]
        · exact h.sound.closed_of_err
        · exact id
      · rename_i herr
        have herr : r.inp.pendingErrCode = none := by simpa using herr
        obtain ⟨hreads, hwaits⟩ := h.idle herr hreq
        let inp₀ : In := { r.inp with userRequest := some ⟨hndl, buf, f⟩ }
        have hturn := (hreads.setRequest (some ⟨hndl, buf, f⟩) r.inp.evWaits).readMsg herr hwaits rfl
        rcases hread : inp₀.readMsg with ⟨res, inp⟩
        change In.Turn w done (some inp₀.readMsg.1, inp₀.readMsg.2) at hturn
        rw [hread] at hturn
        simp only at hcall
        have hread' : In.readMsg { r.inp with userRequest := some ⟨hndl, buf, f⟩ } = (res, inp) := hread
        rw [hread'] at hcall
        obtain ⟨done', hinv, hnew, hend⟩ := inv_of_turn (r := r) hturn
        cases hcall
        refine ⟨done', ?_, shows_single rfl (by simp [Obs.isClose]) hnew hend
          fun hmem => absurd hmem (h.sound.end_not_mem herr)⟩
        rw [ite_not]
        exact hinv

/-- What has been read does not depend on the idle timer. -/
theorem Inv.setTimer {t : Timer} (timeout : Nat) (h : r.Inv w done) (ht : t.Ok)
    (hoff : timeout = 0 → t.evWaits = 0) :
    ({ r with inp := { r.inp with idleTimeout := timeout, idleTimer := t } } :
      NativeSocketStreamRcv).Inv w done where
  sound := { h.sound with timer := ht, timer_off := hoff }
  idle herr hreq := by
    obtain ⟨hreads, hwaits⟩ := h.idle herr hreq
    exact ⟨{ hreads with timer := ht, timer_off := hoff }, hwaits⟩
  busy q hq := by
    obtain ⟨herr, msgState, part, hreads, hwaits, hmid⟩ := h.busy q hq
    exact ⟨herr, msgState, part, { hreads with timer := ht, timer_off := hoff }, hwaits,
      hmid.congr rfl rfl⟩

/-- Asking for the idle timer reads nothing. -/
theorem Inv.idleTimerRun (h : r.Inv w done) (timeout : {n : Nat // 0 < n}) :
    (r.idleTimerRun timeout).2.Inv w done := by
  have hne : timeout.val ≠ 0 := by
    have := timeout.property
    omega
  unfold NativeSocketStreamRcv.idleTimerRun
  rw [assert_of timeout.property]
  simp only
  split
  · exact h
  · split
    · exact h
    · rename_i hoff
      have hzero := h.sound.timer_off (by simpa using hoff)
      split
      · exact h.setTimer timeout.val h.sound.timer fun h₀ => absurd h₀ hne
      · exact h.setTimer timeout.val (h.sound.timer.schedule hzero) fun h₀ => absurd h₀ hne

/-- The idle timeout is an error like another, unless there has been one. -/
theorem Inv.onEvIdleTimerFired {t : Timer} {g : Option (Nat × Received)} (h : r.Inv w done)
    (ht : r.inp.idleTimer.takeEvent = some t)
    (hcall : { r with inp := { r.inp with idleTimer := t } }.onEvIdleTimerFired = (r', g)) :
    r'.Inv w done ∧ Shows (invocations g) done done := by
  obtain ⟨hok, hzero⟩ := h.sound.timer.takeEvent ht
  have hinv := h.setTimer r.inp.idleTimeout hok fun _ => hzero
  unfold NativeSocketStreamRcv.onEvIdleTimerFired at hcall
  simp only at hcall
  split at hcall
  · cases hcall
    exact ⟨hinv, shows_nil⟩
  · cases hcall
    have hfail := hinv.sound.fail (e := .code .receiverIdleTimeout) (.inr (.inl rfl)) (by simp)
    refine ⟨inv_of_err (hfail.setRequest none r.inp.evWaits) rfl rfl, ?_⟩
    unfold invocation
    cases hreq : r.inp.userRequest with
    | none => exact shows_nil
    | some q =>
        apply shows_of_none
        · simp [Obs.delivered?, Received.message?, received]
        · simp [Obs.isClose, received]

/-- The readable event goes on where its wait says. -/
theorem Inv.onEvPeerSocketReadableOrError {msgState : RcvMsgState} {g : Option (Nat × Received)}
    (h : r.Inv w done) (hw : msgState ∈ r.inp.evWaits)
    (hcall : ({ r with inp := { r.inp with evWaits := r.inp.evWaits.erase msgState } } :
      NativeSocketStreamRcv).onEvPeerSocketReadableOrError msgState = (r', g)) :
    ∃ done', r'.Inv w done' ∧ Shows (invocations g) done done' := by
  unfold NativeSocketStreamRcv.onEvPeerSocketReadableOrError at hcall
  split at hcall
  · rename_i herr
    have hreq := h.request_eq_none herr
    rw [assert_of (by exact hreq)] at hcall
    cases hcall
    refine ⟨done, inv_of_err ?_ herr hreq, shows_nil⟩
    exact { h.sound with }
  · rename_i herr
    have herr : r.inp.pendingErrCode = none := by simpa using herr
    have hend₀ := h.sound.end_not_mem herr
    -- Something is waited for, so there is a request, and this is its wait.
    cases hreq : r.inp.userRequest with
    | none =>
        rw [(h.idle herr hreq).2] at hw
        cases hw
    | some q =>
        obtain ⟨-, msgState', part, hreads, hwaits, hmid⟩ := h.busy q hreq
        rw [hwaits] at hw
        obtain rfl := List.mem_singleton.mp hw
        let inp₀ : In := { r.inp with evWaits := r.inp.evWaits.erase msgState }
        have hnone : inp₀.evWaits = [] := by
          change r.inp.evWaits.erase msgState = []
          rw [hwaits]
          simp
        have hreads₀ : inp₀.Reads w done part := { hreads with }
        have hturn := hreads₀.resume herr hnone hreq (hmid.congr rfl rfl)
        rcases hread : inp₀.resume msgState with ⟨res, inp⟩
        rw [hread] at hturn
        obtain ⟨q', hq'⟩ := hturn.request
        obtain ⟨done', hinv, hnew, hend⟩ := inv_of_turn (r := r) hturn
        simp only at hcall
        rw [assert_of (by rw [hreq]; rfl)] at hcall
        have hread' : In.resume { r.inp with evWaits := r.inp.evWaits.erase msgState } msgState = (res, inp) :=
          hread
        rw [hread'] at hcall
        simp only at hcall
        refine ⟨done', ?_⟩
        by_cases hblock : res.1 = wouldBlock
        · rw [if_pos hblock] at hcall
          cases hcall
          rw [afterTurn, if_pos hblock] at hinv
          have hmsg : (received { r with inp := inp } res).message? = none := by
            rw [Received.message?, if_neg]
            rw [show (received { r with inp := inp } res).err = res.1 from rfl, hblock]
            simp
          rw [hmsg] at hnew
          exact ⟨hinv, hnew, fun _ ho => (by cases ho), fun hmem => absurd hmem hend₀⟩
        · rw [if_neg hblock] at hcall
          cases hcall
          rw [afterTurn, if_neg hblock] at hinv
          refine ⟨hinv, ?_⟩
          rw [invocation, show (NativeSocketStreamRcv.inp { r with inp := inp }).userRequest = some q'
            from hq']
          exact shows_single rfl (by simp [Obs.isClose]) hnew hend fun hmem => absurd hmem hend₀

/-- What has been read does not depend on what the socket will answer. -/
theorem Inv.withAnswers (h : r.Inv w done) (ks : List SockAnswer) :
    (r.withAnswers ks).Inv w done where
  sound := { h.sound with }
  idle herr hreq := by
    obtain ⟨hreads, hwaits⟩ := h.idle herr hreq
    exact ⟨{ hreads with }, hwaits⟩
  busy q hq := by
    obtain ⟨herr, msgState, part, hreads, hwaits, hmid⟩ := h.busy q hq
    exact ⟨herr, msgState, part, { hreads with }, hwaits, hmid.congr rfl rfl⟩

/-! ## Steps -/

/-- A step reads some more frames, and shows their messages. -/
theorem Inv.step {i : Input} {ks : List SockAnswer} {obs : List Obs} (h : r.Inv w done)
    (hstep : r.step i ks = some (r', obs)) : ∃ done', r'.Inv w done' ∧ Shows obs done done' := by
  have hr := h.withAnswers ks
  unfold NativeSocketStreamRcv.step at hstep
  generalize r.withAnswers ks = u at hr hstep
  cases i with
  | connected =>
      cases hstep
      exact ⟨done, { hr with }, shows_nil⟩
  | startReceiveNativeHandleOps =>
      cases hstep
      refine ⟨done, ?_, shows_nil⟩
      unfold startReceiveNativeHandleOps
      split
      · exact hr
      · exact { hr with }
  | asyncReceiveNativeHandle hndl buf f =>
      rcases hcall : u.asyncReceiveNativeHandleImpl (some hndl) buf f with ⟨ok, rcvd, r₁⟩
      simp only [asyncReceiveNativeHandle, hcall] at hstep
      cases hstep
      exact hr.asyncReceiveNativeHandleImpl hcall
  | asyncReceiveBlob buf f =>
      rcases hcall : u.asyncReceiveNativeHandleImpl none buf f with ⟨ok, rcvd, r₁⟩
      simp only [asyncReceiveBlob, hcall] at hstep
      cases hstep
      exact hr.asyncReceiveNativeHandleImpl hcall
  | idleTimerRun timeout =>
      cases hstep
      exact ⟨done, hr.idleTimerRun timeout, shows_nil⟩
  | socketReadable msgState =>
      simp only at hstep
      split at hstep
      · rename_i hw
        rcases hcall : NativeSocketStreamRcv.onEvPeerSocketReadableOrError
          { u with inp := { u.inp with evWaits := u.inp.evWaits.erase msgState } } msgState
          with ⟨r₁, g⟩
        simp only [hcall] at hstep
        cases hstep
        exact hr.onEvPeerSocketReadableOrError hw hcall
      · cases hstep
  | timerFires =>
      simp only [Option.map_eq_some_iff] at hstep
      obtain ⟨t, hfire, heq⟩ := hstep
      cases heq
      refine ⟨done, hr.setTimer _ (hr.sound.timer.fire hfire) ?_, shows_nil⟩
      intro hoff
      rw [Timer.fire_evWaits hfire]
      exact hr.sound.timer_off hoff
  | timerReadable =>
      simp only [Option.map_eq_some_iff] at hstep
      obtain ⟨t, htake, heq⟩ := hstep
      rcases hcall : NativeSocketStreamRcv.onEvIdleTimerFired
        { u with inp := { u.inp with idleTimer := t } } with ⟨r₁, g⟩
      rw [hcall] at heq
      cases heq
      exact ⟨done, hr.onEvIdleTimerFired htake hcall⟩

end NativeSocketStreamRcv

end FlowIpc.SocketStream
