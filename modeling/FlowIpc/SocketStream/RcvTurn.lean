import FlowIpc.SocketStream.RcvGrammar
import FlowIpc.SocketStream.RcvInv
import FlowIpc.SocketStream.Accesses

/-!
# What reading comes to, whatever comes in

Nothing is known here of who is at the other end. `In.At r neg part`: without an error so far, the
receiver has read the cells `part` since it began with a payload; if it has settled the version, and
otherwise of all. `Records` says how a wait records them. Each function of the reading comes to a
`Round`: more cells were read, and these give the request what `nextResult` says they do, if handles
come where they may.

Source: `sync_io/detail/native_socket_stream_impl_rcv.cpp`.
-/

namespace FlowIpc.SocketStream

open Negotiation

/-- What a wait captures after some cells of a payload and its blob have been read. -/
def waitFor : List Cell → RcvMsgState
  | [] => .msgStart
  | [_] => .headPayload 1
  | c :: d :: l => .metaBlobPayload (lengthOf c d - l.length)

/-- What a request asks for. -/
def RcvUserRequest.asked (q : RcvUserRequest) : Request where
  hndlWanted := q.targetHndl.isSome
  size := q.targetMetaBlob.length

/-- A version that a receiver can speak: no handle comes with it. -/
structure GoodVersion (c d : Cell) : Prop where
  first : c.hndl = none
  second : d.hndl = none
  pos : 0 < In.toProtoVer (lengthOf c d)

/-- Of a stream, what comes after the version, if that is still to come. -/
def afterVersion (neg : Bool) (l : List Cell) : List Cell :=
  if neg then l else l.drop 2

/-- Cells that have been read decide as much as others do. -/
def Leads (a : Request) (neg : Bool) (l : List Cell) (neg' : Bool) (l' : List Cell) : Prop :=
  ∀ more, HndlsFirst (afterVersion neg (l ++ more)) →
    HndlsFirst (afterVersion neg' (l' ++ more)) ∧
      nextResult a (afterVersion neg (l ++ more)) = nextResult a (afterVersion neg' (l' ++ more))

/-- Cells that have been read are a message, after those to be skipped. -/
def Delivers (a : Request) (neg : Bool) (l : List Cell) (hndl : NativeHandle) (blob : Blob) : Prop :=
  ∀ more, HndlsFirst (afterVersion neg (l ++ more)) →
    HndlsFirst more ∧ nextResult a (afterVersion neg (l ++ more)) = some (.message hndl blob more)

/-- Why there is an error: the socket, the version, or the cells that have been read. -/
def Explains (a : Request) (neg : Bool) (l : List Cell) (alive : Bool) (e : Err) : Prop :=
  alive = false ∨ (neg = false ∧ ∀ c d m, GoodVersion c d → ¬ l <+: c :: d :: m) ∨
    ∀ more, HndlsFirst (afterVersion neg (l ++ more)) →
      nextResult a (afterVersion neg (l ++ more)) = some (.failed e)

/-- Some cells have been read off a socket. -/
structure PeerSocket.Reads (p : PeerSocket) (got : List Cell) (p' : PeerSocket) : Prop where
  sent : p'.sent = p.sent
  taken : p'.taken = p.taken ++ got

/-- A socket that is left alone has had nothing read. -/
theorem PeerSocket.Reads.refl (p : PeerSocket) : p.Reads [] p :=
  ⟨rfl, (List.append_nil _).symm⟩

/-- What is read by one read after the other is read by both. -/
theorem PeerSocket.Reads.trans {p p' p'' : PeerSocket} {got got' : List Cell} (h : p.Reads got p')
    (h' : p'.Reads got' p'') : p.Reads (got ++ got') p'' := by
  refine ⟨h'.sent.trans h.sent, ?_⟩
  rw [h'.taken, h.taken, List.append_assoc]

/-- A socket that has failed to be read is not there any more. -/
theorem PeerSocket.alive_of_rcvNbRead {p p' : PeerSocket} {size : Nat} {got : List Cell} {e : Err}
    (hread : p.rcvNbReadLowLvlPayload size = (got, some e, p')) : p'.alive = false := by
  unfold PeerSocket.rcvNbReadLowLvlPayload at hread
  simp only at hread
  split at hread
  · rcases hsome : p.lock.readSome size with ⟨got₁, _ | e₁, p₁⟩
    · rw [hsome] at hread
      cases hread
    · rw [hsome] at hread
      cases hread
      rfl
  · rename_i halive
    cases hread
    simpa using halive

namespace In

/-- What holds of a receiver whether or not it keeps an error. -/
structure Steady (r : In) : Prop where
  noFailure : r.assertFailed = false
  sockOk : r.peerSocket.Ok
  range_eq : r.protocolNegotiator.range = versionOne
  length_eq : r.targetMetaLength.length = 2
  timer : r.idleTimer.Ok
  timer_off : r.idleTimeout = 0 → r.idleTimer.evWaits = 0

/-- A receiver that knows of no error, and what it has read since it began with a payload. -/
structure At (r : In) (neg : Bool) (part : List Cell) : Prop extends r.Steady where
  err : r.pendingErrCode = none
  negotiated : r.protocolNegotiator.negotiatedProtoVer = verUnknown ↔ neg = false
  fresh : neg = false → r.peerSocket.taken = part
  settled : neg = true → 2 ≤ r.peerSocket.taken.length ∧
    midst r.peerSocket.taken = unfinished part

/-- What a wait records of the cells that have been read. -/
inductive Records (r : In) (q : RcvUserRequest) : Bool → List Cell → Prop where
  /-- There are none. -/
  | start (neg : Bool) : Records r q neg []
  /-- There is the first of two, with the handle. -/
  | head {neg : Bool} {c : Cell} (byte : r.targetMetaLength.take 1 = [c.byte])
      (hndl : neg = true → q.targetHndl.join = c.hndl) : Records r q neg [c]
  /-- There are the first two, and some bytes of the blob. -/
  | blob {c d : Cell} {l : List Cell} (bytes : r.targetMetaLength = [c.byte, d.byte])
      (hndl : d.hndl = none → q.targetHndl.join = c.hndl)
      (tail : l.map Cell.byte = q.targetMetaBlob.take l.length)
      (left : l.length < lengthOf c d) (fits : lengthOf c d ≤ q.targetMetaBlob.length)
      (notPing : lengthOf c d ≠ metaBlobLengthPingSentinel) : Records r q true (c :: d :: l)

/-- It is a matter of the length only. -/
theorem Records.congr {r r' : In} {q : RcvUserRequest} {neg : Bool} {part : List Cell}
    (h : r.Records q neg part) (hlen : r'.targetMetaLength = r.targetMetaLength) :
    r'.Records q neg part := by
  cases h with
  | start => exact .start neg
  | head byte hndl => exact .head (hlen ▸ byte) hndl
  | blob bytes hndl tail left fits notPing =>
      exact .blob (hlen.trans bytes) hndl tail left fits notPing

/-- What reading comes to for a request that asks for `a`, with the handler `f`, where nothing is being
waited for before, the socket is `t`, and `part` has been read since a payload began. -/
inductive Round (t : PeerSocket) (a : Request) (f : Nat) (neg : Bool) (part : List Cell) :
    Option Result × In → Prop where
  /-- Something was skipped, and the next payload is to be read. -/
  | again {r' : In} {q' : RcvUserRequest} (got : List Cell)
      (reads : t.Reads got r'.peerSocket) (begins : r'.At true []) (waits : r'.evWaits = [])
      (request : r'.userRequest = some q') (asked : q'.asked = a) (onDone : q'.onDoneFunc = f)
      (leads : Leads a neg (part ++ got) true []) : Round t a f neg part (none, r')
  /-- The last that was read was a message. -/
  | got {r' : In} {q' : RcvUserRequest} (got : List Cell) (blob : Blob)
      (reads : t.Reads got r'.peerSocket) (begins : r'.At true []) (waits : r'.evWaits = [])
      (request : r'.userRequest = some q') (asked : q'.asked = a) (onDone : q'.onDoneFunc = f)
      (found : q'.targetMetaBlob.take blob.length = blob)
      (delivers : Delivers a neg (part ++ got) q'.targetHndl.join blob) :
      Round t a f neg part (some (none, blob.length), r')
  /-- An error was found. -/
  | failed {r' : In} {q' : RcvUserRequest} (got : List Cell) (e : Err)
      (reads : t.Reads got r'.peerSocket) (steady : r'.Steady)
      (err : r'.pendingErrCode = some e) (genuine : (some e : ErrorCode) ≠ FlowIpc.wouldBlock)
      (waits : r'.evWaits = []) (request : r'.userRequest = some q') (asked : q'.asked = a)
      (onDone : q'.onDoneFunc = f)
      (explains : Explains a neg (part ++ got) r'.peerSocket.alive e) :
      Round t a f neg part (some (some e, 0), r')
  /-- There is nothing more to read, and the socket is waited for. -/
  | wouldBlock {r' : In} {q' : RcvUserRequest} (got : List Cell) (neg' : Bool) (part' : List Cell)
      (reads : t.Reads got r'.peerSocket) (is : r'.At neg' part')
      (waits : r'.evWaits = [waitFor part']) (request : r'.userRequest = some q')
      (asked : q'.asked = a) (onDone : q'.onDoneFunc = f) (records : r'.Records q' neg' part')
      (leads : Leads a neg (part ++ got) neg' part') :
      Round t a f neg part (some (FlowIpc.wouldBlock, 0), r')

variable {r r' : In} {neg neg' : Bool} {part part' got : List Cell} {t t' : PeerSocket} {q : RcvUserRequest}
  {a : Request} {f : Nat} {c d : Cell} {p : Option Result × In}

/-! ## Rounds one after the other -/

/-- The same cells decide the same. -/
theorem leads_refl (a : Request) (neg : Bool) (l : List Cell) : Leads a neg l neg l :=
  fun _ h => ⟨h, rfl⟩

/-- Cells that have been read before. -/
theorem Round.of_read (hread : t.Reads got t') (h : Round t' a f neg (part ++ got) p) :
    Round t a f neg part p := by
  cases h with
  | again got' reads begins waits request asked onDone leads =>
      rw [List.append_assoc] at leads
      exact .again _ (hread.trans reads) begins waits request asked onDone leads
  | got got' blob reads begins waits request asked onDone found delivers =>
      rw [List.append_assoc] at delivers
      exact .got _ blob (hread.trans reads) begins waits request asked onDone found delivers
  | failed got' e reads steady err genuine waits request asked onDone explains =>
      rw [List.append_assoc] at explains
      exact .failed _ e (hread.trans reads) steady err genuine waits request asked onDone explains
  | wouldBlock got' neg' part' reads is waits request asked onDone records leads =>
      rw [List.append_assoc] at leads
      exact .wouldBlock _ neg' part' (hread.trans reads) is waits request asked onDone records leads

/-- Cells that have been skipped before. -/
theorem Round.of_leads (hread : t.Reads got t') (hleads : Leads a neg (part ++ got) true [])
    (h : Round t' a f true [] p) : Round t a f neg part p := by
  -- What the cells after them come to they come to together.
  have hmore : ∀ got' more, HndlsFirst (afterVersion neg (part ++ (got ++ got') ++ more)) →
      HndlsFirst (got' ++ more) ∧ nextResult a (afterVersion neg (part ++ (got ++ got') ++ more)) =
        nextResult a (got' ++ more) := by
    intro got' more hfirst
    have heq : part ++ (got ++ got') ++ more = part ++ got ++ (got' ++ more) := by
      simp only [List.append_assoc]
    rw [heq] at hfirst ⊢
    exact hleads (got' ++ more) hfirst
  cases h with
  | again got' reads begins waits request asked onDone leads =>
      refine .again _ (hread.trans reads) begins waits request asked onDone fun more hfirst => ?_
      obtain ⟨hfirst', heq⟩ := hmore got' more hfirst
      obtain ⟨hfirst'', heq'⟩ := leads more hfirst'
      exact ⟨hfirst'', heq.trans heq'⟩
  | got got' blob reads begins waits request asked onDone found delivers =>
      refine .got _ blob (hread.trans reads) begins waits request asked onDone found
        fun more hfirst => ?_
      obtain ⟨hfirst', heq⟩ := hmore got' more hfirst
      obtain ⟨hfirst'', heq'⟩ := delivers more hfirst'
      exact ⟨hfirst'', heq.trans heq'⟩
  | failed got' e reads steady err genuine waits request asked onDone explains =>
      refine .failed _ e (hread.trans reads) steady err genuine waits request asked onDone ?_
      rcases explains with hdead | ⟨hneg, -⟩ | hall
      · exact .inl hdead
      · cases hneg
      · refine .inr (.inr fun more hfirst => ?_)
        obtain ⟨hfirst', heq⟩ := hmore got' more hfirst
        exact heq.trans (hall more hfirst')
  | wouldBlock got' neg' part' reads is waits request asked onDone records leads =>
      refine .wouldBlock _ neg' part' (hread.trans reads) is waits request asked onDone records
        fun more hfirst => ?_
      obtain ⟨hfirst', heq⟩ := hmore got' more hfirst
      obtain ⟨hfirst'', heq'⟩ := leads more hfirst'
      exact ⟨hfirst'', heq.trans heq'⟩

/-- The request is still there at the end. -/
theorem Round.request (h : Round t a f neg part p) :
    ∃ q', p.2.userRequest = some q' ∧ q'.asked = a ∧ q'.onDoneFunc = f := by
  cases h with
  | again _ _ _ _ request asked onDone _ => exact ⟨_, request, asked, onDone⟩
  | got _ _ _ _ _ request asked onDone _ _ => exact ⟨_, request, asked, onDone⟩
  | failed _ _ _ _ _ _ _ request asked onDone _ => exact ⟨_, request, asked, onDone⟩
  | wouldBlock _ _ _ _ _ _ request asked onDone _ _ => exact ⟨_, request, asked, onDone⟩

/-! ## The parts of it -/

/-- Something was skipped, and that was no idleness. -/
theorem At.again (h : r.At true []) (hwaits : r.evWaits = []) (hreq : r.userRequest = some q)
    (hleads : Leads q.asked neg part true []) :
    Round r.peerSocket q.asked q.onDoneFunc neg part (none, r.notIdle) := by
  rw [notIdle_eq h.timer]
  rw [← List.append_nil part] at hleads
  exact .again [] (.refl _) h hwaits hreq rfl rfl hleads

/-- A message was read, and that was no idleness. -/
theorem At.delivers {blob : Blob} (h : r.At true []) (hwaits : r.evWaits = [])
    (hreq : r.userRequest = some q) (hfound : q.targetMetaBlob.take blob.length = blob)
    (hdelivers : Delivers q.asked neg part q.targetHndl.join blob) :
    Round r.peerSocket q.asked q.onDoneFunc neg part (some (none, blob.length), r.notIdle) := by
  rw [notIdle_eq h.timer]
  rw [← List.append_nil part] at hdelivers
  exact .got [] blob (.refl _) h hwaits hreq rfl rfl hfound hdelivers

/-- An error that the cells that have been read explain. -/
theorem At.fail {e : Err} (h : r.At neg part) (hwaits : r.evWaits = [])
    (hreq : r.userRequest = some q) (he : (some e : ErrorCode) ≠ FlowIpc.wouldBlock)
    (hexplains : Explains q.asked neg part true e) :
    Round r.peerSocket q.asked q.onDoneFunc neg part
      (some (some e, 0), { r with pendingErrCode := some e }) := by
  have hexplains' : Explains q.asked neg (part ++ []) r.peerSocket.alive e := by
    rw [List.append_nil]
    rcases hexplains with hdead | hversion | hall
    · cases hdead
    · exact .inr (.inl hversion)
    · exact .inr (.inr hall)
  exact .failed [] e (.refl _) { h.toSteady with } rfl he hwaits hreq rfl rfl hexplains'

/-- Asking for the wait, with what it is to record. -/
theorem At.asyncWait (h : r.At neg part) (hwaits : r.evWaits = []) (hreq : r.userRequest = some q)
    (hrecords : r.Records q neg part) :
    Round r.peerSocket q.asked q.onDoneFunc neg part (r.asyncWait (waitFor part)) := by
  have htaken : r.peerSocket.lock.taken = r.peerSocket.taken := by
    rw [PeerSocket.taken, PeerSocket.lock_received, PeerSocket.lock_sent]
    rfl
  have hok : r.peerSocket.lock.Ok := by
    unfold PeerSocket.Ok
    rw [PeerSocket.lock_received, PeerSocket.lock_sent]
    exact h.sockOk
  have hreads : r.peerSocket.Reads [] r.peerSocket.lock := by
    refine ⟨PeerSocket.lock_sent, ?_⟩
    rw [htaken, List.append_nil]
  unfold In.asyncWait
  simp only
  split
  · refine .wouldBlock [] neg part hreads ?_ ?_ hreq rfl rfl (hrecords.congr rfl) ?_
    · exact {
        h with
        sockOk := hok
        fresh := fun hneg => htaken.trans (h.fresh hneg)
        settled := fun hneg => by
          rw [htaken]
          exact h.settled hneg }
    · simp [hwaits]
    · rw [List.append_nil]
      exact leads_refl _ _ _
  · rename_i halive
    rw [emitErr_of rfl]
    refine .failed [] _ hreads { h.toSteady with sockOk := hok } rfl (by simp) hwaits hreq rfl rfl ?_
    exact .inl (by simpa using halive)

/-- Reading cells off the socket. -/
theorem At.read {err : ErrorCode} {p : PeerSocket} {size : Nat} (h : r.At neg part)
    (hread : r.peerSocket.rcvNbReadLowLvlPayload size = (got, err, p)) :
    (∃ e, err = some e ∧ got = [] ∧ r.peerSocket.Reads [] p ∧ p.alive = false ∧
      (some e : ErrorCode) ≠ FlowIpc.wouldBlock ∧
      ({ r with peerSocket := p, pendingErrCode := some e } : In).Steady) ∨
    (err = none ∧ got.length ≤ size ∧ r.peerSocket.Reads got p ∧
      ({ r with peerSocket := p } : In).At neg (part ++ got)) := by
  obtain ⟨hsent, hok, htaken, hlen, hfail⟩ := PeerSocket.rcvNbRead_cases h.sockOk hread
  have hu : ({ r with peerSocket := p } : In).Steady := { h.toSteady with sockOk := hok }
  cases err with
  | none =>
      refine .inr ⟨rfl, hlen, ⟨hsent, htaken⟩, { h with sockOk := hok, fresh := ?_, settled := ?_ }⟩
      · intro hneg
        rw [htaken, h.fresh hneg]
      · intro hneg
        obtain ⟨hle, hmidst⟩ := h.settled hneg
        rw [midst, if_neg (Nat.not_lt.mpr hle)] at hmidst
        have hle' : 2 ≤ (r.peerSocket.taken ++ got).length := by
          rw [List.length_append]
          omega
        rw [htaken]
        refine ⟨hle', ?_⟩
        rw [midst, if_neg (Nat.not_lt.mpr hle'), List.drop_append_of_le_length hle, unfinished_append,
          hmidst, ← unfinished_append]
  | some e =>
      obtain ⟨rfl, he⟩ := hfail e rfl
      refine .inl ⟨e, rfl, rfl, ⟨hsent, htaken⟩, PeerSocket.alive_of_rcvNbRead hread, ?_, { hu with }⟩
      rcases he with rfl | ⟨n, rfl⟩
      · simp
      · simp

/-- What reading on comes to, given what it comes to with the cells that are read. -/
theorem At.readBlob {onAll : In → Option Result × In} {msgState : Nat → RcvMsgState} {size : Nat}
    (h : r.At neg part) (hwaits : r.evWaits = []) (hreq : r.userRequest = some q)
    (hgot : ∀ got p, got.length ≤ size →
      ({ r with peerSocket := p } : In).At neg (part ++ got) →
      let u := ({ r with peerSocket := p } : In).store (msgState size) (got.map Cell.byte)
      if got.length = size then Round p q.asked q.onDoneFunc neg (part ++ got) (onAll u)
      else Round p q.asked q.onDoneFunc neg (part ++ got)
        (u.asyncWait (msgState (size - got.length)))) :
    Round r.peerSocket q.asked q.onDoneFunc neg part
      (In.readBlobThen onAll msgState r size) := by
  have hreq' : r.userRequest.isSome := by rw [hreq]; rfl
  unfold In.readBlobThen
  simp only [assert_of h.err, assert_of hreq']
  rcases hread : r.peerSocket.rcvNbReadLowLvlPayload size with ⟨got, err, p⟩
  simp only
  rcases h.read hread with ⟨e, rfl, rfl, hreads, hdead, he, hsteady⟩ | ⟨rfl, hlen, hreads, hat⟩
  · rw [List.map_nil, store_nil, if_pos (by simp), emitErr_of rfl]
    exact .failed [] e hreads hsteady rfl he hwaits hreq rfl rfl (.inl hdead)
  · have hround := hgot got p hlen hat
    have hnone : ({ r with peerSocket := p, pendingErrCode := none } : In) =
        { r with peerSocket := p } := by rw [← h.err]
    simp only at hround
    rw [hnone, if_neg (by simp)]
    split
    · rename_i hall
      rw [if_pos hall] at hround
      exact hround.of_read hreads
    · rename_i hpart
      rw [if_neg hpart] at hround
      exact hround.of_read hreads

/-- A handle that has been kept is wanted. -/
theorem accepts (h : q.targetHndl.join = c.hndl) :
    ¬ (c.hndl ≠ none ∧ q.asked.hndlWanted = false) := by
  rintro ⟨hne, hwanted⟩
  have hnone : q.targetHndl = none := by simpa [RcvUserRequest.asked] using hwanted
  rw [hnone] at h
  exact hne h.symm

/-- A message that has been read whole, of which the receiver has kept the handle. -/
theorem delivers_blob {l : List Cell} (hhndl : d.hndl = none → q.targetHndl.join = c.hndl)
    (hlen : l.length = lengthOf c d) (hne : lengthOf c d ≠ 0)
    (hfits : lengthOf c d ≤ q.targetMetaBlob.length)
    (hping : lengthOf c d ≠ metaBlobLengthPingSentinel) :
    Delivers q.asked true (c :: d :: l) q.targetHndl.join (l.map Cell.byte) := by
  intro more hfirst
  rw [afterVersion, if_pos rfl, List.cons_append, List.cons_append] at hfirst ⊢
  obtain ⟨hd, hrest⟩ := hndlsFirst_cons.mp hfirst
  have hkept := hhndl hd
  rw [blobLength, if_neg hping, ← hlen, List.drop_left] at hrest
  refine ⟨hrest, ?_⟩
  have hsize : ¬ q.asked.size < lengthOf c d := Nat.not_lt.mpr hfits
  have hmore : ¬ (l ++ more).length < lengthOf c d := by
    rw [List.length_append]
    omega
  rw [nextResult_of_fits (accepts hkept), if_neg hping, if_neg hne, if_neg hsize, if_neg hmore, hkept,
    ← hlen, List.take_left, List.drop_left]

/-- A payload and its blob have been read whole. -/
theorem At.whole {l : List Cell} (h : r.At true (c :: d :: l))
    (hlen : l.length = blobLength (lengthOf c d)) : r.At true [] :=
  { h with
    fresh := fun hneg => by cases hneg
    settled := fun hneg => by
      obtain ⟨hle, hmidst⟩ := h.settled hneg
      rw [unfinished_of_le (Nat.le_of_eq hlen.symm), ← hlen, List.drop_length] at hmidst
      exact ⟨hle, hmidst⟩ }

/-- What is read of a blob, that is a message's whose handle and length are known. -/
theorem At.readMetaBlob {l : List Cell} (h : r.At true (c :: d :: l)) (hwaits : r.evWaits = [])
    (hreq : r.userRequest = some q) (hrecords : r.Records q true (c :: d :: l)) :
    Round r.peerSocket q.asked q.onDoneFunc true (c :: d :: l)
      (readBlobThen onMetaBlobPayload .metaBlobPayload r (lengthOf c d - l.length)) := by
  cases hrecords with
  | blob hbytes hhndl htail hleft hfits hping =>
    apply h.readBlob hwaits hreq
    intro got p hlen hat
    have hmeta : r.metaLength = lengthOf c d := by rw [metaLength, hbytes, lengthOf]
    have hoffset : r.metaLength - (lengthOf c d - l.length) = l.length := by omega
    let q' : RcvUserRequest := { q with
      targetMetaBlob := writeAt q.targetMetaBlob l.length (got.map Cell.byte) }
    let u : In := { r with peerSocket := p, userRequest := some q' }
    have hstore : ({ r with peerSocket := p } : In).store
        (.metaBlobPayload (lengthOf c d - l.length)) (got.map Cell.byte) = u := by
      change ({ r with
        peerSocket := p
        userRequest := r.userRequest.map fun request =>
          { request with
            targetMetaBlob := writeAt request.targetMetaBlob
              (r.metaLength - (lengthOf c d - l.length)) (got.map Cell.byte) } } : In) = u
      rw [hoffset, hreq]
      rfl
    have hu : u.At true (c :: d :: (l ++ got)) := { hat with }
    have hlenq : q'.targetMetaBlob.length = q.targetMetaBlob.length := by
      apply length_writeAt
      rw [List.length_map]
      omega
    have hasked : q'.asked = q.asked := by
      rw [RcvUserRequest.asked, RcvUserRequest.asked, hlenq]
    have htail' : (l ++ got).map Cell.byte = q'.targetMetaBlob.take (l ++ got).length := by
      have hbytes' := take_writeAt q.targetMetaBlob (got.map Cell.byte)
        (show l.length ≤ q.targetMetaBlob.length by omega)
      rw [List.length_map] at hbytes'
      rw [List.length_append, hbytes', List.map_append, htail]
    have hmetau : u.metaLength = lengthOf c d := hmeta
    simp only [hstore]
    rw [List.cons_append, List.cons_append, ← hasked]
    change if got.length = lengthOf c d - l.length then
      Round u.peerSocket q'.asked q'.onDoneFunc true _ _ else
      Round u.peerSocket q'.asked q'.onDoneFunc true _ _
    split
    · rename_i hall
      have hfull : (l ++ got).length = lengthOf c d := by
        rw [List.length_append]
        omega
      have hwhole : u.At true [] := by
        apply hu.whole
        rw [blobLength, if_neg hping, hfull]
      have hdelivers : Delivers q'.asked true (c :: d :: (l ++ got)) q'.targetHndl.join
          ((l ++ got).map Cell.byte) :=
        delivers_blob hhndl hfull (by omega) (by rw [hlenq]; exact hfits) hping
      have hfound : q'.targetMetaBlob.take ((l ++ got).map Cell.byte).length =
          (l ++ got).map Cell.byte := by
        rw [List.length_map]
        exact htail'.symm
      have hround := hwhole.delivers (q := q') hwaits rfl hfound hdelivers
      have hidle : u.notIdle.metaLength = ((l ++ got).map Cell.byte).length := by
        rw [notIdle_eq hwhole.timer, List.length_map, hfull]
        exact hmetau
      rw [onMetaBlobPayload, hidle]
      exact hround
    · rename_i hrest
      have hleft' : lengthOf c d - l.length - got.length = lengthOf c d - (l ++ got).length := by
        rw [List.length_append]
        omega
      have hrecords : u.Records q' true (c :: d :: (l ++ got)) := by
        refine .blob hbytes hhndl htail' ?_ (by rw [hlenq]; exact hfits) hping
        rw [List.length_append]
        omega
      rw [hleft']
      exact hu.asyncWait hwaits rfl hrecords

/-- What computing the version leaves behind, where it has not been settled. -/
theorem negotiate_eq (h : r.At false part) (ver : Int) :
    r.negotiate ver =
      { r with
        protocolNegotiator := { r.protocolNegotiator with
          negotiatedProtoVer := ProtocolNegotiator.negotiatedVer versionOne ver }
        pendingErrCode := ProtocolNegotiator.emittedCode versionOne ver } := by
  unfold negotiate
  rw [h.err, ProtocolNegotiator.compute_of_unknown _ _ (h.negotiated.mpr rfl), h.range_eq]
  simp only
  rw [assert_of trivial, h.range_eq]

/-- A version that is not one is an error. -/
theorem negotiate_of_not_pos {ver : Int} (h : r.At false part) (hver : ¬ 0 < ver) :
    ∃ v : Int, r.negotiate ver =
      { r with
        protocolNegotiator := { r.protocolNegotiator with negotiatedProtoVer := v }
        pendingErrCode := Code.protocolNegotiationOpposingVerInvalid.toErrorCode } := by
  refine ⟨ProtocolNegotiator.negotiatedVer versionOne ver, ?_⟩
  rw [negotiate_eq h, ProtocolNegotiator.emittedCode, if_pos (Int.not_lt.mp hver)]

/-- Any version is spoken that is one. -/
theorem negotiate_of_pos {ver : Int} (h : r.At false part) (hver : 0 < ver) :
    ∃ v : Int, v ≠ verUnknown ∧ r.negotiate ver =
      { r with
        protocolNegotiator := { r.protocolNegotiator with negotiatedProtoVer := v }
        pendingErrCode := none } := by
  refine ⟨ProtocolNegotiator.negotiatedVer versionOne ver,
    ProtocolNegotiator.negotiatedVer_ne_unknown _ _, ?_⟩
  rw [negotiate_eq h, ProtocolNegotiator.emittedCode, if_neg (Int.not_le.mpr hver), if_pos]
  exact .inr hver

/-- The version has been read, and is settled. -/
theorem At.settle {ver : Int} (h : r.At false [c, d]) (hver : ver ≠ verUnknown) :
    ({ r with
      protocolNegotiator := { r.protocolNegotiator with negotiatedProtoVer := ver }
      pendingErrCode := none } : In).At true [] :=
  { h with
    err := rfl
    negotiated := by simpa using hver
    fresh := fun hneg => by cases hneg
    settled := fun _ => by
      simp only
      rw [h.fresh rfl]
      refine ⟨Nat.le_refl _, ?_⟩
      rw [midst, if_neg (by simp)]
      rfl }

/-- The first payload, where it is the version. -/
theorem At.onVersion (h : r.At false [c, d]) (hwaits : r.evWaits = []) (hreq : r.userRequest = some q)
    (hbytes : r.targetMetaLength = [c.byte, d.byte]) :
    Round r.peerSocket q.asked q.onDoneFunc false [c, d] r.onHeadPayload := by
  have hreq' : r.userRequest.isSome := by rw [hreq]; rfl
  have hmeta : r.metaLength = lengthOf c d := by rw [metaLength, hbytes, lengthOf]
  have htaken := h.fresh rfl
  unfold In.onHeadPayload
  simp only [assert_of hreq', assert_of h.err]
  rw [if_pos (h.negotiated.mpr rfl), hmeta]
  by_cases hpos : 0 < toProtoVer (lengthOf c d)
  · obtain ⟨ver, hver, heq⟩ := negotiate_of_pos h hpos
    rw [heq, if_neg (by simp)]
    refine (h.settle hver).again hwaits hreq fun more hfirst => ?_
    have hmore : afterVersion false ([c, d] ++ more) = afterVersion true ([] ++ more) := rfl
    rw [hmore] at hfirst ⊢
    exact ⟨hfirst, rfl⟩
  · obtain ⟨ver, heq⟩ := negotiate_of_not_pos h hpos
    rw [heq, if_pos (by rfl)]
    refine .failed [] _ (.refl _) { h.toSteady with } rfl (by simp) hwaits hreq rfl rfl ?_
    refine .inr (.inl ⟨rfl, fun c' d' m hgood hpre => ?_⟩)
    simp only [List.append_nil, List.cons_prefix_cons] at hpre
    obtain ⟨rfl, rfl, -⟩ := hpre
    exact hpos hgood.pos

/-- The first payload of a message, or of what is to be skipped. -/
theorem At.onFrame (h : r.At true [c, d]) (hwaits : r.evWaits = []) (hreq : r.userRequest = some q)
    (hbytes : r.targetMetaLength = [c.byte, d.byte])
    (hhndl : d.hndl = none → q.targetHndl.join = c.hndl) :
    Round r.peerSocket q.asked q.onDoneFunc true [c, d] r.onHeadPayload := by
  have hreq' : r.userRequest.isSome := by rw [hreq]; rfl
  have hmeta : r.metaLength = lengthOf c d := by rw [metaLength, hbytes, lengthOf]
  have hneg : r.protocolNegotiator.negotiatedProtoVer ≠ verUnknown := by
    intro hunk
    cases h.negotiated.mp hunk
  have hsize : r.userTargetSize = q.targetMetaBlob.length := by
    rw [userTargetSize, hreq]
    rfl
  have htarget : r.targetHndl = q.targetHndl := by
    rw [targetHndl, hreq]
    rfl
  -- What the two bytes decide, if no handle came with the second.
  have hdecides : ∀ more, HndlsFirst (afterVersion true ([c, d] ++ more)) →
      q.targetHndl.join = c.hndl ∧ HndlsFirst (more.drop (blobLength (lengthOf c d))) ∧
        ¬ (c.hndl ≠ none ∧ q.asked.hndlWanted = false) := by
    intro more hfirst
    obtain ⟨hd, hrest⟩ := hndlsFirst_cons.mp hfirst
    exact ⟨hhndl hd, hrest, accepts (hhndl hd)⟩
  unfold In.onHeadPayload
  simp only [assert_of hreq', assert_of h.err]
  rw [if_neg hneg, hmeta, hsize, htarget]
  split
  · rename_i hping
    have hwhole : r.At true [] := h.whole (by rw [blobLength, if_pos hping]; rfl)
    refine hwhole.again hwaits hreq fun more hfirst => ?_
    obtain ⟨-, hrest, haccepts⟩ := hdecides more hfirst
    rw [blobLength, if_pos hping, List.drop_zero] at hrest
    refine ⟨hrest, ?_⟩
    change nextResult q.asked (c :: d :: more) = nextResult q.asked more
    rw [nextResult_of_fits haccepts, if_pos hping]
  · rename_i hping
    split
    · rename_i hne
      split
      · rename_i hfits
        have hrecords : r.Records q true [c, d] :=
          .blob hbytes hhndl rfl (Nat.pos_of_ne_zero hne) hfits hping
        have hround := h.readMetaBlob hwaits hreq hrecords
        rw [List.length_nil, Nat.sub_zero] at hround
        exact hround
      · rename_i hover
        refine h.fail (e := .code .messageSizeExceedsUserStorage) hwaits hreq (by simp) ?_
        refine .inr (.inr fun more hfirst => ?_)
        obtain ⟨-, -, haccepts⟩ := hdecides more hfirst
        change nextResult q.asked (c :: d :: more) = _
        rw [nextResult_of_fits haccepts, if_neg hping, if_neg hne,
          if_pos (show q.asked.size < _ from Nat.not_le.mp hover)]
    · rename_i hzero
      have hzero : lengthOf c d = 0 := by simpa using hzero
      split
      · rename_i hsome
        have hwhole : r.At true [] := h.whole (by rw [blobLength, if_neg hping, hzero]; rfl)
        have hdelivers : Delivers q.asked true [c, d] q.targetHndl.join [] := by
          intro more hfirst
          obtain ⟨hkept, hrest, haccepts⟩ := hdecides more hfirst
          rw [blobLength, if_neg hping, hzero, List.drop_zero] at hrest
          refine ⟨hrest, ?_⟩
          change nextResult q.asked (c :: d :: more) = _
          rw [hkept] at hsome ⊢
          rw [nextResult_of_fits haccepts, if_neg hping, if_pos hzero, if_pos hsome]
        have herr : r.notIdle.pendingErrCode = none := by rw [notIdle_eq h.timer, h.err]
        rw [herr]
        exact hwhole.delivers hwaits hreq rfl hdelivers
      · rename_i hnone
        have hnone : q.targetHndl.join = none := by simpa using hnone
        refine h.fail (e := .code .receivesFinishedCannotReceive) hwaits hreq (by simp) ?_
        refine .inr (.inr fun more hfirst => ?_)
        obtain ⟨hkept, -, haccepts⟩ := hdecides more hfirst
        change nextResult q.asked (c :: d :: more) = _
        rw [nextResult_of_fits haccepts, if_neg hping, if_pos hzero, if_neg]
        rw [← hkept, hnone]
        exact not_not.mpr rfl

/-- The first payload, whichever it is. -/
theorem At.onHeadPayload (h : r.At neg [c, d]) (hwaits : r.evWaits = []) (hreq : r.userRequest = some q)
    (hbytes : r.targetMetaLength = [c.byte, d.byte])
    (hhndl : neg = true → d.hndl = none → q.targetHndl.join = c.hndl) :
    Round r.peerSocket q.asked q.onDoneFunc neg [c, d] r.onHeadPayload := by
  cases neg with
  | false => exact h.onVersion hwaits hreq hbytes
  | true => exact h.onFrame hwaits hreq hbytes (hhndl rfl)

/-- The second of the two bytes of a first payload. -/
theorem At.readHeadPayload (h : r.At neg [c]) (hwaits : r.evWaits = []) (hreq : r.userRequest = some q)
    (hrecords : r.Records q neg [c]) :
    Round r.peerSocket q.asked q.onDoneFunc neg [c]
      (readBlobThen In.onHeadPayload .headPayload r 1) := by
  cases hrecords with
  | head hbyte hhndl =>
    apply h.readBlob hwaits hreq
    intro got p hlen hat
    rcases got with _ | ⟨d, _ | ⟨d', got⟩⟩
    · rw [List.map_nil, store_nil]
      have hround := hat.asyncWait hwaits hreq (.head hbyte hhndl)
      exact hround
    · have hbytes : writeAt r.targetMetaLength 1 [d.byte] = [c.byte, d.byte] := by
        have hdrop : r.targetMetaLength.drop 2 = [] :=
          List.drop_of_length_le (Nat.le_of_eq h.length_eq)
        simp [writeAt, hbyte, hdrop]
      let u : In := { r with peerSocket := p, targetMetaLength := [c.byte, d.byte] }
      have hu : u.At neg [c, d] := { hat with length_eq := rfl }
      have hstore : ({ r with peerSocket := p } : In).store (.headPayload 1)
          (List.map Cell.byte [d]) = u := by
        simp only [store, List.map_cons, List.map_nil]
        rw [hbytes]
      rw [hstore]
      exact hu.onHeadPayload hwaits hreq rfl fun hneg _ => hhndl hneg
    · simp at hlen

/-- The handle read is that of the first cell, if handles come where they may. -/
theorem findSome_hndl {rest : List Cell} (hlen : (c :: rest).length ≤ 2)
    (hnone : ∀ d ∈ rest, d.hndl = none) : (c :: rest).findSome? Cell.hndl = c.hndl := by
  rcases rest with _ | ⟨d, _ | ⟨d', rest⟩⟩
  · cases hc : c.hndl <;> simp [hc]
  · have hd := hnone d List.mem_cons_self
    cases hc : c.hndl <;> simp [hc, hd]
  · simp at hlen

/-- Once the handle is known, the rest of the first payload is to be read. -/
theorem At.onHndlKept {rest : List Cell} (h : r.At neg (c :: rest)) (hwaits : r.evWaits = [])
    (hreq : r.userRequest = some q) (hlen : (c :: rest).length ≤ 2)
    (hbytes : r.targetMetaLength.take (c :: rest).length = (c :: rest).map Cell.byte)
    (hkept : neg = true → (∀ d ∈ rest, d.hndl = none) → q.targetHndl.join = c.hndl) :
    Round r.peerSocket q.asked q.onDoneFunc neg (c :: rest)
      (if (c :: rest).length = 2 then r.onHeadPayload
        else r.asyncWait (.headPayload (2 - (c :: rest).length))) := by
  rcases rest with _ | ⟨d, _ | ⟨d', rest⟩⟩
  · rw [if_neg (by simp)]
    exact h.asyncWait hwaits hreq (.head hbytes fun hneg => hkept hneg fun _ hd => (by cases hd))
  · rw [if_pos (by simp)]
    apply h.onHeadPayload hwaits hreq
    · rw [← List.take_of_length_le (Nat.le_of_eq h.length_eq)]
      exact hbytes
    · intro hneg hd
      apply hkept hneg
      intro d' hd'
      rw [List.mem_singleton.mp hd']
      exact hd
  · simp at hlen

/-- The handle is known with the first cells. -/
theorem At.onHandleFinalized {rest : List Cell} (h : r.At neg (c :: rest)) (hwaits : r.evWaits = [])
    (hreq : r.userRequest = some q) (hlen : (c :: rest).length ≤ 2)
    (hbytes : r.targetMetaLength.take (c :: rest).length = (c :: rest).map Cell.byte) :
    Round r.peerSocket q.asked q.onDoneFunc neg (c :: rest)
      (r.onHandleFinalized ((c :: rest).findSome? Cell.hndl) (c :: rest).length) := by
  have hreq' : r.userRequest.isSome := by rw [hreq]; rfl
  have hpos : (c :: rest).length ≠ 0 := by simp
  have hfound := findSome_hndl hlen
  generalize (c :: rest).findSome? Cell.hndl = hndl at hfound
  unfold In.onHandleFinalized
  simp only [assert_of hreq', assert_of h.err, assert_of hpos]
  cases neg with
  | false =>
      have hunk := h.negotiated.mpr rfl
      by_cases hhndl : hndl = none
      · rw [if_neg (by simp [hhndl]), if_neg (by simp [hhndl]), if_pos hunk]
        exact h.onHndlKept hwaits hreq hlen hbytes fun hneg => by cases hneg
      · obtain ⟨ver, heq⟩ := negotiate_of_not_pos h (show ¬ 0 < verUnknown by decide)
        rw [if_pos ⟨hunk, hhndl⟩, heq, emitErr_of rfl]
        refine .failed [] _ (.refl _) { h.toSteady with } rfl (by simp) hwaits hreq rfl
          rfl ?_
        refine .inr (.inl ⟨rfl, fun c' d' m hgood hpre => hhndl ?_⟩)
        -- A good version has no handles.
        rw [List.append_nil, List.cons_prefix_cons] at hpre
        obtain ⟨rfl, hpre⟩ := hpre
        rw [hfound, hgood.first]
        rcases rest with _ | ⟨d, _ | ⟨e, rest⟩⟩
        · simp
        · rw [List.cons_prefix_cons] at hpre
          obtain ⟨rfl, -⟩ := hpre
          simpa using hgood.second
        · simp at hlen
  | true =>
      have hneg : r.protocolNegotiator.negotiatedProtoVer ≠ verUnknown := by
        intro hunk
        cases h.negotiated.mp hunk
      have htarget : r.targetHndl = q.targetHndl := by
        rw [targetHndl, hreq]
        rfl
      rw [if_neg (by simp [hneg]), htarget]
      by_cases hnon : hndl ≠ none ∧ q.targetHndl = none
      · rw [if_pos hnon, emitErr_of rfl]
        refine h.fail (e := .code .blobReceiverGotNonBlob) hwaits hreq (by simp) ?_
        refine .inr (.inr fun more hfirst => ?_)
        change HndlsFirst (c :: rest ++ more) at hfirst
        have hnone : ∀ d ∈ rest, d.hndl = none := by
          rcases rest with _ | ⟨d, _ | ⟨d', rest⟩⟩
          · simp
          · intro d' hd'
            rw [List.mem_singleton.mp hd']
            exact (hndlsFirst_cons.mp hfirst).1
          · simp at hlen
        rw [hfound hnone] at hnon
        apply nextResult_of_nonBlob
        refine ⟨hnon.1, ?_⟩
        rw [RcvUserRequest.asked, hnon.2]
        rfl
      · rw [if_neg hnon, if_neg hneg, hreq]
        let q' : RcvUserRequest := { q with targetHndl := q.targetHndl.map fun _ => hndl }
        let u : In := { r with userRequest := some q' }
        have hu : u.At true (c :: rest) := { h with }
        have hasked : q'.asked = q.asked := by
          simp [RcvUserRequest.asked, q']
        have hkept : q'.targetHndl.join = hndl := by
          cases hq : q.targetHndl with
          | none =>
              have hnone : hndl = none := by
                by_contra hne
                exact hnon ⟨hne, hq⟩
              simp [q', hq, hnone]
          | some _ => simp [q', hq]
        have hround := hu.onHndlKept (q := q') hwaits rfl hlen hbytes fun _ hnone =>
          hkept.trans (hfound hnone)
        rw [hasked] at hround
        exact hround

/-- The start of a message. -/
theorem At.readMsgOnce (h : r.At neg []) (hwaits : r.evWaits = []) (hreq : r.userRequest = some q) :
    Round r.peerSocket q.asked q.onDoneFunc neg [] r.readMsgOnce := by
  unfold In.readMsgOnce
  simp only [assert_of h.err]
  rcases hread : r.peerSocket.rcvNbReadLowLvlPayload 2 with ⟨got, err, p⟩
  simp only
  rcases h.read hread with ⟨e, rfl, rfl, hreads, hdead, he, hsteady⟩ | ⟨rfl, hlen, hreads, hat⟩
  · rw [List.map_nil, store_nil, if_pos (by simp), emitErr_of rfl]
    exact .failed [] e hreads hsteady rfl he hwaits hreq rfl rfl (.inl hdead)
  · have hnone : ({ r with peerSocket := p, pendingErrCode := none } : In) =
        { r with peerSocket := p } := by rw [← h.err]
    rw [hnone, if_neg (by simp)]
    apply Round.of_read hreads
    rw [List.nil_append] at hat ⊢
    cases got with
    | nil =>
        rw [List.map_nil, store_nil, if_neg (by simp)]
        exact hat.asyncWait hwaits hreq (.start neg)
    | cons c rest =>
        rw [if_pos (by simp)]
        let bytes := writeAt r.targetMetaLength 0 ((c :: rest).map Cell.byte)
        let u : In := { r with peerSocket := p, targetMetaLength := bytes }
        have hu : u.At neg (c :: rest) := {
          hat with
          length_eq := by
            rw [← h.length_eq]
            apply length_writeAt
            rw [List.length_map, h.length_eq, Nat.zero_add]
            exact hlen }
        have htake := take_writeAt r.targetMetaLength ((c :: rest).map Cell.byte) (Nat.zero_le _)
        rw [Nat.zero_add, List.length_map] at htake
        exact hu.onHandleFinalized hwaits hreq hlen htake

/-- Reading a message, and what is to be skipped before it. -/
theorem At.readMsg (h : r.At neg []) (hwaits : r.evWaits = []) (hreq : r.userRequest = some q) :
    Round r.peerSocket q.asked q.onDoneFunc neg [] (some r.readMsg.1, r.readMsg.2) := by
  induction r using In.readMsg.induct generalizing neg q with
  | case1 r res r₁ honce =>
      have hround := h.readMsgOnce hwaits hreq
      rw [honce] at hround
      rw [readMsg_eq, honce]
      exact hround
  | case2 r r₁ honce ih =>
      have hround := h.readMsgOnce hwaits hreq
      rw [honce] at hround
      rw [readMsg_eq, honce]
      cases hround with
      | again got reads begins waits request asked onDone leads =>
          have hnext := ih begins waits request
          rw [asked, onDone] at hnext
          exact hnext.of_leads reads leads

/-- Reading on from what a round has come to. -/
theorem Round.readOn (h : Round t a f neg part p) :
    Round t a f neg part (some (readOn p).1, (readOn p).2) := by
  rcases p with ⟨_ | res, r⟩
  · cases h with
    | again got reads begins waits request asked onDone leads =>
        have hnext := begins.readMsg waits request
        rw [asked, onDone] at hnext
        exact hnext.of_leads reads leads
  · exact h

/-- Resuming, with what was recorded. -/
theorem At.resume (h : r.At neg part) (hwaits : r.evWaits = []) (hreq : r.userRequest = some q)
    (hrecords : r.Records q neg part) :
    Round r.peerSocket q.asked q.onDoneFunc neg part
      (some (r.resume (waitFor part)).1, (r.resume (waitFor part)).2) := by
  cases hrecords with
  | start => exact h.readMsg hwaits hreq
  | head byte hndl => exact (h.readHeadPayload hwaits hreq (.head byte hndl)).readOn
  | blob bytes hndl tail left fits notPing =>
      exact (h.readMetaBlob hwaits hreq (.blob bytes hndl tail left fits notPing)).readOn

end In

end FlowIpc.SocketStream
