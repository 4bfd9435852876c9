import FlowIpc.SocketStream.RcvTurn

/-!
# How a receiver serves requests

A receiver has no request, or one request and one wait for the socket, or an error (`Status`, `Is`).
`account` keeps count of a request from when it is accepted until it is done; and what the requests are
told is, for a status, a matter of the cells yet to come (`Status.serve`). Each step of the receiver
goes from one status to the next, and in doing so keeps both accounts (`Does`).

Source: `sync_io/detail/native_socket_stream_impl_rcv.cpp`.
-/

namespace FlowIpc.SocketStream

open Negotiation

/-- What there is of a request, or why there will not be any. -/
inductive Status where
  /-- There is no request; `neg`: the version is settled. -/
  | idle (neg : Bool)
  /-- A request with the handler `f` asks for `a`, and of what it is to be told `part` has come in. -/
  | busy (a : Request) (f : Nat) (neg : Bool) (part : List Cell)
  /-- There is an error. -/
  | latched (e : Err)

namespace Status

/-- The handler of the request that is outstanding. -/
def pending : Status → Option Nat
  | idle _ => none
  | busy _ f _ _ => some f
  | latched _ => none

/-- Handles come where they may, in what is yet to come. -/
def First : Status → List Cell → Prop
  | idle neg, more => HndlsFirst (afterVersion neg more)
  | busy _ _ neg part, more => HndlsFirst (afterVersion neg (part ++ more))
  | latched _, _ => True

/-- What the request that is outstanding, and others after it, are told, by what is yet to come. -/
def serve : Status → List Request → List Cell → List Answer
  | idle neg, qs, more => SocketStream.serve qs (afterVersion neg more)
  | busy a _ neg part, qs, more => SocketStream.serve (a :: qs) (afterVersion neg (part ++ more))
  | latched e, qs, _ => qs.map fun _ => .failed e

end Status

/-- Where the cells `got` come in, and the requests `qs` are made, the answers `as` are given. -/
def Serves (st : Status) (qs : List Request) (got : List Cell) (as : List Answer) (st' : Status) :
    Prop :=
  ∀ rs more, st.First (got ++ more) →
    st'.First more ∧ st.serve (qs ++ rs) (got ++ more) = as ++ st'.serve rs more

variable {st st' : Status} {neg : Bool} {got part : List Cell} {t : PeerSocket} {a : Request} {f : Nat}

/-- Nothing read serves no request. -/
theorem serves_refl (st : Status) : Serves st [] [] [] st :=
  fun _ _ h => ⟨h, rfl⟩

/-- An answer is that to the first of the requests. -/
theorem Serves.trans {st'' : Status} {qs rs : List Request} {got' : List Cell} {as bs : List Answer}
    (h : Serves st qs got as st') (h' : Serves st' rs got' bs st'') :
    Serves st (qs ++ rs) (got ++ got') (as ++ bs) st'' := by
  intro us more hfirst
  rw [List.append_assoc] at hfirst
  obtain ⟨hfirst', heq⟩ := h (rs ++ us) (got' ++ more) hfirst
  obtain ⟨hfirst'', heq'⟩ := h' us more hfirst'
  refine ⟨hfirst'', ?_⟩
  rw [List.append_assoc, List.append_assoc, heq, heq', List.append_assoc]

/-- A request asks only from now on. -/
theorem Serves.of_busy {as : List Answer} (h : Serves (.busy a f neg []) [] got as st') :
    Serves (.idle neg) [a] got as st' :=
  h

/-- What decides the first answer decides all. -/
theorem serve_congr {q : Request} {l l' : List Cell} (h : nextResult q l = nextResult q l')
    (qs : List Request) : serve (q :: qs) l = serve (q :: qs) l' := by
  rw [serve, serve, h]

/-! ## What is seen -/

/-- What is told to the user of a request: nothing yet, if it is outstanding. -/
def Received.answer? (rcvd : Received) : Option Answer :=
  match rcvd.err with
  | none => some (.message rcvd.hndl.join rcvd.blob)
  | some e => if (some e : ErrorCode) = wouldBlock then none else some (.failed e)

namespace NativeSocketStreamRcv

/-- The answer to a request. -/
def Obs.answer? : Obs → Option Answer
  | .returned true _ rcvd => rcvd.answer?
  | .returned false _ _ => none
  | .invoked _ rcvd => rcvd.answer?

/-- There is an answer unless it is still to come. -/
theorem length_answer? (rcvd : Received) :
    rcvd.answer?.toList.length = if rcvd.err = wouldBlock then 0 else 1 := by
  unfold Received.answer?
  cases h : rcvd.err with
  | none => rfl
  | some e =>
      simp only
      split <;> rfl

/-- What is outstanding after something was seen: a request that was accepted, until its handler is
invoked, unless it was done with at once. Nothing else may be. -/
def account : Option Nat → Obs → Option (Option Nat)
  | p, .returned false _ _ => some p
  | none, .returned true f rcvd => some (if rcvd.err = wouldBlock then some f else none)
  | some _, .returned true _ _ => none
  | p, .invoked f rcvd => if p = some f ∧ rcvd.err ≠ wouldBlock then some none else none

@[simp] theorem foldlM_account_single (p : Option Nat) (o : Obs) :
    [o].foldlM account p = account p o := by
  simp

@[simp] theorem filterMap_answer_single (o : Obs) :
    [o].filterMap Obs.answer? = o.answer?.toList := by
  cases h : o.answer? with
  | none => simp [h]
  | some x => simp [h]

/-- A receiver in this status. -/
inductive Is (r : NativeSocketStreamRcv) : Status → Prop where
  /-- Nothing is waited for. -/
  | idle {neg : Bool} (is : r.inp.At neg []) (waits : r.inp.evWaits = [])
      (request : r.inp.userRequest = none) : r.Is (.idle neg)
  /-- The socket is waited for, and the wait says what has come in. -/
  | busy {q : RcvUserRequest} {neg : Bool} {part : List Cell} (is : r.inp.At neg part)
      (waits : r.inp.evWaits = [waitFor part]) (request : r.inp.userRequest = some q)
      (records : r.inp.Records q neg part) : r.Is (.busy q.asked q.onDoneFunc neg part)
  /-- A wait may be left of a request that has failed. -/
  | latched {e : Err} (steady : r.inp.Steady) (err : r.inp.pendingErrCode = some e)
      (genuine : (some e : ErrorCode) ≠ FlowIpc.wouldBlock) (waits : r.inp.evWaits.length ≤ 1)
      (request : r.inp.userRequest = none) : r.Is (.latched e)

/-- There is something of it only where receiving has been started, on a connected socket. -/
def Begun (r : NativeSocketStreamRcv) : Prop :=
  r.started = true ∧ r.statePeer = true ∨
    r.inp.userRequest = none ∧ r.inp.pendingErrCode = none ∧ r.inp.idleTimeout = 0

/-- The socket has not failed, and the version is one the receiver can speak. -/
def Friendly (p : PeerSocket) : Prop :=
  p.alive = true ∧ ∃ c d m, GoodVersion c d ∧ p.taken <+: c :: d :: m

/-- What a step does from a status; if it is no timeout, the answers are those that the cells give. -/
structure Does (timely : Prop) (st : Status) (r : NativeSocketStreamRcv) (qs : List Request)
    (obs : List Obs) (st' : Status) (r' : NativeSocketStreamRcv) : Prop where
  is : r'.Is st'
  begun : r'.Begun
  accounts : obs.foldlM account st.pending = some st'.pending
  /-- Requests and answers come one to one. -/
  counts : st.pending.toList.length + qs.length =
    (obs.filterMap Obs.answer?).length + st'.pending.toList.length
  serves : ∃ got, r.inp.peerSocket.Reads got r'.inp.peerSocket ∧
    (timely → Friendly r'.inp.peerSocket → Serves st qs got (obs.filterMap Obs.answer?) st')

variable {r r' : NativeSocketStreamRcv} {T : Prop}

/-- A step that is no matter of requests. -/
theorem does_refl (his : r'.Is st) (hbegun : r'.Begun)
    (hsocket : r.inp.peerSocket.Reads [] r'.inp.peerSocket) :
    Does T st r [] [] st r' :=
  ⟨his, hbegun, rfl, by simp, [], hsocket, fun _ _ => serves_refl st⟩

/-- The request that there is, and the error, are told by the status. -/
theorem Is.userRequest (h : r.Is st) :
    r.inp.userRequest.map (·.onDoneFunc) = st.pending := by
  cases h with
  | idle _ _ request => rw [request]; rfl
  | busy _ _ request _ => rw [request]; rfl
  | latched _ _ _ _ request => rw [request]; rfl

/-- A receiver that has just been constructed has no request. -/
theorem is_ctor {statePeer : Bool} {p : PeerSocket} (hp : p.received = 0) :
    (ctor statePeer p).Is (.idle false) := by
  refine .idle ?_ rfl rfl
  exact {
    noFailure := rfl
    sockOk := by
      unfold PeerSocket.Ok
      rw [show (ctor statePeer p).inp.peerSocket = p from rfl, hp]
      exact Nat.zero_le _
    range_eq := rfl
    length_eq := rfl
    timer := Timer.ok_inactive
    timer_off := fun _ => rfl
    err := rfl
    negotiated := by simp [ctor, ProtocolNegotiator.ctor]
    fresh := fun _ => by simp [ctor, PeerSocket.taken, hp]
    settled := fun hneg => by cases hneg }

/-- It is a matter of the parts that low-level reading touches, less the answers to come, the timer, and
whether receiving has been started. -/
theorem Is.congr {t : Timer} {n : Nat} {k : List SockAnswer} (h : r.Is st)
    (hinp : r'.inp = { r.inp with
      peerSocket := { r.inp.peerSocket with answers := k }
      idleTimeout := n
      idleTimer := t }) (ht : t.Ok) (hoff : n = 0 → t.evWaits = 0) : r'.Is st := by
  cases h with
  | idle is waits request =>
      refine .idle ?_ (by rw [hinp]; exact waits) (by rw [hinp]; exact request)
      rw [hinp]
      exact { is with timer := ht, timer_off := hoff }
  | busy is waits request records =>
      refine .busy ?_ (by rw [hinp]; exact waits) (by rw [hinp]; exact request) ?_
      · rw [hinp]
        exact { is with timer := ht, timer_off := hoff }
      · rw [hinp]
        exact records.congr rfl
  | latched steady err genuine waits request =>
      refine .latched ?_ (by rw [hinp]; exact err) genuine (by rw [hinp]; exact waits)
        (by rw [hinp]; exact request)
      rw [hinp]
      exact { steady with timer := ht, timer_off := hoff }

/-- Wherever it is, the receiver is steady. -/
theorem Is.steady (h : r.Is st) : r.inp.Steady := by
  cases h with
  | idle is _ _ => exact is.toSteady
  | busy is _ _ _ => exact is.toSteady
  | latched steady _ _ _ _ => exact steady

/-! ## Operations -/

/-- What a round of reading leaves, and what the user of the request finds. -/
theorem does_of_round {inp : In} {res : Result}
    (hround : In.Round t a f neg part (some res, inp)) (hfresh : neg = false → t.taken = part)
    (hbegun : r.started = true ∧ r.statePeer = true) :
    let rcvd := received { r with inp := inp } res
    ∃ st' got, (afterTurn { r with inp := inp } res).Is st' ∧
      (afterTurn { r with inp := inp } res).Begun ∧
      t.Reads got inp.peerSocket ∧
      st'.pending = (if rcvd.err = wouldBlock then some f else none) ∧
      (Friendly inp.peerSocket → Serves (.busy a f neg part) [] got rcvd.answer?.toList st') := by
  have hmore : ∀ got more : List Cell, part ++ (got ++ more) = part ++ got ++ more := by
    intro got more
    rw [List.append_assoc]
  cases hround with
  | got got blob reads begins waits request asked onDone found delivers =>
      refine ⟨.idle true, got, ?_, ?_, reads, rfl, fun _ qs more hfirst => ?_⟩
      · rw [afterTurn, if_neg (by simp)]
        exact .idle { begins with } waits rfl
      · rw [afterTurn, if_neg (by simp)]
        exact .inl hbegun
      · change HndlsFirst (afterVersion neg (part ++ (got ++ more))) at hfirst
        rw [hmore] at hfirst
        obtain ⟨hfirst', heq⟩ := delivers more hfirst
        refine ⟨hfirst', ?_⟩
        change SocketStream.serve (a :: qs) (afterVersion neg (part ++ (got ++ more))) = _
        rw [hmore, SocketStream.serve, heq]
        simp [Received.answer?, received, In.targetHndl, request, found, Status.serve, afterVersion]
  | failed got e reads steady err genuine waits request asked onDone explains =>
      refine ⟨.latched e, got, ?_, ?_, reads, ?_, fun hfriendly qs more hfirst => ?_⟩
      · rw [afterTurn, if_neg genuine]
        exact .latched { steady with } err genuine (by simp [resetRequest, waits]) rfl
      · rw [afterTurn, if_neg genuine]
        exact .inl hbegun
      · exact (if_neg genuine).symm
      · change HndlsFirst (afterVersion neg (part ++ (got ++ more))) at hfirst
        rw [hmore] at hfirst
        refine ⟨trivial, ?_⟩
        change SocketStream.serve (a :: qs) (afterVersion neg (part ++ (got ++ more))) = _
        obtain ⟨halive, c, d, m, hgood, hpre⟩ := hfriendly
        rcases explains with hdead | ⟨hneg, hver⟩ | hall
        · rw [halive] at hdead
          cases hdead
        · rw [reads.taken, hfresh hneg] at hpre
          exact absurd hpre (hver c d m hgood)
        · rw [hmore, SocketStream.serve, hall more hfirst]
          simp only [Received.answer?, received, if_neg genuine]
          rfl
  | wouldBlock got neg' part' reads is waits request asked onDone records leads =>
      rename_i q'
      refine ⟨.busy q'.asked q'.onDoneFunc neg' part', got, ?_, ?_, reads, ?_,
        fun _ qs more hfirst => ?_⟩
      · rw [afterTurn, if_pos rfl]
        exact .busy is waits request records
      · rw [afterTurn, if_pos rfl]
        exact .inl hbegun
      · rw [← onDone]
        exact (if_pos rfl).symm
      · change HndlsFirst (afterVersion neg (part ++ (got ++ more))) at hfirst
        rw [hmore] at hfirst
        obtain ⟨hfirst', heq⟩ := leads more hfirst
        refine ⟨hfirst', ?_⟩
        change SocketStream.serve (a :: qs) (afterVersion neg (part ++ (got ++ more))) = _
        rw [hmore, serve_congr heq]
        simp [Received.answer?, received, Status.serve, asked]

variable {u : NativeSocketStreamRcv}

/-- A request, which is refused, or told the error, or read for. -/
theorem Is.asyncReceiveNativeHandleImpl {hndl : Option NativeHandle} {buf : Blob} {ok : Bool}
    {rcvd : Received} (his : u.Is st) (hbegun : u.Begun)
    (hcall : u.asyncReceiveNativeHandleImpl hndl buf f = (ok, rcvd, r')) :
    ∃ st', Does T st u (if ok then [⟨hndl.isSome, buf.length⟩] else [])
      [.returned ok f rcvd] st' r' := by
  unfold NativeSocketStreamRcv.asyncReceiveNativeHandleImpl at hcall
  split at hcall
  · cases hcall
    exact ⟨st, his, hbegun, rfl, by simp [Obs.answer?], [], .refl _, fun _ _ => serves_refl st⟩
  · rename_i hstarted
    have hboth : u.started = true ∧ u.statePeer = true := by simpa using hstarted
    split at hcall
    · cases hcall
      exact ⟨st, his, hbegun, rfl, by simp [Obs.answer?], [], .refl _, fun _ _ => serves_refl st⟩
    · rename_i hreq
      split at hcall
      · rename_i herr
        cases hcall
        cases his with
        | idle is _ _ =>
            rw [is.err] at herr
            cases herr
        | busy is _ _ _ =>
            rw [is.err] at herr
            cases herr
        | @latched e steady err genuine waits request =>
            refine ⟨.latched e, .latched { steady with } err genuine waits rfl, .inl hboth, ?_, ?_, [],
              .refl _, fun _ _ rs more hfirst => ⟨trivial, ?_⟩⟩
            · rw [foldlM_account_single, err]
              simp only [Status.pending, account, if_neg genuine]
            · rw [filterMap_answer_single, err]
              simp only [Obs.answer?, Received.answer?, if_neg genuine]
              rfl
            · rw [filterMap_answer_single, err]
              simp only [Status.serve, Obs.answer?, Received.answer?, if_neg genuine]
              rfl
      · rename_i herr
        have herr : u.inp.pendingErrCode = none := by simpa using herr
        cases his with
        | busy _ _ request _ => exact absurd (by rw [request]; rfl) hreq
        | latched _ err _ _ _ =>
            rw [err] at herr
            cases herr
        | @idle neg is waits request =>
            let q : RcvUserRequest := ⟨hndl, buf, f⟩
            let inp₀ : In := { u.inp with userRequest := some q }
            have hat : inp₀.At neg [] := { is with }
            have hround := hat.readMsg waits rfl
            obtain ⟨st', got, his', hbegun', htaken, hpending, hserves⟩ :=
              does_of_round (r := u) hround hat.fresh hboth
            simp only [Prod.mk.injEq] at hcall
            obtain ⟨rfl, rfl, rfl⟩ := hcall
            rw [ite_not]
            refine ⟨st', his', hbegun', ?_, ?_, got, ?_, fun _ hfriendly => ?_⟩
            · rw [foldlM_account_single, hpending]
              rfl
            · rw [filterMap_answer_single, hpending]
              change 1 = (Received.answer? _).toList.length + _
              rw [length_answer?]
              split <;> rfl
            · split <;> exact htaken
            · have hserves' := hserves (by
                split at hfriendly <;> exact hfriendly)
              rw [filterMap_answer_single]
              exact hserves'.of_busy

/-- The handler invoked is the one of the request. -/
theorem does_invocations {q : RcvUserRequest} {inp : In} {res : Result} {st' : Status}
    (hreq : inp.userRequest = some q) (hne : res.1 ≠ wouldBlock) (his : r'.Is st')
    (hpending : st'.pending = none) (hbegun : r'.Begun)
    (hserves : ∃ got, r.inp.peerSocket.Reads got r'.inp.peerSocket ∧
      (T → Friendly r'.inp.peerSocket →
        Serves (.busy a q.onDoneFunc neg part) [] got
          (received { u with inp := inp } res).answer?.toList st')) :
    Does T (.busy a q.onDoneFunc neg part) r []
      (invocations (invocation { u with inp := inp } res)) st' r' := by
  unfold invocation
  rw [show (NativeSocketStreamRcv.inp { u with inp := inp }).userRequest = some q from hreq]
  refine ⟨his, hbegun, ?_, ?_, ?_⟩
  · rw [hpending]
    exact (foldlM_account_single _ _).trans (if_pos ⟨rfl, hne⟩)
  · change 1 = ([Obs.invoked _ _].filterMap Obs.answer?).length + _
    rw [filterMap_answer_single, hpending]
    change 1 = (Received.answer? _).toList.length + 0
    rw [length_answer?, if_neg (by exact hne)]
  · change ∃ got, _ ∧ (_ → _ → Serves _ [] got ([Obs.invoked _ _].filterMap Obs.answer?) st')
    rw [filterMap_answer_single]
    exact hserves

/-- The readable event goes on where its wait says, unless there is an error. -/
theorem Is.onEvPeerSocketReadableOrError {msgState : RcvMsgState} {g : Option (Nat × Received)}
    (his : u.Is st) (hbegun : u.Begun) (hw : msgState ∈ u.inp.evWaits)
    (hcall : ({ u with inp := { u.inp with evWaits := u.inp.evWaits.erase msgState } } :
      NativeSocketStreamRcv).onEvPeerSocketReadableOrError msgState = (r', g)) :
    ∃ st', Does T st u [] (invocations g) st' r' := by
  unfold NativeSocketStreamRcv.onEvPeerSocketReadableOrError at hcall
  cases his with
  | idle is waits request =>
      rw [waits] at hw
      cases hw
  | @latched e steady err genuine waits request =>
      rw [if_pos (by simp [err]), assert_of (by exact request)] at hcall
      cases hcall
      refine ⟨.latched e, does_refl ?_ hbegun (.refl _)⟩
      refine .latched { steady with } err genuine ?_ request
      have hlen := List.length_erase_of_mem hw
      change (u.inp.evWaits.erase msgState).length ≤ 1
      omega
  | @busy q neg part is waits request records =>
      rw [waits] at hw
      obtain rfl := List.mem_singleton.mp hw
      let inp₀ : In := { u.inp with evWaits := u.inp.evWaits.erase (waitFor part) }
      have hnone : inp₀.evWaits = [] := by
        change u.inp.evWaits.erase (waitFor part) = []
        rw [waits]
        simp
      have hat : inp₀.At neg part := { is with }
      have hround := hat.resume hnone request (records.congr rfl)
      have hboth : u.started = true ∧ u.statePeer = true := by
        rcases hbegun with hboth | ⟨hreq, -⟩
        · exact hboth
        · rw [request] at hreq
          cases hreq
      rw [if_neg (by rw [is.err]; simp), assert_of (by rw [request]; rfl)] at hcall
      obtain ⟨q', hq', -, honDone⟩ := hround.request
      obtain ⟨st', got, his', hbegun', htaken, hpending, hserves⟩ :=
        does_of_round (r := u) hround hat.fresh hboth
      simp only at hcall
      by_cases hblock : (inp₀.resume (waitFor part)).1.1 = wouldBlock
      · rw [if_pos hblock] at hcall
        cases hcall
        rw [afterTurn, if_pos hblock] at his' hbegun'
        have hblock' : (received { u with inp := (inp₀.resume (waitFor part)).2 }
          (inp₀.resume (waitFor part)).1).err = wouldBlock := hblock
        rw [if_pos hblock'] at hpending
        refine ⟨st', his', hbegun', ?_, ?_, got, htaken, fun _ hfriendly => ?_⟩
        · rw [hpending]
          rfl
        · rw [hpending]
          rfl
        · have hanswer : (received { u with inp := (inp₀.resume (waitFor part)).2 }
              (inp₀.resume (waitFor part)).1).answer? = none := by
            rw [Received.answer?, hblock']
            rfl
          have hserves' := hserves hfriendly
          rw [hanswer] at hserves'
          exact hserves'
      · rw [if_neg hblock] at hcall
        cases hcall
        rw [afterTurn, if_neg hblock] at his' hbegun'
        have hblock' : (received { u with inp := (inp₀.resume (waitFor part)).2 }
          (inp₀.resume (waitFor part)).1).err ≠ wouldBlock := hblock
        rw [if_neg hblock'] at hpending
        refine ⟨st', ?_⟩
        rw [← honDone]
        refine does_invocations hq' hblock his' hpending hbegun' ⟨got, htaken, fun _ hfriendly => ?_⟩
        rw [honDone]
        exact hserves hfriendly

/-- The idle timeout is an error of the receiver's own, unless there is one. -/
theorem Is.onEvIdleTimerFired {t : Timer} {g : Option (Nat × Received)} (his : u.Is st)
    (hbegun : u.Begun) (ht : u.inp.idleTimer.takeEvent = some t)
    (hcall : { u with inp := { u.inp with idleTimer := t } }.onEvIdleTimerFired = (r', g)) :
    ∃ st', Does False st u [] (invocations g) st' r' := by
  obtain ⟨hok, hzero⟩ := his.steady.timer.takeEvent ht
  have his' : ({ u with inp := { u.inp with idleTimer := t.consumeTimerFiringSignal } } :
      NativeSocketStreamRcv).Is st :=
    his.congr (n := u.inp.idleTimeout) (k := u.inp.peerSocket.answers) rfl hok fun _ => hzero
  -- A timer that is on was started on a receiver that had begun.
  have hboth : u.started = true ∧ u.statePeer = true := by
    rcases hbegun with hboth | ⟨-, -, hoff⟩
    · exact hboth
    · have hnone := his.steady.timer_off hoff
      simp [Timer.takeEvent, hnone] at ht
  unfold NativeSocketStreamRcv.onEvIdleTimerFired at hcall
  simp only at hcall
  split at hcall
  · cases hcall
    exact ⟨st, does_refl his' hbegun (.refl _)⟩
  · rename_i herr
    have herr : u.inp.pendingErrCode = none := by simpa using herr
    cases hcall
    have hlatched : ∀ ws : List RcvMsgState, ws.length ≤ 1 →
        (resetRequest { u with inp := { u.inp with
          idleTimer := t.consumeTimerFiringSignal
          evWaits := ws
          pendingErrCode := Code.receiverIdleTimeout.toErrorCode } }).Is
            (.latched (.code .receiverIdleTimeout)) := by
      intro ws hws
      exact .latched { his'.steady with } rfl (by simp) hws rfl
    refine ⟨.latched (.code .receiverIdleTimeout), ?_⟩
    cases his with
    | idle is waits request =>
        refine ⟨hlatched _ (by rw [waits]; simp), .inl hboth, ?_, ?_, [], .refl _,
          fun hfalse => hfalse.elim⟩
        · simp only [invocation, request]
          rfl
        · simp only [invocation, request]
          rfl
    | busy is waits request records =>
        refine does_invocations request (by simp) (hlatched _ (by rw [waits]; simp)) rfl (.inl hboth)
          ⟨[], .refl _, fun hfalse => hfalse.elim⟩
    | latched steady err _ _ _ =>
        rw [err] at herr
        cases herr

/-- Asking for the idle timer shows nothing. -/
theorem Is.idleTimerRun {timeout : {n : Nat // 0 < n}} (his : u.Is st) (hbegun : u.Begun) :
    Does T st u [] [] st (u.idleTimerRun timeout).2 := by
  have hne : timeout.val ≠ 0 := by
    have := timeout.property
    omega
  unfold NativeSocketStreamRcv.idleTimerRun
  rw [assert_of timeout.property]
  simp only
  split
  · exact does_refl his hbegun (.refl _)
  · rename_i hstarted
    have hboth : u.started = true ∧ u.statePeer = true := by simpa using hstarted
    split
    · exact does_refl his hbegun (.refl _)
    · rename_i hoff
      have hzero := his.steady.timer_off (by simpa using hoff)
      split
      · exact does_refl (his.congr (k := u.inp.peerSocket.answers) rfl his.steady.timer
          fun h₀ => absurd h₀ hne) (.inl hboth) (.refl _)
      · exact does_refl (his.congr (k := u.inp.peerSocket.answers) rfl
          (his.steady.timer.schedule hzero) fun h₀ => absurd h₀ hne) (.inl hboth) (.refl _)

/-! ## Steps -/

/-- The request that a step accepts. -/
def accepted : Input × List Obs → Option Request
  | (.asyncReceiveNativeHandle _ buf _, [.returned true _ _]) => some ⟨true, buf.length⟩
  | (.asyncReceiveBlob buf _, [.returned true _ _]) => some ⟨false, buf.length⟩
  | _ => none

/-- Every step shows what has been asked for and served. -/
theorem Is.step {i : Input} {ks : List SockAnswer} {obs : List Obs} (his : r.Is st)
    (hbegun : r.Begun) (hstep : r.step i ks = some (r', obs)) :
    ∃ st', Does (i ≠ .timerReadable) st r (accepted (i, obs)).toList obs st' r' := by
  have hu : (r.withAnswers ks).Is st :=
    his.congr (n := r.inp.idleTimeout) rfl his.steady.timer his.steady.timer_off
  have hub : (r.withAnswers ks).Begun := hbegun
  unfold NativeSocketStreamRcv.step at hstep
  suffices hdoes : ∃ st', Does (i ≠ .timerReadable) st (r.withAnswers ks)
      (accepted (i, obs)).toList obs st' r' by
    obtain ⟨st', is, begun, accounts, counts, got, reads, serves⟩ := hdoes
    exact ⟨st', is, begun, accounts, counts, got, ⟨reads.sent, reads.taken⟩, serves⟩
  generalize r.withAnswers ks = u at hu hub hstep ⊢
  cases i with
  | connected =>
      cases hstep
      refine ⟨st, does_refl (hu.congr (k := u.inp.peerSocket.answers) rfl hu.steady.timer
        hu.steady.timer_off) ?_ (.refl _)⟩
      rcases hub with ⟨hstarted, -⟩ | hnone
      · exact .inl ⟨hstarted, rfl⟩
      · exact .inr hnone
  | startReceiveNativeHandleOps =>
      cases hstep
      refine ⟨st, ?_⟩
      unfold startReceiveNativeHandleOps
      split
      · exact does_refl hu hub (.refl _)
      · refine does_refl (hu.congr (k := u.inp.peerSocket.answers) rfl hu.steady.timer
          hu.steady.timer_off) ?_ (.refl _)
        rcases hub with ⟨-, hpeer⟩ | hnone
        · exact .inl ⟨rfl, hpeer⟩
        · exact .inr hnone
  | asyncReceiveNativeHandle hndl buf f =>
      rcases hcall : u.asyncReceiveNativeHandleImpl (some hndl) buf f with ⟨ok, rcvd, r₁⟩
      simp only [asyncReceiveNativeHandle, hcall] at hstep
      cases hstep
      obtain ⟨st', hdoes⟩ := hu.asyncReceiveNativeHandleImpl (T := True) hub hcall
      obtain ⟨got, htaken, hserves⟩ := hdoes.serves
      cases ok with
      | true =>
          exact ⟨st', hdoes.is, hdoes.begun, hdoes.accounts, hdoes.counts, got, htaken,
            fun _ => hserves trivial⟩
      | false =>
          exact ⟨st', hdoes.is, hdoes.begun, hdoes.accounts, hdoes.counts, got, htaken,
            fun _ => hserves trivial⟩
  | asyncReceiveBlob buf f =>
      rcases hcall : u.asyncReceiveNativeHandleImpl none buf f with ⟨ok, rcvd, r₁⟩
      simp only [asyncReceiveBlob, hcall] at hstep
      cases hstep
      obtain ⟨st', hdoes⟩ := hu.asyncReceiveNativeHandleImpl (T := True) hub hcall
      obtain ⟨got, htaken, hserves⟩ := hdoes.serves
      cases ok with
      | true =>
          exact ⟨st', hdoes.is, hdoes.begun, hdoes.accounts, hdoes.counts, got, htaken,
            fun _ => hserves trivial⟩
      | false =>
          exact ⟨st', hdoes.is, hdoes.begun, hdoes.accounts, hdoes.counts, got, htaken,
            fun _ => hserves trivial⟩
  | idleTimerRun timeout =>
      cases hstep
      exact ⟨st, hu.idleTimerRun hub⟩
  | socketReadable msgState =>
      simp only at hstep
      split at hstep
      · rename_i hw
        rcases hcall : NativeSocketStreamRcv.onEvPeerSocketReadableOrError
          { u with inp := { u.inp with evWaits := u.inp.evWaits.erase msgState } } msgState
          with ⟨r₁, g⟩
        simp only [hcall] at hstep
        cases hstep
        exact hu.onEvPeerSocketReadableOrError hub hw hcall
      · cases hstep
  | timerFires =>
      simp only [Option.map_eq_some_iff] at hstep
      obtain ⟨t, hfire, heq⟩ := hstep
      cases heq
      refine ⟨st, does_refl (hu.congr (k := u.inp.peerSocket.answers) (n := u.inp.idleTimeout)
        rfl (hu.steady.timer.fire hfire) ?_) hub (.refl _)⟩
      intro hoff
      rw [Timer.fire_evWaits hfire]
      exact hu.steady.timer_off hoff
  | timerReadable =>
      simp only [Option.map_eq_some_iff] at hstep
      obtain ⟨t, htake, heq⟩ := hstep
      rcases hcall : NativeSocketStreamRcv.onEvIdleTimerFired
        { u with inp := { u.inp with idleTimer := t } } with ⟨r₁, g⟩
      rw [hcall] at heq
      cases heq
      obtain ⟨st', hdoes⟩ := hu.onEvIdleTimerFired hub htake hcall
      obtain ⟨got, htaken, -⟩ := hdoes.serves
      exact ⟨st', hdoes.is, hdoes.begun, hdoes.accounts, hdoes.counts, got, htaken,
        fun hne => absurd rfl hne⟩

/-! ## Runs -/

/-- The steps taken so far, and what was seen in each. -/
abbrev Trace := List (Input × List Obs)

/-- A step of a receiver, and the steps taken. -/
def next (w : NativeSocketStreamRcv × Trace) (i : Input × List SockAnswer) :
    Option (NativeSocketStreamRcv × Trace) :=
  (w.1.step i.1 i.2).map fun r => (r.1, w.2 ++ [(i.1, r.2)])

/-- The steps of a receiver. -/
def Step (w : NativeSocketStreamRcv × Trace) (i : Input × List SockAnswer)
    (w' : NativeSocketStreamRcv × Trace) : Prop :=
  next w i = some w'

/-- A receiver that has just been constructed, around a socket nothing was read from. -/
def Init (w : NativeSocketStreamRcv × Trace) : Prop :=
  ∃ statePeer p, p.received = 0 ∧ w = (ctor statePeer p, [])

/-- What was seen. -/
def seen (tr : Trace) : List Obs := tr.flatMap Prod.snd

@[simp] theorem seen_snoc (tr : Trace) (x : Input × List Obs) : seen (tr ++ [x]) = seen tr ++ x.2 := by
  simp [seen]

end NativeSocketStreamRcv

end FlowIpc.SocketStream
