import FlowIpc.Adapter.RcvCore
import FlowIpc.SocketStream.RcvInv

/-!
# The socket stream's receiver as a core

`socketRcvCore`: the receiving direction of a `Native_socket_stream::Impl` is a core that an
`Async_adapter_receiver` can wrap, for handles and for blobs. A request brings the target for the handle, if
it has one, and that for the blob; what it gets is what is in them then. No request is turned down for
its own fault: a message that does not fit ends the pipe.

Source: `sync_io/detail/native_socket_stream_impl_rcv.cpp`.
-/

namespace FlowIpc.Adapter

open SocketStream PrefixCode

/-- What happens to a receiver besides requests. -/
inductive SocketRcvEv where
  /-- `idle_timer_run()`; the contract asks for a positive timeout. -/
  | idleTimerRun (timeout : {n : Nat // 0 < n})
  /-- The socket is reported readable to whoever waits for it with this captured. -/
  | socketReadable (msgState : RcvMsgState)
  /-- The idle timer fires in its worker thread. -/
  | timerFires
  /-- The signal pipe of the idle timer is reported readable. -/
  | timerReadable

/-- The step of the receiver that it is. -/
def SocketRcvEv.toInput : SocketRcvEv → NativeSocketStreamRcv.Input
  | idleTimerRun timeout => .idleTimerRun timeout
  | socketReadable msgState => .socketReadable msgState
  | timerFires => .timerFires
  | timerReadable => .timerReadable

/-- What the user of a request has in hand when it is done: the code, and the handle and the blob if that
is falsy. -/
def toResult (rcvd : Received) : Result (NativeHandle × Blob) :=
  (rcvd.err, rcvd.message?.getD (none, []))

namespace SocketRcv

/-- The targets of a request, with what is in them: that for the handle, which may be null, and that for
the blob. -/
abbrev Req := Option NativeHandle × Blob

/-- The result that the handler was invoked with, if it was. -/
def result? : List NativeSocketStreamRcv.Obs → Option (Result (NativeHandle × Blob))
  | .invoked _ rcvd :: _ => some (toResult rcvd)
  | _ => none

/-- `async_receive_native_handle()`, or with no target for a handle `async_receive_blob()`, during which
the socket gives the answers `ks`. -/
def asyncReceive (r : NativeSocketStreamRcv) (req : Req) (ks : List SockAnswer) :
    Bool × Result (NativeHandle × Blob) × NativeSocketStreamRcv :=
  let (ok, rcvd, r) := (r.withAnswers ks).asyncReceiveNativeHandleImpl req.1 req.2 0
  (ok, toResult rcvd, r)

/-- An event, during which the socket gives the answers `ks`. -/
def event (r : NativeSocketStreamRcv) (ev : SocketRcvEv) (ks : List SockAnswer) :
    Option (NativeSocketStreamRcv × Option (Result (NativeHandle × Blob))) :=
  (r.step ev.toInput ks).map fun (r, obs) => (r, result? obs)

/-- A request is outstanding. -/
def outstanding (r : NativeSocketStreamRcv) : Bool :=
  r.inp.userRequest.isSome

/-- The error that has ended the pipe. -/
def hosed (r : NativeSocketStreamRcv) : ErrorCode :=
  r.inp.pendingErrCode

variable {r r' : NativeSocketStreamRcv} {w : OnWire} {done : Option (List Frame)}

/-- A receiver in use. -/
structure Inv (r : NativeSocketStreamRcv) : Prop where
  reading : ∃ w done, r.Inv w done
  started : r.started = true
  peer : r.statePeer = true

/-- What a receiver comes to is no code for those who wait, and no fault of a request. -/
theorem genuine_of_expected {e : Err} (h : In.Expected e) :
    Genuine (some e) ∧ e ≠ .code .invalidArgument := by
  rcases h with rfl | rfl | rfl | rfl | rfl | ⟨n, rfl⟩
  · simp
  · simp
  · simp
  · simp
  · simp
  · simp

/-- With an error comes neither a handle nor a blob. -/
theorem toResult_err {rcvd : Received} {e : Err} (h : rcvd.err = some e) :
    toResult rcvd = (some e, (none, [])) := by
  unfold toResult Received.message?
  rw [h]
  rfl

/-- A turn of reading is a completion, unless the request is left outstanding. -/
theorem completes_of_turn {inp : In} {res : SocketStream.Result} (herr : hosed r = none)
    (hturn : In.Turn w done (some res, inp)) (hne : res.1 ≠ wouldBlock)
    (hreq : r'.inp.userRequest = none) (herr' : hosed r' = inp.pendingErrCode) :
    Completes outstanding hosed (none, []) r r'
      (toResult (NativeSocketStreamRcv.received { r with inp := inp } res)) := by
  have hidle : outstanding r' = false := by rw [outstanding, hreq]; rfl
  cases hturn with
  | got done' m reads oneMsg err waits request hndl blob =>
      exact .message _ herr (herr'.trans err) hidle
  | failed done' e sound noMsg err waits request =>
      obtain ⟨hgen, hinvalid⟩ := genuine_of_expected (sound.expected e err)
      rw [toResult_err (e := e) rfl]
      exact .hosed e hgen hinvalid (.inl herr) (herr'.trans err) hidle
  | wouldBlock done' msgState part reads noMsg err waits request midway => exact absurd rfl hne

/-- No turn of reading ends in a fault of the request. -/
theorem ne_invalid_of_turn {inp : In} {res : SocketStream.Result}
    (hturn : In.Turn w done (some res, inp)) : res.1 ≠ Code.invalidArgument.toErrorCode := by
  cases hturn with
  | got done' m reads oneMsg err waits request hndl blob => simp
  | failed done' e sound noMsg err waits request =>
      intro hcode
      exact (genuine_of_expected (sound.expected e err)).2 (Option.some.inj hcode)
  | wouldBlock done' msgState part reads noMsg err waits request midway => simp

/-- It leaves the request outstanding only where there is no error. -/
theorem err_of_turn_wouldBlock {inp : In} {res : SocketStream.Result}
    (hturn : In.Turn w done (some res, inp)) (hblock : res.1 = wouldBlock) :
    inp.pendingErrCode = none ∧ inp.userRequest.isSome := by
  cases hturn with
  | got done' m reads oneMsg err waits request hndl blob => cases hblock
  | failed done' e sound noMsg err waits request =>
      exact absurd hblock (sound.expected e err).ne_wouldBlock
  | wouldBlock done' msgState part reads noMsg err waits request midway =>
      exact ⟨err, by rw [request]; rfl⟩

/-- A receiver that has no error and no request reads. -/
theorem asyncReceiveNativeHandleImpl_eq {u : NativeSocketStreamRcv} (hstart : u.started = true)
    (hpeer : u.statePeer = true) (hreq : u.inp.userRequest = none) (herr : u.inp.pendingErrCode = none)
    (hndl : Option NativeHandle) (buf : Blob) (f : Nat) :
    let p := In.readMsg { u.inp with userRequest := some ⟨hndl, buf, f⟩ }
    let t : NativeSocketStreamRcv := { u with inp := p.2 }
    u.asyncReceiveNativeHandleImpl hndl buf f =
      (true, t.received p.1, if p.1.1 ≠ wouldBlock then t.resetRequest else t) := by
  unfold NativeSocketStreamRcv.asyncReceiveNativeHandleImpl
  rw [if_neg (by simp [hstart, hpeer]), if_neg (by simp [hreq]), if_neg (by simp [herr])]

/-- A request, where there is none, would block, and is then outstanding, or completes at once. -/
theorem receive_spec (r : NativeSocketStreamRcv) (req : Req) (ks : List SockAnswer) (ok : Bool)
    (res : Result (NativeHandle × Blob)) (r' : NativeSocketStreamRcv) (h : Inv r)
    (hidle : outstanding r = false) (hcall : asyncReceive r req ks = (ok, res, r')) :
    ok = true ∧ Inv r' ∧
      ((res = (wouldBlock, (none, [])) ∧ outstanding r' = true ∧ hosed r' = none ∧ hosed r = none) ∨
        (res.1 ≠ wouldBlock ∧ Completes outstanding hosed (none, []) r r' res)) := by
  obtain ⟨w, done, hinv₀⟩ := h.reading
  have hinv := hinv₀.withAnswers ks
  have hstart : (r.withAnswers ks).started = true := h.started
  have hpeer : (r.withAnswers ks).statePeer = true := h.peer
  have hreq : (r.withAnswers ks).inp.userRequest = none :=
    Option.isNone_iff_eq_none.mp (Option.isSome_eq_false_iff.mp hidle)
  have hsame : (r.withAnswers ks).inp.pendingErrCode = hosed r := rfl
  unfold asyncReceive at hcall
  generalize r.withAnswers ks = u at hinv hstart hpeer hreq hsame hcall
  rcases himpl : u.asyncReceiveNativeHandleImpl req.1 req.2 0 with ⟨ok₁, rcvd, r₁⟩
  rw [himpl] at hcall
  cases hcall
  obtain ⟨done', hinv', -⟩ := hinv.asyncReceiveNativeHandleImpl himpl
  cases herr : u.inp.pendingErrCode with
  | some e =>
      unfold NativeSocketStreamRcv.asyncReceiveNativeHandleImpl at himpl
      rw [if_neg (by simp [hstart, hpeer]), if_neg (by simp [hreq]), if_pos (by simp [herr])] at himpl
      cases himpl
      obtain ⟨hgen, hinvalid⟩ := genuine_of_expected (hinv.sound.expected e herr)
      refine ⟨rfl, ⟨⟨w, done', hinv'⟩, hstart, hpeer⟩, .inr ?_⟩
      rw [toResult_err (e := e) herr]
      exact ⟨hgen.1, .hosed e hgen hinvalid (.inr (hsame.symm.trans herr)) herr rfl⟩
  | none =>
      obtain ⟨hreads, hwaits⟩ := hinv.idle herr hreq
      have hturn := (hreads.setRequest (some ⟨req.1, req.2, 0⟩) _).readMsg herr hwaits rfl
      have heq := himpl.symm.trans (asyncReceiveNativeHandleImpl_eq hstart hpeer hreq herr _ _ _)
      generalize In.readMsg { u.inp with userRequest := some ⟨req.1, req.2, 0⟩ } = p at hturn heq
      by_cases hblock : p.1.1 = wouldBlock
      · rw [if_neg (by simp [hblock])] at heq
        cases heq
        obtain ⟨herr', hsome⟩ := err_of_turn_wouldBlock hturn hblock
        refine ⟨rfl, ⟨⟨w, done', hinv'⟩, hstart, hpeer⟩, .inl ⟨toResult_err hblock, hsome, herr', ?_⟩⟩
        exact hsame.symm.trans herr
      · rw [if_pos hblock] at heq
        cases heq
        refine ⟨rfl, ⟨⟨w, done', hinv'⟩, hstart, hpeer⟩, .inr ⟨hblock, ?_⟩⟩
        exact completes_of_turn (hsame.symm.trans herr) hturn hblock rfl rfl

/-- Running the idle timer is no matter of requests. -/
theorem idleTimerRun_with (u : NativeSocketStreamRcv) (timeout : {n : Nat // 0 < n}) :
    ∃ t n, (u.idleTimerRun timeout).2 =
      { u with inp := { u.inp with idleTimer := t, idleTimeout := n } } := by
  unfold NativeSocketStreamRcv.idleTimerRun
  rw [NativeSocketStreamRcv.assert_of timeout.property]
  simp only
  split
  · exact ⟨_, _, rfl⟩
  · split
    · exact ⟨_, _, rfl⟩
    · split
      · exact ⟨_, _, rfl⟩
      · exact ⟨_, _, rfl⟩

/-- An error of the receiver's own answers the request outstanding, if there is one. -/
theorem eventEffect_of_invocation {u : NativeSocketStreamRcv} {e : Err} (hopen : hosed r = none)
    (hreq : u.inp.userRequest = r.inp.userRequest) (hgen : Genuine (some e))
    (hinvalid : e ≠ .code .invalidArgument) (hidle : outstanding r' = false) (he : hosed r' = some e) :
    EventEffect outstanding hosed (none, []) r r'
      (result? (NativeSocketStreamRcv.invocations (u.invocation (some e, 0)))) := by
  unfold NativeSocketStreamRcv.invocation
  rw [hreq]
  cases hr : r.inp.userRequest with
  | none =>
      refine .silent ?_ (.inl hopen)
      rw [hidle, outstanding, hr]
      rfl
  | some q =>
      change EventEffect outstanding hosed (none, []) r r' (some (toResult (u.received (some e, 0))))
      rw [toResult_err (e := e) rfl]
      refine .answered _ ?_ ?_ (.hosed e hgen hinvalid (.inl hopen) he hidle)
      · rw [outstanding, hr]
        rfl
      · intro hcode
        exact hinvalid (Option.some.inj hcode)

/-- The readable event answers the request outstanding, or leaves it be. -/
theorem onEvPeerSocketReadableOrError_spec {u : NativeSocketStreamRcv} {msgState : RcvMsgState}
    {g : Option (Nat × Received)} (hinv : u.Inv w done) (hstart : u.started = true)
    (hpeer : u.statePeer = true) (hw : msgState ∈ u.inp.evWaits)
    (hcall : ({ u with inp := { u.inp with evWaits := u.inp.evWaits.erase msgState } } :
      NativeSocketStreamRcv).onEvPeerSocketReadableOrError msgState = (r', g)) :
    Inv r' ∧ EventEffect outstanding hosed (none, []) u r'
      (result? (NativeSocketStreamRcv.invocations g)) := by
  obtain ⟨done', hinv', -⟩ := hinv.onEvPeerSocketReadableOrError hw hcall
  unfold NativeSocketStreamRcv.onEvPeerSocketReadableOrError at hcall
  cases herr : u.inp.pendingErrCode with
  | some e =>
      have hreq := hinv.request_eq_none (by rw [herr]; rfl)
      rw [if_pos (by simp [herr]), NativeSocketStreamRcv.assert_of (by exact hreq)] at hcall
      cases hcall
      exact ⟨⟨⟨w, done', hinv'⟩, hstart, hpeer⟩, .silent rfl (.inr rfl)⟩
  | none =>
      -- Something is waited for, so there is a request, and this is its wait.
      cases hreq : u.inp.userRequest with
      | none =>
          rw [(hinv.idle herr hreq).2] at hw
          cases hw
      | some q =>
          obtain ⟨-, msgState', part, hreads, hwaits, hmid⟩ := hinv.busy q hreq
          rw [hwaits] at hw
          obtain rfl := List.mem_singleton.mp hw
          have hreads₀ : In.Reads { u.inp with evWaits := u.inp.evWaits.erase msgState } w done part :=
            { hreads with }
          have hturn := hreads₀.resume herr (by simp [hwaits]) hreq (hmid.congr rfl rfl)
          obtain ⟨q', hq'⟩ := hturn.request
          rw [if_neg (by simp [herr]), NativeSocketStreamRcv.assert_of (by simp [hreq])] at hcall
          simp only at hcall
          generalize In.resume { u.inp with evWaits := u.inp.evWaits.erase msgState } msgState = p
            at hturn hq' hcall
          by_cases hblock : p.1.1 = wouldBlock
          · rw [if_pos hblock] at hcall
            cases hcall
            obtain ⟨-, hsome⟩ := err_of_turn_wouldBlock hturn hblock
            refine ⟨⟨⟨w, done', hinv'⟩, hstart, hpeer⟩, .silent ?_ (.inl herr)⟩
            rw [outstanding, outstanding, hreq, hsome]
            rfl
          · rw [if_neg hblock] at hcall
            cases hcall
            refine ⟨⟨⟨w, done', hinv'⟩, hstart, hpeer⟩, ?_⟩
            unfold NativeSocketStreamRcv.invocation
            rw [show (NativeSocketStreamRcv.inp { u with inp := p.2 }).userRequest = some q' from hq']
            refine .answered _ (by rw [outstanding, hreq]; rfl) (ne_invalid_of_turn hturn) ?_
            exact completes_of_turn herr hturn hblock rfl rfl

/-- The answers to come are no matter to what an event does. -/
theorem eventEffect_of_withAnswers {ks : List SockAnswer} {res : Option (Result (NativeHandle × Blob))}
    (h : EventEffect outstanding hosed (none, []) (r.withAnswers ks) r' res) :
    EventEffect outstanding hosed (none, []) r r' res := by
  cases h with
  | silent same keeps => exact .silent same keeps
  | answered res before ne completes =>
      refine .answered res before ne ?_
      cases completes with
      | message m before after idle => exact .message m before after idle
      | hosed e gen ne' before after idle => exact .hosed e gen ne' before after idle
      | invalid before same => exact absurd rfl ne

/-- An event leaves the receiver in use, and answers an outstanding request or leaves it be. -/
theorem event_spec (r : NativeSocketStreamRcv) (ev : SocketRcvEv) (ks : List SockAnswer)
    (r' : NativeSocketStreamRcv) (res : Option (Result (NativeHandle × Blob))) (h : Inv r)
    (hev : event r ev ks = some (r', res)) :
    Inv r' ∧ EventEffect outstanding hosed (none, []) r r' res := by
  obtain ⟨w, done, hinv₀⟩ := h.reading
  have hinv := hinv₀.withAnswers ks
  have hstart : (r.withAnswers ks).started = true := h.started
  have hpeer : (r.withAnswers ks).statePeer = true := h.peer
  obtain ⟨⟨r₁, obs⟩, hstep, heq⟩ := Option.map_eq_some_iff.mp hev
  cases heq
  suffices hu : Inv r' ∧ EventEffect outstanding hosed (none, []) (r.withAnswers ks) r' (result? obs) from
    ⟨hu.1, eventEffect_of_withAnswers hu.2⟩
  unfold NativeSocketStreamRcv.step at hstep
  generalize r.withAnswers ks = u at hinv hstart hpeer hstep ⊢
  cases ev with
  | idleTimerRun timeout =>
      cases hstep
      obtain ⟨t, n, heq⟩ := idleTimerRun_with u timeout
      refine ⟨⟨⟨w, done, hinv.idleTimerRun timeout⟩, ?_, ?_⟩, ?_⟩
      · rw [heq]
        exact hstart
      · rw [heq]
        exact hpeer
      · rw [heq]
        exact .silent rfl (.inr rfl)
  | socketReadable msgState =>
      simp only [SocketRcvEv.toInput] at hstep
      split at hstep
      · rename_i hw
        rcases hcall : NativeSocketStreamRcv.onEvPeerSocketReadableOrError
          { u with inp := { u.inp with evWaits := u.inp.evWaits.erase msgState } } msgState
          with ⟨r₂, g⟩
        simp only [hcall] at hstep
        cases hstep
        exact onEvPeerSocketReadableOrError_spec hinv hstart hpeer hw hcall
      · cases hstep
  | timerFires =>
      obtain ⟨t, hfire, heq⟩ := Option.map_eq_some_iff.mp hstep
      cases heq
      refine ⟨⟨⟨w, done, hinv.setTimer _ (hinv.sound.timer.fire hfire) ?_⟩, hstart, hpeer⟩,
        .silent rfl (.inr rfl)⟩
      intro hoff
      rw [Timer.fire_evWaits hfire]
      exact hinv.sound.timer_off hoff
  | timerReadable =>
      obtain ⟨t, htake, heq⟩ := Option.map_eq_some_iff.mp hstep
      rcases hcall : NativeSocketStreamRcv.onEvIdleTimerFired
        { u with inp := { u.inp with idleTimer := t } } with ⟨r₂, g⟩
      rw [hcall] at heq
      cases heq
      obtain ⟨hinv', -⟩ := hinv.onEvIdleTimerFired htake hcall
      unfold NativeSocketStreamRcv.onEvIdleTimerFired at hcall
      simp only at hcall
      split at hcall
      · cases hcall
        exact ⟨⟨⟨w, done, hinv'⟩, hstart, hpeer⟩, .silent rfl (.inr rfl)⟩
      · rename_i herr
        cases hcall
        refine ⟨⟨⟨w, done, hinv'⟩, hstart, hpeer⟩, ?_⟩
        exact eventEffect_of_invocation (by simpa [hosed] using herr) rfl (by simp) (by simp) rfl rfl

/-- A receiver just constructed on a socket that carries nothing but what a sender tells. -/
def Init (r : NativeSocketStreamRcv) : Prop :=
  ∃ (w : OnWire) (p : PeerSocket), p.sent = w.sent ∧ p.received = 0 ∧ r = .ctor true p

/-- Receiving is started, with nothing outstanding and no error. -/
theorem inv_start (r : NativeSocketStreamRcv) (h : Init r) :
    r.startReceiveNativeHandleOps.1 = true ∧ Inv r.startReceiveNativeHandleOps.2 ∧
      outstanding r.startReceiveNativeHandleOps.2 = false ∧
      hosed r.startReceiveNativeHandleOps.2 = none := by
  obtain ⟨w, p, hsent, hrcvd, rfl⟩ := h
  have hinv : (NativeSocketStreamRcv.ctor true p).Inv w none :=
    NativeSocketStreamRcv.inv_ctor hrcvd hsent
  exact ⟨rfl, ⟨⟨w, none, { hinv with }⟩, rfl, rfl⟩, rfl, rfl⟩

end SocketRcv

/-- The core of the receiving direction of a `Native_socket_stream`. -/
def socketRcvCore : RcvCore where
  State := NativeSocketStreamRcv
  Req := SocketRcv.Req
  Msg := NativeHandle × Blob
  sz m := m.2.length
  noMsg := (none, [])
  Ev := SocketRcvEv
  Ans := List SockAnswer
  Init := SocketRcv.Init
  startReceiveOps := NativeSocketStreamRcv.startReceiveNativeHandleOps
  asyncReceive := SocketRcv.asyncReceive
  event := SocketRcv.event
  outstanding := SocketRcv.outstanding
  hosed := SocketRcv.hosed
  Inv := SocketRcv.Inv
  sz_noMsg := rfl
  inv_start := SocketRcv.inv_start
  idle_of_hosed r h hhosed := by
    obtain ⟨w, done, hinv⟩ := h.reading
    have hreq := hinv.request_eq_none (Option.isSome_iff_ne_none.mpr hhosed)
    rw [SocketRcv.outstanding, hreq]
    rfl
  receive_spec := SocketRcv.receive_spec
  event_spec := SocketRcv.event_spec

end FlowIpc.Adapter
