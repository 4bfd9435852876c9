import FlowIpc.SocketStream.Accesses

/-!
# The directions of a socket stream

As far as the socket goes, the two directions of a stream are alike (`Direction`): a step is given the
socket's answers, uses some of them, and leaves a state with the error that is kept, if any. What each
must do with the answers is the same too (`Direction.Lawful`): the first error is kept, and after that
the socket is not used; without the socket no cell is moved, and no message handed over.

Source: `sync_io/detail/native_socket_stream_impl_snd.cpp`, `native_socket_stream_impl_rcv.cpp`.
-/

namespace FlowIpc.SocketStream

/-! ## A direction -/

/-- A direction: what steps it takes, given the answers of the socket, and what can be told from it. -/
structure Direction where
  /-- Its states. -/
  State : Type
  /-- What can be done to it. -/
  Input : Type
  /-- What can be seen of it. -/
  Obs : Type
  /-- A step. -/
  step : State → Input → List SockAnswer → Option (State × List Obs)
  /-- The answers that the last step did not need. -/
  answers : State → List SockAnswer
  /-- `m_snd_pending_err_code`, or `m_rcv_pending_err_code`. -/
  pendingErrCode : State → ErrorCode
  /-- The cells written, or read, so far. -/
  moved : State → List Cell
  /-- A message is handed to the user. -/
  isData : Obs → Bool
  /-- The code for a socket that has been put away. -/
  hosedCode : Code

/-- What a direction must do with the answers, of the states in which `P` holds. -/
structure Direction.Lawful (D : Direction) (P : D.State → Prop) : Prop where
  keeps : ∀ s i ks s' obs, P s → D.step s i ks = some (s', obs) → P s'
  /-- The error that the last use of the socket comes to, if any, is kept. -/
  accessed : ∀ s i ks s' obs, P s → D.step s i ks = some (s', obs) → D.pendingErrCode s = none →
    ∃ err, Accessed D.hosedCode (D.answers s') ks err ∧ (err ≠ none → D.pendingErrCode s' = err)
  /-- A direction that keeps an error does not use the socket, and keeps that one. -/
  latched : ∀ s i ks s' obs, P s → D.step s i ks = some (s', obs) → D.pendingErrCode s ≠ none →
    D.pendingErrCode s' = D.pendingErrCode s ∧ D.answers s' = ks ∧ D.moved s' = D.moved s ∧
      ∀ o ∈ obs, D.isData o = false
  /-- A message is no error. -/
  data : ∀ s i ks s' obs, P s → D.step s i ks = some (s', obs) → D.pendingErrCode s' ≠ none →
    ∀ o ∈ obs, D.isData o = false
  /-- Without a socket nothing is moved, and nothing handed over. -/
  still : ∀ s i ks s' obs, P s → D.step s i ks = some (s', obs) → (∀ k ∈ ks, k = .hosed) →
    D.moved s' = D.moved s ∧ ∀ o ∈ obs, D.isData o = false

namespace NativeSocketStreamSnd

/-- The sending direction. -/
def direction : Direction where
  State := NativeSocketStreamSnd
  Input := Input
  Obs := Obs
  step := step
  answers s := s.out.peerSocket.answers
  pendingErrCode s := s.out.pendingErrCode
  moved s := s.out.peerSocket.sent
  isData _ := false
  hosedCode := .lowLvlTransportHosedCannotSend

/-- A sender that is in order, and whose socket is there if it knows of no error. -/
def Sound (s : NativeSocketStreamSnd) : Prop :=
  (∃ told, s.Inv told) ∧ (s.out.pendingErrCode = none → s.out.peerSocket.alive = true)

variable {s s' u : NativeSocketStreamSnd} {i : Input} {ks : List SockAnswer} {obs : List Obs}

/-- What a step comes to, of a sender that knows of no error. -/
theorem Wrote.goes (h : Wrote u i obs s') (herr : u.out.pendingErrCode = none)
    (halive : u.out.peerSocket.alive = true) : u.out.Goes s'.out := by
  cases h with
  | nothing hout _ _ =>
      rw [hout]
      exact Out.goes_refl herr halive
  | version _ _ hout _ =>
      rw [hout]
      exact Out.goes_syncWriteOrQPayload herr halive
  | frame f _ _ _ hout _ =>
      rw [hout]
      exact Out.goes_writeFrame herr halive f
  | queue _ _ hout _ =>
      rw [hout]
      exact Out.goes_onWritable halive

/-- A sender that knows of an error writes nothing. -/
theorem Wrote.out_eq {told : Option (List Frame)} (h : Wrote u i obs s') (hinv : u.Inv told)
    (herr : u.out.pendingErrCode ≠ none) : s'.out = u.out := by
  cases h with
  | nothing hout _ _ => exact hout
  | version hbefore _ _ _ => exact absurd (hinv.fresh hbefore).2.2.1 herr
  | frame f _ hsending _ _ _ => exact absurd hsending.noError herr
  | queue hwait _ _ _ => exact absurd (hinv.of_evWaits hwait).1 herr

/-- The sending direction is lawful. -/
theorem lawful_direction : direction.Lawful Sound where
  keeps s i ks s' obs := by
    rintro ⟨⟨told, hinv⟩, halive⟩ hstep
    obtain ⟨-, told', hinv', -⟩ := hinv.step hstep
    refine ⟨⟨told', hinv'⟩, fun herr' => ?_⟩
    have hwrote := hinv.wrote hstep
    by_cases herr : s.out.pendingErrCode = none
    · exact (hwrote.goes herr (halive herr)).alive herr'
    · rw [hwrote.out_eq (hinv.withAnswers ks) herr] at herr'
      exact absurd herr' herr
  accessed s i ks s' obs := by
    rintro ⟨⟨told, hinv⟩, halive⟩ hstep herr
    have hgoes := (hinv.wrote hstep).goes herr (halive herr)
    exact ⟨_, hgoes.accessed, fun _ => rfl⟩
  latched s i ks s' obs := by
    rintro ⟨⟨told, hinv⟩, -⟩ hstep herr
    have hout := (hinv.wrote hstep).out_eq (hinv.withAnswers ks) herr
    change s'.out.pendingErrCode = _ ∧ s'.out.peerSocket.answers = _ ∧ s'.out.peerSocket.sent = _ ∧ _
    rw [hout]
    exact ⟨rfl, rfl, rfl, fun _ _ => rfl⟩
  data s i ks s' obs _ _ _ _ _ := rfl
  still s i ks s' obs := by
    rintro ⟨⟨told, hinv⟩, halive⟩ hstep hall
    refine ⟨?_, fun _ _ => rfl⟩
    have hwrote := hinv.wrote hstep
    by_cases herr : s.out.pendingErrCode = none
    · exact ((hwrote.goes herr (halive herr)).still hall).1
    · change s'.out.peerSocket.sent = _
      rw [hwrote.out_eq (hinv.withAnswers ks) herr]
      rfl

end NativeSocketStreamSnd

namespace NativeSocketStreamRcv

/-- A message was found. -/
def Obs.isData : Obs → Bool
  | .returned ok _ rcvd => ok && rcvd.err.isNone
  | .invoked _ rcvd => rcvd.err.isNone

/-- The receiving direction. -/
def direction : Direction where
  State := NativeSocketStreamRcv
  Input := Input
  Obs := Obs
  step := step
  answers r := r.inp.peerSocket.answers
  pendingErrCode r := r.inp.pendingErrCode
  moved r := r.inp.peerSocket.taken
  isData := Obs.isData
  hosedCode := .lowLvlTransportHosedCannotReceive

/-- A receiver each of whose waits has something left to read, and whose socket is there if it knows of
no error. -/
def Waiting (r : NativeSocketStreamRcv) : Prop :=
  (∀ msgState ∈ r.inp.evWaits, msgState.Left) ∧
    (r.inp.pendingErrCode = none → r.inp.peerSocket.alive = true)

/-- What a step comes to. -/
structure Did (u : NativeSocketStreamRcv) (obs : List Obs) (r' : NativeSocketStreamRcv) : Prop where
  /-- The socket is used only if no error is known; then the error found is kept. -/
  goes : u.inp.pendingErrCode = none → ∃ err, PeerSocket.Goes .lowLvlTransportHosedCannotReceive
    u.inp.peerSocket r'.inp.peerSocket err ∧ (err ≠ none → r'.inp.pendingErrCode = err)
  latched : u.inp.pendingErrCode ≠ none → r'.inp.pendingErrCode = u.inp.pendingErrCode ∧
    r'.inp.peerSocket = u.inp.peerSocket
  waits : ∀ msgState ∈ r'.inp.evWaits, msgState ∈ u.inp.evWaits ∨ msgState.Left
  /-- A message takes a use of the socket, and there is no error then. -/
  data : ∀ o ∈ obs, o.isData = true → u.inp.pendingErrCode = none ∧ r'.inp.pendingErrCode = none ∧
    r'.inp.peerSocket.answers.length < u.inp.peerSocket.answers.length

variable {r r' u : NativeSocketStreamRcv} {i : Input} {ks : List SockAnswer} {obs : List Obs}

/-- Where the socket is not used, and no message found. -/
theorem did_of_peerSocket (hsocket : r'.inp.peerSocket = u.inp.peerSocket)
    (halive : u.inp.pendingErrCode = none → u.inp.peerSocket.alive = true)
    (herr : u.inp.pendingErrCode ≠ none → r'.inp.pendingErrCode = u.inp.pendingErrCode)
    (hwaits : ∀ msgState ∈ r'.inp.evWaits, msgState ∈ u.inp.evWaits)
    (hobs : ∀ o ∈ obs, o.isData = false) : u.Did obs r' where
  goes hnone := by
    rw [hsocket]
    exact ⟨none, .refl (halive hnone), fun hne => absurd rfl hne⟩
  latched hne := ⟨herr hne, hsocket⟩
  waits ms hms := .inl (hwaits ms hms)
  data o ho hdata := by
    rw [hobs o ho] at hdata
    cases hdata

/-- A turn of reading, of a receiver that knows of no error. -/
theorem did_of_comes {inp inp' : In} {res : Result} (hcomes : inp.Comes (some res, inp'))
    (hsuccess : ∀ n, res = (none, n) →
      inp'.peerSocket.answers.length < inp.peerSocket.answers.length)
    (hsocket : inp.peerSocket = u.inp.peerSocket) (herr : u.inp.pendingErrCode = none)
    (hwaits : ∀ msgState ∈ inp.evWaits, msgState ∈ u.inp.evWaits)
    (hr' : r'.inp.peerSocket = inp'.peerSocket ∧ r'.inp.pendingErrCode = inp'.pendingErrCode ∧
      r'.inp.evWaits = inp'.evWaits)
    (hobs : ∀ o ∈ obs, o.isData = true → res.1 = none) : u.Did obs r' where
  goes _ := by
    obtain ⟨err, hgoes, hkept⟩ := hcomes.goes
    rw [hr'.1, hr'.2.1, ← hsocket]
    exact ⟨err, hgoes, hkept⟩
  latched hne := absurd herr hne
  waits ms hms := by
    rw [hr'.2.2] at hms
    rcases hcomes.waits ms hms with hold | hleft
    · exact .inl (hwaits ms hold)
    · exact .inr hleft
  data o ho hdata := by
    have hnone := hobs o ho hdata
    refine ⟨herr, ?_, ?_⟩
    · rw [hr'.2.1]
      rcases hcomes.result res rfl with hblock | herr'
      · rw [hnone] at hblock
        cases hblock
      · exact herr'.symm.trans hnone
    · rw [hr'.1, ← hsocket]
      exact hsuccess res.2 (Prod.ext hnone rfl)

/-- The only thing seen of an event is that the handler was invoked. -/
theorem eq_invoked_of_mem {res : Result} {o : Obs} (h : o ∈ invocations (r.invocation res)) :
    ∃ f, o = .invoked f (r.received res) := by
  unfold invocation at h
  cases hreq : r.inp.userRequest with
  | none =>
      rw [hreq] at h
      cases h
  | some q =>
      rw [hreq] at h
      exact ⟨q.onDoneFunc, List.mem_singleton.mp h⟩

/-- A request is answered at once, or waited for. -/
theorem Waiting.asyncReceiveNativeHandleImpl {hndl : Option NativeHandle} {buf : Blob} {f : Nat}
    {ok : Bool} {rcvd : Received} (h : u.Waiting)
    (hcall : u.asyncReceiveNativeHandleImpl hndl buf f = (ok, rcvd, r')) :
    u.Did [.returned ok f rcvd] r' := by
  have hsingle : ∀ {o : Obs}, o.isData = false → ∀ o' ∈ [o], o'.isData = false := by
    intro o ho o' ho'
    rw [List.mem_singleton.mp ho']
    exact ho
  unfold NativeSocketStreamRcv.asyncReceiveNativeHandleImpl at hcall
  split at hcall
  · cases hcall
    exact did_of_peerSocket rfl h.2 (fun _ => rfl) (fun _ => id) (hsingle rfl)
  · split at hcall
    · cases hcall
      exact did_of_peerSocket rfl h.2 (fun _ => rfl) (fun _ => id) (hsingle rfl)
    · split at hcall
      · rename_i herr
        cases hcall
        refine did_of_peerSocket rfl h.2 (fun _ => rfl) (fun _ => id) (hsingle ?_)
        obtain ⟨e, he⟩ := Option.isSome_iff_exists.mp herr
        simp [Obs.isData, he]
      · rename_i herr
        have herr : u.inp.pendingErrCode = none := by simpa using herr
        let inp : In := { u.inp with userRequest := some ⟨hndl, buf, f⟩ }
        have hcomes := In.comes_readMsg (r := inp) (h.2 herr) herr
        simp only [Prod.mk.injEq] at hcall
        obtain ⟨rfl, rfl, rfl⟩ := hcall
        refine did_of_comes hcomes (fun n hn => In.readMsg_success (h.2 herr) herr hn) rfl herr
          (fun _ => id) ?_ ?_
        · split <;> exact ⟨rfl, rfl, rfl⟩
        · intro o ho hdata
          rw [List.mem_singleton.mp ho] at hdata
          simpa [Obs.isData, received] using hdata

/-- When the socket is readable, the request is answered or goes on. -/
theorem Waiting.onEvPeerSocketReadableOrError {msgState : RcvMsgState} {g : Option (Nat × Received)}
    (h : u.Waiting) (hw : msgState ∈ u.inp.evWaits)
    (hcall : ({ u with inp := { u.inp with evWaits := u.inp.evWaits.erase msgState } } :
      NativeSocketStreamRcv).onEvPeerSocketReadableOrError msgState = (r', g)) :
    u.Did (invocations g) r' := by
  unfold NativeSocketStreamRcv.onEvPeerSocketReadableOrError at hcall
  split at hcall
  · cases hcall
    exact did_of_peerSocket rfl h.2 (fun _ => rfl) (fun _ => List.mem_of_mem_erase)
      fun _ ho => (by cases ho)
  · rename_i herr
    have herr : u.inp.pendingErrCode = none := by simpa using herr
    simp only at hcall
    generalize hv : assert ({ u with inp := { u.inp with evWaits := u.inp.evWaits.erase msgState } } :
      NativeSocketStreamRcv) (u.inp.userRequest.isSome) = v at hcall
    generalize hinp : v.inp = inp at hcall
    have hsocket : inp.peerSocket = u.inp.peerSocket := by rw [← hinp, ← hv]; rfl
    have herr' : inp.pendingErrCode = none := by rw [← hinp, ← hv]; exact herr
    have hwaits : inp.evWaits = u.inp.evWaits.erase msgState := by rw [← hinp, ← hv]; rfl
    have halive : inp.peerSocket.alive = true := by rw [hsocket, h.2 herr]
    have hcomes : inp.Comes (some (inp.resume msgState).1, (inp.resume msgState).2) :=
      In.comes_resume halive herr'
    have hsuccess : ∀ n, (inp.resume msgState).1 = (none, n) → _ := fun n =>
      In.resume_success halive herr' (h.1 msgState hw)
    refine did_of_comes hcomes hsuccess hsocket herr
      (fun ms hms => List.mem_of_mem_erase (by rwa [← hwaits])) ?_ ?_
    · split at hcall
      · cases hcall
        exact ⟨rfl, rfl, rfl⟩
      · cases hcall
        exact ⟨rfl, rfl, rfl⟩
    · split at hcall
      · cases hcall
        exact fun _ ho => (by cases ho)
      · cases hcall
        intro o ho hdata
        obtain ⟨f, rfl⟩ := eq_invoked_of_mem ho
        simpa [Obs.isData, received] using hdata

/-- The idle timeout is an error of the receiver's own. -/
theorem Waiting.onEvIdleTimerFired {g : Option (Nat × Received)} (h : u.Waiting) {t : Timer}
    (hcall : { u with inp := { u.inp with idleTimer := t } }.onEvIdleTimerFired = (r', g)) :
    u.Did (invocations g) r' := by
  unfold NativeSocketStreamRcv.onEvIdleTimerFired at hcall
  simp only at hcall
  split at hcall
  · cases hcall
    exact did_of_peerSocket rfl h.2 (fun _ => rfl) (fun _ => id) fun _ ho => (by cases ho)
  · rename_i herr
    cases hcall
    refine did_of_peerSocket rfl h.2 (fun hne => absurd hne (by simpa using herr)) (fun _ => id) ?_
    intro o ho
    obtain ⟨f, rfl⟩ := eq_invoked_of_mem ho
    simp [Obs.isData, received]

/-- Every step answers the request, or leaves it waited for. -/
theorem Waiting.did (h : r.Waiting) (hstep : r.step i ks = some (r', obs)) :
    (r.withAnswers ks).Did obs r' := by
  have hu : (r.withAnswers ks).Waiting := h
  unfold NativeSocketStreamRcv.step at hstep
  generalize r.withAnswers ks = u at hu hstep ⊢
  have hnone : ∀ o ∈ ([] : List Obs), o.isData = false := fun _ ho => (by cases ho)
  cases i with
  | connected =>
      cases hstep
      exact did_of_peerSocket rfl hu.2 (fun _ => rfl) (fun _ => id) hnone
  | startReceiveNativeHandleOps =>
      cases hstep
      unfold startReceiveNativeHandleOps
      split
      · exact did_of_peerSocket rfl hu.2 (fun _ => rfl) (fun _ => id) hnone
      · exact did_of_peerSocket rfl hu.2 (fun _ => rfl) (fun _ => id) hnone
  | asyncReceiveNativeHandle hndl buf f =>
      rcases hcall : u.asyncReceiveNativeHandleImpl (some hndl) buf f with ⟨ok, rcvd, r₁⟩
      simp only [asyncReceiveNativeHandle, hcall] at hstep
      cases hstep
      exact hu.asyncReceiveNativeHandleImpl hcall
  | asyncReceiveBlob buf f =>
      rcases hcall : u.asyncReceiveNativeHandleImpl none buf f with ⟨ok, rcvd, r₁⟩
      simp only [asyncReceiveBlob, hcall] at hstep
      cases hstep
      exact hu.asyncReceiveNativeHandleImpl hcall
  | idleTimerRun timeout =>
      cases hstep
      unfold NativeSocketStreamRcv.idleTimerRun
      rw [assert_of timeout.property]
      simp only
      split
      · exact did_of_peerSocket rfl hu.2 (fun _ => rfl) (fun _ => id) hnone
      · split
        · exact did_of_peerSocket rfl hu.2 (fun _ => rfl) (fun _ => id) hnone
        · split
          · exact did_of_peerSocket rfl hu.2 (fun _ => rfl) (fun _ => id) hnone
          · exact did_of_peerSocket rfl hu.2 (fun _ => rfl) (fun _ => id) hnone
  | socketReadable msgState =>
      simp only at hstep
      split at hstep
      · rename_i hw
        cases hstep
        exact hu.onEvPeerSocketReadableOrError hw rfl
      · cases hstep
  | timerFires =>
      simp only [Option.map_eq_some_iff] at hstep
      obtain ⟨t, -, heq⟩ := hstep
      cases heq
      exact did_of_peerSocket rfl hu.2 (fun _ => rfl) (fun _ => id) hnone
  | timerReadable =>
      simp only [Option.map_eq_some_iff] at hstep
      obtain ⟨t, -, heq⟩ := hstep
      rcases hcall : NativeSocketStreamRcv.onEvIdleTimerFired
        { u with inp := { u.inp with idleTimer := t } } with ⟨r₁, g⟩
      rw [hcall] at heq
      cases heq
      exact hu.onEvIdleTimerFired hcall

/-- A receiver that knows of an error has no message. -/
theorem Did.quiet (h : u.Did obs r') (herr : u.inp.pendingErrCode ≠ none) :
    ∀ o ∈ obs, o.isData = false := by
  intro o ho
  by_contra hdata
  exact herr (h.data o ho (by simpa using hdata)).1

/-- Nor has one whose socket is not there: a message takes an answer, and without an error that is of a
socket that is. -/
theorem Did.not_data_of_gone (h : u.Did obs r') (herr : u.inp.pendingErrCode = none)
    (hall : ∀ k ∈ u.inp.peerSocket.answers, k = .hosed) : ∀ o ∈ obs, o.isData = false := by
  intro o ho
  by_contra hdata
  obtain ⟨-, herr', hlt⟩ := h.data o ho (by simpa using hdata)
  obtain ⟨err, hgoes, hkept⟩ := h.goes herr
  obtain rfl : err = none := by
    by_contra hne
    exact hne ((hkept hne).symm.trans herr')
  obtain ⟨k, hk, hfine⟩ := hgoes.accessed.exists_fine hlt
  rw [hall k hk] at hfine
  rcases hfine with hk | ⟨n, hk⟩ <;> cases hk

/-- So is the receiving direction. -/
theorem lawful_direction : direction.Lawful Waiting where
  keeps r i ks r' obs hwait hstep := by
    have hdid := hwait.did hstep
    refine ⟨fun ms hms => ?_, fun herr' => ?_⟩
    · rcases hdid.waits ms hms with hold | hleft
      · exact hwait.1 ms hold
      · exact hleft
    · by_cases herr : r.inp.pendingErrCode = none
      · obtain ⟨err, hgoes, hkept⟩ := hdid.goes herr
        apply hgoes.alive_iff.mpr
        by_contra hne
        exact hne ((hkept hne).symm.trans herr')
      · exact absurd ((hdid.latched herr).1.symm.trans herr') herr
  accessed r i ks r' obs hwait hstep herr := by
    obtain ⟨err, hgoes, hkept⟩ := (hwait.did hstep).goes herr
    exact ⟨err, hgoes.accessed, hkept⟩
  latched r i ks r' obs hwait hstep herr := by
    have hdid := hwait.did hstep
    obtain ⟨herr', hsocket⟩ := hdid.latched herr
    refine ⟨herr', ?_, ?_, hdid.quiet herr⟩
    · change r'.inp.peerSocket.answers = ks
      rw [hsocket]
      rfl
    · change r'.inp.peerSocket.taken = r.inp.peerSocket.taken
      rw [hsocket]
      rfl
  data r i ks r' obs hwait hstep herr' o ho := by
    by_contra hdata
    exact herr' ((hwait.did hstep).data o ho ((Bool.not_eq_false _).mp hdata)).2.1
  still r i ks r' obs hwait hstep hall := by
    have hdid := hwait.did hstep
    by_cases herr : r.inp.pendingErrCode = none
    · obtain ⟨err, hgoes, hkept⟩ := hdid.goes herr
      obtain ⟨hsent, hrcvd⟩ := hgoes.still hall
      refine ⟨?_, hdid.not_data_of_gone herr hall⟩
      change r'.inp.peerSocket.taken = r.inp.peerSocket.taken
      unfold PeerSocket.taken
      rw [hsent, hrcvd]
      rfl
    · obtain ⟨-, hsocket⟩ := hdid.latched herr
      refine ⟨?_, hdid.quiet herr⟩
      change r'.inp.peerSocket.taken = r.inp.peerSocket.taken
      rw [hsocket]
      rfl

end NativeSocketStreamRcv

end FlowIpc.SocketStream
