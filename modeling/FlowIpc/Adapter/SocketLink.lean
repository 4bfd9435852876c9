import FlowIpc.Adapter.Link
import FlowIpc.Adapter.SocketRcvCore
import FlowIpc.Adapter.SocketSndCore
import FlowIpc.SocketStream.Fifo

/-!
# Handles and blobs over a socket, by the async-I/O pattern

`socketLink`: the sending direction of one `Native_socket_stream` and the receiving direction of the opposing
one, as two cores. What they can come to by themselves is what `SocketStream.World` can come to
(`CoreWorld.Reached.socketWorld`), and with that the asynchronous `Native_socket_stream` at each end.

**Results.** In every state that two asynchronous streams can come to, in one direction,
* (`socketAsync_simulated`) streams used by the `sync_io` pattern can come to the same, having accepted and
  delivered the same;
* (`socketAsync_inOrder`) what handlers are told of are the first of the handles and blobs accepted, in order,
  each handle with its blob and each told to the first request not answered before, and once any handler is
  told of the graceful close they are all of them, and it was asked for.

Source: `detail/native_socket_stream_impl.cpp` (async-I/O), over `sync_io/detail/native_socket_stream_impl*.cpp`.
-/

namespace FlowIpc.Adapter

open SocketStream Lts

/-- The two cores at the ends of a socket, in one direction. -/
def socketLink : Link where
  Snd := socketSndCore
  Rcv := socketRcvCore
  Transport := List Cell
  sndEnd s := s.out.peerSocket.sent
  rcvEnd r := r.inp.peerSocket.sent
  setSndEnd s t := { s with out := { s.out with peerSocket := { s.out.peerSocket with sent := t } } }
  setRcvEnd r t := { r with inp := { r.inp with peerSocket := { r.inp.peerSocket with sent := t } } }
  Init s r := s = .ctor true ⟨true, [], 0, []⟩ ∧ r = .ctor true ⟨true, [], 0, []⟩
  init_rcv s r := by
    rintro ⟨-, rfl⟩
    have hctor : (NativeSocketStreamSnd.ctor true ⟨true, [], 0, []⟩).Inv none :=
      NativeSocketStreamSnd.inv_ctor rfl
    exact ⟨hctor.onWire, _, rfl, rfl, rfl⟩
  setSndEnd_sndEnd _ := rfl
  setRcvEnd_rcvEnd _ := rfl
  sndEnd_setSndEnd _ _ := rfl
  rcvEnd_setRcvEnd _ _ := rfl
  setSndEnd_setSndEnd _ _ _ := rfl
  setRcvEnd_setRcvEnd _ _ _ := rfl
  outstanding_setRcvEnd _ _ := rfl
  hosed_setRcvEnd _ _ := rfl

/-! ## What is seen of an event -/

/-- A sender that has been started in the PEER state. -/
structure SndInUse (s : NativeSocketStreamSnd) : Prop where
  started : s.started = true
  peer : s.statePeer = true

/-- It stays so. -/
theorem SndInUse.step {s s' : NativeSocketStreamSnd} {told : Option (List Frame)}
    {i : NativeSocketStreamSnd.Input} {ks : List SockAnswer} {obs : List NativeSocketStreamSnd.Obs}
    (h : SndInUse s) (hinv : s.Inv told) (hstep : s.step i ks = some (s', obs)) : SndInUse s' := by
  have hu : SndInUse (s.withAnswers ks) := ⟨h.started, h.peer⟩
  have huinv := hinv.withAnswers ks
  unfold NativeSocketStreamSnd.step at hstep
  generalize s.withAnswers ks = u at hu huinv hstep
  have hsame {t : NativeSocketStreamSnd} (ht : SocketSnd.Same u t) : SndInUse t :=
    ⟨ht.started.trans hu.started, ht.peer.trans hu.peer⟩
  cases i with
  | connected =>
      cases hstep
      exact ⟨hu.started, rfl⟩
  | startSendNativeHandleOps =>
      cases hstep
      unfold NativeSocketStreamSnd.startSendNativeHandleOps
      rw [if_pos hu.started]
      exact hu
  | sendNativeHandle m =>
      rcases hcall : u.sendNativeHandle m.val.1 m.val.2 with ⟨ok, err, t⟩
      have ht : SndInUse t := by
        rcases NativeSocketStreamSnd.sendNativeHandle_cases hcall with ⟨-, rfl⟩ | ⟨-, -, -, -, ht⟩
        · exact hu
        · rcases ht with rfl | rfl
          · exact ⟨hu.started, hu.peer⟩
          · have hre := SocketSnd.same_rescheduleAutoPing
              (s := { u with out := u.out.sendLowLvlPayloads m.val.1 m.val.2 })
            exact hsame ⟨hre.started, hre.peer, hre.finished⟩
      simp only [hcall] at hstep
      split at hstep
      · rename_i heq
        cases heq
        cases hstep
        exact ht
      · rename_i heq
        cases heq
        cases hstep
        exact ht
  | endSending =>
      rcases hcall : u.asyncEndSendingImpl none with ⟨ok, err, t⟩
      simp only [NativeSocketStreamSnd.endSending, hcall] at hstep
      cases hstep
      obtain ⟨hstart, hpeer⟩ := SocketSnd.asyncEndSendingImpl_same hcall
      exact ⟨hstart.trans hu.started, hpeer.trans hu.peer⟩
  | asyncEndSending f =>
      rcases hcall : u.asyncEndSendingImpl (some f) with ⟨ok, err, t⟩
      simp only [NativeSocketStreamSnd.asyncEndSending, hcall] at hstep
      cases hstep
      obtain ⟨hstart, hpeer⟩ := SocketSnd.asyncEndSendingImpl_same hcall
      exact ⟨hstart.trans hu.started, hpeer.trans hu.peer⟩
  | autoPing period =>
      cases hstep
      exact hsame (SocketSnd.same_autoPing period)
  | socketWritable =>
      simp only at hstep
      split at hstep
      · rename_i hw
        rcases hcall : NativeSocketStreamSnd.onEvPeerSocketWritableOrError
          { u with out := { u.out with evWaits := u.out.evWaits - 1 } } with ⟨t, g⟩
        obtain ⟨-, -, -, heq⟩ := huinv.onEvPeerSocketWritableOrError hw hcall
        simp only [hcall] at hstep
        cases hstep
        rw [heq]
        exact ⟨hu.started, hu.peer⟩
      · cases hstep
  | timerFires =>
      obtain ⟨t, -, heq⟩ := Option.map_eq_some_iff.mp hstep
      cases heq
      exact ⟨hu.started, hu.peer⟩
  | timerReadable =>
      obtain ⟨t, -, heq⟩ := Option.map_eq_some_iff.mp hstep
      cases heq
      have ht := SocketSnd.same_onEvAutoPingNowTimerFired (s := { u with autoPingTimer := t })
      exact hsame ⟨ht.started, ht.peer, ht.finished⟩

/-- A sender accepts nothing in an event. -/
theorem socketSnd_event_accepted {s s' : NativeSocketStreamSnd} {ev : SocketSndEv}
    {ks : List SockAnswer} {obs : List NativeSocketStreamSnd.Obs}
    (hstep : s.step ev.toInput ks = some (s', obs)) : NativeSocketStreamSnd.accepted obs = [] := by
  have hinvoked (g : Option (Nat × ErrorCode)) :
      NativeSocketStreamSnd.accepted (NativeSocketStreamSnd.invocations g) = [] := by
    cases g with
    | none => rfl
    | some g => rfl
  unfold NativeSocketStreamSnd.step at hstep
  cases ev with
  | socketWritable =>
      simp only [SocketSndEv.toInput] at hstep
      split at hstep
      · cases hstep
        exact hinvoked _
      · cases hstep
  | timerFires =>
      obtain ⟨t, -, heq⟩ := Option.map_eq_some_iff.mp hstep
      cases heq
      rfl
  | timerReadable =>
      obtain ⟨t, -, heq⟩ := Option.map_eq_some_iff.mp hstep
      cases heq
      rfl

/-- A receiver invokes one handler in an event, or none. -/
theorem socketRcv_event_obs {r r' : NativeSocketStreamRcv} {ev : SocketRcvEv} {ks : List SockAnswer}
    {obs : List NativeSocketStreamRcv.Obs} (hstep : r.step ev.toInput ks = some (r', obs)) :
    ∃ g, obs = NativeSocketStreamRcv.invocations g := by
  unfold NativeSocketStreamRcv.step at hstep
  cases ev with
  | idleTimerRun timeout =>
      cases hstep
      exact ⟨none, rfl⟩
  | socketReadable msgState =>
      simp only [SocketRcvEv.toInput] at hstep
      split at hstep
      · cases hstep
        exact ⟨_, rfl⟩
      · cases hstep
  | timerFires =>
      obtain ⟨t, -, heq⟩ := Option.map_eq_some_iff.mp hstep
      cases heq
      exact ⟨none, rfl⟩
  | timerReadable =>
      obtain ⟨t, -, heq⟩ := Option.map_eq_some_iff.mp hstep
      cases heq
      exact ⟨_, rfl⟩

/-- A result is a message if what the user finds is one. -/
theorem message?_toResult (rcvd : Received) :
    AsyncAdapterReceiver.message? (C := socketRcvCore) (toResult rcvd) = rcvd.message? := by
  unfold toResult Received.message?
  cases rcvd.err with
  | none => rfl
  | some e => rfl

/-- One entry gives one or none. -/
theorem filterMap_single {α β : Type} (f : α → Option β) (x : α) : [x].filterMap f = (f x).toList := by
  cases hx : f x with
  | none => simp [hx]
  | some y => simp [hx]

/-- What a handler is told is what the core has come to. -/
theorem socketRcv_delivered_invocations (g : Option (Nat × Received)) :
    NativeSocketStreamRcv.delivered (NativeSocketStreamRcv.invocations g) =
      (SocketRcv.result? (NativeSocketStreamRcv.invocations g)).toList.filterMap
        (AsyncAdapterReceiver.message? (C := socketRcvCore)) := by
  rcases g with _ | ⟨f, rcvd⟩
  · rfl
  · refine (filterMap_single _ _).trans (.trans ?_ (filterMap_single _ _).symm)
    exact congrArg Option.toList (message?_toResult rcvd).symm

/-- A request that is accepted finds none outstanding. -/
theorem socketRcv_idle_of_accepted {r r' : NativeSocketStreamRcv} {req : SocketRcv.Req}
    {ks : List SockAnswer} {res : Result (NativeHandle × Blob)}
    (hcall : SocketRcv.asyncReceive r req ks = (true, res, r')) :
    SocketRcv.outstanding r = false := by
  unfold SocketRcv.asyncReceive NativeSocketStreamRcv.asyncReceiveNativeHandleImpl at hcall
  cases hreq : r.inp.userRequest with
  | none =>
      rw [SocketRcv.outstanding, hreq]
      rfl
  | some q =>
      have hreq' : (r.withAnswers ks).inp.userRequest.isSome = true := congrArg Option.isSome hreq
      simp only [hreq', if_true] at hcall
      split at hcall
      · cases hcall
      · cases hcall

/-! ## The cores are those of the `sync_io` pattern -/

/-- Two cores are the sender and the receiver of a world. -/
structure IsSocketWorld (c : CoreWorld socketLink) (w : World) : Prop where
  inv : ∃ told done, w.Inv told done
  sndInUse : SndInUse w.snd
  rcvInUse : w.rcv.started = true ∧ w.rcv.statePeer = true
  snd : c.snd.core = w.snd
  rcv : c.rcv.core = w.rcv
  accepted : c.snd.accepted = w.accepted
  endCalled : c.snd.endCalled = w.endCalled
  delivered : c.rcv.results.filterMap AsyncAdapterReceiver.message? = w.delivered

namespace IsSocketWorld

variable {c : CoreWorld socketLink} {w : World}

/-- The receiver is in use. -/
theorem rcv_inv (h : IsSocketWorld c w) : socketRcvCore.Inv c.rcv.core := by
  obtain ⟨told, done, hinv⟩ := h.inv
  rw [h.rcv]
  exact ⟨⟨hinv.snd.onWire, done, hinv.rcv⟩, h.rcvInUse.1, h.rcvInUse.2⟩

/-- A step of the sender, as a step of the world. -/
theorem snd_step {i : NativeSocketStreamSnd.Input} {k : List SockAnswer} {s : NativeSocketStreamSnd}
    {o : List NativeSocketStreamSnd.Obs} {snd : SndRecord socketLink.Snd} (h : IsSocketWorld c w)
    (hstep : w.snd.step i k = some (s, o)) (hcore : snd.core = s)
    (hacc : snd.accepted = w.accepted ++ NativeSocketStreamSnd.accepted o)
    (hend : snd.endCalled = (w.endCalled || i.isEnd)) :
    ∃ m w', w.Step m w' ∧ IsSocketWorld (c.sndTo snd) w' := by
  subst hcore
  have hnext : w.Step (.snd i k) _ := Option.map_eq_some_iff.mpr ⟨(snd.core, o), hstep, rfl⟩
  obtain ⟨told, done, hinv⟩ := h.inv
  obtain ⟨told', hinv'⟩ := hinv.snd_step hnext
  refine ⟨_, _, hnext, ?_⟩
  exact {
    inv := ⟨_, _, hinv'⟩
    sndInUse := h.sndInUse.step hinv.snd hstep
    rcvInUse := h.rcvInUse
    snd := rfl
    rcv := by
      unfold CoreWorld.sndTo
      simp only
      rw [h.rcv]
      rfl
    accepted := hacc
    endCalled := hend
    delivered := h.delivered }

/-- A step of the receiver, as a step of the world. -/
theorem rcv_step {i : NativeSocketStreamRcv.Input} {k : List SockAnswer} {r : NativeSocketStreamRcv}
    {o : List NativeSocketStreamRcv.Obs} {rcv : RcvRecord socketLink.Rcv} (h : IsSocketWorld c w)
    (hstep : w.rcv.step i k = some (r, o)) (hcore : rcv.core = r)
    (huse : r.started = true ∧ r.statePeer = true)
    (hdel : rcv.results.filterMap AsyncAdapterReceiver.message? =
      w.delivered ++ NativeSocketStreamRcv.delivered o) :
    ∃ m w', w.Step m w' ∧ IsSocketWorld (c.rcvTo rcv) w' := by
  subst hcore
  have hnext : w.Step (.rcv i k) _ := Option.map_eq_some_iff.mpr ⟨(rcv.core, o), hstep, rfl⟩
  obtain ⟨told, done, hinv⟩ := h.inv
  obtain ⟨done', hinv'⟩ := hinv.rcv_step hnext
  -- What is read stays on the wire, where the model keeps it.
  have hsent := hinv'.rcv.sound.sent_eq
  refine ⟨_, _, hnext, ?_⟩
  exact {
    inv := ⟨_, _, hinv'⟩
    sndInUse := h.sndInUse
    rcvInUse := huse
    snd := by
      unfold CoreWorld.rcvTo
      simp only
      rw [h.snd]
      exact congrArg (fun l : List Cell =>
        { w.snd with out := { w.snd.out with peerSocket := { w.snd.out.peerSocket with sent := l } } })
        hsent
    rcv := rfl
    accepted := h.accepted
    endCalled := h.endCalled
    delivered := hdel }

/-- A message is accepted by the one if it is by the other. -/
theorem send_op {m : NativeSocketStreamSnd.UserMsg} {ks : List SockAnswer}
    {snd : SndRecord socketLink.Snd} (h : IsSocketWorld c w)
    (hop : c.snd.next (.send m ks) = some snd) :
    ∃ m w', w.Step m w' ∧ IsSocketWorld (c.sndTo snd) w' := by
  have hok := SocketSnd.sendNativeHandle_ok (s := w.snd.withAnswers ks) h.sndInUse.started
    h.sndInUse.peer m
  rcases hcall : (w.snd.withAnswers ks).sendNativeHandle m.val.1 m.val.2 with ⟨ok, err, s⟩
  rw [hcall] at hok
  obtain rfl : ok = true := hok
  have hsend : socketLink.Snd.send c.snd.core m ks = (true, err, s) := by
    rw [h.snd]
    exact hcall
  cases hop.symm.trans (SndRecord.next_send hsend)
  cases err with
  | none =>
      refine h.snd_step (i := .sendNativeHandle m) (k := ks) (s := s) (o := [.accepted m]) ?_ rfl ?_ ?_
      · unfold NativeSocketStreamSnd.step
        simp only [hcall]
      · exact congrArg (· ++ [m]) h.accepted
      · exact h.endCalled.trans (Bool.or_false _).symm
  | some e =>
      refine h.snd_step (i := .sendNativeHandle m) (k := ks) (s := s) (o := []) ?_ rfl ?_ ?_
      · unfold NativeSocketStreamSnd.step
        simp only [hcall]
      · exact h.accepted.trans (List.append_nil _).symm
      · exact h.endCalled.trans (Bool.or_false _).symm

/-- An event of the one is an event of the other. -/
theorem sndEvent_op {ev : SocketSndEv} {ks : List SockAnswer} {snd : SndRecord socketLink.Snd}
    (h : IsSocketWorld c w) (hop : c.snd.next (.event ev ks) = some snd) :
    ∃ m w', w.Step m w' ∧ IsSocketWorld (c.sndTo snd) w' := by
  obtain ⟨⟨s, r⟩, hev, rfl⟩ := Option.map_eq_some_iff.mp hop
  obtain ⟨⟨s', obs⟩, hstep, heq⟩ := Option.map_eq_some_iff.mp hev
  cases heq
  have hsame : w.snd.step ev.toInput ks = NativeSocketStreamSnd.step c.snd.core ev.toInput ks := by
    rw [h.snd]
  have hstep' := hsame.trans hstep
  apply h.snd_step hstep' rfl
  · rw [socketSnd_event_accepted hstep', List.append_nil]
    exact h.accepted
  · rw [show ev.toInput.isEnd = false by cases ev <;> rfl, Bool.or_false]
    exact h.endCalled

/-- An operation on the sender is a step of the world. -/
theorem snd_op {op : SndOp socketLink.Snd} {snd : SndRecord socketLink.Snd} (h : IsSocketWorld c w)
    (hop : c.snd.next op = some snd) : ∃ m w', w.Step m w' ∧ IsSocketWorld (c.sndTo snd) w' := by
  cases op with
  | send m ks => exact h.send_op hop
  | autoPing period ks =>
      cases hop
      apply h.snd_step (i := .autoPing period) (k := ks) rfl
      · rw [h.snd]
        rfl
      · exact h.accepted.trans (List.append_nil _).symm
      · exact h.endCalled.trans (Bool.or_false _).symm
  | endSending ks =>
      cases hop
      apply h.snd_step (i := .endSending) (k := ks) rfl
      · rw [h.snd]
        rfl
      · exact h.accepted.trans (List.append_nil _).symm
      · exact (Bool.or_true _).symm
  | asyncEndSending ks =>
      cases hop
      apply h.snd_step (i := .asyncEndSending 0) (k := ks) rfl
      · rw [h.snd]
        rfl
      · exact h.accepted.trans (List.append_nil _).symm
      · exact (Bool.or_true _).symm
  | event ev ks => exact h.sndEvent_op hop

/-- What a request comes to at once is delivered at once. -/
theorem delivered_results (h : IsSocketWorld c w) {rcvd : Received} {res : Result socketLink.Rcv.Msg}
    (hres : res = toResult rcvd) :
    (if res.1 = wouldBlock then c.rcv.results else c.rcv.results ++ [res]).filterMap
        AsyncAdapterReceiver.message? =
      w.delivered ++ NativeSocketStreamRcv.delivered [.returned true 0 rcvd] := by
  have hsingle : NativeSocketStreamRcv.delivered [.returned true 0 rcvd] = rcvd.message?.toList :=
    filterMap_single _ _
  have hmsg : AsyncAdapterReceiver.message? res = rcvd.message? := by
    rw [hres]
    exact message?_toResult rcvd
  rw [← h.delivered, hsingle]
  split
  · rename_i hblock
    have hnone : rcvd.message? = none := by
      rw [Received.message?, if_neg]
      rw [hres] at hblock
      rw [show rcvd.err = wouldBlock from hblock]
      simp
    rw [hnone]
    exact (List.append_nil _).symm
  · rw [List.filterMap_append]
    exact congrArg _ ((filterMap_single _ _).trans (congrArg Option.toList hmsg))

/-- A request to the one is a request to the other. -/
theorem asyncReceive_op {req : SocketRcv.Req} {ks : List SockAnswer} {rcv : RcvRecord socketLink.Rcv}
    (h : IsSocketWorld c w) (hop : c.rcv.next (.asyncReceive req ks) = some rcv) :
    ∃ m w', w.Step m w' ∧ IsSocketWorld (c.rcvTo rcv) w' := by
  obtain ⟨target, buf⟩ := req
  rcases hcall : (w.rcv.withAnswers ks).asyncReceiveNativeHandleImpl target buf 0 with ⟨ok, rcvd, r⟩
  have hcall' : socketLink.Rcv.asyncReceive c.rcv.core (target, buf) ks = (ok, toResult rcvd, r) := by
    rw [h.rcv]
    change SocketRcv.asyncReceive w.rcv (target, buf) ks = _
    unfold SocketRcv.asyncReceive
    rw [hcall]
  cases ok with
  | false => cases hop.symm.trans (RcvRecord.next_asyncReceive_refused hcall')
  | true =>
      cases hop.symm.trans (RcvRecord.next_asyncReceive hcall')
      obtain ⟨-, hinv, -⟩ := socketRcvCore.receive_spec _ _ _ _ _ _ h.rcv_inv
        (socketRcv_idle_of_accepted hcall') hcall'
      cases target with
      | none =>
          refine h.rcv_step (i := .asyncReceiveBlob buf 0) (k := ks)
            (o := [.returned true 0 rcvd]) ?_ rfl ⟨hinv.started, hinv.peer⟩ (h.delivered_results rfl)
          unfold NativeSocketStreamRcv.step NativeSocketStreamRcv.asyncReceiveBlob
          simp only [hcall]
      | some hndl =>
          refine h.rcv_step (i := .asyncReceiveNativeHandle hndl buf 0) (k := ks)
            (o := [.returned true 0 rcvd]) ?_ rfl ⟨hinv.started, hinv.peer⟩ (h.delivered_results rfl)
          unfold NativeSocketStreamRcv.step NativeSocketStreamRcv.asyncReceiveNativeHandle
          simp only [hcall]

/-- An event of the one is an event of the other. -/
theorem rcvEvent_op {ev : SocketRcvEv} {ks : List SockAnswer} {rcv : RcvRecord socketLink.Rcv}
    (h : IsSocketWorld c w) (hop : c.rcv.next (.event ev ks) = some rcv) :
    ∃ m w', w.Step m w' ∧ IsSocketWorld (c.rcvTo rcv) w' := by
  obtain ⟨⟨r, res⟩, hev, rfl⟩ := Option.map_eq_some_iff.mp hop
  obtain ⟨hinv, -⟩ := socketRcvCore.event_spec _ _ _ _ _ h.rcv_inv hev
  obtain ⟨⟨r', obs⟩, hstep, heq⟩ := Option.map_eq_some_iff.mp hev
  cases heq
  have hsame : w.rcv.step ev.toInput ks = NativeSocketStreamRcv.step c.rcv.core ev.toInput ks := by
    rw [h.rcv]
  have hstep' := hsame.trans hstep
  obtain ⟨g, rfl⟩ := socketRcv_event_obs hstep'
  refine h.rcv_step hstep' rfl ⟨hinv.started, hinv.peer⟩ ?_
  rw [socketRcv_delivered_invocations, ← h.delivered]
  exact List.filterMap_append

/-- So is any step of the two. -/
theorem step {m : CoreMove socketLink} {c' : CoreWorld socketLink} (h : IsSocketWorld c w)
    (hstep : c.Step m c') : ∃ m w', w.Step m w' ∧ IsSocketWorld c' w' := by
  cases m with
  | snd op =>
      obtain ⟨snd, hop, rfl⟩ := Option.map_eq_some_iff.mp hstep
      exact h.snd_op hop
  | rcv op =>
      obtain ⟨rcv, hop, rfl⟩ := Option.map_eq_some_iff.mp hstep
      cases op with
      | asyncReceive req ks => exact h.asyncReceive_op hop
      | event ev ks => exact h.rcvEvent_op hop

end IsSocketWorld

/-- Two cores that have been started are a world after two steps. -/
theorem isSocketWorld_start (ks : List SockAnswer) :
    ∃ w, IsSocketWorld (CoreWorld.start (NativeSocketStreamSnd.ctor true ⟨true, [], 0, []⟩)
      (NativeSocketStreamRcv.ctor true ⟨true, [], 0, []⟩) ks) w ∧ w.Reached := by
  obtain ⟨w₁, h₁⟩ : ∃ w₁, (World.init true true).next (.snd .startSendNativeHandleOps ks) = some w₁ :=
    ⟨_, rfl⟩
  obtain ⟨w₂, h₂⟩ : ∃ w₂, w₁.next (.rcv .startReceiveNativeHandleOps []) = some w₂ := ⟨_, rfl⟩
  have hreached : w₂.Reached := by
    have hinit : (World.init true true).Reached := .of_init ⟨true, true, rfl⟩
    exact (Reachable.snoc hinit h₁).snoc h₂
  refine ⟨w₂, ?_, hreached⟩
  have hinv := hreached.inv
  cases h₁
  cases h₂
  exact ⟨hinv, ⟨rfl, rfl⟩, ⟨rfl, rfl⟩, rfl, rfl, rfl, rfl, rfl⟩

/-- What the cores can come to by themselves, a world can come to. -/
theorem CoreWorld.Reached.socketWorld {c : CoreWorld socketLink} (h : c.Reached) :
    ∃ w, IsSocketWorld c w ∧ w.Reached := by
  apply Reachable.simulate (R := IsSocketWorld) _ _ h
  · rintro c ⟨s, r, ks, ⟨rfl, rfl⟩, rfl⟩
    exact isSocketWorld_start ks
  · intro c m c' w hcw _ hstep
    obtain ⟨m', w', hnext, hcw'⟩ := hcw.step hstep
    exact ⟨[m'], w', Run.single hnext, hcw'⟩

/-- And with that the cores of two adapters. -/
theorem AsyncWorld.Reached.socketWorld {a : AsyncWorld socketLink} (h : a.Reached) :
    a.rcv.Inv ∧ ∃ c w, a.Cores c ∧ IsSocketWorld c w ∧ w.Reached := by
  obtain ⟨hrcv, c, hcores, hc⟩ :=
    h.coreWorld fun c hc => hc.socketWorld.elim fun w hw => hw.1.rcv_inv
  obtain ⟨w, hcw, hw⟩ := hc.socketWorld
  exact ⟨hrcv, c, w, hcores, hcw, hw⟩

/-! ## The results -/

/-- What two asynchronous streams can come to, in one direction, two streams used by the `sync_io` pattern
can come to: the same cores, with the same handles and blobs accepted and delivered. -/
theorem socketAsync_simulated {a : AsyncWorld socketLink} (h : a.Reached) :
    ∃ w : World, w.Reached ∧ a.snd.adapter.syncIo = w.snd ∧ a.rcv.adapter.syncIo = w.rcv ∧
      a.snd.accepted = w.accepted ∧ a.told = w.delivered := by
  obtain ⟨hrcv, c, w, hcores, hcw, hw⟩ := h.socketWorld
  refine ⟨w, hw, ?_, ?_, ?_, ?_⟩
  · rw [← hcores.snd.core]
    exact hcw.snd
  · rw [← hcw.rcv, hcores.rcv]
    rfl
  · rw [← hcores.snd.accepted]
    exact hcw.accepted
  · rw [hcores.told_eq hrcv]
    exact hcw.delivered

/-- A handle with its blob comes behind two requests that wait, with a blob and the graceful close. -/
def sampleSocketMoves : List (AsyncMove socketLink) :=
  [.rcv (.asyncReceive ⟨((some none, [0, 0, 0]) : SocketRcv.Req), 0⟩ []),
    .rcv (.asyncReceive ⟨((none, [0, 0, 0]) : SocketRcv.Req), 1⟩ []),
    .rcv (.asyncReceive ⟨((none, [0, 0, 0]) : SocketRcv.Req), 2⟩ []),
    .snd (.send ⟨(some 4, [7, 6]), by simp⟩ [.moves 9, .moves 9]),
    .snd (.send ⟨(none, [5]), by simp⟩ [.moves 9, .moves 9]),
    .snd (.asyncEndSending (some 3) [.moves 9]),
    .rcv (.event (.socketReadable .msgStart) [.moves 9, .moves 9, .moves 1, .moves 1]
      fun _ => [.moves 9, .moves 9])]

/-- Where the run leads. -/
theorem sampleSocketMoves_reaches : ∃ a : AsyncWorld socketLink, a.Reached ∧
    a.told = [(some 4, [7, 6]), (none, [5])] := by
  have hrun : (sampleSocketMoves.foldlM AsyncWorld.next
      (AsyncWorld.start (L := socketLink) (.ctor true ⟨true, [], 0, []⟩)
        (.ctor true ⟨true, [], 0, []⟩) [.moves 9])).map
      (fun a => (a.told : List (NativeHandle × Blob))) = some [(some 4, [7, 6]), (none, [5])] := by
    decide +kernel
  obtain ⟨a, ha, htold⟩ := Option.map_eq_some_iff.mp hrun
  exact ⟨a, AsyncWorld.reached_of_foldlM ⟨rfl, rfl⟩ ha, htold⟩

/-- Two messages, one with a handle, are sent and delivered, and a `sync_io` pair comes to the same. -/
theorem socketAsync_simulated_sampleSocketMoves : ∃ (a : AsyncWorld socketLink) (w : World),
    a.told = [(some 4, [7, 6]), (none, [5])] ∧ w.Reached ∧ a.snd.adapter.syncIo = w.snd ∧
      a.rcv.adapter.syncIo = w.rcv ∧ a.snd.accepted = w.accepted ∧ a.told = w.delivered := by
  obtain ⟨a, ha, htold⟩ := sampleSocketMoves_reaches
  obtain ⟨w, hw⟩ := socketAsync_simulated ha
  exact ⟨a, w, htold, hw⟩

/-- What has been delivered is the first of what was accepted, and all once the graceful close is found. -/
theorem deliveredOf {w : World} {told done : Option (List Frame)} (hinv : w.Inv told done)
    {delivered : List (NativeHandle × Blob)} {accepted : List NativeSocketStreamSnd.UserMsg}
    (hdel : delivered = w.delivered) (hacc : accepted = w.accepted) :
    delivered <+: accepted.map Subtype.val ∧
      (w.rcv.inp.pendingErrCode = Code.receivesFinishedCannotReceive.toErrorCode →
        w.endCalled = true ∧ delivered = accepted.map Subtype.val) := by
  have hfound : accepted.map Subtype.val = (msgs (frames told)).map found := by
    rw [hacc, hinv.accepted_eq, List.map_map]
    rfl
  have hdone : delivered = (msgs (frames done)).map found := hdel.trans hinv.delivered_eq
  refine ⟨?_, fun herr => ?_⟩
  · rw [hdone, hfound]
    exact (msgs_mono hinv.rcv.sound.within.frames_prefix).map _
  · have hend := hinv.rcv.sound.closed_of_err herr
    have hall := hinv.frames_eq hend
    exact ⟨hinv.endCalled (hall ▸ hend), by rw [hdone, hfound, hall]⟩

/-- Handles and blobs go from the user of the one to that of the other in order and whole. -/
theorem socketAsync_inOrder {a : AsyncWorld socketLink} (h : a.Reached) :
    a.rcv.FirstComeFirstServed ∧ a.told <+: a.snd.accepted.map Subtype.val ∧
      ((∃ c ∈ a.rcv.completions, c.2.1 = Code.receivesFinishedCannotReceive.toErrorCode) →
        a.snd.ends ≠ [] ∧ a.told = a.snd.accepted.map Subtype.val) := by
  obtain ⟨hrcv, c, w, hcores, hcw, hw⟩ := h.socketWorld
  obtain ⟨told, done, hinv⟩ := hw.inv
  have htold : a.told = w.delivered := (hcores.told_eq hrcv).trans hcw.delivered
  have hacc : a.snd.accepted = w.accepted := hcores.snd.accepted.symm.trans hcw.accepted
  obtain ⟨hpre, hclose⟩ := deliveredOf hinv htold hacc
  refine ⟨hrcv.result, hpre, ?_⟩
  rintro ⟨comp, hmem, hcode⟩
  -- Only a core that has found the graceful close says so.
  have herr : w.rcv.inp.pendingErrCode = Code.receivesFinishedCannotReceive.toErrorCode := by
    have hhosed := hrcv.hosed_of_told hmem hcode (by simp) (by simp)
    rw [show a.rcv.adapter.syncIo = c.rcv.core by rw [hcores.rcv]; rfl, hcw.rcv] at hhosed
    exact hhosed
  obtain ⟨hend, hall⟩ := hclose herr
  exact ⟨hcores.snd.endCalled (hcw.endCalled.trans hend), hall⟩

/-- In that run two messages are told of, in order. -/
theorem socketAsync_inOrder_sampleSocketMoves : ∃ a : AsyncWorld socketLink,
    a.told = [(some 4, [7, 6]), (none, [5])] ∧ a.rcv.FirstComeFirstServed ∧
      a.told <+: a.snd.accepted.map Subtype.val ∧
      ((∃ c ∈ a.rcv.completions, c.2.1 = Code.receivesFinishedCannotReceive.toErrorCode) →
        a.snd.ends ≠ [] ∧ a.told = a.snd.accepted.map Subtype.val) := by
  obtain ⟨a, ha, htold⟩ := sampleSocketMoves_reaches
  exact ⟨a, htold, socketAsync_inOrder ha⟩

end FlowIpc.Adapter
