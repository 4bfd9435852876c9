import FlowIpc.MqStream.Rcv
import FlowIpc.SocketStream.Rcv
import FlowIpc.Timers.AutoPing

/-!
# The idle timers

The receivers of a queue stream and of a socket stream keep to the rules of `Owner.Lawful` with the timer of
`idle_timer_run()` (`mqReceiver_lawful`, `socketReceiver_lawful`), whatever comes in.

* It is scheduled by `idle_timer_run()`, once. The handler of its event reads the byte, and that is the end of
  receiving, if there has been no error before.
* It is rescheduled by each message and by each ping that is read, of which there may be any number in one
  function. No other function touches it.

With the senders this makes `timer_signals`, which is about all four.

Source: `native_socket_stream_impl_rcv.cpp`, `blob_stream_mq_rcv_impl.hpp`.
-/

namespace FlowIpc.Timers

/-- `rcv_not_idle()`, `not_idle()`, where the feature is engaged. -/
def notIdle : List Op := [.expiresAfter, .asyncWaitUnlessNone]

/-- That is called any number of times, or does nothing. -/
def NotIdles (idleTimeout : Nat) (ops : List Op) : Prop :=
  ops = [] ∨ idleTimeout ≠ 0 ∧ ∃ n, ops = (List.replicate n notIdle).flatten

/-- To be called any number of times is to reschedule the timer. -/
theorem NotIdles.reschedules {idleTimeout : Nat} {ops : List Op} (h : NotIdles idleTimeout ops) :
    Reschedules ops := by
  rcases h with rfl | ⟨-, n, rfl⟩
  · exact .nil
  · induction n with
    | zero => exact .nil
    | succ n ih => exact .cons .unlessNone ih

/-- A function that leaves the timer alone, and an error that has been processed, engages nothing. -/
theorem kept_of_frame {timeout timeout' : Nat} {t t' : Timer} {err err' : ErrorCode}
    (hframe : (timeout', t') = (timeout, t)) (herr : err.isSome → err' = err) :
    t' = t ∧ (timeout' ≠ 0 ∧ err' = none → timeout ≠ 0 ∧ err = none) := by
  cases hframe
  refine ⟨rfl, fun hon => ⟨hon.1, ?_⟩⟩
  rcases err with _ | e
  · rfl
  · exact (herr rfl).symm.trans hon.2

/-! ## The receiver of a queue stream -/

section MqReceiver

open MqStream BlobStreamMqReceiver

/-- The feature is engaged, and no error has been processed. -/
def MqIdling (r : BlobStreamMqReceiver) : Prop :=
  r.inp.idleTimeout ≠ 0 ∧ r.inp.pendingErrCode = none

/-- What the function of an input does to the timer.
Source: `blob_stream_mq_rcv_impl.hpp` `read_msg`, `idle_timer_run` -/
def mqReceiverOps (r : BlobStreamMqReceiver) (_obs : List BlobStreamMqReceiver.Obs) (r' : BlobStreamMqReceiver)
    (i : BlobStreamMqReceiver.Input) (ops : List Op) : Prop :=
  match i with
  | .asyncReceiveBlob _ _ => NotIdles r.inp.idleTimeout ops
  | .mqReadable => NotIdles r.inp.idleTimeout ops
  | .idleTimerRun _ =>
    ops = if r.inp.idleTimeout = 0 ∧ r'.inp.idleTimeout ≠ 0 ∧ r'.inp.pendingErrCode = none then schedule else []
  | _ => ops = []

/-- A `Blob_stream_mq_receiver_impl` and its `m_idle_timer`.
Source: `blob_stream_mq_rcv_impl.hpp` `on_ev_idle_timer_fired` -/
def mqReceiver : Owner :=
  .ofSteps (fun r => ∃ mq : Mq, r = .ctor mq) step .timerFires .timerReadable mqReceiverOps (fun _ => False)
    (·.inp.idleTimer) MqIdling

/-- What is the timer's: reading leaves this as it is, if the timer is in order. -/
def mqIdleFrame (r : MqStream.In) : Nat × Timer := (r.idleTimeout, r.idleTimer)

section In

variable {r r' : MqStream.In}

/-- Putting off the idle timer leaves it armed as it was. -/
theorem mqIdleFrame_notIdle (h : r.idleTimer.Ok) : mqIdleFrame r.notIdle = mqIdleFrame r := by
  rw [In.notIdle_eq h]

/-- A message leaves the timer armed as it was. -/
theorem mqIdleFrame_onMsg (h : r.idleTimer.Ok) {msg : Blob} : mqIdleFrame (r.onMsg msg).2 = mqIdleFrame r := by
  have hctl : ∀ r : MqStream.In, r.idleTimer.Ok → mqIdleFrame (r.onCtlCmd msg) = mqIdleFrame r := by
    intro r h
    unfold In.onCtlCmd
    dsimp only
    split_ifs
    · rfl
    · rfl
    · rfl
    · exact mqIdleFrame_notIdle h
    · rfl
    · rfl
  unfold In.onMsg
  dsimp only
  split_ifs
  · exact hctl _ h
  · exact hctl _ h
  · rfl
  · rfl
  · exact mqIdleFrame_notIdle h

/-- A turn of the loop leaves the timer armed as it was. -/
theorem mqIdleFrame_readMsgOnce (h : r.idleTimer.Ok) {n : Nat} :
    mqIdleFrame (r.readMsgOnce n).2 = mqIdleFrame r := by
  unfold In.readMsgOnce
  split
  · rfl
  · rename_i msg mq _
    exact mqIdleFrame_onMsg (r := { r with mq := mq, pendingErrCode := none }) h
  · rfl

/-- The loop: by induction on its turns. -/
theorem mqIdleFrame_readMsgLoop (h : r.idleTimer.Ok) {n : Nat} :
    mqIdleFrame (r.readMsgLoop n).2 = mqIdleFrame r := by
  induction r using In.readMsgLoop.induct n with
  | case1 r res r₁ honce =>
    have hframe := mqIdleFrame_readMsgOnce h (n := n)
    rw [honce] at hframe
    rw [In.readMsgLoop, honce]
    exact hframe
  | case2 r r₁ honce ih =>
    have hframe := mqIdleFrame_readMsgOnce h (n := n)
    rw [honce] at hframe
    rw [In.readMsgLoop, honce]
    have htimer : r₁.idleTimer = r.idleTimer := congrArg Prod.snd hframe
    exact (ih (htimer ▸ h)).trans hframe

end In

variable {r r' : BlobStreamMqReceiver}

/-- Reading a message leaves the timer armed as it was. -/
theorem mqIdleFrame_readMsg (h : r.inp.idleTimer.Ok) : mqIdleFrame r.readMsg.2.inp = mqIdleFrame r.inp := by
  let r₁ := (r.assert (r.inp.pendingErrCode = none)).assert (r.userRequest.isSome)
  exact mqIdleFrame_readMsgLoop (r := r₁.inp) h

/-- A request leaves the timer armed as it was, and an error as it is. -/
theorem mqIdleFrame_asyncReceiveBlob (h : r.inp.idleTimer.Ok) {n f : Nat} :
    mqIdleFrame (r.asyncReceiveBlob n f).2.2.inp = mqIdleFrame r.inp ∧
      (r.inp.pendingErrCode.isSome →
        (r.asyncReceiveBlob n f).2.2.inp.pendingErrCode = r.inp.pendingErrCode) := by
  -- Ending the request does not touch the timer.
  have hend : ∀ p : MqStream.Result × BlobStreamMqReceiver,
      (if p.1.1 ≠ wouldBlock then { p.2 with userRequest := none } else p.2).inp = p.2.inp := by
    intro p
    split <;> rfl
  unfold asyncReceiveBlob
  split
  · exact ⟨rfl, fun _ => rfl⟩
  split
  · exact ⟨rfl, fun _ => rfl⟩
  dsimp only
  rw [hend]
  split
  · exact ⟨rfl, fun _ => rfl⟩
  · rename_i hnone
    split
    · exact ⟨rfl, fun _ => rfl⟩
    · exact ⟨mqIdleFrame_readMsg (r := { r with userRequest := some ⟨n, f⟩ }) h, fun herr => absurd herr hnone⟩

/-- The queue's event leaves the timer armed as it was, and an error as it is. -/
theorem mqIdleFrame_onEvMqReadable (h : r.inp.idleTimer.Ok) :
    mqIdleFrame r.onEvMqReadable.1.inp = mqIdleFrame r.inp ∧
      (r.inp.pendingErrCode.isSome → r.onEvMqReadable.1.inp.pendingErrCode = r.inp.pendingErrCode) := by
  unfold onEvMqReadable
  split
  · exact ⟨rfl, fun _ => rfl⟩
  · rename_i hnone
    have hread := mqIdleFrame_readMsg (r := r.assert (r.userRequest.isSome)) h
    dsimp only
    split
    · exact ⟨hread, fun herr => absurd herr hnone⟩
    · exact ⟨hread, fun herr => absurd herr hnone⟩

/-- `idle_timer_run()`: it is refused; or there is an error; or the timer is scheduled, for the first time. -/
theorem mqIdleTimerRun_cases (timeout : {n : Nat // 0 < n}) :
    (r.idleTimerRun timeout).2.inp = r.inp ∨
      r.inp.idleTimeout = 0 ∧ (r.idleTimerRun timeout).2.inp.idleTimeout ≠ 0 ∧
        ((r.idleTimerRun timeout).2.inp.pendingErrCode.isSome ∧
            (r.idleTimerRun timeout).2.inp.idleTimer = r.inp.idleTimer ∨
          (r.idleTimerRun timeout).2.inp.pendingErrCode = none ∧
            (r.idleTimerRun timeout).2.inp.idleTimer = r.inp.idleTimer.schedule) := by
  have hne : timeout.val ≠ 0 := Nat.ne_of_gt timeout.property
  unfold idleTimerRun
  rw [assert_of timeout.property]
  dsimp only
  split
  · exact .inl rfl
  split
  · exact .inl rfl
  rename_i hoff
  refine .inr ⟨by simpa using hoff, ?_⟩
  split
  · rename_i herr
    exact ⟨hne, .inl ⟨herr, rfl⟩⟩
  · rename_i herr
    exact ⟨hne, .inr ⟨by simpa using herr, rfl⟩⟩

/-- The timer is in order, and nothing is scheduled before `idle_timer_run()`. -/
structure MqTimed (r : BlobStreamMqReceiver) : Prop where
  ok : r.inp.idleTimer.Ok
  off : r.inp.idleTimeout = 0 → r.inp.idleTimer.evWaits = 0

/-- A receiver whose timer is left alone has it in order as before. -/
theorem MqTimed.of_frame (h : MqTimed r) (hframe : mqIdleFrame r'.inp = mqIdleFrame r.inp) : MqTimed r' := by
  have htimeout : r'.inp.idleTimeout = r.inp.idleTimeout := congrArg Prod.fst hframe
  have htimer : r'.inp.idleTimer = r.inp.idleTimer := congrArg Prod.snd hframe
  refine ⟨?_, fun hoff => ?_⟩
  · rw [htimer]
    exact h.ok
  · rw [htimer]
    exact h.off (htimeout ▸ hoff)

/-- What a step does to the timer, if it is not the timer's own. -/
theorem mqReceiver_calls (ht : MqTimed r) {i : BlobStreamMqReceiver.Input} {ks : List MqAnswer}
    {obs : List BlobStreamMqReceiver.Obs} {ops : List Op} (hne : i ≠ .timerFires) (hne' : i ≠ .timerReadable)
    (hstep : r.step i ks = some (r', obs)) (hops : mqReceiverOps r obs r' i ops) : MqTimed r' ∧
    (Reschedules ops ∧ r'.inp.idleTimer = r.inp.idleTimer ∧ (MqIdling r' → MqIdling r) ∨
      ops = schedule ∧ r.inp.idleTimer.evWaits = 0 ∧ r'.inp.idleTimer = r.inp.idleTimer.schedule) := by
  have hu : MqTimed (r.withAnswers ks) := ⟨ht.ok, ht.off⟩
  -- An input that leaves the timer alone, or reschedules it only.
  have hkept : mqIdleFrame r'.inp = mqIdleFrame r.inp →
      (r.inp.pendingErrCode.isSome → r'.inp.pendingErrCode = r.inp.pendingErrCode) → Reschedules ops →
      MqTimed r' ∧ (Reschedules ops ∧ r'.inp.idleTimer = r.inp.idleTimer ∧ (MqIdling r' → MqIdling r) ∨
        ops = schedule ∧ r.inp.idleTimer.evWaits = 0 ∧ r'.inp.idleTimer = r.inp.idleTimer.schedule) := by
    intro hframe herr hresched
    obtain ⟨htimer, hon⟩ := kept_of_frame hframe herr
    exact ⟨ht.of_frame hframe, .inl ⟨hresched, htimer, hon⟩⟩
  cases i with
  | startReceiveBlobOps =>
    cases hops
    cases hstep
    have hsame : (r.withAnswers ks).startReceiveBlobOps.2.inp = (r.withAnswers ks).inp := by
      unfold startReceiveBlobOps
      split <;> rfl
    exact hkept (by rw [hsame]; rfl) (fun _ => by rw [hsame]; rfl) .nil
  | asyncReceiveBlob n f =>
    cases hstep
    obtain ⟨hframe, herr⟩ := mqIdleFrame_asyncReceiveBlob hu.ok (n := n) (f := f)
    exact hkept hframe herr hops.reschedules
  | idleTimerRun timeout =>
    cases hops
    cases hstep
    rcases mqIdleTimerRun_cases (r := r.withAnswers ks) timeout with
      heq | ⟨hoff, hon, htimer⟩
    · refine hkept (by rw [heq]; rfl) (fun _ => by rw [heq]; rfl) ?_
      rw [heq, if_neg fun h => h.2.1 h.1]
      exact .nil
    · have hzero := ht.off hoff
      have htimer := htimer.imp_right fun h => And.intro h.1 (And.intro hzero h.2)
      rcases engages hoff hon htimer with ⟨hresched, htimer, herr⟩ | ⟨hops, -, htimer⟩
      · refine ⟨⟨?_, fun h => absurd h hon⟩, .inl ⟨hresched, htimer, fun hidling => absurd hidling.2 herr⟩⟩
        rw [htimer]
        exact ht.ok
      · refine ⟨⟨?_, fun h => absurd h hon⟩, .inr ⟨hops, hzero, htimer⟩⟩
        rw [htimer]
        exact ht.ok.schedule hzero
  | mqReadable =>
    dsimp only [step] at hstep
    split at hstep
    · cases hstep
      let u : BlobStreamMqReceiver := { r.withAnswers ks with
        inp := { (r.withAnswers ks).inp with evWaits := (r.withAnswers ks).inp.evWaits - 1 } }
      obtain ⟨hframe, herr⟩ := mqIdleFrame_onEvMqReadable (r := u) hu.ok
      exact hkept hframe herr hops.reschedules
    · cases hstep
  | timerFires => exact absurd rfl hne
  | timerReadable => exact absurd rfl hne'

/-- The handler of the event: the byte is read, and there is an error, that of the timeout or another. -/
theorem mqReceiver_readable {ks : List MqAnswer} {obs : List BlobStreamMqReceiver.Obs}
    (hstep : r.step .timerReadable ks = some (r', obs)) :
    ∃ t, r.inp.idleTimer.takeEvent = some t ∧ r'.inp.idleTimer = t.consumeTimerFiringSignal ∧
      r'.inp.idleTimeout = r.inp.idleTimeout ∧ r'.inp.pendingErrCode.isSome := by
  dsimp only [step] at hstep
  obtain ⟨t, htake, heq⟩ := Option.map_eq_some_iff.1 hstep
  cases heq
  refine ⟨t, htake, ?_⟩
  unfold onEvIdleTimerFired
  dsimp only
  split
  · rename_i herr
    exact ⟨rfl, rfl, herr⟩
  · exact ⟨rfl, rfl, rfl⟩

/-- **The receiver of a queue stream uses its timer right.** -/
theorem mqReceiver_lawful : mqReceiver.Lawful MqTimed := by
  refine Owner.lawful_ofSteps ?_ ?_ ?_ ?_ ?_
  · rintro r ⟨mq, rfl⟩
    exact ⟨⟨Timer.ok_inactive, fun _ => rfl⟩, rfl, fun hon => hon.1 rfl⟩
  · intro r i ks r' obs ops ht hne hne' hstep hops
    exact mqReceiver_calls ht hne hne' hstep hops
  · intro r ks r' obs ht hstep
    obtain ⟨t, htake, htimer, htimeout, herr⟩ := mqReceiver_readable hstep
    obtain ⟨hok, hzero⟩ := ht.ok.takeEvent htake
    refine ⟨⟨?_, fun _ => ?_⟩, fun hon => ?_, t, htake, .inl ⟨htimer, id⟩⟩
    · rw [htimer]
      exact hok
    · rw [htimer]
      exact hzero
    · rw [hon.2] at herr
      cases herr
  · exact fun r ks => ⟨_, rfl⟩
  · refine fun r ks => ⟨_, rfl, fun t ht hfire => ⟨⟨ht.ok.fire hfire, fun hoff => ?_⟩, rfl, id⟩⟩
    exact (Timer.fire_evWaits hfire).trans (ht.off hoff)

end MqReceiver

/-! ## The receiver of a socket stream -/

section SocketReceiver

open SocketStream NativeSocketStreamRcv

/-- The feature is engaged, and no error has been processed. -/
def SocketIdling (r : NativeSocketStreamRcv) : Prop :=
  r.inp.idleTimeout ≠ 0 ∧ r.inp.pendingErrCode = none

/-- What the function of an input does to the timer.
Source: `native_socket_stream_impl_rcv.cpp` `rcv_read_msg`, `rcv_on_head_payload`, `rcv_read_blob`,
`idle_timer_run` -/
def socketReceiverOps (r : NativeSocketStreamRcv) (_obs : List NativeSocketStreamRcv.Obs)
    (r' : NativeSocketStreamRcv) (i : NativeSocketStreamRcv.Input) (ops : List Op) : Prop :=
  match i with
  | .asyncReceiveNativeHandle _ _ _ => NotIdles r.inp.idleTimeout ops
  | .asyncReceiveBlob _ _ => NotIdles r.inp.idleTimeout ops
  | .socketReadable _ => NotIdles r.inp.idleTimeout ops
  | .idleTimerRun _ =>
    ops = if r.inp.idleTimeout = 0 ∧ r'.inp.idleTimeout ≠ 0 ∧ r'.inp.pendingErrCode = none then schedule else []
  | _ => ops = []

/-- The receiving direction of a `Native_socket_stream::Impl`, and its `m_rcv_idle_timer`.
Source: `native_socket_stream_impl_rcv.cpp` `rcv_on_ev_idle_timer_fired` -/
def socketReceiver : Owner :=
  .ofSteps (fun r => ∃ (statePeer : Bool) (p : PeerSocket), r = .ctor statePeer p) step .timerFires
    .timerReadable socketReceiverOps (fun _ => False) (·.inp.idleTimer) SocketIdling

/-- What is the timer's: reading leaves this as it is, if the timer is in order. -/
def socketIdleFrame (r : SocketStream.In) : Nat × Timer := (r.idleTimeout, r.idleTimer)

section In

variable {r r' : SocketStream.In} {msgState : RcvMsgState}

/-- Putting off the idle timer leaves it armed as it was. -/
theorem socketIdleFrame_notIdle (h : r.idleTimer.Ok) : socketIdleFrame r.notIdle = socketIdleFrame r := by
  rw [In.notIdle_eq h]

/-- Storing bytes leaves the timer alone. -/
@[simp] theorem socketIdleFrame_store {bytes : Blob} :
    socketIdleFrame (r.store msgState bytes) = socketIdleFrame r := by
  cases msgState <;> rfl

/-- Waiting for the socket leaves the timer alone. -/
@[simp] theorem socketIdleFrame_asyncWait : socketIdleFrame (r.asyncWait msgState).2 = socketIdleFrame r := by
  unfold In.asyncWait
  dsimp only
  split <;> rfl

/-- A timer that has been left alone is in order still. -/
theorem ok_of_frame (h : r.idleTimer.Ok) (hframe : socketIdleFrame r' = socketIdleFrame r) : r'.idleTimer.Ok := by
  have htimer : r'.idleTimer = r.idleTimer := congrArg Prod.snd hframe
  exact htimer ▸ h

/-- Reading bytes leaves the timer alone, if what is done in the end does. -/
theorem socketIdleFrame_readBlobThen {onAll : SocketStream.In → Option SocketStream.Result × SocketStream.In}
    (hall : ∀ r : SocketStream.In, r.idleTimer.Ok → socketIdleFrame (onAll r).2 = socketIdleFrame r)
    (h : r.idleTimer.Ok) (state : Nat → RcvMsgState) (size : Nat) :
    socketIdleFrame (In.readBlobThen onAll state r size).2 = socketIdleFrame r := by
  unfold In.readBlobThen
  dsimp only
  split
  · exact socketIdleFrame_store
  split
  · refine (hall _ (ok_of_frame h ?_)).trans ?_
    · exact socketIdleFrame_store
    · exact socketIdleFrame_store
  · exact socketIdleFrame_asyncWait.trans socketIdleFrame_store

/-- A blob leaves the timer armed as it was. -/
theorem socketIdleFrame_onMetaBlobPayload (r : SocketStream.In) (h : r.idleTimer.Ok) :
    socketIdleFrame r.onMetaBlobPayload.2 = socketIdleFrame r :=
  socketIdleFrame_notIdle h

/-- The head of a message leaves the timer armed as it was. -/
theorem socketIdleFrame_onHeadPayload (r : SocketStream.In) (h : r.idleTimer.Ok) :
    socketIdleFrame r.onHeadPayload.2 = socketIdleFrame r := by
  unfold In.onHeadPayload
  dsimp only
  split
  · split
    · rfl
    · exact socketIdleFrame_notIdle (r := ((r.assert _).assert _).negotiate _) h
  split
  · exact socketIdleFrame_notIdle (r := (r.assert _).assert _) h
  split
  · split
    · exact socketIdleFrame_readBlobThen (r := (r.assert _).assert _) socketIdleFrame_onMetaBlobPayload h _ _
    · rfl
  split
  · exact socketIdleFrame_notIdle (r := (r.assert _).assert _) h
  · rfl

/-- A handle leaves the timer armed as it was. -/
theorem socketIdleFrame_onHandleFinalized (h : r.idleTimer.Ok) {hndl : NativeHandle} {n : Nat} :
    socketIdleFrame (r.onHandleFinalized hndl n).2 = socketIdleFrame r := by
  unfold In.onHandleFinalized
  dsimp only
  split
  · rfl
  split
  · rfl
  split
  · split
    · exact socketIdleFrame_onHeadPayload _ h
    · exact socketIdleFrame_onHeadPayload _ h
  · split
    · exact socketIdleFrame_asyncWait
    · exact socketIdleFrame_asyncWait

/-- The start of a message leaves the timer armed as it was. -/
theorem socketIdleFrame_readMsgOnce (h : r.idleTimer.Ok) : socketIdleFrame r.readMsgOnce.2 = socketIdleFrame r := by
  unfold In.readMsgOnce
  dsimp only
  split
  · exact socketIdleFrame_store
  split
  · refine (socketIdleFrame_onHandleFinalized (ok_of_frame h ?_)).trans ?_
    · exact socketIdleFrame_store
    · exact socketIdleFrame_store
  · exact socketIdleFrame_asyncWait.trans socketIdleFrame_store

/-- Any number of messages: by induction on the calls of `rcv_read_msg()`. -/
theorem socketIdleFrame_readMsg (h : r.idleTimer.Ok) : socketIdleFrame r.readMsg.2 = socketIdleFrame r := by
  induction r using In.readMsg.induct with
  | case1 r res r₁ honce =>
    have hframe := socketIdleFrame_readMsgOnce h
    rw [honce] at hframe
    rw [In.readMsg, honce]
    exact hframe
  | case2 r r₁ honce ih =>
    have hframe := socketIdleFrame_readMsgOnce h
    rw [honce] at hframe
    rw [In.readMsg, honce]
    exact (ih (ok_of_frame h hframe)).trans hframe

/-- Reading on leaves the timer armed as it was. -/
theorem socketIdleFrame_readOn {p : Option SocketStream.Result × SocketStream.In} (h : p.2.idleTimer.Ok) :
    socketIdleFrame (In.readOn p).2 = socketIdleFrame p.2 := by
  obtain ⟨_ | res, r⟩ := p
  · exact socketIdleFrame_readMsg h
  · rfl

/-- Reading that is resumed leaves the timer armed as it was. -/
theorem socketIdleFrame_resume (h : r.idleTimer.Ok) (msgState : RcvMsgState) :
    socketIdleFrame (r.resume msgState).2 = socketIdleFrame r := by
  cases msgState with
  | msgStart => exact socketIdleFrame_readMsg h
  | headPayload n =>
    have hframe := socketIdleFrame_readBlobThen socketIdleFrame_onHeadPayload h .headPayload n
    exact (socketIdleFrame_readOn (ok_of_frame h hframe)).trans hframe
  | metaBlobPayload n =>
    have hframe := socketIdleFrame_readBlobThen socketIdleFrame_onMetaBlobPayload h .metaBlobPayload n
    exact (socketIdleFrame_readOn (ok_of_frame h hframe)).trans hframe

end In

variable {r r' : NativeSocketStreamRcv}

/-- A request leaves the timer armed as it was, and an error as it is. -/
theorem socketIdleFrame_asyncReceive (h : r.inp.idleTimer.Ok) (hndl : Option NativeHandle) (buf : Blob) (f : Nat) :
    socketIdleFrame (r.asyncReceiveNativeHandleImpl hndl buf f).2.2.inp = socketIdleFrame r.inp ∧
      (r.inp.pendingErrCode.isSome →
        (r.asyncReceiveNativeHandleImpl hndl buf f).2.2.inp.pendingErrCode = r.inp.pendingErrCode) := by
  unfold asyncReceiveNativeHandleImpl
  split
  · exact ⟨rfl, fun _ => rfl⟩
  split
  · exact ⟨rfl, fun _ => rfl⟩
  split
  · exact ⟨rfl, fun _ => rfl⟩
  · rename_i hnone
    have hread := socketIdleFrame_readMsg (r := { r.inp with userRequest := some ⟨hndl, buf, f⟩ }) h
    dsimp only
    split
    · exact ⟨hread, fun herr => absurd herr hnone⟩
    · exact ⟨hread, fun herr => absurd herr hnone⟩

/-- The socket's event leaves the timer armed as it was, and an error as it is. -/
theorem socketIdleFrame_onEvReadable (h : r.inp.idleTimer.Ok) (msgState : RcvMsgState) :
    socketIdleFrame (r.onEvPeerSocketReadableOrError msgState).1.inp = socketIdleFrame r.inp ∧
      (r.inp.pendingErrCode.isSome →
        (r.onEvPeerSocketReadableOrError msgState).1.inp.pendingErrCode = r.inp.pendingErrCode) := by
  unfold onEvPeerSocketReadableOrError
  split
  · exact ⟨rfl, fun _ => rfl⟩
  · rename_i hnone
    have hread := socketIdleFrame_resume (r := (r.assert (r.inp.userRequest.isSome)).inp) h msgState
    dsimp only
    split
    · exact ⟨hread, fun herr => absurd herr hnone⟩
    · exact ⟨hread, fun herr => absurd herr hnone⟩

/-- `idle_timer_run()`: it is refused; or there is an error; or the timer is scheduled, for the first time. -/
theorem socketIdleTimerRun_cases (timeout : {n : Nat // 0 < n}) :
    (r.idleTimerRun timeout).2.inp = r.inp ∨
      r.inp.idleTimeout = 0 ∧ (r.idleTimerRun timeout).2.inp.idleTimeout ≠ 0 ∧
        ((r.idleTimerRun timeout).2.inp.pendingErrCode.isSome ∧
            (r.idleTimerRun timeout).2.inp.idleTimer = r.inp.idleTimer ∨
          (r.idleTimerRun timeout).2.inp.pendingErrCode = none ∧
            (r.idleTimerRun timeout).2.inp.idleTimer = r.inp.idleTimer.schedule) := by
  have hne : timeout.val ≠ 0 := Nat.ne_of_gt timeout.property
  unfold idleTimerRun
  rw [assert_of timeout.property]
  dsimp only
  split
  · exact .inl rfl
  split
  · exact .inl rfl
  rename_i hoff
  refine .inr ⟨by simpa using hoff, ?_⟩
  split
  · rename_i herr
    exact ⟨hne, .inl ⟨herr, rfl⟩⟩
  · rename_i herr
    exact ⟨hne, .inr ⟨by simpa using herr, rfl⟩⟩

/-- The timer is in order, and nothing is scheduled before `idle_timer_run()`. -/
structure SocketTimed (r : NativeSocketStreamRcv) : Prop where
  ok : r.inp.idleTimer.Ok
  off : r.inp.idleTimeout = 0 → r.inp.idleTimer.evWaits = 0

/-- A receiver whose timer is left alone has it in order as before. -/
theorem SocketTimed.of_frame (h : SocketTimed r) (hframe : socketIdleFrame r'.inp = socketIdleFrame r.inp) :
    SocketTimed r' := by
  have htimeout : r'.inp.idleTimeout = r.inp.idleTimeout := congrArg Prod.fst hframe
  have htimer : r'.inp.idleTimer = r.inp.idleTimer := congrArg Prod.snd hframe
  refine ⟨?_, fun hoff => ?_⟩
  · rw [htimer]
    exact h.ok
  · rw [htimer]
    exact h.off (htimeout ▸ hoff)

/-- What a step does to the timer, if it is not the timer's own. -/
theorem socketReceiver_calls (ht : SocketTimed r) {i : NativeSocketStreamRcv.Input} {ks : List SockAnswer}
    {obs : List NativeSocketStreamRcv.Obs} {ops : List Op} (hne : i ≠ .timerFires) (hne' : i ≠ .timerReadable)
    (hstep : r.step i ks = some (r', obs)) (hops : socketReceiverOps r obs r' i ops) : SocketTimed r' ∧
    (Reschedules ops ∧ r'.inp.idleTimer = r.inp.idleTimer ∧ (SocketIdling r' → SocketIdling r) ∨
      ops = schedule ∧ r.inp.idleTimer.evWaits = 0 ∧ r'.inp.idleTimer = r.inp.idleTimer.schedule) := by
  have hu : SocketTimed (r.withAnswers ks) := ⟨ht.ok, ht.off⟩
  -- An input that leaves the timer alone, or reschedules it only.
  have hkept : socketIdleFrame r'.inp = socketIdleFrame r.inp →
      (r.inp.pendingErrCode.isSome → r'.inp.pendingErrCode = r.inp.pendingErrCode) → Reschedules ops →
      SocketTimed r' ∧
        (Reschedules ops ∧ r'.inp.idleTimer = r.inp.idleTimer ∧ (SocketIdling r' → SocketIdling r) ∨
          ops = schedule ∧ r.inp.idleTimer.evWaits = 0 ∧ r'.inp.idleTimer = r.inp.idleTimer.schedule) := by
    intro hframe herr hresched
    obtain ⟨htimer, hon⟩ := kept_of_frame hframe herr
    exact ⟨ht.of_frame hframe, .inl ⟨hresched, htimer, hon⟩⟩
  cases i with
  | connected =>
    cases hops
    cases hstep
    exact hkept rfl (fun _ => rfl) .nil
  | startReceiveNativeHandleOps =>
    cases hops
    cases hstep
    have hsame : (r.withAnswers ks).startReceiveNativeHandleOps.2.inp = (r.withAnswers ks).inp := by
      unfold startReceiveNativeHandleOps
      split <;> rfl
    exact hkept (by rw [hsame]; rfl) (fun _ => by rw [hsame]; rfl) .nil
  | asyncReceiveNativeHandle hndl buf f =>
    cases hstep
    obtain ⟨hframe, herr⟩ := socketIdleFrame_asyncReceive hu.ok (some hndl) buf f
    exact hkept hframe herr hops.reschedules
  | asyncReceiveBlob buf f =>
    cases hstep
    obtain ⟨hframe, herr⟩ := socketIdleFrame_asyncReceive hu.ok none buf f
    exact hkept hframe herr hops.reschedules
  | idleTimerRun timeout =>
    cases hops
    cases hstep
    rcases socketIdleTimerRun_cases (r := r.withAnswers ks) timeout with
      heq | ⟨hoff, hon, htimer⟩
    · refine hkept (by rw [heq]; rfl) (fun _ => by rw [heq]; rfl) ?_
      rw [heq, if_neg fun h => h.2.1 h.1]
      exact .nil
    · have hzero := ht.off hoff
      have htimer := htimer.imp_right fun h => And.intro h.1 (And.intro hzero h.2)
      rcases engages hoff hon htimer with ⟨hresched, htimer, herr⟩ | ⟨hops, -, htimer⟩
      · refine ⟨⟨?_, fun h => absurd h hon⟩, .inl ⟨hresched, htimer, fun hidling => absurd hidling.2 herr⟩⟩
        rw [htimer]
        exact ht.ok
      · refine ⟨⟨?_, fun h => absurd h hon⟩, .inr ⟨hops, hzero, htimer⟩⟩
        rw [htimer]
        exact ht.ok.schedule hzero
  | socketReadable msgState =>
    dsimp only [step] at hstep
    split at hstep
    · cases hstep
      let u : NativeSocketStreamRcv := { r.withAnswers ks with
        inp := { (r.withAnswers ks).inp with evWaits := (r.withAnswers ks).inp.evWaits.erase msgState } }
      obtain ⟨hframe, herr⟩ := socketIdleFrame_onEvReadable (r := u) hu.ok msgState
      exact hkept hframe herr hops.reschedules
    · cases hstep
  | timerFires => exact absurd rfl hne
  | timerReadable => exact absurd rfl hne'

/-- The handler of the event: the byte is read, and there is an error, that of the timeout or another. -/
theorem socketReceiver_readable {ks : List SockAnswer} {obs : List NativeSocketStreamRcv.Obs}
    (hstep : r.step .timerReadable ks = some (r', obs)) :
    ∃ t, r.inp.idleTimer.takeEvent = some t ∧ r'.inp.idleTimer = t.consumeTimerFiringSignal ∧
      r'.inp.idleTimeout = r.inp.idleTimeout ∧ r'.inp.pendingErrCode.isSome := by
  dsimp only [step] at hstep
  obtain ⟨t, htake, heq⟩ := Option.map_eq_some_iff.1 hstep
  cases heq
  refine ⟨t, htake, ?_⟩
  unfold onEvIdleTimerFired
  dsimp only
  split
  · rename_i herr
    exact ⟨rfl, rfl, herr⟩
  · exact ⟨rfl, rfl, rfl⟩

/-- **The receiver of a socket stream uses its timer right.** -/
theorem socketReceiver_lawful : socketReceiver.Lawful SocketTimed := by
  refine Owner.lawful_ofSteps ?_ ?_ ?_ ?_ ?_
  · rintro r ⟨statePeer, p, rfl⟩
    exact ⟨⟨Timer.ok_inactive, fun _ => rfl⟩, rfl, fun hon => hon.1 rfl⟩
  · intro r i ks r' obs ops ht hne hne' hstep hops
    exact socketReceiver_calls ht hne hne' hstep hops
  · intro r ks r' obs ht hstep
    obtain ⟨t, htake, htimer, htimeout, herr⟩ := socketReceiver_readable hstep
    obtain ⟨hok, hzero⟩ := ht.ok.takeEvent htake
    refine ⟨⟨?_, fun _ => ?_⟩, fun hon => ?_, t, htake, .inl ⟨htimer, id⟩⟩
    · rw [htimer]
      exact hok
    · rw [htimer]
      exact hzero
    · rw [hon.2] at herr
      cases herr
  · exact fun r ks => ⟨_, rfl⟩
  · refine fun r ks => ⟨_, rfl, fun t ht hfire => ⟨⟨ht.ok.fire hfire, fun hoff => ?_⟩, rfl, id⟩⟩
    exact (Timer.fire_evWaits hfire).trans (ht.off hoff)

end SocketReceiver

/-! ## All four -/

/-- In every run of the object and the worker thread, from when the object has been constructed. -/
def SignalsRight (O : Owner) : Prop :=
  ∀ (x x' : Sys O) (es : List Event), x.Starts → Lts.Run Sys.Step x es x' → x'.Signals

/-- Whoever uses a timer lawfully has its signals right. -/
theorem Owner.Lawful.signalsRight {O : Owner} {Inv : O.State → Prop} (h : O.Lawful Inv) : SignalsRight O :=
  fun _ _ _ hstart hrun => Sys.Run.signals h hstart hrun

/-- **Timer signals**: of the auto-ping timer and the idle timer of a socket stream, and of those of the sender
and the receiver of a queue stream, whatever the user's thread and the worker thread do, in any order. -/
theorem timer_signals : SignalsRight socketSender ∧ SignalsRight socketReceiver ∧
    SignalsRight mqSender ∧ SignalsRight mqReceiver :=
  ⟨socketSender_lawful.signalsRight, socketReceiver_lawful.signalsRight, mqSender_lawful.signalsRight,
    mqReceiver_lawful.signalsRight⟩

section Sample

open Lts MqStream

/-- A sender on a queue for messages of up to 8 bytes. -/
def sampleSender : BlobStreamMqSender := .ctor ⟨8, [], 0, []⟩

/-- The same after sending has been started, where these messages have been sent. -/
def sampleStarted (sent : List Blob) (period : ℕ) (timer : Timer) : BlobStreamMqSender :=
  { sampleSender with
    out := ⟨⟨8, sent, 0, []⟩, [], none, 0, false⟩
    protocolNegotiator := sampleSender.protocolNegotiator.localMaxProtoVerForSending.2
    started := true
    autoPingPeriod := period
    autoPingTimer := timer }

/-- Sending is started, and pings are asked for, which arms the timer. A blob is sent, so that the wait is
canceled, and another one started. That one fires; its byte is read, and the timer is armed again. -/
def sampleEvents : List Event :=
  [.call, .call, .exec, .exec, .exec, .call, .exec, .exec, .runAborted 0, .expires 1, .runFired 1, .dispatch,
    .exec, .exec, .exec, .exec]

/-- In that run one wait is canceled and the byte of another read, and in the end there is one wait. -/
theorem timer_signals_sampleEvents :
    (⟨sampleSender, .inactive, []⟩ : Sys mqSender).Starts ∧
      ∃ x : Sys mqSender, Run Sys.Step ⟨sampleSender, .inactive, []⟩ sampleEvents x ∧ x.ops = [] ∧
        mqSender.Engaged x.owner ∧ x.signal.canceled = [0] ∧ x.signal.consumed = [1] ∧ x.signal.armed = [2] ∧
        x.Signals := by
  have hstarts : (⟨sampleSender, .inactive, []⟩ : Sys mqSender).Starts := ⟨⟨_, rfl, rfl⟩, rfl, rfl⟩
  let ping : List Blob := [[], ctlBytes ctlPing]
  let s₁ := sampleStarted [[], ctlBytes (-1)] 0 .inactive
  let s₂ := sampleStarted ([[], ctlBytes (-1)] ++ ping) 5 ⟨1, 0, 1⟩
  let s₃ := sampleStarted ([[], ctlBytes (-1)] ++ ping ++ [[1]]) 5 ⟨1, 0, 1⟩
  let s₄ := sampleStarted ([[], ctlBytes (-1)] ++ ping ++ [[1]]) 5 ⟨0, 1, 1⟩
  let s₅ := sampleStarted ([[], ctlBytes (-1)] ++ ping ++ [[1]] ++ ping) 5 ⟨1, 0, 1⟩
  let τ₁ : SignalTimer := { SignalTimer.inactive with armed := [0], evWaits := 1, nextWait := 1 }
  let τ₂ : SignalTimer := { τ₁ with armed := [1], nCanceled := 1, nextWait := 2, canceled := [0] }
  let τ₃ : SignalTimer := { τ₂ with armed := [], pipe := [1] }
  let τ₄ : SignalTimer := { τ₃ with armed := [2], pipe := [], nCanceled := 0, nextWait := 3, consumed := [1] }
  -- The timer is armed.
  have hstart : Sys.Step (O := mqSender) ⟨sampleSender, .inactive, []⟩ .call ⟨s₁, .inactive, []⟩ :=
    .call ⟨.startSendBlobOps, [.ready, .ready], _, nofun, nofun, rfl, rfl⟩
  have hping : Sys.Step (O := mqSender) ⟨s₁, .inactive, []⟩ .call ⟨s₂, .inactive, schedule⟩ :=
    .call ⟨.autoPing ⟨5, by decide⟩, [.ready, .ready], _, nofun, nofun, rfl, rfl⟩
  have harm : Run Sys.Step (⟨s₂, .inactive, schedule⟩ : Sys mqSender) [.exec, .exec, .exec] ⟨s₂, τ₁, []⟩ :=
    (((Run.nil _).snoc (.exec rfl)).snoc (.exec rfl)).snoc (.exec rfl)
  -- It is rescheduled.
  have hsend : Sys.Step (O := mqSender) ⟨s₂, τ₁, []⟩ .call ⟨s₃, τ₁, [.expiresAfter, .asyncWaitIfOne]⟩ :=
    .call ⟨.sendBlob ⟨[1], by decide⟩, [.ready], _, nofun, nofun, rfl, rfl⟩
  have hrearm : Run Sys.Step (⟨s₃, τ₁, [.expiresAfter, .asyncWaitIfOne]⟩ : Sys mqSender)
      [.exec, .exec, .runAborted 0] ⟨s₃, τ₂, []⟩ :=
    (((Run.nil _).snoc (.exec rfl)).snoc (.exec rfl)).snoc (.runAborted (by decide))
  -- It fires, and writes its byte.
  have hfire : Run Sys.Step (⟨s₃, τ₂, []⟩ : Sys mqSender) [.expires 1, .runFired 1] ⟨s₄, τ₃, []⟩ :=
    ((Run.nil _).snoc (.expires (by decide) ⟨[], _, rfl⟩)).snoc (.runFired (by decide))
  -- The byte is read, and the timer armed again.
  have hread : Sys.Step (O := mqSender) ⟨s₄, τ₃, []⟩ .dispatch ⟨s₅, τ₃.takeEvent, .consume :: schedule⟩ :=
    .dispatch (by decide) (by decide) ⟨[.ready, .ready], _, rfl, rfl⟩
  have hagain : Run Sys.Step (⟨s₅, τ₃.takeEvent, .consume :: schedule⟩ : Sys mqSender)
      [.exec, .exec, .exec, .exec] ⟨s₅, τ₄, []⟩ :=
    ((((Run.nil _).snoc (.exec rfl)).snoc (.exec rfl)).snoc (.exec rfl)).snoc (.exec rfl)
  have hrun : Run Sys.Step (⟨sampleSender, .inactive, []⟩ : Sys mqSender) sampleEvents ⟨s₅, τ₄, []⟩ :=
    (((((((Run.single hstart).snoc hping).append harm).snoc hsend).append hrearm).append hfire).snoc hread).append
      hagain
  have hengaged : MqPinging s₅ := ⟨by decide, rfl, rfl⟩
  have hsignals := timer_signals.2.2.1 _ _ _ hstarts hrun
  exact ⟨hstarts, _, hrun, rfl, hengaged, rfl, rfl, rfl, hsignals⟩

end Sample

end FlowIpc.Timers
