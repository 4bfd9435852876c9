import FlowIpc.MqStream.SndInv
import FlowIpc.SocketStream.SndInv
import FlowIpc.Timers.Signal

/-!
# The auto-ping timers

The senders of a queue stream and of a socket stream keep to the rules of `Owner.Lawful` with the timer of
`auto_ping()` (`mqSender_lawful`, `socketSender_lawful`).

* It is scheduled by `auto_ping()`, once; and again by the handler of its event, after the byte was read, unless
  an error or the end of sending has been processed.
* It is rescheduled by each message of the user's that is sent without an error. No other function touches it.

Source: `native_socket_stream_impl_snd.cpp`, `blob_stream_mq_snd_impl.hpp`.
-/

namespace FlowIpc.Timers

/-! ## Engaging a timer -/

/-- `auto_ping()` or `idle_timer_run()` has engaged the feature, with `period`: either there is an error, and the
timer is left alone, or it is scheduled, for the first time. -/
theorem engages {period period' : Nat} {t t' : Timer} {err : ErrorCode} (hoff : period = 0) (hon : period' ≠ 0)
    (h : err.isSome ∧ t' = t ∨ err = none ∧ t.evWaits = 0 ∧ t' = t.schedule) :
    let ops := if period = 0 ∧ period' ≠ 0 ∧ err = none then schedule else []
    Reschedules ops ∧ t' = t ∧ err ≠ none ∨ ops = schedule ∧ t.evWaits = 0 ∧ t' = t.schedule := by
  rcases h with ⟨herr, htimer⟩ | ⟨rfl, hzero, htimer⟩
  · have hne : err ≠ none := Option.isSome_iff_ne_none.1 herr
    refine .inl ⟨?_, htimer, hne⟩
    rw [if_neg fun h => hne h.2.2]
    exact .nil
  · exact .inr ⟨if_pos ⟨hoff, hon, rfl⟩, hzero, htimer⟩

/-! ## The sender of a queue stream -/

section MqSender

open MqStream BlobStreamMqSender

/-- The feature is engaged, and neither an error nor the end of sending has been processed. -/
def MqPinging (s : BlobStreamMqSender) : Prop :=
  s.autoPingPeriod ≠ 0 ∧ s.out.pendingErrCode = none ∧ s.finished = false

/-- What the function of an input does to the timer.
Source: `blob_stream_mq_snd_impl.hpp` `send_blob`, `auto_ping` -/
def mqSenderOps (s : BlobStreamMqSender) (obs : List BlobStreamMqSender.Obs) (s' : BlobStreamMqSender)
    (i : BlobStreamMqSender.Input) (ops : List Op) : Prop :=
  match i with
  | .sendBlob _ =>
    ops = if accepted obs ≠ [] ∧ s.autoPingPeriod ≠ 0 then [.expiresAfter, .asyncWaitIfOne] else []
  | .autoPing _ =>
    ops = if s.autoPingPeriod = 0 ∧ s'.autoPingPeriod ≠ 0 ∧ s'.out.pendingErrCode = none then schedule else []
  | _ => ops = []

/-- A `Blob_stream_mq_sender_impl` and its `m_auto_ping_timer`.
Source: `blob_stream_mq_snd_impl.hpp` `on_ev_auto_ping_now_timer_fired` -/
def mqSender : Owner :=
  .ofSteps (fun s => ∃ mq : Mq, mq.sent = [] ∧ s = .ctor mq) step .timerFires .timerReadable mqSenderOps
    (fun s => s.out.pendingErrCode = none ∧ s.finished = false) autoPingTimer MqPinging

variable {s s' : BlobStreamMqSender} {fs : List Frame}

/-- What is the timer's: functions that do not touch it leave this. -/
def mqFrame (s : BlobStreamMqSender) : Nat × Timer := (s.autoPingPeriod, s.autoPingTimer)

/-- Starting the operations leaves the timer alone. -/
theorem mqFrame_startSendBlobOps : mqFrame s.startSendBlobOps.2 = mqFrame s := by
  unfold startSendBlobOps
  split
  · rfl
  · dsimp only
    split <;> rfl

/-- The end of sending leaves the timer alone, and ends the pings. -/
theorem mqFrame_asyncEndSendingImpl {f : Option Nat} :
    mqFrame (s.asyncEndSendingImpl f).2.2 = mqFrame s ∧
      ((s.asyncEndSendingImpl f).2.2 = s ∨ (s.asyncEndSendingImpl f).2.2.finished = true) := by
  unfold asyncEndSendingImpl
  split
  · exact ⟨rfl, .inl rfl⟩
  split
  · exact ⟨rfl, .inl rfl⟩
  dsimp only
  split
  · exact ⟨rfl, .inr rfl⟩
  · refine ⟨?_, .inr ?_⟩
    · split_ifs <;> rfl
    · split_ifs <;> rfl

/-- The queue's event leaves the timer alone. -/
theorem mqFrame_onEvMqWritable : mqFrame s.onEvMqWritable.1 = mqFrame s := by
  obtain ⟨out, negotiator, started, size, finished, onDone, period, timer⟩ := s
  unfold onEvMqWritable
  cases onDone with
  | none => dsimp only [assert]; split_ifs <;> rfl
  | some f => dsimp only [assert]; split_ifs <;> rfl

/-- Who still pings has not ended the sending. -/
theorem pinging_of_end (h : s' = s ∨ s'.finished = true) : MqPinging s' → MqPinging s := by
  rintro hon
  rcases h with rfl | hfin
  · exact hon
  · rw [hon.2.2] at hfin
    cases hfin

/-- A blob leaves the timer as it is: what it puts off is still to come. -/
theorem mqFrame_sendBlob (hs : s.Inv fs) {b : Blob} (hb : b ≠ []) {ok : Bool} {err : ErrorCode}
    (hcall : s.sendBlob b = (ok, err, s')) : mqFrame s' = mqFrame s ∧ (MqPinging s' → MqPinging s) := by
  rcases sendBlob_cases hb hcall with ⟨-, rfl⟩ | ⟨hsending, -, out, -, -, rfl | rfl⟩
  · exact ⟨rfl, id⟩
  · exact ⟨rfl, fun hon => ⟨hon.1, hsending.noError, hsending.notFinished⟩⟩
  · rw [rescheduleAutoPing_eq (s := { s with out := out }) hs.timer]
    exact ⟨rfl, fun hon => ⟨hon.1, hsending.noError, hsending.notFinished⟩⟩

/-- `auto_ping()`: it is refused; or there is an error; or the timer is scheduled, for the first time. -/
theorem mqAutoPing_cases (hs : s.Inv fs) (period : {n : Nat // 0 < n}) :
    (s.autoPing period).2 = s ∨
      s.autoPingPeriod = 0 ∧ (s.autoPing period).2.autoPingPeriod ≠ 0 ∧
        ((s.autoPing period).2.out.pendingErrCode.isSome ∧
            (s.autoPing period).2.autoPingTimer = s.autoPingTimer ∨
          (s.autoPing period).2.out.pendingErrCode = none ∧ s.autoPingTimer.evWaits = 0 ∧
            (s.autoPing period).2.autoPingTimer = s.autoPingTimer.schedule) := by
  have hne : period.val ≠ 0 := Nat.ne_of_gt period.property
  unfold autoPing
  rw [assert_of period.property]
  split
  · exact .inl rfl
  dsimp only
  split
  · exact .inl rfl
  split
  · exact .inl rfl
  rename_i hoff
  have hoff : s.autoPingPeriod = 0 := by simpa using hoff
  refine .inr ⟨hoff, ?_⟩
  split
  · rename_i herr
    exact ⟨hne, .inl ⟨herr, rfl⟩⟩
  split
  · rename_i herr
    exact ⟨hne, .inl ⟨herr, rfl⟩⟩
  · rename_i herr
    exact ⟨hne, .inr ⟨by simpa using herr, hs.timer_off hoff, rfl⟩⟩

/-- A call reschedules the timer, or leaves it alone, or schedules it where it was not in use. -/
theorem mqSender_calls (hs : s.Inv fs) {i : BlobStreamMqSender.Input} {ks : List MqAnswer}
    {obs : List BlobStreamMqSender.Obs} {ops : List Op} (hne : i ≠ .timerFires) (hne' : i ≠ .timerReadable)
    (hstep : s.step i ks = some (s', obs)) (hops : mqSenderOps s obs s' i ops) :
    Reschedules ops ∧ s'.autoPingTimer = s.autoPingTimer ∧ (MqPinging s' → MqPinging s) ∨
      ops = schedule ∧ s.autoPingTimer.evWaits = 0 ∧ s'.autoPingTimer = s.autoPingTimer.schedule := by
  have hu := hs.withAnswers ks
  -- An input that leaves the timer alone.
  have hkept : ∀ u' : BlobStreamMqSender, mqFrame u' = mqFrame (s.withAnswers ks) →
      (MqPinging u' → MqPinging (s.withAnswers ks)) → Reschedules ops → s' = u' →
      Reschedules ops ∧ s'.autoPingTimer = s.autoPingTimer ∧ (MqPinging s' → MqPinging s) := by
    rintro u' hframe hon hresched rfl
    exact ⟨hresched, congrArg Prod.snd hframe, hon⟩
  cases i with
  | startSendBlobOps =>
    cases hops
    cases hstep
    refine .inl (hkept _ mqFrame_startSendBlobOps (fun hon => ?_) .nil rfl)
    by_cases hstart : (s.withAnswers ks).started
    · rw [startSendBlobOps, if_pos hstart] at hon
      exact hon
    · have hperiod := (hu.fresh (by simpa using hstart)).2.2.2.2
      have hframe : (s.withAnswers ks).startSendBlobOps.2.autoPingPeriod = (s.withAnswers ks).autoPingPeriod :=
        congrArg Prod.fst mqFrame_startSendBlobOps
      exact absurd (hframe.trans hperiod) hon.1
  | sendBlob b =>
    cases hops
    have hresched : Reschedules
        (if accepted obs ≠ [] ∧ s.autoPingPeriod ≠ 0 then [.expiresAfter, .asyncWaitIfOne] else []) := by
      split
      · exact .cons .ifOne .nil
      · exact .nil
    rcases hcall : (s.withAnswers ks).sendBlob b with ⟨ok, err, t⟩
    obtain ⟨hframe, hon⟩ := mqFrame_sendBlob hu b.property hcall
    refine .inl (hkept t hframe hon hresched ?_)
    dsimp only [step] at hstep
    rw [hcall] at hstep
    split at hstep
    · rename_i heq
      cases heq
      cases hstep
      rfl
    · rename_i heq
      cases heq
      cases hstep
      rfl
  | endSending =>
    cases hops
    cases hstep
    obtain ⟨hframe, hend⟩ := mqFrame_asyncEndSendingImpl (s := s.withAnswers ks) (f := none)
    exact .inl (hkept _ hframe (pinging_of_end hend) .nil rfl)
  | asyncEndSending f =>
    cases hops
    cases hstep
    obtain ⟨hframe, hend⟩ := mqFrame_asyncEndSendingImpl (s := s.withAnswers ks) (f := some f)
    exact .inl (hkept _ hframe (pinging_of_end hend) .nil rfl)
  | autoPing period =>
    cases hops
    cases hstep
    rcases mqAutoPing_cases hu period with heq | ⟨hoff, hne, htimer⟩
    · rw [heq, if_neg fun h => h.2.1 h.1]
      exact .inl ⟨.nil, rfl, id⟩
    · rcases engages hoff hne htimer with ⟨hresched, htimer, herr⟩ | hsched
      · exact .inl ⟨hresched, htimer, fun hon => absurd hon.2.1 herr⟩
      · exact .inr hsched
  | mqWritable =>
    cases hops
    dsimp only [step] at hstep
    split at hstep
    · rename_i hw
      obtain ⟨herr, -, -⟩ := hu.of_evWaits hw
      rcases hcall : BlobStreamMqSender.onEvMqWritable { s.withAnswers ks with
        out := { (s.withAnswers ks).out with evWaits := (s.withAnswers ks).out.evWaits - 1 } } with ⟨t, r⟩
      obtain ⟨-, -, hfin, -⟩ := hu.onEvMqWritable hw hcall
      have hframe := mqFrame_onEvMqWritable (s := { s.withAnswers ks with
        out := { (s.withAnswers ks).out with evWaits := (s.withAnswers ks).out.evWaits - 1 } })
      rw [hcall] at hframe hstep
      refine .inl (hkept t hframe (fun hon => ?_) .nil ?_)
      · have hperiod : t.autoPingPeriod = (s.withAnswers ks).autoPingPeriod := congrArg Prod.fst hframe
        rw [MqPinging, hfin, hperiod] at hon
        exact ⟨hon.1, herr, hon.2.2⟩
      · cases r <;> (cases hstep; rfl)
    · cases hstep
  | timerFires => exact absurd rfl hne
  | timerReadable => exact absurd rfl hne'

/-- The handler of the event: the byte is read, and the timer is scheduled again, unless there is an error or
no more is to be sent. -/
theorem mqSender_readable {ks : List MqAnswer} {obs : List BlobStreamMqSender.Obs}
    (hstep : s.step .timerReadable ks = some (s', obs)) :
    ∃ t, s.autoPingTimer.takeEvent = some t ∧
      (s'.autoPingTimer = t.consumeTimerFiringSignal ∧
          ¬ (s'.out.pendingErrCode = none ∧ s'.finished = false) ∨
        s'.autoPingTimer = t.consumeTimerFiringSignal.schedule ∧ s'.out.pendingErrCode = none ∧
          s'.finished = false) := by
  dsimp only [step] at hstep
  obtain ⟨t, htake, heq⟩ := Option.map_eq_some_iff.1 hstep
  cases heq
  refine ⟨t, htake, ?_⟩
  unfold onEvAutoPingNowTimerFired
  dsimp only
  split
  · rename_i herr
    exact .inl ⟨rfl, fun h => by rw [h.1] at herr; cases herr⟩
  split
  · rename_i hfin
    exact .inl ⟨rfl, fun h => by rw [h.2] at hfin; cases hfin⟩
  rename_i hfin
  split
  · rename_i herr
    exact .inl ⟨rfl, fun h => by rw [h.1] at herr; cases herr⟩
  · rename_i herr
    exact .inr ⟨rfl, by simpa using herr, by simpa using hfin⟩

/-- **The sender of a queue stream uses its timer right.** -/
theorem mqSender_lawful : mqSender.Lawful (fun s : BlobStreamMqSender => ∃ fs, s.Inv fs) := by
  have hinv : ∀ (s : BlobStreamMqSender) i ks s' obs, (∃ fs, s.Inv fs) → s.step i ks = some (s', obs) →
      ∃ fs, s'.Inv fs := by
    rintro s i ks s' obs ⟨fs, hs⟩ hstep
    obtain ⟨-, new, hs', -⟩ := hs.step hstep
    exact ⟨_, hs'⟩
  refine Owner.lawful_ofSteps ?_ ?_ ?_ ?_ ?_
  · rintro s ⟨mq, hsent, rfl⟩
    exact ⟨⟨[], inv_ctor hsent⟩, rfl, fun hon => hon.1 rfl⟩
  · rintro s i ks s' obs ops ⟨fs, hs⟩ hne hne' hstep hops
    exact ⟨hinv _ _ _ _ _ ⟨fs, hs⟩ hstep, mqSender_calls hs hne hne' hstep hops⟩
  · intro s ks s' obs hs hstep
    exact ⟨hinv _ _ _ _ _ hs hstep, fun hon => hon.2, mqSender_readable hstep⟩
  · exact fun s ks => ⟨_, rfl⟩
  · refine fun s ks => ⟨_, rfl, fun t hs hfire => ⟨?_, rfl, id⟩⟩
    exact hinv s .timerFires ks _ _ hs (congrArg (Option.map _) hfire)

end MqSender

/-! ## The sender of a socket stream -/

section SocketSender

open SocketStream NativeSocketStreamSnd

/-- The feature is engaged, and neither an error nor the end of sending has been processed. -/
def SocketPinging (s : NativeSocketStreamSnd) : Prop :=
  s.autoPingPeriod ≠ 0 ∧ s.out.pendingErrCode = none ∧ s.finished = false

/-- What the function of an input does to the timer.
Source: `native_socket_stream_impl_snd.cpp` `send_native_handle`, `auto_ping` -/
def socketSenderOps (s : NativeSocketStreamSnd) (obs : List NativeSocketStreamSnd.Obs) (s' : NativeSocketStreamSnd)
    (i : NativeSocketStreamSnd.Input) (ops : List Op) : Prop :=
  match i with
  | .sendNativeHandle _ =>
    ops = if accepted obs ≠ [] ∧ s.autoPingPeriod ≠ 0 then [.expiresAfter, .asyncWaitIfOne] else []
  | .autoPing _ =>
    ops = if s.autoPingPeriod = 0 ∧ s'.autoPingPeriod ≠ 0 ∧ s'.out.pendingErrCode = none then schedule else []
  | _ => ops = []

/-- The sending direction of a `Native_socket_stream::Impl`, and its `m_snd_auto_ping_timer`.
Source: `native_socket_stream_impl_snd.cpp` `snd_on_ev_auto_ping_now_timer_fired` -/
def socketSender : Owner :=
  .ofSteps (fun s => ∃ (statePeer : Bool) (p : PeerSocket), p.sent = [] ∧ s = .ctor statePeer p) step
    .timerFires .timerReadable socketSenderOps (fun s => s.out.pendingErrCode = none ∧ s.finished = false)
    autoPingTimer SocketPinging

variable {s s' : NativeSocketStreamSnd} {told : Option (List Frame)}

/-- What is the timer's: functions that do not touch it leave this. -/
def socketFrame (s : NativeSocketStreamSnd) : Nat × Timer := (s.autoPingPeriod, s.autoPingTimer)

/-- Starting the operations leaves the timer alone. -/
theorem socketFrame_startSendNativeHandleOps : socketFrame s.startSendNativeHandleOps.2 = socketFrame s := by
  unfold startSendNativeHandleOps
  split
  · rfl
  · dsimp only
    split <;> rfl

/-- The end of sending leaves the timer alone, and ends the pings. -/
theorem socketFrame_asyncEndSendingImpl {f : Option Nat} :
    socketFrame (s.asyncEndSendingImpl f).2.2 = socketFrame s ∧
      ((s.asyncEndSendingImpl f).2.2 = s ∨ (s.asyncEndSendingImpl f).2.2.finished = true) := by
  unfold asyncEndSendingImpl
  split
  · exact ⟨rfl, .inl rfl⟩
  split
  · exact ⟨rfl, .inl rfl⟩
  dsimp only
  split
  · exact ⟨rfl, .inr rfl⟩
  · refine ⟨?_, .inr ?_⟩
    · split_ifs <;> rfl
    · split_ifs <;> rfl

/-- The socket's event leaves the timer alone. -/
theorem socketFrame_onEvPeerSocketWritableOrError :
    socketFrame s.onEvPeerSocketWritableOrError.1 = socketFrame s := by
  obtain ⟨out, negotiator, started, size, finished, onDone, period, timer⟩ := s
  unfold onEvPeerSocketWritableOrError
  cases onDone with
  | none => dsimp only [assert]; split_ifs <;> rfl
  | some f => dsimp only [assert]; split_ifs <;> rfl

/-- Who still pings has not ended the sending. -/
theorem socketPinging_of_end (h : s' = s ∨ s'.finished = true) : SocketPinging s' → SocketPinging s := by
  rintro hon
  rcases h with rfl | hfin
  · exact hon
  · rw [hon.2.2] at hfin
    cases hfin

/-- A message leaves the timer as it is: what it puts off is still to come. -/
theorem socketFrame_sendNativeHandle (hs : s.Inv told) {m : UserMsg} {ok : Bool} {err : ErrorCode}
    (hcall : s.sendNativeHandle m.val.1 m.val.2 = (ok, err, s')) :
    socketFrame s' = socketFrame s ∧ (SocketPinging s' → SocketPinging s) := by
  rcases sendNativeHandle_cases hcall with ⟨-, rfl⟩ | ⟨hsending, -, -, -, rfl | rfl⟩
  · exact ⟨rfl, id⟩
  · exact ⟨rfl, fun hon => ⟨hon.1, hsending.noError, hsending.notFinished⟩⟩
  · generalize s.out.sendLowLvlPayloads m.val.1 m.val.2 = out
    rw [rescheduleAutoPing_eq (s := { s with out := out }) hs.timer]
    exact ⟨rfl, fun hon => ⟨hon.1, hsending.noError, hsending.notFinished⟩⟩

/-- `auto_ping()`: it is refused; or there is an error; or the timer is scheduled, for the first time. -/
theorem socketAutoPing_cases (hs : s.Inv told) (period : {n : Nat // 0 < n}) :
    (s.autoPing period).2 = s ∨
      s.autoPingPeriod = 0 ∧ (s.autoPing period).2.autoPingPeriod ≠ 0 ∧
        ((s.autoPing period).2.out.pendingErrCode.isSome ∧
            (s.autoPing period).2.autoPingTimer = s.autoPingTimer ∨
          (s.autoPing period).2.out.pendingErrCode = none ∧ s.autoPingTimer.evWaits = 0 ∧
            (s.autoPing period).2.autoPingTimer = s.autoPingTimer.schedule) := by
  have hne : period.val ≠ 0 := Nat.ne_of_gt period.property
  unfold autoPing
  rw [assert_of period.property]
  split
  · exact .inl rfl
  dsimp only
  split
  · exact .inl rfl
  split
  · exact .inl rfl
  rename_i hoff
  have hoff : s.autoPingPeriod = 0 := by simpa using hoff
  refine .inr ⟨hoff, ?_⟩
  split
  · rename_i herr
    exact ⟨hne, .inl ⟨herr, rfl⟩⟩
  split
  · rename_i herr
    exact ⟨hne, .inl ⟨herr, rfl⟩⟩
  · rename_i herr
    exact ⟨hne, .inr ⟨by simpa using herr, hs.timer_off hoff, rfl⟩⟩

/-- A call reschedules the timer, or leaves it alone, or schedules it where it was not in use. -/
theorem socketSender_calls (hs : s.Inv told) {i : NativeSocketStreamSnd.Input} {ks : List SockAnswer}
    {obs : List NativeSocketStreamSnd.Obs} {ops : List Op} (hne : i ≠ .timerFires) (hne' : i ≠ .timerReadable)
    (hstep : s.step i ks = some (s', obs)) (hops : socketSenderOps s obs s' i ops) :
    Reschedules ops ∧ s'.autoPingTimer = s.autoPingTimer ∧ (SocketPinging s' → SocketPinging s) ∨
      ops = schedule ∧ s.autoPingTimer.evWaits = 0 ∧ s'.autoPingTimer = s.autoPingTimer.schedule := by
  have hu := hs.withAnswers ks
  -- An input that leaves the timer alone.
  have hkept : ∀ u' : NativeSocketStreamSnd, socketFrame u' = socketFrame (s.withAnswers ks) →
      (SocketPinging u' → SocketPinging (s.withAnswers ks)) → Reschedules ops → s' = u' →
      Reschedules ops ∧ s'.autoPingTimer = s.autoPingTimer ∧ (SocketPinging s' → SocketPinging s) := by
    rintro u' hframe hon hresched rfl
    exact ⟨hresched, congrArg Prod.snd hframe, hon⟩
  cases i with
  | connected =>
    cases hops
    cases hstep
    exact .inl ⟨.nil, rfl, id⟩
  | startSendNativeHandleOps =>
    cases hops
    cases hstep
    refine .inl (hkept _ socketFrame_startSendNativeHandleOps (fun hon => ?_) .nil rfl)
    by_cases hstart : (s.withAnswers ks).started
    · rw [startSendNativeHandleOps, if_pos hstart] at hon
      exact hon
    · have hperiod := (hu.fresh (by simpa using hstart)).2.2.2.2.2
      have hframe : (s.withAnswers ks).startSendNativeHandleOps.2.autoPingPeriod =
          (s.withAnswers ks).autoPingPeriod :=
        congrArg Prod.fst socketFrame_startSendNativeHandleOps
      exact absurd (hframe.trans hperiod) hon.1
  | sendNativeHandle m =>
    cases hops
    have hresched : Reschedules
        (if accepted obs ≠ [] ∧ s.autoPingPeriod ≠ 0 then [.expiresAfter, .asyncWaitIfOne] else []) := by
      split
      · exact .cons .ifOne .nil
      · exact .nil
    rcases hcall : (s.withAnswers ks).sendNativeHandle m.val.1 m.val.2 with ⟨ok, err, t⟩
    obtain ⟨hframe, hon⟩ := socketFrame_sendNativeHandle hu hcall
    refine .inl (hkept t hframe hon hresched ?_)
    dsimp only [step] at hstep
    rw [hcall] at hstep
    split at hstep
    · rename_i heq
      cases heq
      cases hstep
      rfl
    · rename_i heq
      cases heq
      cases hstep
      rfl
  | endSending =>
    cases hops
    cases hstep
    obtain ⟨hframe, hend⟩ := socketFrame_asyncEndSendingImpl (s := s.withAnswers ks) (f := none)
    exact .inl (hkept _ hframe (socketPinging_of_end hend) .nil rfl)
  | asyncEndSending f =>
    cases hops
    cases hstep
    obtain ⟨hframe, hend⟩ := socketFrame_asyncEndSendingImpl (s := s.withAnswers ks) (f := some f)
    exact .inl (hkept _ hframe (socketPinging_of_end hend) .nil rfl)
  | autoPing period =>
    cases hops
    cases hstep
    rcases socketAutoPing_cases hu period with heq | ⟨hoff, hne, htimer⟩
    · rw [heq, if_neg fun h => h.2.1 h.1]
      exact .inl ⟨.nil, rfl, id⟩
    · rcases engages hoff hne htimer with ⟨hresched, htimer, herr⟩ | hsched
      · exact .inl ⟨hresched, htimer, fun hon => absurd hon.2.1 herr⟩
      · exact .inr hsched
  | socketWritable =>
    cases hops
    dsimp only [step] at hstep
    split at hstep
    · rename_i hw
      obtain ⟨herr, -, -⟩ := hu.of_evWaits hw
      rcases hcall : NativeSocketStreamSnd.onEvPeerSocketWritableOrError { s.withAnswers ks with
        out := { (s.withAnswers ks).out with evWaits := (s.withAnswers ks).out.evWaits - 1 } } with ⟨t, r⟩
      obtain ⟨-, -, -, hsame⟩ := hu.onEvPeerSocketWritableOrError hw hcall
      have hfin : t.finished = (s.withAnswers ks).finished := by rw [hsame]
      have hframe := socketFrame_onEvPeerSocketWritableOrError (s := { s.withAnswers ks with
        out := { (s.withAnswers ks).out with evWaits := (s.withAnswers ks).out.evWaits - 1 } })
      rw [hcall] at hframe hstep
      refine .inl (hkept t hframe (fun hon => ?_) .nil ?_)
      · have hperiod : t.autoPingPeriod = (s.withAnswers ks).autoPingPeriod := congrArg Prod.fst hframe
        rw [SocketPinging, hfin, hperiod] at hon
        exact ⟨hon.1, herr, hon.2.2⟩
      · cases r <;> (cases hstep; rfl)
    · cases hstep
  | timerFires => exact absurd rfl hne
  | timerReadable => exact absurd rfl hne'

/-- The handler of the event: the byte is read, and the timer is scheduled again, unless there is an error or
no more is to be sent. -/
theorem socketSender_readable {ks : List SockAnswer} {obs : List NativeSocketStreamSnd.Obs}
    (hstep : s.step .timerReadable ks = some (s', obs)) :
    ∃ t, s.autoPingTimer.takeEvent = some t ∧
      (s'.autoPingTimer = t.consumeTimerFiringSignal ∧
          ¬ (s'.out.pendingErrCode = none ∧ s'.finished = false) ∨
        s'.autoPingTimer = t.consumeTimerFiringSignal.schedule ∧ s'.out.pendingErrCode = none ∧
          s'.finished = false) := by
  dsimp only [step] at hstep
  obtain ⟨t, htake, heq⟩ := Option.map_eq_some_iff.1 hstep
  cases heq
  refine ⟨t, htake, ?_⟩
  unfold onEvAutoPingNowTimerFired
  dsimp only
  split
  · rename_i herr
    exact .inl ⟨rfl, fun h => by rw [h.1] at herr; cases herr⟩
  split
  · rename_i hfin
    exact .inl ⟨rfl, fun h => by rw [h.2] at hfin; cases hfin⟩
  rename_i hfin
  split
  · rename_i herr
    exact .inl ⟨rfl, fun h => by rw [h.1] at herr; cases herr⟩
  · rename_i herr
    exact .inr ⟨rfl, by simpa using herr, by simpa using hfin⟩

/-- **The sender of a socket stream uses its timer right.** -/
theorem socketSender_lawful : socketSender.Lawful (fun s : NativeSocketStreamSnd => ∃ told, s.Inv told) := by
  have hinv : ∀ (s : NativeSocketStreamSnd) i ks s' obs, (∃ told, s.Inv told) →
      s.step i ks = some (s', obs) → ∃ told, s'.Inv told := by
    rintro s i ks s' obs ⟨told, hs⟩ hstep
    obtain ⟨-, new, hs', -⟩ := hs.step hstep
    exact ⟨_, hs'⟩
  refine Owner.lawful_ofSteps ?_ ?_ ?_ ?_ ?_
  · rintro s ⟨statePeer, p, hsent, rfl⟩
    exact ⟨⟨none, inv_ctor hsent⟩, rfl, fun hon => hon.1 rfl⟩
  · rintro s i ks s' obs ops ⟨told, hs⟩ hne hne' hstep hops
    exact ⟨hinv _ _ _ _ _ ⟨told, hs⟩ hstep, socketSender_calls hs hne hne' hstep hops⟩
  · intro s ks s' obs hs hstep
    exact ⟨hinv _ _ _ _ _ hs hstep, fun hon => hon.2, socketSender_readable hstep⟩
  · exact fun s ks => ⟨_, rfl⟩
  · refine fun s ks => ⟨_, rfl, fun t hs hfire => ⟨?_, rfl, id⟩⟩
    exact hinv s .timerFires ks _ _ hs (congrArg (Option.map _) hfire)

end SocketSender

end FlowIpc.Timers
