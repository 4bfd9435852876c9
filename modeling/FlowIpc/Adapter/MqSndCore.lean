import FlowIpc.Adapter.SndCore
import FlowIpc.MqStream.SndInv

/-!
# The queue stream's sender as a core

`mqSndCore`: `Blob_stream_mq_sender_impl` is a core that an `Async_adapter_sender` can wrap. It keeps
every handler that it is given and cannot answer.
-/

namespace FlowIpc.Adapter

open MqStream PrefixCode

/-- What happens to a sender besides calls. -/
inductive MqSndEv where
  /-- The queue is reported writable. -/
  | mqWritable
  /-- The ping timer fires in its worker thread. -/
  | timerFires
  /-- The signal pipe of the ping timer is reported readable. -/
  | timerReadable

/-- The step of the sender that it is. -/
def MqSndEv.toInput : MqSndEv → BlobStreamMqSender.Input
  | mqWritable => .mqWritable
  | timerFires => .timerFires
  | timerReadable => .timerReadable

namespace MqSnd

/-- What the handler was invoked with, if it was. -/
def invoked? : List BlobStreamMqSender.Obs → Option ErrorCode
  | .invoked _ err :: _ => some err
  | _ => none

/-- An event, during which the queue gives the answers `ks`. -/
def event (s : BlobStreamMqSender) (ev : MqSndEv) (ks : List MqAnswer) :
    Option (BlobStreamMqSender × Option ErrorCode) :=
  (s.step ev.toInput ks).map fun (s, obs) => (s, invoked? obs)

/-- What was put on the queue are the frames of these blobs, and the graceful close behind them. -/
def Handed (s : BlobStreamMqSender) (acc : List {b : Blob // b ≠ []}) : Prop :=
  ∃ fs, s.out.mq.sent = stream Frame.enc (fs ++ [.endSending]) ∧ blobs fs = acc

variable {s s' : BlobStreamMqSender} {fs : List Frame} {ph : Phase}
  {acc : List {b : Blob // b ≠ []}} {ks : List MqAnswer}

/-- How far a sender is that has been told to send the frames `fs`. -/
inductive At (s : BlobStreamMqSender) (fs : List Frame) : Phase → Prop where
  /-- It goes on. -/
  | opened (finished : s.finished = false) : At s fs .opened
  /-- It has no handler. -/
  | silent (finished : s.finished = true) (handler : s.pendingOnLastSendDoneFunc = none) :
      At s fs .silent
  /-- It has a handler, for when the graceful close is sent. -/
  | waiting (finished : s.finished = true) (handler : s.pendingOnLastSendDoneFunc.isSome)
      (closing : .endSending ∈ fs) : At s fs .waiting
  /-- It has no handler, and nothing left to do. -/
  | done (err : ErrorCode) (finished : s.finished = true)
      (handler : s.pendingOnLastSendDoneFunc = none) (code : err = s.out.pendingErrCode)
      (flushed : err = none → s.out.pendingPayloadsQ = [] ∧ .endSending ∈ fs) : At s fs (.done err)

/-- A sender in use that has accepted the blobs `acc`. -/
structure Inv (s : BlobStreamMqSender) (ph : Phase) (acc : List {b : Blob // b ≠ []}) : Prop where
  /-- It has been told to send some frames, the version at least. -/
  told : ∃ fs, s.Inv fs ∧ fs ≠ [] ∧ blobs fs = acc ∧ At s fs ph

/-- Where a sender is does not depend on what the queue will answer. -/
theorem At.withAnswers (h : At s fs ph) (ks : List MqAnswer) : At (s.withAnswers ks) fs ph := by
  cases h with
  | opened finished => exact .opened finished
  | silent finished handler => exact .silent finished handler
  | waiting finished handler closing => exact .waiting finished handler closing
  | done err finished handler code flushed => exact .done err finished handler code flushed

/-- What it has accepted does not, either. -/
theorem Inv.withAnswers (h : Inv s ph acc) (ks : List MqAnswer) : Inv (s.withAnswers ks) ph acc := by
  obtain ⟨fs, hs, hne, hacc, hat⟩ := h.told
  exact ⟨fs, hs.withAnswers ks, hne, hacc, hat.withAnswers ks⟩

/-- A sender that has been told something has been started. -/
theorem started_of_told (h : s.Inv fs) (hne : fs ≠ []) : s.started = true := by
  by_contra hs
  exact hne (h.fresh (by simpa using hs)).1

/-- It goes on, or it has been told to stop. -/
theorem At.finished_iff (h : At s fs ph) : s.finished = false ↔ ph = .opened := by
  cases h with
  | opened finished => simp [finished]
  | silent finished _ => simp [finished]
  | waiting finished _ _ => simp [finished]
  | done _ finished _ _ _ => simp [finished]

/-- What is put on the queue is not all, as long as something is queued. -/
theorem not_handed (h : s.Inv fs) (herr : s.out.pendingErrCode = none)
    (hq : s.out.pendingPayloadsQ ≠ []) : ¬ Handed s acc := by
  rintro ⟨gs, hsent, -⟩
  have hhanded := h.carries.handed_eq herr
  rw [Out.handed, hsent] at hhanded
  have hpre : gs ++ [.endSending] <+: fs := by
    rw [← stream_prefix_iff Frame.isPrefixCode_enc, ← hhanded]
    exact List.prefix_append _ _
  have hall := eq_of_mem_of_not_mem_dropLast hpre (by simp) h.last
  rw [hall] at hhanded
  exact hq (by simpa using hhanded)

/-- What is put on the queue is all, once nothing is queued. -/
theorem handed (h : s.Inv fs) (herr : s.out.pendingErrCode = none)
    (hq : s.out.pendingPayloadsQ = []) (hend : .endSending ∈ fs) : Handed s (blobs fs) := by
  obtain ⟨gs, rfl⟩ := eq_snoc_of_mem hend h.last
  have hhanded := h.carries.handed_eq herr
  rw [Out.handed, hq, List.append_nil] at hhanded
  refine ⟨gs, hhanded, ?_⟩
  rw [blobs_append]
  exact (List.append_nil _).symm

/-! ## What leaves the end of sending be -/

/-- Putting off a ping does not end the sending. -/
theorem rescheduleAutoPing_finished : s.rescheduleAutoPing.finished = s.finished := by
  unfold BlobStreamMqSender.rescheduleAutoPing
  simp only
  split
  · rfl
  · rfl

/-- Asking for pings does not end the sending. -/
theorem autoPing_finished (period : Nat) : (s.autoPing period).2.finished = s.finished := by
  unfold BlobStreamMqSender.autoPing
  simp only
  split
  · rfl
  · split
    · rfl
    · split
      · rfl
      · split
        · rfl
        · split
          · rfl
          · rfl

/-- A ping does not end the sending. -/
theorem onEvAutoPingNowTimerFired_finished :
    s.onEvAutoPingNowTimerFired.finished = s.finished := by
  unfold BlobStreamMqSender.onEvAutoPingNowTimerFired
  simp only
  split
  · rfl
  · split
    · rfl
    · split
      · rfl
      · rfl

/-- A sender that has been told to stop does not ping. -/
theorem autoPing_of_finished (hfin : s.finished = true) (period : {n : Nat // 0 < n}) :
    (s.autoPing period).2 = s := by
  unfold BlobStreamMqSender.autoPing
  rw [BlobStreamMqSender.assert_of period.property]
  simp only
  split
  · rfl
  · rfl

/-- After the end of sending a ping that is due is not sent. -/
theorem onEvAutoPingNowTimerFired_of_finished (hfin : s.finished = true) :
    s.onEvAutoPingNowTimerFired =
      { s with autoPingTimer := s.autoPingTimer.consumeTimerFiringSignal } := by
  unfold BlobStreamMqSender.onEvAutoPingNowTimerFired
  simp only
  split
  · rfl
  · rfl

/-! ## What the adapter relies on -/

/-- Sending is started, and nothing has been accepted. -/
theorem start_spec {mq : Mq} (hsent : mq.sent = []) (ks : List MqAnswer) :
    (((BlobStreamMqSender.ctor mq).withAnswers ks).startSendBlobOps).1 = true ∧
      Inv (((BlobStreamMqSender.ctor mq).withAnswers ks).startSendBlobOps).2 .opened [] := by
  have hu := (BlobStreamMqSender.inv_ctor hsent).withAnswers ks
  obtain ⟨-, htells⟩ := hu.startSendBlobOps
  have hstart : (((BlobStreamMqSender.ctor mq).withAnswers ks).startSendBlobOps).2.started = true :=
    rfl
  refine ⟨rfl, [.version], ?_, by simp, rfl, .opened rfl⟩
  rcases htells with hinv | hinv
  · -- A sender that has been started has told its version.
    obtain ⟨gs, hgs, -⟩ := hinv.begun hstart
    cases hgs
  · exact hinv

/-- A sender that has been started does not refuse a blob without an error. -/
theorem sendBlob_ok (hstart : s.started = true) (b : {b : Blob // b ≠ []}) :
    (s.sendBlob b).1 = true := by
  unfold BlobStreamMqSender.sendBlob
  rw [BlobStreamMqSender.assert_of (by simpa using b.property)]
  simp only [hstart, Bool.true_eq_false, if_false]
  split
  · rfl
  · split
    · rfl
    · split
      · rfl
      · split
        · rfl
        · split
          · rfl
          · rfl

/-- Accepted or not, a blob changes nothing about the end of sending. -/
theorem Inv.sendBlob (h : Inv s ph acc) (b : {b : Blob // b ≠ []}) {ok : Bool} {err : ErrorCode}
    (hcall : s.sendBlob b = (ok, err, s')) :
    ok = true ∧ Inv s' ph (if err = none then acc ++ [b] else acc) := by
  obtain ⟨fs, hs, hne, rfl, hat⟩ := h.told
  have hstart := started_of_told hs hne
  obtain ⟨-, hcases⟩ := hs.sendBlob b hcall
  rcases BlobStreamMqSender.sendBlob_cases b.property hcall with
    ⟨hrefused, rfl⟩ | ⟨hopen, rfl, out, -, -, hs'⟩
  · have hok : ok = true := by
      have htrue := sendBlob_ok hstart b
      rw [hcall] at htrue
      exact htrue
    refine ⟨hok, ?_⟩
    rw [if_neg fun herr => hrefused ⟨hok, herr⟩]
    exact ⟨fs, hs, hne, rfl, hat⟩
  · refine ⟨rfl, ?_⟩
    have hfin' : s'.finished = false := by
      rcases hs' with rfl | rfl
      · exact hopen.notFinished
      · rw [rescheduleAutoPing_finished]
        exact hopen.notFinished
    obtain rfl := hat.finished_iff.mp hopen.notFinished
    rcases hcases with ⟨-, rfl, hinv⟩ | ⟨hrefused, hinv⟩
    · rw [if_pos rfl]
      exact ⟨fs ++ [.blob b], hinv, by simp, by simp [blobs, Frame.blob?], .opened hfin'⟩
    · rw [if_neg fun herr => hrefused ⟨rfl, herr⟩]
      exact ⟨fs, hinv, hne, rfl, .opened hfin'⟩

/-- What tells a ping at most leaves a sender that goes on as it was. -/
theorem Inv.of_tells (h : s.Tells fs .ping s') (hne : fs ≠ []) (hfin : s'.finished = false) :
    Inv s' .opened (blobs fs) := by
  obtain ⟨-, hinv | hinv⟩ := h
  · exact ⟨fs, hinv, hne, rfl, .opened hfin⟩
  · exact ⟨fs ++ [.ping], hinv, by simp, by simp [blobs, Frame.blob?], .opened hfin⟩

/-- Asking for pings accepts nothing. -/
theorem Inv.autoPing (h : Inv s ph acc) (period : {n : Nat // 0 < n}) :
    Inv (s.autoPing period).2 ph acc := by
  obtain ⟨fs, hs, hne, rfl, hat⟩ := h.told
  cases hfin : s.finished with
  | false =>
      obtain rfl := hat.finished_iff.mp hfin
      apply Inv.of_tells (hs.autoPing period) hne
      rw [autoPing_finished, hfin]
  | true =>
      rw [autoPing_of_finished hfin]
      exact h

/-- Where a sender is does not depend on its timer. -/
theorem At.setTimer (h : At s fs ph) (t : Timer) : At { s with autoPingTimer := t } fs ph := by
  cases h with
  | opened finished => exact .opened finished
  | silent finished handler => exact .silent finished handler
  | waiting finished handler closing => exact .waiting finished handler closing
  | done err finished handler code flushed => exact .done err finished handler code flushed

/-- A ping accepts nothing. -/
theorem Inv.onEvAutoPingNowTimerFired (h : Inv s ph acc) {t : Timer}
    (ht : s.autoPingTimer.takeEvent = some t) :
    Inv { s with autoPingTimer := t }.onEvAutoPingNowTimerFired ph acc := by
  obtain ⟨fs, hs, hne, rfl, hat⟩ := h.told
  by_cases hfin : s.finished = true
  · obtain ⟨hok, hzero⟩ := hs.timer.takeEvent ht
    rw [onEvAutoPingNowTimerFired_of_finished (by exact hfin)]
    exact ⟨fs, hs.setTimer hok fun _ => hzero, hne, rfl, hat.setTimer _⟩
  · have hfin : s.finished = false := by simpa using hfin
    obtain rfl := hat.finished_iff.mp hfin
    apply Inv.of_tells (hs.onEvAutoPingNowTimerFired ht) hne
    rw [onEvAutoPingNowTimerFired_finished]
    exact hfin

/-- A call that ends the sending is refused exactly if one was accepted before. -/
theorem refused_ne {ph : Phase} (hat : At s fs ph) (hstart : s.started = true)
    (why : s.started = false ∨ s.finished = true) : ph ≠ .opened := by
  rintro rfl
  have hfin := hat.finished_iff.mpr rfl
  rcases why with why | why
  · rw [hstart] at why
    cases why
  · rw [hfin] at why
    cases why

/-- What `end_sending()` comes to. -/
theorem Inv.endSending (h : Inv s ph acc) {ok : Bool} (hcall : s.endSending = (ok, s')) :
    EndEffect Inv ph acc s' ok := by
  obtain ⟨fs, hs, hne, rfl, hat⟩ := h.told
  rcases himpl : s.asyncEndSendingImpl none with ⟨ok₁, err, s₁⟩
  obtain ⟨-, hout⟩ := hs.asyncEndSendingImpl himpl
  simp only [BlobStreamMqSender.endSending, himpl] at hcall
  cases hcall
  cases hout with
  | refused hok _ hstate why =>
      subst hok hstate
      exact .refused (refused_ne hat (started_of_told hs hne) why) h
  | failed hopen hok _ hinv hfin hhandler =>
      subst hok
      refine .ended (hat.finished_iff.mp hopen.2) ?_
      rcases hinv with hinv | hinv
      · exact ⟨fs, hinv, hne, rfl, .silent hfin hhandler⟩
      · exact ⟨_, hinv, by simp, by simp [blobs, Frame.blob?], .silent hfin hhandler⟩
  | flushed hopen hok _ hinv _ hfin hhandler =>
      subst hok
      refine .ended (hat.finished_iff.mp hopen.2) ?_
      exact ⟨_, hinv, by simp, by simp [blobs, Frame.blob?], .silent hfin hhandler⟩
  | pending hopen hok _ hinv hfin hhandler =>
      subst hok
      refine .ended (hat.finished_iff.mp hopen.2) ?_
      exact ⟨_, hinv, by simp, by simp [blobs, Frame.blob?], .silent hfin hhandler⟩

/-- What `async_end_sending()` comes to. -/
theorem Inv.asyncEndSending (h : Inv s ph acc) {ok : Bool} {err : ErrorCode} {f : Nat}
    (hcall : s.asyncEndSending f = (ok, err, s')) : AsyncEndEffect Inv ph acc s' ok err := by
  obtain ⟨fs, hs, hne, rfl, hat⟩ := h.told
  obtain ⟨-, hout⟩ := hs.asyncEndSendingImpl hcall
  cases hout with
  | refused hok _ hstate why =>
      subst hok hstate
      exact .refused err (refused_ne hat (started_of_told hs hne) why) h
  | failed hopen hok herr hinv hfin hhandler =>
      subst hok
      have hgen : Genuine s'.out.pendingErrCode := by
        rcases hinv with hinv | hinv
        · exact hinv.carries.ok.genuine
        · exact hinv.carries.ok.genuine
      refine .answered err (hat.finished_iff.mp hopen.2) (herr.2 ▸ hgen.1) ?_
      have hnone : err ≠ none := Option.ne_none_iff_isSome.mpr herr.1
      rcases hinv with hinv | hinv
      · exact ⟨fs, hinv, hne, rfl, .done err hfin hhandler herr.2 fun hn => absurd hn hnone⟩
      · exact ⟨_, hinv, by simp, by simp [blobs, Frame.blob?],
          .done err hfin hhandler herr.2 fun hn => absurd hn hnone⟩
  | flushed hopen hok herr hinv hsent hfin hhandler =>
      subst hok herr
      refine .answered none (hat.finished_iff.mp hopen.2) (by simp) ?_
      exact ⟨_, hinv, by simp, by simp [blobs, Frame.blob?],
        .done none hfin hhandler hsent.1.symm fun _ => ⟨hsent.2, by simp⟩⟩
  | pending hopen hok herr hinv hfin hhandler =>
      subst hok herr
      refine .kept (hat.finished_iff.mp hopen.2) ?_
      exact ⟨_, hinv, by simp, by simp [blobs, Frame.blob?],
        .waiting hfin (by rw [hhandler]; rfl) (by simp)⟩

/-- Without a handler, or with one that is kept, the writable event leaves a sender where it was. -/
theorem At.silently (h : At s fs ph) (hfin : s'.finished = s.finished)
    (hhandler : s'.pendingOnLastSendDoneFunc = s.pendingOnLastSendDoneFunc)
    (hbusy : s.out.pendingErrCode = none ∧ s.out.pendingPayloadsQ ≠ []) : At s' fs ph := by
  cases h with
  | opened finished => exact .opened (hfin.trans finished)
  | silent finished handler => exact .silent (hfin.trans finished) (hhandler.trans handler)
  | waiting finished handler closing =>
      exact .waiting (hfin.trans finished) (hhandler ▸ handler) closing
  | done err finished handler code flushed =>
      exact absurd (flushed (code.trans hbusy.1)).1 hbusy.2

/-- When the queue is writable, the handler that waited for the end is invoked if everything has been sent, or can
no longer be. -/
theorem Inv.onEvMqWritable (h : Inv s ph acc) (hw : 0 < s.out.evWaits)
    {r : Option (Nat × ErrorCode)}
    (hcall : { s with out := { s.out with evWaits := s.out.evWaits - 1 } }.onEvMqWritable =
      (s', r)) : SndEventEffect Inv ph acc s' (r.map Prod.snd) := by
  obtain ⟨fs, hs, hne, rfl, hat⟩ := h.told
  have hbusy : s.out.pendingErrCode = none ∧ s.out.pendingPayloadsQ ≠ [] := by
    have heq := hs.carries.ok.evWaits_eq
    split at heq
    · rename_i hboth
      exact hboth
    · omega
  obtain ⟨-, hinv, hfin, hout⟩ := hs.onEvMqWritable hw hcall
  cases hout with
  | silent hhandler => exact .nothing ⟨fs, hinv, hne, rfl, hat.silently hfin hhandler hbusy⟩
  | invoked f err before after code sent =>
      cases hat with
      | waiting finished _ closing =>
          refine .invoked err rfl ⟨fs, hinv, hne, rfl, ?_⟩
          exact .done err (hfin.trans finished) after code fun hnone => ⟨sent hnone, closing⟩
      | opened finished =>
          rw [hs.pending_eq_none finished] at before
          cases before
      | silent _ handler =>
          rw [handler] at before
          cases before
      | done _ _ handler _ _ =>
          rw [handler] at before
          cases before

/-- What an event comes to. -/
theorem Inv.event (h : Inv s ph acc) {ev : MqSndEv} {r : Option ErrorCode}
    (hev : event s ev ks = some (s', r)) : SndEventEffect Inv ph acc s' r := by
  have hu := h.withAnswers ks
  unfold MqSnd.event at hev
  simp only [Option.map_eq_some_iff] at hev
  obtain ⟨⟨s₁, obs⟩, hstep, heq⟩ := hev
  cases heq
  unfold BlobStreamMqSender.step at hstep
  generalize s.withAnswers ks = u at hu hstep
  cases ev with
  | mqWritable =>
      simp only [MqSndEv.toInput] at hstep
      split at hstep
      · rename_i hw
        rcases hcall : BlobStreamMqSender.onEvMqWritable
          { u with out := { u.out with evWaits := u.out.evWaits - 1 } } with ⟨t, r⟩
        have heffect := hu.onEvMqWritable hw hcall
        rw [hcall] at hstep
        cases r with
        | none =>
            cases hstep
            exact heffect
        | some c =>
            cases hstep
            exact heffect
      · cases hstep
  | timerFires =>
      simp only [MqSndEv.toInput, Option.map_eq_some_iff] at hstep
      obtain ⟨t, hfire, heq⟩ := hstep
      cases heq
      obtain ⟨fs, hs, hne, hacc, hat⟩ := hu.told
      refine .nothing ⟨fs, hs.setTimer (hs.timer.fire hfire) ?_, hne, hacc, hat.setTimer t⟩
      intro hoff
      rw [Timer.fire_evWaits hfire]
      exact hs.timer_off hoff
  | timerReadable =>
      simp only [MqSndEv.toInput, Option.map_eq_some_iff] at hstep
      obtain ⟨t, htake, heq⟩ := hstep
      cases heq
      exact .nothing (hu.onEvAutoPingNowTimerFired htake)

end MqSnd

/-- The core of a `Blob_stream_mq_sender`. -/
def mqSndCore : SndCore where
  State := BlobStreamMqSender
  Msg := {b : Blob // b ≠ []}
  Ev := MqSndEv
  Ans := List MqAnswer
  Init s := ∃ mq : Mq, mq.sent = [] ∧ s = .ctor mq
  startSendOps s ks := (s.withAnswers ks).startSendBlobOps
  send s b ks := (s.withAnswers ks).sendBlob b
  autoPing s period ks := (s.withAnswers ks).autoPing period
  endSending s ks := (s.withAnswers ks).endSending
  asyncEndSending s ks := (s.withAnswers ks).asyncEndSending 0
  event := MqSnd.event
  hosed s := s.out.pendingErrCode
  assertFailed s := s.out.assertFailed
  Handed := MqSnd.Handed
  Keeps _ _ := True
  Inv := MqSnd.Inv
  noFailure s ph acc h := by
    obtain ⟨fs, hs, -⟩ := h.told
    exact hs.noFailure
  genuine s ph acc h := by
    obtain ⟨fs, hs, -⟩ := h.told
    exact hs.carries.ok.genuine
  waiting_spec s acc h := by
    obtain ⟨fs, hs, -, -, hat⟩ := h.told
    cases hat with
    | waiting _ handler _ =>
        obtain ⟨-, herr, hq⟩ := hs.pending handler
        exact ⟨herr, MqSnd.not_handed hs herr hq⟩
  done_spec s err acc h := by
    obtain ⟨fs, hs, -, rfl, hat⟩ := h.told
    cases hat with
    | done _ _ _ code flushed =>
        refine ⟨code.symm, fun hnone => ?_⟩
        obtain ⟨hq, hend⟩ := flushed hnone
        exact MqSnd.handed hs (code.symm.trans hnone) hq hend
  start_spec s ks := by
    rintro ⟨mq, hsent, rfl⟩
    exact MqSnd.start_spec hsent ks
  send_spec s ph acc b ks ok err s' h hcall := (h.withAnswers ks).sendBlob b hcall
  autoPing_spec s ph acc period ks h := (h.withAnswers ks).autoPing period
  endSending_spec s ph acc ks ok s' h hcall := (h.withAnswers ks).endSending hcall
  asyncEndSending_spec s ph acc ks ok err s' h _ hcall := (h.withAnswers ks).asyncEndSending hcall
  event_spec s ph acc ev ks s' r h hev := h.event hev

end FlowIpc.Adapter
