import FlowIpc.Lib.Transition
import FlowIpc.MqStream.Rcv

/-!
# Senders and receivers whose constructor failed

A constructor that fails without throwing leaves an object behind that has no queue, `m_mq` being null,
and an error in `m_pending_err_code` from the first. Whatever is done to such an object, it stays so: no
event is waited for, no handler is put away, and what would be the queue is never looked at (`Dead`, for
any queue in its place). A blob that it would send, an end of sending, and a request for a blob are
answered by that error (`Reports`).

Source: `sync_io/detail/blob_stream_mq_snd_impl.hpp`, `sync_io/detail/blob_stream_mq_rcv_impl.hpp`.
-/

namespace FlowIpc.MqStream

open Lts

/-! ## Senders -/

namespace BlobStreamMqSender

/-- The constructor, where it failed with `e`; `mq` stands for what the null pointer points to, and
`mqMaxMsgSz` was read off the caller's handle before.
Source: `blob_stream_mq_snd_impl.hpp` `Blob_stream_mq_sender_impl()` -/
def ctorFailed (mq : Mq) (mqMaxMsgSz : Nat) (e : Err) : BlobStreamMqSender :=
  { ctor mq with out := ⟨mq, [], some e, 0, false⟩, mqMaxMsgSz := mqMaxMsgSz }

/-- A call or an event, whatever a queue would answer. -/
def Moves (s : BlobStreamMqSender) (i : Input) (s' : BlobStreamMqSender) : Prop :=
  ∃ ks obs, s.step i ks = some (s', obs)

/-- What does not change about a sender whose constructor failed. -/
structure Dead (s : BlobStreamMqSender) (mq : Mq) (mqMaxMsgSz : Nat) (e : Err) : Prop where
  /-- Nothing was done with the queue; answers are given to every step. -/
  mq_eq : { s.out.mq with answers := mq.answers } = mq
  queue_eq : s.out.pendingPayloadsQ = []
  err_eq : s.out.pendingErrCode = some e
  evWaits_eq : s.out.evWaits = 0
  max_eq : s.mqMaxMsgSz = mqMaxMsgSz
  handler_eq : s.pendingOnLastSendDoneFunc = none
  timer_eq : s.autoPingTimer = .inactive

/-- What a call comes to: it is answered by the error, unless it is refused, or the blob declined, for
what the user did: sending has not been started, or has been ended, or the blob is too large. -/
structure Reports (s : BlobStreamMqSender) (e : Err) : Prop where
  sendBlob : ∀ b : {b : Blob // b ≠ []}, s.sendBlob b =
    if s.started = false then (false, none, s)
    else if s.finished = true then (true, Code.sendsFinishedCannotSend.toErrorCode, s)
    else if s.mqMaxMsgSz < b.val.length then (true, Code.invalidArgument.toErrorCode, s)
    else (true, some e, s)
  asyncEndSending : ∀ f, s.asyncEndSending f =
    if s.started = false ∨ s.finished = true then (false, none, s)
    else (true, some e, { s with finished := true })

variable {s s' : BlobStreamMqSender} {mq : Mq} {n : Nat} {e : Err} {i : Input}

/-- It is dead from the start. -/
theorem dead_ctorFailed (mq : Mq) (n : Nat) (e : Err) : (ctorFailed mq n e).Dead mq n e :=
  ⟨rfl, rfl, rfl, rfl, rfl, rfl, rfl⟩

/-- Answers make no difference to it. -/
theorem Dead.withAnswers (h : s.Dead mq n e) (ks : List MqAnswer) :
    (s.withAnswers ks).Dead mq n e :=
  ⟨h.mq_eq, h.queue_eq, h.err_eq, h.evWaits_eq, h.max_eq, h.handler_eq, h.timer_eq⟩

/-- It has an error. -/
theorem Dead.isSome (h : s.Dead mq n e) : s.out.pendingErrCode.isSome := by
  rw [h.err_eq]
  rfl

/-- It reports its error, where it does not decline the call for another reason. -/
theorem Dead.reports (h : s.Dead mq n e) : s.Reports e where
  sendBlob b := by
    unfold BlobStreamMqSender.sendBlob
    rw [assert_of (by simpa using b.property)]
    simp only [h.err_eq, Option.isSome_some, if_true]
  asyncEndSending f := by
    unfold BlobStreamMqSender.asyncEndSending BlobStreamMqSender.asyncEndSendingImpl
    simp only [h.err_eq, Option.isSome_some, if_true]
    split
    · rename_i hstart
      rw [if_pos (.inl hstart)]
    · rename_i hstart
      split
      · rename_i hfin
        rw [if_pos (.inr hfin)]
      · rename_i hfin
        rw [if_neg (not_or.mpr ⟨hstart, hfin⟩)]

/-- A blob changes nothing. -/
theorem Dead.sendBlob (h : s.Dead mq n e) (b : {b : Blob // b ≠ []}) : (s.sendBlob b).2.2 = s := by
  rw [h.reports.sendBlob b]
  split
  · rfl
  · split
    · rfl
    · split <;> rfl

/-- The end of sending is no event either. -/
theorem Dead.setFinished (h : s.Dead mq n e) :
    ({ s with finished := true } : BlobStreamMqSender).Dead mq n e :=
  ⟨h.mq_eq, h.queue_eq, h.err_eq, h.evWaits_eq, h.max_eq, h.handler_eq, h.timer_eq⟩

/-- Nor is it brought to life by the end of sending. -/
theorem Dead.asyncEndSending (h : s.Dead mq n e) (f : Nat) :
    (s.asyncEndSending f).2.2.Dead mq n e := by
  rw [h.reports.asyncEndSending f]
  split
  · exact h
  · exact h.setFinished

/-- Nor is it by that without a handler. -/
theorem Dead.endSending (h : s.Dead mq n e) : s.endSending.2.Dead mq n e := by
  unfold BlobStreamMqSender.endSending BlobStreamMqSender.asyncEndSendingImpl
  simp only [h.isSome, if_true]
  split
  · exact h
  · split
    · exact h
    · exact h.setFinished

/-- Nothing brings it to life. -/
theorem Dead.step (h : s.Dead mq n e) (hstep : s.Moves i s') : s'.Dead mq n e := by
  obtain ⟨ks, obs, hstep⟩ := hstep
  have hu := h.withAnswers ks
  unfold BlobStreamMqSender.step at hstep
  generalize s.withAnswers ks = u at hu hstep
  cases i with
  | startSendBlobOps =>
      cases hstep
      unfold BlobStreamMqSender.startSendBlobOps
      simp only [hu.err_eq, reduceCtorEq, if_false]
      split
      · exact hu
      · exact ⟨hu.mq_eq, hu.queue_eq, hu.err_eq, hu.evWaits_eq, hu.max_eq, hu.handler_eq, hu.timer_eq⟩
  | sendBlob b =>
      have hsame := hu.sendBlob b
      rcases hcall : u.sendBlob b with ⟨ok, err, t⟩
      rw [hcall] at hsame
      obtain rfl : t = u := hsame
      simp only [hcall] at hstep
      split at hstep <;> (rename_i heq; cases heq; cases hstep; exact hu)
  | endSending =>
      cases hstep
      exact hu.endSending
  | asyncEndSending f =>
      cases hstep
      exact hu.asyncEndSending f
  | autoPing period =>
      cases hstep
      unfold BlobStreamMqSender.autoPing
      rw [assert_of period.property]
      simp only [hu.isSome, if_true]
      split
      · exact hu
      · split
        · exact hu
        · split
          · exact hu
          · exact ⟨hu.mq_eq, hu.queue_eq, hu.err_eq, hu.evWaits_eq, hu.max_eq, hu.handler_eq,
              hu.timer_eq⟩
  | mqWritable =>
      simp only [hu.evWaits_eq, Nat.lt_irrefl, if_false] at hstep
      cases hstep
  | timerFires =>
      simp only [hu.timer_eq] at hstep
      cases hstep
  | timerReadable =>
      simp only [hu.timer_eq] at hstep
      cases hstep

/-- Whatever is done to a sender whose constructor failed, it reports the error. -/
theorem reports_of_run (h : Run Moves (ctorFailed mq n e) is s) :
    s.Reports e ∧ { s.out.mq with answers := mq.answers } = mq := by
  have hdead : s.Dead mq n e :=
    h.invariant (P := fun s => s.Dead mq n e) (fun _ _ _ h hstep => h.step hstep)
      (dead_ctorFailed mq n e)
  exact ⟨hdead.reports, hdead.mq_eq⟩

end BlobStreamMqSender

/-! ## Receivers -/

namespace BlobStreamMqReceiver

/-- The constructor, where it failed with `e`; `mq` stands for what the null pointer points to, and
`mqMaxMsgSz` was read off the caller's handle before.
Source: `blob_stream_mq_rcv_impl.hpp` `Blob_stream_mq_receiver_impl()` -/
def ctorFailed (mq : Mq) (mqMaxMsgSz : Nat) (e : Err) : BlobStreamMqReceiver :=
  { ctor mq with inp := { (ctor mq).inp with mqMaxMsgSz := mqMaxMsgSz, pendingErrCode := some e } }

/-- A call or an event, whatever a queue would answer. -/
def Moves (r : BlobStreamMqReceiver) (i : Input) (r' : BlobStreamMqReceiver) : Prop :=
  ∃ ks obs, r.step i ks = some (r', obs)

/-- What does not change about a receiver whose constructor failed. -/
structure Dead (r : BlobStreamMqReceiver) (mq : Mq) (e : Err) : Prop where
  /-- Nothing was done with the queue; answers are given to every step. -/
  mq_eq : { r.inp.mq with answers := mq.answers } = mq
  err_eq : r.inp.pendingErrCode = some e
  evWaits_eq : r.inp.evWaits = 0
  request_eq : r.userRequest = none
  timer_eq : r.inp.idleTimer = .inactive

/-- What a request comes to: it is answered by the error, unless it is refused because receiving has not
been started. -/
def Reports (r : BlobStreamMqReceiver) (e : Err) : Prop :=
  ∀ n f, r.asyncReceiveBlob n f =
    if r.started = false then (false, (none, []), r) else (true, (some e, []), r)

variable {r r' : BlobStreamMqReceiver} {mq : Mq} {n : Nat} {e : Err} {i : Input}

/-- It is dead from the start. -/
theorem dead_ctorFailed (mq : Mq) (n : Nat) (e : Err) : (ctorFailed mq n e).Dead mq e :=
  ⟨rfl, rfl, rfl, rfl, rfl⟩

/-- Answers make no difference to it. -/
theorem Dead.withAnswers (h : r.Dead mq e) (ks : List MqAnswer) : (r.withAnswers ks).Dead mq e :=
  ⟨h.mq_eq, h.err_eq, h.evWaits_eq, h.request_eq, h.timer_eq⟩

/-- It has an error. -/
theorem Dead.isSome (h : r.Dead mq e) : r.inp.pendingErrCode.isSome := by
  rw [h.err_eq]
  rfl

/-- There is no request afterwards, as before. -/
theorem Dead.reports (h : r.Dead mq e) : r.Reports e := by
  intro n f
  have hsame : ({ r with userRequest := none } : BlobStreamMqReceiver) = r := by
    rw [← h.request_eq]
  unfold BlobStreamMqReceiver.asyncReceiveBlob
  simp only [h.request_eq, h.err_eq, Option.isSome_some, if_true, Option.isSome_none,
    Bool.false_eq_true, if_false, hsame, ite_self]

/-- Nothing brings it to life. -/
theorem Dead.step (h : r.Dead mq e) (hstep : r.Moves i r') : r'.Dead mq e := by
  obtain ⟨ks, obs, hstep⟩ := hstep
  have hu := h.withAnswers ks
  unfold BlobStreamMqReceiver.step at hstep
  generalize r.withAnswers ks = u at hu hstep
  cases i with
  | startReceiveBlobOps =>
      cases hstep
      unfold BlobStreamMqReceiver.startReceiveBlobOps
      split
      · exact hu
      · exact ⟨hu.mq_eq, hu.err_eq, hu.evWaits_eq, hu.request_eq, hu.timer_eq⟩
  | asyncReceiveBlob m f =>
      simp only [hu.reports m f] at hstep
      cases hstep
      split <;> exact hu
  | idleTimerRun timeout =>
      cases hstep
      unfold BlobStreamMqReceiver.idleTimerRun
      rw [assert_of timeout.property]
      simp only [hu.isSome, if_true]
      split
      · exact hu
      · split
        · exact hu
        · exact ⟨hu.mq_eq, hu.err_eq, hu.evWaits_eq, hu.request_eq, hu.timer_eq⟩
  | mqReadable =>
      simp only [hu.evWaits_eq, Nat.lt_irrefl, if_false] at hstep
      cases hstep
  | timerFires =>
      simp only [hu.timer_eq] at hstep
      cases hstep
  | timerReadable =>
      simp only [hu.timer_eq] at hstep
      cases hstep

/-- Whatever is done to a receiver whose constructor failed, it reports the error. -/
theorem reports_of_run (h : Run Moves (ctorFailed mq n e) is r) :
    r.Reports e ∧ { r.inp.mq with answers := mq.answers } = mq := by
  have hdead : r.Dead mq e :=
    h.invariant (P := fun r => r.Dead mq e) (fun _ _ _ h hstep => h.step hstep)
      (dead_ctorFailed mq n e)
  exact ⟨hdead.reports, hdead.mq_eq⟩

end BlobStreamMqReceiver

end FlowIpc.MqStream
