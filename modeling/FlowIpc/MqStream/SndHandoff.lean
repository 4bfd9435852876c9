import FlowIpc.Lib.Handoff
import FlowIpc.MqStream.Failed
import Mathlib.Tactic.SplitIfs

/-!
# The sender and its blocking worker

Over a queue without a native handle a sender cannot have the event loop wait for the queue itself.
`async_write_q_head_payload()` has thread W do it instead, in a blocking `wait_sendable()`, and has the
event loop await the pipe that W writes a byte to when that is done. Here are the *acts* of each
operation, in the order in which the source does them: the `try_send()`s, the task posted to W, the wait
asked of the event loop, the byte read off the pipe. They account for all that is done to the queue
(`Out.Does`), and keep to the rule of a resource that is handed to a worker (`disciplined`).

W's task is that of `Handoff`: it waits, and unless the wait ended with `S_INTERRUPTED` it writes a byte,
whether or not the queue failed meanwhile.

Source: `sync_io/detail/blob_stream_mq_snd_impl.hpp`.
-/

namespace FlowIpc.MqStream

open Handoff

namespace Out

/-! ## The acts of low-level writing -/

/-- `async_write_q_head_payload()`, up to the event.
Source: `blob_stream_mq_snd_impl.hpp` `async_write_q_head_payload` -/
def asyncWriteQHeadPayloadActs : List (Act Blob) :=
  [.post, .await]

/-- The second half of `sync_write_or_q_payload()`.
Source: `blob_stream_mq_snd_impl.hpp` `sync_write_or_q_payload` -/
def queuePayloadActs (o : Out) (origBlob : Blob) (avoidQing : Bool) : List (Act Blob) :=
  if avoidQing then []
  else if (o.pendingPayloadsQ ++ [origBlob]).length = 1 then asyncWriteQHeadPayloadActs
  else []

/-- `sync_write_or_q_payload()`
Source: `blob_stream_mq_snd_impl.hpp` `sync_write_or_q_payload` -/
def syncWriteOrQPayloadActs (o : Out) (origBlob : Blob) (avoidQing : Bool) : List (Act Blob) :=
  if o.pendingPayloadsQ = [] then
    let (sent, err, _) := o.mq.trySend origBlob
    .touch origBlob ::
      if err.isSome then [] else if sent then [] else o.queuePayloadActs origBlob avoidQing
  else o.queuePayloadActs origBlob avoidQing

/-- `sync_write_or_q_ctl_cmd_impl()`
Source: `blob_stream_mq_snd_impl.hpp` `sync_write_or_q_ctl_cmd_impl` -/
def syncWriteOrQCtlCmdImplActs (o : Out) (rawCmd : Int) : List (Act Blob) :=
  let avoidQing := decide (0 ≤ rawCmd ∧ rawCmd = ctlPing)
  let (_, avoidedQing, o') := o.syncWriteOrQPayload [] avoidQing
  o.syncWriteOrQPayloadActs [] avoidQing ++
    if o'.pendingErrCode = none then
      if avoidedQing then [] else o'.syncWriteOrQPayloadActs (ctlBytes rawCmd) false
    else []

/-- The loop of the writable event.
Source: `blob_stream_mq_snd_impl.hpp` `async_write_q_head_payload`, the event's `do`-`while` -/
def drainActs (mq : Mq) : List Blob → List (Act Blob)
  | [] => []
  | blob :: q =>
    .touch blob ::
      match mq.trySend blob with
      | (_, some _, _) => []
      | (false, none, _) => []
      | (true, none, mq) => drainActs mq q

/-! ## What they account for -/

/-- The queue after the acts, of which `try_send()` is the only one it knows. -/
def replay (mq : Mq) (as : List (Act Blob)) : Mq :=
  as.foldl (fun mq a => match a with
    | .touch blob => (mq.trySend blob).2.2
    | _ => mq) mq

/-- The queue is waited for, once, exactly while there are payloads for it and no error. -/
def Waits (o : Out) : Prop :=
  o.evWaits = if o.pendingErrCode = none ∧ o.pendingPayloadsQ ≠ [] then 1 else 0

/-- Writing from `o` to `o'` was done by these acts. -/
structure Does (o : Out) (as : List (Act Blob)) (o' : Out) : Prop where
  waits : o'.Waits
  turn : Turn o.evWaits as o'.evWaits
  mq_eq : o'.mq = replay o.mq as

variable {o o' : Out}

/-- One thing is done after the other. -/
theorem Does.trans {o'' : Out} {as bs : List (Act Blob)} (h : o.Does as o') (h' : o'.Does bs o'') :
    o.Does (as ++ bs) o'' where
  waits := h'.waits
  turn := h.turn.append h'.turn
  mq_eq := by
    rw [h'.mq_eq, h.mq_eq]
    exact (List.foldl_append).symm

/-- A failed assertion changes nothing else. -/
theorem Does.flag {o'' : Out} {as : List (Act Blob)} (h : o.Does as o')
    (hflag : ∃ f, o'' = { o' with assertFailed := f }) : o.Does as o'' := by
  obtain ⟨f, rfl⟩ := hflag
  exact ⟨h.waits, h.turn, h.mq_eq⟩

/-- An assertion does nothing. -/
theorem Does.assert {as : List (Act Blob)} {p : Prop} [Decidable p] (h : o.Does as o') :
    o.Does as (o'.assert p) :=
  h.flag ⟨_, rfl⟩

/-- There is one wait at most. -/
theorem Waits.le_one (h : o.Waits) : o.evWaits ≤ 1 := by
  rw [h]
  split <;> omega

/-- Where nothing is done nothing changes. -/
theorem Waits.does_nil (h : o.Waits) : o.Does [] o :=
  ⟨h, .nil h.le_one, rfl⟩

/-- Writing or queueing one message. A message is queued behind others, and then the queue is being
waited for and is left alone, or is the first and has the queue waited for. -/
theorem Waits.queuePayload (h : o.Waits) (herr : o.pendingErrCode = none) (b : Blob) (avoid : Bool) :
    o.Does (o.queuePayloadActs b avoid) (o.queuePayload b avoid).2.2 := by
  unfold queuePayloadActs Out.queuePayload
  by_cases havoid : avoid = true
  · rw [if_pos havoid, if_pos havoid]
    exact h.does_nil
  · rw [if_neg havoid, if_neg havoid]
    by_cases hq : o.pendingPayloadsQ = []
    · have hzero : o.evWaits = 0 := by simpa [Waits, hq] using h
      have hlen : ([b] : List Blob).length = 1 := rfl
      simp only [hq, List.nil_append, hlen, if_true, asyncWriteQHeadPayload]
      rw [assert_of (by simp)]
      refine ⟨?_, ?_, rfl⟩
      · simp [Waits, hzero, herr]
      · simp only [hzero]
        exact .handed []
    · have hone : o.evWaits = 1 := by simpa [Waits, herr, hq] using h
      have hlen : (o.pendingPayloadsQ ++ [b]).length ≠ 1 := by
        rw [List.length_append, List.length_singleton]
        have := List.length_pos_iff.mpr hq
        omega
      simp only [if_neg hlen]
      refine ⟨?_, ?_, rfl⟩
      · simp [Waits, hone, herr]
      · simp only [hone]
        exact .held

/-- A payload is tried at once, if none is held back, and waited for if it is the first to be. -/
theorem Waits.syncWriteOrQPayload (h : o.Waits) (herr : o.pendingErrCode = none) (b : Blob)
    (avoid : Bool) :
    o.Does (o.syncWriteOrQPayloadActs b avoid) (o.syncWriteOrQPayload b avoid).2.2 := by
  unfold syncWriteOrQPayloadActs Out.syncWriteOrQPayload
  rw [assert_of herr]
  simp only
  by_cases hq : o.pendingPayloadsQ = []
  · rw [if_pos hq, if_pos hq]
    have hzero : o.evWaits = 0 := by simpa [Waits, hq] using h
    rcases htry : o.mq.trySend b with ⟨sent, err, mq⟩
    have hreplay : ∀ as, replay o.mq (.touch b :: as) = replay mq as := by
      intro as
      simp [replay, htry]
    let u : Out := { o with mq := mq, pendingErrCode := err }
    have hu : u.Waits := by simp [u, Waits, hq, hzero]
    -- Whatever follows, it follows a `try_send()`.
    have hthen : ∀ {as : List (Act Blob)} {o' : Out}, u.Does as o' → o.Does (.touch b :: as) o' := by
      intro as o' hdoes
      refine ⟨hdoes.waits, ?_, ?_⟩
      · rw [hzero]
        apply Turn.touch
        have hturn := hdoes.turn
        rwa [show u.evWaits = 0 from hzero] at hturn
      · rw [hreplay]
        exact hdoes.mq_eq
    simp only
    split
    · exact (hthen hu.does_nil).assert
    · rename_i hnone
      have hnone : err = none := by simpa using hnone
      split
      · exact hthen hu.does_nil
      · exact hthen (hu.queuePayload hnone b avoid)
  · rw [if_neg hq, if_neg hq]
    exact h.queuePayload herr b avoid

/-- A command is two of these. -/
theorem Waits.syncWriteOrQCtlCmdImpl (h : o.Waits) (herr : o.pendingErrCode = none) (rawCmd : Int) :
    o.Does (o.syncWriteOrQCtlCmdImplActs rawCmd) (o.syncWriteOrQCtlCmdImpl rawCmd).2 := by
  unfold syncWriteOrQCtlCmdImplActs Out.syncWriteOrQCtlCmdImpl
  generalize decide (0 ≤ rawCmd ∧ rawCmd = ctlPing) = avoid
  have hfirst := h.syncWriteOrQPayload herr [] avoid
  rcases o.syncWriteOrQPayload [] avoid with ⟨fl, av, o'⟩
  simp only at hfirst ⊢
  split
  · rename_i herr'
    split
    · rw [List.append_nil]
      exact hfirst
    · exact (hfirst.trans (hfirst.waits.syncWriteOrQPayload herr' _ _)).assert
  · rw [List.append_nil]
    exact hfirst.assert

/-- A failed assertion makes no difference to what is written. -/
theorem syncWriteOrQPayload_flag (o : Out) (f : Bool) (b : Blob) (avoid : Bool) :
    ∃ g, ({ o with assertFailed := f } : Out).syncWriteOrQPayload b avoid =
      ((o.syncWriteOrQPayload b avoid).1, (o.syncWriteOrQPayload b avoid).2.1,
        { (o.syncWriteOrQPayload b avoid).2.2 with assertFailed := g }) := by
  unfold Out.syncWriteOrQPayload Out.queuePayload asyncWriteQHeadPayload assert
  simp only
  split_ifs <;> exact ⟨_, rfl⟩

/-- What is done does not depend on whether an assertion has failed. -/
theorem syncWriteOrQCtlCmdImplActs_flag (o : Out) (f : Bool) (rawCmd : Int) :
    ({ o with assertFailed := f } : Out).syncWriteOrQCtlCmdImplActs rawCmd =
      o.syncWriteOrQCtlCmdImplActs rawCmd := by
  unfold syncWriteOrQCtlCmdImplActs
  obtain ⟨g, hg⟩ :=
    o.syncWriteOrQPayload_flag f [] (decide (0 ≤ rawCmd ∧ rawCmd = ctlPing))
  simp only [hg]
  rfl

/-- The loop of the event works on the queue only. -/
theorem drainActs_spec (mq : Mq) (q : List Blob) :
    (∃ ops : List Blob, drainActs mq q = ops.map .touch) ∧
      (drain mq q).1 = replay mq (drainActs mq q) := by
  induction q generalizing mq with
  | nil => exact ⟨⟨[], rfl⟩, rfl⟩
  | cons blob q ih =>
      unfold drainActs drain
      rcases htry : mq.trySend blob with ⟨sent, err, mq'⟩
      have hreplay : ∀ as, replay mq (.touch blob :: as) = replay mq' as := by
        intro as
        simp [replay, htry]
      rcases err with - | e
      · rcases sent with - | -
        · exact ⟨⟨[blob], rfl⟩, (hreplay []).symm⟩
        · obtain ⟨⟨ops, hops⟩, heq⟩ := ih mq'
          refine ⟨⟨blob :: ops, ?_⟩, ?_⟩
          · simp only [hops, List.map_cons]
          · simp only
            rw [hreplay, heq]
      · exact ⟨⟨[blob], rfl⟩, (hreplay []).symm⟩

end Out

namespace BlobStreamMqSender

/-! ## The acts of the operations -/

/-- `start_send_blob_ops()`
Source: `blob_stream_mq_snd_impl.hpp` `start_send_blob_ops` -/
def startSendBlobOpsActs (s : BlobStreamMqSender) : List (Act Blob) :=
  if s.started then []
  else if s.out.pendingErrCode = none then
    s.out.syncWriteOrQCtlCmdImplActs (-s.protocolNegotiator.localMaxProtoVerForSending.1)
  else []

/-- `send_blob()`
Source: `blob_stream_mq_snd_impl.hpp` `send_blob` -/
def sendBlobActs (s : BlobStreamMqSender) (blob : Blob) : List (Act Blob) :=
  if s.started = false then []
  else if s.finished then []
  else if s.mqMaxMsgSz < blob.length then []
  else if s.out.pendingErrCode.isSome then []
  else s.out.syncWriteOrQPayloadActs blob false

/-- `async_end_sending_impl()`
Source: `blob_stream_mq_snd_impl.hpp` `async_end_sending_impl` -/
def asyncEndSendingImplActs (s : BlobStreamMqSender) : List (Act Blob) :=
  if s.started = false then []
  else if s.finished then []
  else if s.out.pendingErrCode.isSome then []
  else s.out.syncWriteOrQCtlCmdImplActs ctlEndSending

/-- `auto_ping()`
Source: `blob_stream_mq_snd_impl.hpp` `auto_ping` -/
def autoPingActs (s : BlobStreamMqSender) : List (Act Blob) :=
  if s.started = false then []
  else if s.finished then []
  else if s.autoPingPeriod ≠ 0 then []
  else if s.out.pendingErrCode.isSome then []
  else s.out.syncWriteOrQCtlCmdImplActs ctlPing

/-- `on_ev_auto_ping_now_timer_fired()`
Source: `blob_stream_mq_snd_impl.hpp` `on_ev_auto_ping_now_timer_fired` -/
def onEvAutoPingNowTimerFiredActs (s : BlobStreamMqSender) : List (Act Blob) :=
  if s.out.pendingErrCode.isSome then []
  else if s.finished then []
  else s.out.syncWriteOrQCtlCmdImplActs ctlPing

/-- The event: the byte is read, and then what can be sent is sent.
Source: `blob_stream_mq_snd_impl.hpp` `async_write_q_head_payload`, the event -/
def onEvMqWritableActs (s : BlobStreamMqSender) : List (Act Blob) :=
  let (_, q, err) := Out.drain s.out.mq s.out.pendingPayloadsQ
  .consume :: Out.drainActs s.out.mq s.out.pendingPayloadsQ ++
    if err.isSome then [] else if q = [] then [] else Out.asyncWriteQHeadPayloadActs

/-- The acts of a step. The timer's own thread does nothing to the queue. -/
def acts (s : BlobStreamMqSender) (i : Input) (ks : List MqAnswer) : List (Act Blob) :=
  let s := s.withAnswers ks
  match i with
  | .startSendBlobOps => s.startSendBlobOpsActs
  | .sendBlob blob => s.sendBlobActs blob
  | .endSending => s.asyncEndSendingImplActs
  | .asyncEndSending _ => s.asyncEndSendingImplActs
  | .autoPing _ => s.autoPingActs
  | .mqWritable => s.onEvMqWritableActs
  | .timerFires => []
  | .timerReadable => s.onEvAutoPingNowTimerFiredActs

variable {s s' : BlobStreamMqSender}

open Out (Does Waits)

/-- Assertions and timers are none of the queue's business. -/
theorem does_startSendBlobOps (h : s.out.Waits) :
    s.out.Does s.startSendBlobOpsActs s.startSendBlobOps.2.out := by
  unfold startSendBlobOpsActs BlobStreamMqSender.startSendBlobOps
  split
  · exact h.does_nil
  · simp only
    split
    · rename_i herr
      -- The assertions of this function come before the write.
      have hafter : ∀ o : Out, (∃ f, o = { s.out with assertFailed := f }) → ∀ rawCmd : Int,
          s.out.Does (s.out.syncWriteOrQCtlCmdImplActs rawCmd) (o.syncWriteOrQCtlCmdImpl rawCmd).2 := by
        rintro o ⟨f, rfl⟩ rawCmd
        have hdoes := Waits.syncWriteOrQCtlCmdImpl (o := { s.out with assertFailed := f }) h herr rawCmd
        rw [Out.syncWriteOrQCtlCmdImplActs_flag] at hdoes
        exact ⟨hdoes.waits, hdoes.turn, hdoes.mq_eq⟩
      exact hafter _ ⟨_, rfl⟩ _
    · exact h.does_nil

/-- A blob is tried, or declined. -/
theorem does_sendBlob (h : s.out.Waits) {b : Blob} (hb : b ≠ []) :
    s.out.Does (s.sendBlobActs b) (s.sendBlob b).2.2.out := by
  unfold sendBlobActs BlobStreamMqSender.sendBlob
  rw [assert_of (by simpa using hb)]
  simp only
  split
  · exact h.does_nil
  · split
    · exact h.does_nil
    · split
      · exact h.does_nil
      · split
        · exact h.does_nil
        · rename_i herr
          have hdoes := h.syncWriteOrQPayload (by simpa using herr) b false
          split
          · exact hdoes
          · split
            · unfold rescheduleAutoPing
              simp only
              split
              · exact hdoes
              · exact hdoes.assert
            · exact hdoes

/-- At the end of sending the graceful close is tried. -/
theorem does_asyncEndSendingImpl (h : s.out.Waits) (onDoneFunc : Option Nat) :
    s.out.Does s.asyncEndSendingImplActs (s.asyncEndSendingImpl onDoneFunc).2.2.out := by
  unfold asyncEndSendingImplActs BlobStreamMqSender.asyncEndSendingImpl
  split
  · exact h.does_nil
  · split
    · exact h.does_nil
    · simp only
      split
      · exact h.does_nil
      · rename_i herr
        have hdoes := h.syncWriteOrQCtlCmdImpl (by simpa using herr) ctlEndSending
        -- What follows the write are assertions, and the handler put away.
        apply hdoes.flag
        split_ifs <;> exact ⟨_, rfl⟩

/-- The first ping is tried when pings are asked for. -/
theorem does_autoPing (h : s.out.Waits) {n : Nat} (hn : 0 < n) :
    s.out.Does s.autoPingActs (s.autoPing n).2.out := by
  unfold autoPingActs BlobStreamMqSender.autoPing
  rw [assert_of hn]
  simp only
  split
  · exact h.does_nil
  · split
    · exact h.does_nil
    · split
      · exact h.does_nil
      · split
        · exact h.does_nil
        · rename_i herr
          have hdoes := h.syncWriteOrQCtlCmdImpl (by simpa using herr) ctlPing
          split
          · exact hdoes
          · exact hdoes

/-- Another is when one is due. -/
theorem does_onEvAutoPingNowTimerFired (h : s.out.Waits) :
    s.out.Does s.onEvAutoPingNowTimerFiredActs s.onEvAutoPingNowTimerFired.out := by
  unfold onEvAutoPingNowTimerFiredActs BlobStreamMqSender.onEvAutoPingNowTimerFired
  simp only
  split
  · exact h.does_nil
  · rename_i herr
    split
    · exact h.does_nil
    · have hdoes := h.syncWriteOrQCtlCmdImpl (by simpa using herr) ctlPing
      split
      · exact hdoes
      · exact hdoes

/-- The event: once the byte is read, and the wait for it over, the rest is as in a call. -/
theorem does_onEvMqWritable (h : s.out.Waits) (hone : s.out.evWaits = 1) :
    ∃ as, s.onEvMqWritableActs = .consume :: as ∧
      ({ s.out with evWaits := s.out.evWaits - 1 } : Out).Does as
        ({ s with out := { s.out with evWaits := s.out.evWaits - 1 } }.onEvMqWritable).1.out := by
  obtain ⟨herr, hq⟩ : s.out.pendingErrCode = none ∧ s.out.pendingPayloadsQ ≠ [] := by
    by_contra hnot
    rw [Waits, if_neg hnot] at h
    omega
  obtain ⟨⟨ops, hops⟩, hreplay⟩ := Out.drainActs_spec s.out.mq s.out.pendingPayloadsQ
  refine ⟨_, rfl, ?_⟩
  unfold BlobStreamMqSender.onEvMqWritable
  simp only [hone, Nat.sub_self]
  rw [assert_of (by exact herr), assert_of (by exact hq)]
  rcases hd : Out.drain s.out.mq s.out.pendingPayloadsQ with ⟨mq, q, err⟩
  rw [hd] at hreplay
  simp only at hreplay ⊢
  -- What follows the loop leaves the queue alone.
  have hdrained : ∀ (o : Out) (as : List (Act Blob)), o.Waits → o.mq = mq →
      Turn 0 (Out.drainActs s.out.mq s.out.pendingPayloadsQ ++ as) o.evWaits →
      Out.replay mq as = mq →
      ({ s.out with evWaits := 0 } : Out).Does
        (Out.drainActs s.out.mq s.out.pendingPayloadsQ ++ as) o := by
    intro o as hwaits hmq hturn hrest
    refine ⟨hwaits, hturn, ?_⟩
    rw [hmq, Out.replay, List.foldl_append, ← Out.replay, ← Out.replay, ← hreplay, hrest]
  rcases err with - | e
  · simp only [Option.isSome_none, Bool.false_eq_true, if_false]
    by_cases hq' : q = []
    · simp only [hq', if_true]
      have hdoes := hdrained ⟨mq, [], none, 0, s.out.assertFailed⟩ [] (by simp [Waits]) rfl
        (by rw [hops, List.append_nil]; exact .kept ops) rfl
      -- The handler, if it is invoked, is none of the queue's business.
      split
      · split
        · exact hdoes
        · exact hdoes
      · exact hdoes
    · simp only [if_neg hq', Out.asyncWriteQHeadPayload]
      rw [Out.assert_of (by exact hq')]
      have hdoes := hdrained ⟨mq, q, none, 1, s.out.assertFailed⟩ Out.asyncWriteQHeadPayloadActs
        (by simp [Waits, hq']) rfl (by rw [hops]; exact .handed ops) rfl
      split
      · exact hdoes
      · exact hdoes
  · simp only [Option.isSome_some, if_true]
    have hdoes := hdrained ⟨mq, q, some e, 0, s.out.assertFailed⟩ [] (by simp [Waits]) rfl
      (by rw [hops, List.append_nil]; exact .kept ops) rfl
    apply hdoes.flag
    split
    · split
      · exact ⟨_, rfl⟩
      · exact ⟨_, rfl⟩
    · exact ⟨_, rfl⟩

/-! ## Steps -/

/-- A call, or an event of the timer. -/
theorem does_step {i : Input} {ks : List MqAnswer} {obs : List Obs} (h : s.out.Waits)
    (hi : i ≠ .mqWritable) (hstep : s.step i ks = some (s', obs)) :
    (s.withAnswers ks).out.Does (s.acts i ks) s'.out := by
  have hwaits : (s.withAnswers ks).out.Waits := h
  unfold BlobStreamMqSender.step at hstep
  unfold acts
  generalize s.withAnswers ks = u at hwaits hstep ⊢
  cases i with
  | startSendBlobOps =>
      cases hstep
      exact does_startSendBlobOps hwaits
  | sendBlob b =>
      have hdoes := does_sendBlob hwaits b.property
      simp only at hstep
      rcases hcall : u.sendBlob b with ⟨ok, err, t⟩
      rw [hcall] at hstep hdoes
      split at hstep
      · rename_i heq
        cases heq
        cases hstep
        exact hdoes
      · rename_i heq
        cases heq
        cases hstep
        exact hdoes
  | endSending =>
      cases hstep
      exact does_asyncEndSendingImpl hwaits none
  | asyncEndSending g =>
      cases hstep
      exact does_asyncEndSendingImpl hwaits (some g)
  | autoPing period =>
      cases hstep
      exact does_autoPing hwaits period.property
  | mqWritable => exact absurd rfl hi
  | timerFires =>
      simp only [Option.map_eq_some_iff] at hstep
      obtain ⟨t, -, heq⟩ := hstep
      cases heq
      exact hwaits.does_nil
  | timerReadable =>
      simp only [Option.map_eq_some_iff] at hstep
      obtain ⟨t, -, heq⟩ := hstep
      cases heq
      exact does_onEvAutoPingNowTimerFired (s := { u with autoPingTimer := t }) hwaits

/-- The event of the pipe being readable. -/
theorem does_mqWritable (h : s.out.Waits) (hone : s.out.evWaits = 1) (ks : List MqAnswer) :
    ∃ s' obs as, s.step .mqWritable ks = some (s', obs) ∧ s.acts .mqWritable ks = .consume :: as ∧
      ({ (s.withAnswers ks).out with evWaits := 0 } : Out).Does as s'.out := by
  have hwaits : (s.withAnswers ks).out.Waits := h
  have hone' : (s.withAnswers ks).out.evWaits = 1 := hone
  unfold BlobStreamMqSender.step acts
  generalize s.withAnswers ks = u at hwaits hone' ⊢
  obtain ⟨as, has, hdoes⟩ := does_onEvMqWritable hwaits hone'
  rw [hone'] at hdoes
  simp only [hone', Nat.zero_lt_one, if_true]
  rcases hcall : ({ u with out := { u.out with evWaits := 1 - 1 } }.onEvMqWritable) with ⟨t, r⟩
  rw [hcall] at hdoes ⊢
  rcases r with - | ⟨f, err⟩
  · exact ⟨_, _, as, rfl, has, hdoes⟩
  · exact ⟨_, _, as, rfl, has, hdoes⟩

/-- The sender as the user thread of its worker; each turn comes with the answers of the queue. -/
def user : User BlobStreamMqSender (Input × List MqAnswer) Blob where
  waits s := s.out.evWaits
  isReady i := decide (i.1 = .mqWritable)
  turn s i := (s.step i.1 i.2).map fun r => (r.1, s.acts i.1 i.2)

/-- It keeps to the rule. -/
theorem disciplined : user.Disciplined fun s => s.out.Waits where
  call {s s' i as} h hready hturn := by
    obtain ⟨⟨t, obs⟩, hstep, heq⟩ := Option.map_eq_some_iff.mp hturn
    cases heq
    have hdoes := does_step h (by simpa [user] using hready) hstep
    exact ⟨hdoes.waits, hdoes.turn⟩
  ready {s i} h hone hready := by
    obtain ⟨i, ks⟩ := i
    obtain rfl : i = .mqWritable := by simpa [user] using hready
    obtain ⟨t, obs, as, hstep, has, hdoes⟩ := does_mqWritable h hone ks
    refine ⟨t, as, ?_, hdoes.waits, hdoes.turn⟩
    simp only [user, hstep, has, Option.map_some]

/-- A sender as a constructor leaves it. -/
def Constructed (s : BlobStreamMqSender) : Prop :=
  (∃ mq, s = ctor mq) ∨ ∃ mq n e, s = ctorFailed mq n e

/-- A sender just constructed waits for nothing. -/
theorem Constructed.waits (h : s.Constructed) : s.out.Waits ∧ user.waits s = 0 := by
  rcases h with ⟨mq, rfl⟩ | ⟨mq, n, e, rfl⟩
  · exact ⟨by simp [Waits, ctor], rfl⟩
  · exact ⟨by simp [Waits, ctorFailed], rfl⟩

end BlobStreamMqSender

end FlowIpc.MqStream
