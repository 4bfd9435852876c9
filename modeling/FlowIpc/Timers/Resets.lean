import FlowIpc.MqStream.Progress
import FlowIpc.Timers.Idle

/-!
# What sets the timers of a queue stream

The two ends of a queue stream, with an eye to what is put on the queue and what is read off it.

* A sender whose queue is never full holds nothing back and has no error (`BlobStreamMqSender.Unblocked`), so that
  each step puts whole frames there, or nothing (`BlobStreamMqSender.Unblocked.step`): a ping whenever the event of
  the ping timer is handled, unless sending is finished.
* A receiver calls `not_idle()` for blobs and for pings. `BlobStreamMqReceiver.setsIdleTimer` says of each step
  whether that is done, or the timer is scheduled; and in every step in which a message is read that is neither
  an escape nor of the first frame, it is, or there is an error (`BlobStreamMqReceiver.Inv.step_resets`).
* The idle timeout is found out in one place, the handler of the timer's event.

Source: `blob_stream_mq_snd_impl.hpp`, `blob_stream_mq_rcv_impl.hpp`.
-/

namespace FlowIpc.MqStream

open Negotiation PrefixCode

namespace Out

variable {o : Out}

/-- A queue that is not full takes a payload. -/
theorem syncWriteOrQPayload_ready {msg : Blob} {avoid : Bool} {ks : List MqAnswer} (hq : o.pendingPayloadsQ = [])
    (herr : o.pendingErrCode = none) (hfits : msg.length ≤ o.mq.maxMsgSize)
    (hready : o.mq.answers = .ready :: ks) : o.syncWriteOrQPayload msg avoid =
      (true, false, { o with mq := { o.mq with sent := o.mq.sent ++ [msg], answers := ks } }) := by
  have hsend : o.mq.trySend msg = (true, none, { o.mq with sent := o.mq.sent ++ [msg], answers := ks }) := by
    unfold Mq.trySend
    rw [if_neg (Nat.not_lt.mpr hfits), hready]
  unfold syncWriteOrQPayload
  rw [assert_of herr]
  dsimp only
  rw [if_pos hq, hsend]
  dsimp only
  rw [if_neg (by simp), if_pos rfl, ← herr]

/-- And both messages of a command. -/
theorem syncWriteOrQCtlCmdImpl_ready {rawCmd : Int} (hq : o.pendingPayloadsQ = []) (herr : o.pendingErrCode = none)
    (hfits : 8 ≤ o.mq.maxMsgSize) (hready : o.mq.answers = [.ready, .ready]) : o.syncWriteOrQCtlCmdImpl rawCmd =
      (true, { o with mq := { o.mq with sent := o.mq.sent ++ [[], ctlBytes rawCmd], answers := [] } }) := by
  let o₁ : Out := { o with mq := { o.mq with sent := o.mq.sent ++ [[]], answers := [.ready] } }
  have hfirst : ∀ avoid, o.syncWriteOrQPayload [] avoid = (true, false, o₁) :=
    fun avoid => syncWriteOrQPayload_ready hq herr (Nat.zero_le _) hready
  have hsecond : o₁.syncWriteOrQPayload (ctlBytes rawCmd) false =
      (true, false, { o₁ with mq := { o₁.mq with sent := o₁.mq.sent ++ [ctlBytes rawCmd], answers := [] } }) :=
    syncWriteOrQPayload_ready hq herr (by rw [length_ctlBytes]; exact hfits) rfl
  unfold syncWriteOrQCtlCmdImpl
  dsimp only
  rw [hfirst]
  dsimp only
  rw [if_pos (show o₁.pendingErrCode = none from herr), if_neg Bool.false_ne_true, hsecond]
  dsimp only
  rw [assert_of (by simp)]
  simp [o₁]

end Out

namespace BlobStreamMqSender

variable {s s' : BlobStreamMqSender} {fs : List Frame} {i : Input} {obs : List Obs}

/-- The queue has never been full: nothing is held back, and there is no error. -/
structure Unblocked (s : BlobStreamMqSender) : Prop where
  flushed : s.out.pendingPayloadsQ = []
  noError : s.out.pendingErrCode = none
  fits : 8 ≤ s.out.mq.maxMsgSize
  mqMaxMsgSz_eq : s.mqMaxMsgSz = s.out.mq.maxMsgSize

/-- The messages that a step puts on a queue that is not full. -/
inductive Puts (s : BlobStreamMqSender) (i : Input) (obs : List Obs) (s' : BlobStreamMqSender) : List Blob → Prop where
  /-- None. -/
  | none (period : s'.autoPingPeriod = s.autoPingPeriod) (finished : s'.finished = s.finished)
      (refused : accepted obs = []) (undue : i = .timerReadable → s'.finished = true) : Puts s i obs s' []
  /-- The version. -/
  | version (input : i = .startSendBlobOps) (off : s.autoPingPeriod = 0) (period : s'.autoPingPeriod = 0) :
      Puts s i obs s' [[], ctlBytes (-1)]
  /-- A blob. -/
  | blob (b : {b : Blob // b ≠ []}) (input : i = .sendBlob b) (accepted : accepted obs = [b])
      (started : s.started = true) (period : s'.autoPingPeriod = s.autoPingPeriod)
      (finished : s'.finished = s.finished) : Puts s i obs s' [b.val]
  /-- The graceful close. -/
  | ended (ends : i.isEnd = true) (started : s.started = true) (finished : s'.finished = true) :
      Puts s i obs s' [[], ctlBytes ctlEndSending]
  /-- A ping. -/
  | ping (started : s.started = true) (finished : s'.finished = false) (period : s'.autoPingPeriod ≠ 0)
      (input : (∃ p, i = .autoPing p) ∧ s.autoPingPeriod = 0 ∨
        i = .timerReadable ∧ s'.autoPingPeriod = s.autoPingPeriod) : Puts s i obs s' [[], ctlBytes ctlPing]

/-- What is put there, and nothing else, is what changes on the queue. -/
def Put (s s' : BlobStreamMqSender) (msgs : List Blob) : Prop :=
  s'.Unblocked ∧ s'.out.mq.sent = s.out.mq.sent ++ msgs ∧ s'.out.mq.received = s.out.mq.received

/-- To do nothing puts nothing on the queue. -/
theorem Unblocked.put_nil (h : s.Unblocked) : s.Put s [] :=
  ⟨h, (List.append_nil _).symm, rfl⟩

/-- A command is put on the queue. -/
theorem Unblocked.put_ctlCmd (h : s.Unblocked) (rawCmd : Int) (hready : s.out.mq.answers = [.ready, .ready]) :
    ∃ out, s.out.syncWriteOrQCtlCmdImpl rawCmd = (true, out) ∧ out.pendingErrCode = none ∧
      s.Put { s with out := out } [[], ctlBytes rawCmd] :=
  ⟨_, Out.syncWriteOrQCtlCmdImpl_ready h.flushed h.noError h.fits hready, h.noError,
    ⟨h.flushed, h.noError, h.fits, h.mqMaxMsgSz_eq⟩, rfl, rfl⟩

/-- Starting the operations puts the version there. -/
theorem Unblocked.startSendBlobOps (h : s.Unblocked) (hs : s.Inv fs) (hready : s.out.mq.answers = [.ready, .ready]) :
    ∃ msgs, s.Put s.startSendBlobOps.2 msgs ∧ Puts s .startSendBlobOps [] s.startSendBlobOps.2 msgs := by
  unfold BlobStreamMqSender.startSendBlobOps
  split
  · exact ⟨[], h.put_nil, .none rfl rfl rfl (fun h => by cases h)⟩
  · rename_i hfresh
    obtain ⟨-, -, -, hnegotiator, hperiod⟩ := hs.fresh (by simpa using hfresh)
    have hver : (ProtocolNegotiator.ctor versionOne).localMaxProtoVerForSending.1 = 1 := by decide
    have hnext : (ProtocolNegotiator.ctor versionOne).localMaxProtoVerForSending.2
        |>.localMaxProtoVerForSending.1 = verUnknown := by decide
    obtain ⟨out, hwrite, -, hunblocked, hsent, hreceived⟩ := h.put_ctlCmd (-1) hready
    refine ⟨[[], ctlBytes (-1)], ?_, .version rfl hperiod ?_⟩
    · simp only [h.noError, if_true, hnegotiator, hver]
      rw [assert_of (by exact hnext), assert_of (by decide)]
      simp only [hwrite]
      exact ⟨⟨hunblocked.flushed, hunblocked.noError, hunblocked.fits, hunblocked.mqMaxMsgSz_eq⟩, hsent, hreceived⟩
    · simp only [h.noError, if_true]
      exact hperiod

/-- A blob is declined, or put there. -/
theorem Unblocked.sendBlob (h : s.Unblocked) (hs : s.Inv fs) (hready : s.out.mq.answers = [.ready, .ready])
    (b : {b : Blob // b ≠ []}) {ok : Bool} {err : ErrorCode} (hcall : s.sendBlob b = (ok, err, s')) :
    ¬ (ok = true ∧ err = none) ∧ s' = s ∨
      ok = true ∧ err = none ∧ s.started = true ∧ s'.autoPingPeriod = s.autoPingPeriod ∧
        s'.finished = s.finished ∧ s.Put s' [b.val] := by
  by_cases hfits : b.val.length ≤ s.out.mq.maxMsgSize
  · rcases sendBlob_cases b.property hcall with hrefused | ⟨hsending, hok, out, hout, herr, hs'⟩
    · exact .inl hrefused
    · rw [Out.syncWriteOrQPayload_ready h.flushed h.noError hfits hready] at hout
      subst hout
      have hsame : s' = { s with out := { s.out with
          mq := { s.out.mq with sent := s.out.mq.sent ++ [b.val], answers := [.ready] } } } := by
        rcases hs' with hs' | hs'
        · exact hs'
        · rw [hs', rescheduleAutoPing_eq]
          exact hs.timer
      subst hsame
      exact .inr ⟨hok, herr.trans h.noError, hsending.started, rfl, rfl,
        ⟨h.flushed, h.noError, h.fits, h.mqMaxMsgSz_eq⟩, rfl, rfl⟩
  · have hlarge : s.mqMaxMsgSz < b.val.length := by
      rw [h.mqMaxMsgSz_eq]
      exact Nat.lt_of_not_le hfits
    unfold BlobStreamMqSender.sendBlob at hcall
    rw [assert_of (by simpa using b.property)] at hcall
    dsimp only at hcall
    rw [if_pos hlarge] at hcall
    split at hcall
    · cases hcall
      exact .inl ⟨fun hok => Bool.false_ne_true hok.1, rfl⟩
    · split at hcall
      · cases hcall
        exact .inl ⟨fun hok => (by simp at hok), rfl⟩
      · cases hcall
        exact .inl ⟨fun hok => (by simp at hok), rfl⟩

/-- The end of sending is refused, or the graceful close put there. -/
theorem Unblocked.asyncEndSendingImpl (h : s.Unblocked)
    (hready : s.out.mq.answers = [.ready, .ready]) (g : Option Nat) :
    (s.asyncEndSendingImpl g).2.2 = s ∨
      s.started = true ∧ (s.asyncEndSendingImpl g).2.2.finished = true ∧
        s.Put (s.asyncEndSendingImpl g).2.2 [[], ctlBytes ctlEndSending] := by
  unfold BlobStreamMqSender.asyncEndSendingImpl
  split
  · exact .inl rfl
  · rename_i hstart
    split
    · exact .inl rfl
    · have hunblocked : ({ s with finished := true } : BlobStreamMqSender).Unblocked :=
        ⟨h.flushed, h.noError, h.fits, h.mqMaxMsgSz_eq⟩
      obtain ⟨out, hwrite, herr, hput⟩ := hunblocked.put_ctlCmd ctlEndSending hready
      refine .inr ⟨by simpa using hstart, ?_⟩
      dsimp only at hwrite ⊢
      rw [hwrite]
      simp only [h.noError, herr, Option.isSome_none, Bool.not_true, Bool.false_eq_true, false_and, if_false]
      exact ⟨trivial, hput⟩

/-- Asking for pings is refused, or a ping put there. -/
theorem Unblocked.autoPing (h : s.Unblocked) (hready : s.out.mq.answers = [.ready, .ready])
    (period : {n : Nat // 0 < n}) :
    (s.autoPing period).2 = s ∧ (s.started = false ∨ s.finished = true ∨ s.autoPingPeriod ≠ 0) ∨
      s.started = true ∧ s.autoPingPeriod = 0 ∧ (s.autoPing period).2.autoPingPeriod ≠ 0 ∧
        (s.autoPing period).2.finished = false ∧ s.Put (s.autoPing period).2 [[], ctlBytes ctlPing] := by
  unfold BlobStreamMqSender.autoPing
  rw [assert_of period.property]
  split
  · rename_i hstart
    exact .inl ⟨rfl, .inl hstart⟩
  rename_i hstart
  dsimp only
  split
  · rename_i hfin
    exact .inl ⟨rfl, .inr (.inl hfin)⟩
  rename_i hfin
  split
  · rename_i hon
    exact .inl ⟨rfl, .inr (.inr hon)⟩
  rename_i hoff
  have hunblocked : ({ s with autoPingPeriod := period } : BlobStreamMqSender).Unblocked :=
    ⟨h.flushed, h.noError, h.fits, h.mqMaxMsgSz_eq⟩
  obtain ⟨out, hwrite, herr, hput, hsent, hreceived⟩ := hunblocked.put_ctlCmd ctlPing hready
  refine .inr ⟨by simpa using hstart, by simpa using hoff, ?_⟩
  dsimp only at hwrite ⊢
  rw [hwrite]
  simp only [h.noError, herr, Option.isSome_none, Bool.false_eq_true, if_false]
  exact ⟨Nat.ne_of_gt period.property, by simpa using hfin,
    ⟨hput.flushed, hput.noError, hput.fits, hput.mqMaxMsgSz_eq⟩, hsent, hreceived⟩

/-- When a ping is due it is put there, unless the sending has ended. -/
theorem Unblocked.onEvAutoPingNowTimerFired (h : s.Unblocked) (hready : s.out.mq.answers = [.ready, .ready]) :
    s.onEvAutoPingNowTimerFired.autoPingPeriod = s.autoPingPeriod ∧
      s.onEvAutoPingNowTimerFired.finished = s.finished ∧
        (s.finished = true ∧ s.Put s.onEvAutoPingNowTimerFired [] ∨
          s.finished = false ∧ s.Put s.onEvAutoPingNowTimerFired [[], ctlBytes ctlPing]) := by
  unfold BlobStreamMqSender.onEvAutoPingNowTimerFired
  obtain ⟨out, hwrite, herr, hput, hsent, hreceived⟩ := h.put_ctlCmd ctlPing hready
  have hnone : s.out.pendingErrCode.isSome = false := by rw [h.noError]; rfl
  dsimp only
  rw [if_neg (by rw [hnone]; exact Bool.false_ne_true)]
  split
  · rename_i hfin
    exact ⟨rfl, rfl, .inl ⟨hfin, ⟨h.flushed, h.noError, h.fits, h.mqMaxMsgSz_eq⟩, (List.append_nil _).symm, rfl⟩⟩
  · rename_i hfin
    rw [hwrite]
    simp only [herr, Option.isSome_none, Bool.false_eq_true, if_false]
    exact ⟨trivial, trivial, .inr ⟨by simpa using hfin,
      ⟨hput.flushed, hput.noError, hput.fits, hput.mqMaxMsgSz_eq⟩, hsent, hreceived⟩⟩

/-- A step of a sender whose queue is not full. -/
theorem Unblocked.step (h : s.Unblocked) (hs : s.Inv fs) (hstep : s.step i [.ready, .ready] = some (s', obs)) :
    ∃ msgs, s.Put s' msgs ∧ Puts s i obs s' msgs := by
  have hu : (s.withAnswers [.ready, .ready]).Unblocked := ⟨h.flushed, h.noError, h.fits, h.mqMaxMsgSz_eq⟩
  have hinv := hs.withAnswers [.ready, .ready]
  -- The answers to come are no part of what is said here.
  have hsame : (∃ msgs, (s.withAnswers [.ready, .ready]).Put s' msgs ∧
      Puts (s.withAnswers [.ready, .ready]) i obs s' msgs) → ∃ msgs, s.Put s' msgs ∧ Puts s i obs s' msgs := by
    rintro ⟨msgs, hput, hputs⟩
    refine ⟨msgs, hput, ?_⟩
    cases hputs with
    | none period finished refused undue => exact .none period finished refused undue
    | version input off period => exact .version input off period
    | blob b input accepted started period finished => exact .blob b input accepted started period finished
    | ended ends started finished => exact .ended ends started finished
    | ping started finished period input => exact .ping started finished period input
  apply hsame
  clear hsame
  unfold BlobStreamMqSender.step at hstep
  have hready : (s.withAnswers [.ready, .ready]).out.mq.answers = [.ready, .ready] := rfl
  generalize s.withAnswers [.ready, .ready] = u at hu hinv hstep hready
  cases i with
  | startSendBlobOps =>
      cases hstep
      exact hu.startSendBlobOps hinv hready
  | sendBlob b =>
      rcases hcall : u.sendBlob b with ⟨ok, err, t⟩
      dsimp only at hstep
      rw [hcall] at hstep
      rcases hu.sendBlob hinv hready b hcall with
        ⟨hrefused, rfl⟩ | ⟨rfl, rfl, hstart, hperiod, hfin, hput⟩
      · split at hstep
        · rename_i heq
          cases heq
          exact absurd ⟨rfl, rfl⟩ hrefused
        · rename_i heq
          cases heq
          cases hstep
          exact ⟨[], hu.put_nil, .none rfl rfl rfl (fun h => by cases h)⟩
      · cases hstep
        exact ⟨_, hput, .blob b rfl rfl hstart hperiod hfin⟩
  | endSending =>
      cases hstep
      rcases hu.asyncEndSendingImpl hready none with heq | ⟨hstart, hfin, hput⟩
      · refine ⟨[], ?_, .none ?_ ?_ rfl (fun h => by cases h)⟩
        · exact heq.symm ▸ hu.put_nil
        · exact congrArg autoPingPeriod heq
        · exact congrArg finished heq
      · exact ⟨_, hput, .ended rfl hstart hfin⟩
  | asyncEndSending g =>
      cases hstep
      rcases hu.asyncEndSendingImpl hready (some g) with heq | ⟨hstart, hfin, hput⟩
      · refine ⟨[], ?_, .none ?_ ?_ rfl (fun h => by cases h)⟩
        · exact heq.symm ▸ hu.put_nil
        · exact congrArg autoPingPeriod heq
        · exact congrArg finished heq
      · exact ⟨_, hput, .ended rfl hstart hfin⟩
  | autoPing period =>
      cases hstep
      rcases hu.autoPing hready period with ⟨heq, -⟩ | ⟨hstart, hoff, hon, hfin, hput⟩
      · rw [heq]
        exact ⟨[], hu.put_nil, .none rfl rfl rfl (fun h => by cases h)⟩
      · exact ⟨_, hput, .ping hstart hfin hon (.inl ⟨⟨period, rfl⟩, hoff⟩)⟩
  | mqWritable =>
      dsimp only at hstep
      have hzero : u.out.evWaits = 0 := hinv.carries.ok.evWaits_of_nil hu.flushed
      rw [hzero, if_neg (Nat.lt_irrefl 0)] at hstep
      cases hstep
  | timerFires =>
      obtain ⟨t, -, heq⟩ := Option.map_eq_some_iff.mp hstep
      cases heq
      exact ⟨[], ⟨⟨hu.flushed, hu.noError, hu.fits, hu.mqMaxMsgSz_eq⟩, (List.append_nil _).symm, rfl⟩,
        .none rfl rfl rfl (fun h => by cases h)⟩
  | timerReadable =>
      obtain ⟨t, htake, heq⟩ := Option.map_eq_some_iff.mp hstep
      cases heq
      have hv : ({ u with autoPingTimer := t } : BlobStreamMqSender).Unblocked :=
        ⟨hu.flushed, hu.noError, hu.fits, hu.mqMaxMsgSz_eq⟩
      obtain ⟨hperiod, hfin, hcases⟩ := hv.onEvAutoPingNowTimerFired hready
      -- An event waited for is that of a timer that was scheduled.
      have hon : u.autoPingPeriod ≠ 0 := by
        intro hoff
        unfold Timer.takeEvent at htake
        rw [hinv.timer_off hoff, if_neg fun h => Nat.lt_irrefl 0 h.1] at htake
        cases htake
      have hstart : u.started = true := by
        by_contra hfresh
        exact hon (hinv.fresh (by simpa using hfresh)).2.2.2.2
      rcases hcases with ⟨hfin', hput⟩ | ⟨hfin', hput⟩
      · exact ⟨_, hput, .none hperiod hfin rfl fun _ => hfin.trans hfin'⟩
      · exact ⟨_, hput, .ping hstart (hfin.trans hfin') (by rw [hperiod]; exact hon) (.inr ⟨rfl, hperiod⟩)⟩

end BlobStreamMqSender

/-! ## The receiver -/

namespace Mq

variable {mq mq' : Mq}

/-- As many messages have been taken as have been received. -/
theorem Ok.length_taken (h : mq.Ok) : mq.taken.length = mq.received := by
  rw [taken, List.length_take, Nat.min_eq_left h]

/-- A message that is taken off is the next. -/
theorem Ok.received_of_taken {msg : Blob} (h : mq.Ok) (h' : mq'.Ok) (hsent : mq'.sent = mq.sent)
    (htaken : mq'.taken = mq.taken ++ [msg]) :
    mq'.received = mq.received + 1 ∧ mq.sent[mq.received]? = some msg := by
  have hlen : mq'.received = mq.received + 1 := by
    rw [← h'.length_taken, htaken, List.length_append, h.length_taken]
    rfl
  refine ⟨hlen, ?_⟩
  have hget : mq'.taken[mq.received]? = some msg := by
    rw [htaken, ← h.length_taken, List.getElem?_concat_length]
  rw [taken, hlen, hsent, List.getElem?_take_of_lt (Nat.lt_succ_self _)] at hget
  exact hget

end Mq

namespace In

/-- Whether `m_idle_timer.expires_after()` is called for a message received.
Source: `blob_stream_mq_rcv_impl.hpp` `read_msg`, the calls of `not_idle` -/
def onMsgNotIdle (r : In) (targetBlob : Blob) : Bool :=
  if r.idleTimeout = 0 then false
  else if r.controlState then
    targetBlob.length = 8 ∧ r.protocolNegotiator.negotiatedProtoVer ≠ verUnknown ∧
      LittleEndian.decodeInt targetBlob = ctlPing
  else targetBlob.length ≠ 0 ∧ r.protocolNegotiator.negotiatedProtoVer ≠ verUnknown

/-- Whether it is called in a turn of the loop of `read_msg()`. -/
def readMsgOnceNotIdle (r : In) (userBlobSize : Nat) : Bool :=
  match r.mq.tryReceive (if r.controlState then r.mqMaxMsgSz else userBlobSize) with
  | (some targetBlob, none, mq) => { r with mq := mq, pendingErrCode := none }.onMsgNotIdle targetBlob
  | _ => false

/-- Whether it is called in the loop of `read_msg()`, from some turn on. -/
def readMsgLoopNotIdle (r : In) (userBlobSize : Nat) : Bool :=
  r.readMsgOnceNotIdle userBlobSize ||
    match _h : r.readMsgOnce userBlobSize with
    | (some _, _) => false
    | (none, r) => r.readMsgLoopNotIdle userBlobSize
termination_by r.mq.answers.length
decreasing_by exact readMsgOnce_answers ‹_›

variable {r r' : In} {fs done : List Frame} {msg : Blob}

/-! That this is when it is called shows in a timer on which several waits are pending: there is one afterwards. -/

/-- The idle timer is waited for once it has been put off. -/
theorem notIdle_waiting (h : 0 < r.idleTimer.waiting) :
    r.notIdle.idleTimer.waiting = if r.idleTimeout = 0 then r.idleTimer.waiting else 1 := by
  unfold notIdle
  split
  · rfl
  · rw [show r.idleTimer.expiresAfter = (r.idleTimer.waiting, { r.idleTimer with waiting := 0 }) from rfl]
    dsimp only
    rw [if_neg (Nat.ne_of_gt h)]
    rfl

/-- A ping puts it off, and no other command. -/
theorem onCtlCmd_waiting (h : 0 < r.idleTimer.waiting) : (r.onCtlCmd msg).idleTimer.waiting =
    if r.idleTimeout ≠ 0 ∧ msg.length = 8 ∧ r.protocolNegotiator.negotiatedProtoVer ≠ verUnknown ∧
      LittleEndian.decodeInt msg = ctlPing then 1 else r.idleTimer.waiting := by
  have hping : ¬ ctlEndSentinel ≤ ctlPing ∧ ctlPing ≠ ctlEndSending := by decide
  unfold onCtlCmd
  dsimp only
  by_cases hlength : msg.length = 8
  · rw [if_pos hlength]
    by_cases hneg : r.protocolNegotiator.negotiatedProtoVer = verUnknown
    · rw [if_pos hneg, if_neg fun h => h.2.2.1 hneg]
      rfl
    · rw [if_neg hneg]
      by_cases hcmd : LittleEndian.decodeInt msg = ctlPing
      · rw [hcmd, if_neg hping.1, if_neg hping.2, if_pos rfl, notIdle_waiting h]
        by_cases hoff : r.idleTimeout = 0
        · rw [if_pos hoff, if_neg fun h => h.1 hoff]
        · rw [if_neg hoff, if_pos ⟨hoff, hlength, hneg, rfl⟩]
      · have hno : ¬ (r.idleTimeout ≠ 0 ∧ msg.length = 8 ∧ r.protocolNegotiator.negotiatedProtoVer ≠ verUnknown ∧
            LittleEndian.decodeInt msg = ctlPing) := fun h => hcmd h.2.2.2
        rw [if_neg hcmd, if_neg hno]
        split
        · rfl
        · split <;> rfl
  · rw [if_neg hlength, if_neg fun h => hlength h.2.1]

/-- To emit a message is not to touch the timer. -/
theorem emit_idleTimer : (r.emit msg).2.idleTimer = r.idleTimer := rfl

/-- A message puts it off if it is one that does. -/
theorem onMsg_waiting (h : 0 < r.idleTimer.waiting) :
    (r.onMsg msg).2.idleTimer.waiting = if r.onMsgNotIdle msg then 1 else r.idleTimer.waiting := by
  have hctl : ∀ r : In, ((if r.pendingErrCode.isSome then r.emit msg else (none, r)) : Option Result × In).2.idleTimer =
      r.idleTimer := by
    intro r
    split <;> rfl
  unfold In.onMsg onMsgNotIdle
  by_cases hstate : r.controlState
  · rw [if_pos hstate]
    dsimp only
    rw [hctl, onCtlCmd_waiting (r := { r with controlState := false }) h]
    by_cases hoff : r.idleTimeout = 0
    · simp [hoff]
    · simp [hoff, hstate]
  · rw [if_neg hstate]
    by_cases hnil : msg.length = 0
    · simp [hnil, hstate]
    · rw [if_neg hnil]
      by_cases hneg : r.protocolNegotiator.negotiatedProtoVer = verUnknown
      · rw [if_pos hneg]
        dsimp only
        rw [emit_idleTimer]
        simp only [hneg, hstate, ne_eq, not_true_eq_false, and_false, decide_false]
        split <;> rfl
      · rw [if_neg hneg, emit_idleTimer, notIdle_waiting h]
        by_cases hoff : r.idleTimeout = 0
        · simp [hoff]
        · simp [hoff, hstate, hneg, hnil]

/-- In one turn. -/
theorem readMsgOnce_waiting (h : 0 < r.idleTimer.waiting) (n : Nat) : (r.readMsgOnce n).2.idleTimer.waiting =
    if r.readMsgOnceNotIdle n then 1 else r.idleTimer.waiting := by
  unfold In.readMsgOnce readMsgOnceNotIdle
  rcases r.mq.tryReceive (if r.controlState then r.mqMaxMsgSz else n) with ⟨_ | blob, _ | e, mq⟩
  · rfl
  · rfl
  · exact onMsg_waiting (r := { r with mq := mq, pendingErrCode := none }) h
  · rfl

/-- In all turns: by induction on them. -/
theorem readMsgLoop_waiting (h : 0 < r.idleTimer.waiting) (n : Nat) : (r.readMsgLoop n).2.idleTimer.waiting =
    if r.readMsgLoopNotIdle n then 1 else r.idleTimer.waiting := by
  induction r using In.readMsgLoop.induct n with
  | case1 r res r₁ honce =>
      have hwaiting := readMsgOnce_waiting h n
      rw [honce] at hwaiting
      rw [In.readMsgLoop, readMsgLoopNotIdle, honce]
      simpa using hwaiting
  | case2 r r₁ honce ih =>
      have hwaiting := readMsgOnce_waiting h n
      rw [honce] at hwaiting
      have hpos : 0 < r₁.idleTimer.waiting := by
        rw [hwaiting]
        split
        · exact Nat.one_pos
        · exact h
      rw [In.readMsgLoop, readMsgLoopNotIdle, honce]
      dsimp only
      rw [ih hpos, hwaiting]
      cases r.readMsgOnceNotIdle n <;> simp

/-- A message that is neither an escape nor of the first frame resets the timer, unless it is the graceful
close. -/
theorem Sound.onMsg_notIdle {res : Option Result} (h : r.Sound fs done) (hord : Ordered fs)
    (herr : r.pendingErrCode = none) (htaken : r.mq.taken = r.readMsgs done ++ [msg]) (hne : msg ≠ [])
    (hlate : 2 < r.mq.taken.length) (hon : r.idleTimeout ≠ 0) (hcall : r.onMsg msg = (res, r'))
    (herr' : r'.pendingErrCode = none) : r.onMsgNotIdle msg = true := by
  have hpre : r.readMsgs done ++ [msg] <+: stream Frame.enc fs := by
    rw [← htaken]
    exact (Mq.taken_prefix _).trans h.sent_prefix
  rw [htaken] at hlate
  unfold readMsgs at hpre hlate
  unfold onMsgNotIdle
  rw [if_neg hon]
  unfold In.onMsg at hcall
  -- Some frame has been read before: the version.
  have hdone : done ≠ [] := by
    rintro rfl
    cases hctl : r.controlState <;> simp [hctl] at hlate
  have hneg : r.protocolNegotiator.negotiatedProtoVer ≠ verUnknown :=
    fun hunk => hdone ((h.negotiated herr).mp hunk)
  split at hcall
  · rename_i hctl
    rw [hctl, if_pos rfl] at hpre
    obtain ⟨f, c, hf, hc, rfl⟩ := next_ctlCmd h.done_prefix hpre
    rw [if_pos hctl]
    cases f with
    | blob b => cases hc
    | version => exact absurd ((hord.eq_version_iff hf).mp rfl) hdone
    | ping =>
        cases hc
        exact decide_eq_true ⟨length_ctlBytes _, hneg, by decide⟩
    | endSending =>
        -- That is an error.
        let u : In := { r with controlState := false }
        have hu : u.Sound fs done := { h with }
        obtain ⟨hsound, -, -, -⟩ := hu.onCtlCmd hord herr hf hc
        have hsome := hsound.closed (List.mem_append_right done (List.mem_singleton_self _))
        obtain ⟨e, he⟩ := Option.isSome_iff_exists.mp hsome
        change (if (u.onCtlCmd (ctlBytes c)).pendingErrCode.isSome then
          (u.onCtlCmd (ctlBytes c)).emit (ctlBytes c) else (none, u.onCtlCmd (ctlBytes c))) = _ at hcall
        rw [if_pos hsome, emit_of_err he] at hcall
        cases hcall
        rw [he] at herr'
        cases herr'
  · rename_i hctl
    rw [if_neg hctl]
    exact decide_eq_true ⟨by simpa using hne, hneg⟩

/-- The same of one turn, which takes one message at most. -/
theorem Reads.readMsgOnce_notIdle {res : Option Result} {n : Nat} (h : r.Reads fs done) (hord : Ordered fs)
    (herr : r.pendingErrCode = none) (hon : r.idleTimeout ≠ 0) (hcall : r.readMsgOnce n = (res, r'))
    (herr' : r'.pendingErrCode = none) :
    r'.mq.received = r.mq.received ∨
      r'.mq.received = r.mq.received + 1 ∧
        (2 ≤ r.mq.received → r.mq.sent[r.mq.received]? ≠ some [] → r.readMsgOnceNotIdle n = true) := by
  unfold In.readMsgOnce at hcall
  unfold In.readMsgOnceNotIdle
  rcases htry : r.mq.tryReceive (if r.controlState then r.mqMaxMsgSz else n) with ⟨m, err, mq⟩
  obtain ⟨-, hsent, hok, hcases⟩ := Mq.tryReceive_cases h.mqOk htry
  rw [htry] at hcall
  have hu : ({ r with mq := mq } : In).Sound fs done :=
    { h with
      mqOk := hok
      sent_prefix := by
        rw [hsent]
        exact h.sent_prefix }
  have hnone : ({ r with mq := mq, pendingErrCode := none } : In) = { r with mq := mq } := by
    rw [← herr]
  rcases hcases with ⟨e, rfl, rfl, -⟩ | ⟨rfl, rfl, htaken⟩ | ⟨msg, rfl, rfl, htaken⟩
  · dsimp only at hcall
    rw [emit_of_err rfl] at hcall
    cases hcall
    cases herr'
  · dsimp only at hcall
    cases hcall
    left
    have hlen := congrArg List.length htaken
    rw [hok.length_taken, h.mqOk.length_taken] at hlen
    exact hlen
  · obtain ⟨hreceived, hget⟩ := h.mqOk.received_of_taken hok hsent htaken
    dsimp only at hcall
    rw [hnone] at hcall
    have hmq : r'.mq = mq := by
      have hsame : (In.onMsg { r with mq := mq } msg).2.mq = mq := onMsg_mq
      rw [hcall] at hsame
      exact hsame
    refine .inr ⟨by rw [hmq, hreceived], fun hlate hne => ?_⟩
    dsimp only
    rw [hnone]
    apply hu.onMsg_notIdle hord herr (by rw [htaken, h.taken_eq herr]; rfl) _ _ hon hcall herr'
    · rintro rfl
      exact hne hget
    · rw [hok.length_taken, hreceived]
      omega

/-- And of the loop: by induction on its turns. -/
theorem Reads.readMsgLoop_notIdle {res : Result} {n : Nat} (h : r.Reads fs done) (hord : Ordered fs)
    (herr : r.pendingErrCode = none) (hon : r.idleTimeout ≠ 0) (hcall : r.readMsgLoop n = (res, r'))
    (herr' : r'.pendingErrCode = none) {k : Nat} (hunread : r.mq.received ≤ k) (hread : k < r'.mq.received)
    (hlate : 2 ≤ k) (hne : r.mq.sent[k]? ≠ some []) : r.readMsgLoopNotIdle n = true := by
  induction r using In.readMsgLoop.induct n generalizing done with
  | case1 r res₁ r₁ honce =>
      rw [In.readMsgLoop, honce] at hcall
      cases hcall
      rw [readMsgLoopNotIdle, Bool.or_eq_true]
      left
      rcases h.readMsgOnce_notIdle hord herr hon honce herr' with heq | ⟨heq, hnotIdle⟩
      · omega
      · obtain rfl : k = r.mq.received := by omega
        exact hnotIdle hlate hne
  | case2 r r₁ honce ih =>
      obtain ⟨new, hreads, hturn⟩ := h.readMsgOnce hord herr honce
      rw [In.readMsgLoop, honce] at hcall
      have herr₁ : r₁.pendingErrCode = none := by
        cases hturn with
        | again err _ _ => exact err
      have hsent := h.readMsgOnce_sent honce
      have htimeout : r₁.idleTimeout = r.idleTimeout := by
        have hframe := Timers.mqIdleFrame_readMsgOnce h.timer (n := n)
        rw [honce] at hframe
        exact congrArg Prod.fst hframe
      rw [readMsgLoopNotIdle, Bool.or_eq_true]
      by_cases hnow : r.readMsgOnceNotIdle n = true
      · exact .inl hnow
      · right
        rw [honce]
        refine ih hreads herr₁ (htimeout ▸ hon) hcall ?_ (by rw [hsent]; exact hne)
        rcases h.readMsgOnce_notIdle hord herr hon honce herr₁ with heq | ⟨heq, hnotIdle⟩
        · omega
        · have hother : k ≠ r.mq.received := by
            rintro rfl
            exact hnow (hnotIdle hlate hne)
          omega

/-- Reading does not come to the idle timeout. -/
theorem Reads.readMsgLoop_err {res : Result} {n : Nat} (h : r.Reads fs done) (hord : Ordered fs)
    (herr : r.pendingErrCode = none) (hcall : r.readMsgLoop n = (res, r')) :
    r'.pendingErrCode ≠ Code.receiverIdleTimeout.toErrorCode := by
  have honce_err : ∀ {r r₁ : In} {done : List Frame} {res : Option Result}, r.Reads fs done →
      r.pendingErrCode = none → r.readMsgOnce n = (res, r₁) →
        r₁.pendingErrCode ≠ Code.receiverIdleTimeout.toErrorCode := by
    intro r r₁ done res h herr honce
    unfold In.readMsgOnce at honce
    rcases htry : r.mq.tryReceive (if r.controlState then r.mqMaxMsgSz else n) with ⟨m, err, mq⟩
    obtain ⟨-, hsent, hok, hcases⟩ := Mq.tryReceive_cases h.mqOk htry
    rw [htry] at honce
    have hu : ({ r with mq := mq } : In).Sound fs done :=
      { h with
        mqOk := hok
        sent_prefix := by
          rw [hsent]
          exact h.sent_prefix }
    have hnone : ({ r with mq := mq, pendingErrCode := none } : In) = { r with mq := mq } := by
      rw [← herr]
    rcases hcases with ⟨e, rfl, rfl, -⟩ | ⟨rfl, rfl, -⟩ | ⟨msg, rfl, rfl, htaken⟩
    · dsimp only at honce
      rw [emit_of_err rfl] at honce
      cases honce
      cases e <;> simp [MqErr.toErr]
    · cases honce
      exact fun hcode => by cases hcode
    · dsimp only at honce
      rw [hnone] at honce
      rcases hu.onMsg_err hord herr (by rw [htaken, h.taken_eq herr]; rfl) honce with hcode | hcode
      · rw [hcode]
        exact fun hcode => by cases hcode
      · rw [hcode]
        exact fun hcode => by cases hcode
  induction r using In.readMsgLoop.induct n generalizing done with
  | case1 r res₁ r₁ honce =>
      rw [In.readMsgLoop, honce] at hcall
      cases hcall
      exact honce_err h herr honce
  | case2 r r₁ honce ih =>
      obtain ⟨new, hreads, hturn⟩ := h.readMsgOnce hord herr honce
      rw [In.readMsgLoop, honce] at hcall
      cases hturn with
      | again err _ _ => exact ih hreads err hcall

end In

namespace BlobStreamMqReceiver

/-- Whether `m_idle_timer.expires_after()` is called in `read_msg()`.
Source: `blob_stream_mq_rcv_impl.hpp` `read_msg` -/
def readMsgNotIdle (r : BlobStreamMqReceiver) : Bool :=
  r.inp.readMsgLoopNotIdle ((r.userRequest.map (·.targetBlobSize)).getD 0)

/-- And in `async_receive_blob()`.
Source: `blob_stream_mq_rcv_impl.hpp` `async_receive_blob` -/
def asyncReceiveBlobNotIdle (r : BlobStreamMqReceiver) (targetBlobSize : Nat) (onDoneFunc : Nat) : Bool :=
  if r.started = false then false
  else if r.userRequest.isSome then false
  else if r.inp.pendingErrCode.isSome then false
  else if targetBlobSize < r.inp.mqMaxMsgSz then false
  else { r with userRequest := some ⟨targetBlobSize, onDoneFunc⟩ }.readMsgNotIdle

/-- And in the event of the queue being readable.
Source: `blob_stream_mq_rcv_impl.hpp` `read_msg`, the event -/
def onEvMqReadableNotIdle (r : BlobStreamMqReceiver) : Bool :=
  if r.inp.pendingErrCode.isSome then false else r.readMsgNotIdle

/-- Whether `m_idle_timer.expires_after()` is called in a step. -/
def setsIdleTimer (r : BlobStreamMqReceiver) (i : Input) (ks : List MqAnswer) (r' : BlobStreamMqReceiver) : Bool :=
  let u := r.withAnswers ks
  match i with
  | .asyncReceiveBlob n f => u.asyncReceiveBlobNotIdle n f
  | .mqReadable => { u with inp := { u.inp with evWaits := u.inp.evWaits - 1 } }.onEvMqReadableNotIdle
  | .idleTimerRun _ => r.inp.idleTimeout = 0 ∧ r'.inp.idleTimeout ≠ 0 ∧ r'.inp.pendingErrCode = none
  | _ => false

variable {r r' : BlobStreamMqReceiver} {fs done : List Frame} {i : Input} {ks : List MqAnswer} {obs : List Obs}

/-- Every message read, but for escapes and the first frame, has reset the timer, or there is an error, which is
not the idle timeout; `sets` tells whether it was reset. -/
def Resets (r r' : BlobStreamMqReceiver) (sets : Bool) : Prop :=
  (r'.inp.pendingErrCode = Code.receiverIdleTimeout.toErrorCode →
    r.inp.pendingErrCode = Code.receiverIdleTimeout.toErrorCode) ∧
  (r'.inp.pendingErrCode = none → r.inp.idleTimeout ≠ 0 → ∀ k, r.inp.mq.received ≤ k →
    k < r'.inp.mq.received → 2 ≤ k → r.inp.mq.sent[k]? ≠ some [] → sets = true)

/-- Where nothing is read the timer is not set. -/
theorem resets_of_same {sets : Bool} (herr : r'.inp.pendingErrCode = r.inp.pendingErrCode)
    (hmq : r'.inp.mq.received = r.inp.mq.received) : r.Resets r' sets := by
  refine ⟨fun hcode => herr.symm.trans hcode, fun _ _ k hunread hread => ?_⟩
  rw [hmq] at hread
  exact absurd hunread (Nat.not_le.mpr hread)

/-- What is read in the loop sets the timer if it is to. -/
theorem Inv.readMsg_resets (h : r.inp.Reads fs done) (hord : Ordered fs) (herr : r.inp.pendingErrCode = none)
    (hreq : r.userRequest.isSome) : r.Resets r.readMsg.2 r.readMsgNotIdle := by
  unfold BlobStreamMqReceiver.readMsg
  rw [assert_of (by exact herr)]
  dsimp only
  rw [assert_of hreq]
  refine ⟨fun hcode => absurd hcode (h.readMsgLoop_err hord herr rfl), ?_⟩
  intro herr' hon k hunread hread hlate hne
  exact h.readMsgLoop_notIdle hord herr hon rfl herr' hunread hread hlate hne

/-- What is read at a request sets the timer if it is to. -/
theorem Inv.asyncReceiveBlob_resets (h : r.Inv fs done) (hord : Ordered fs) (n f : Nat) :
    r.Resets (r.asyncReceiveBlob n f).2.2 (r.asyncReceiveBlobNotIdle n f) := by
  unfold BlobStreamMqReceiver.asyncReceiveBlob BlobStreamMqReceiver.asyncReceiveBlobNotIdle
  split
  · exact resets_of_same rfl rfl
  split
  · exact resets_of_same rfl rfl
  -- Ending the request does not touch what was read.
  have hend : ∀ (p : Result × BlobStreamMqReceiver) (sets : Bool), r.Resets p.2 sets →
      r.Resets (if p.1.1 ≠ wouldBlock then { p.2 with userRequest := none } else p.2) sets := by
    intro p sets hp
    split <;> exact hp
  dsimp only
  apply hend
  split
  · exact resets_of_same rfl rfl
  · rename_i herr
    split
    · exact resets_of_same rfl rfl
    · exact Inv.readMsg_resets (r := { r with userRequest := some ⟨n, f⟩ }) h.reads hord (by simpa using herr) rfl

/-- What is read at the queue's event sets the timer if it is to. -/
theorem Inv.onEvMqReadable_resets (h : r.inp.Reads fs done) (hord : Ordered fs)
    (hreq : r.inp.pendingErrCode = none → r.userRequest.isSome) :
    r.Resets r.onEvMqReadable.1 r.onEvMqReadableNotIdle := by
  unfold BlobStreamMqReceiver.onEvMqReadable BlobStreamMqReceiver.onEvMqReadableNotIdle
  split
  · exact resets_of_same rfl rfl
  · rename_i herr
    have herr : r.inp.pendingErrCode = none := by simpa using herr
    have hread := Inv.readMsg_resets h hord herr (hreq herr)
    rw [assert_of (hreq herr)]
    dsimp only
    split
    · exact hread
    · exact hread

/-- Every step but the timer's own event sets it if it is to. -/
theorem Inv.step_resets (h : r.Inv fs done) (hord : Ordered fs) (hstep : r.step i ks = some (r', obs))
    (hi : i ≠ .timerReadable) : r.Resets r' (r.setsIdleTimer i ks r') := by
  have hu := h.withAnswers ks
  -- The answers to come are no part of what is said here.
  suffices hsame : (r.withAnswers ks).Resets r' (r.setsIdleTimer i ks r') by exact hsame
  unfold BlobStreamMqReceiver.step at hstep
  unfold setsIdleTimer
  generalize r.withAnswers ks = u at hu hstep ⊢
  cases i with
  | startReceiveBlobOps =>
      cases hstep
      unfold BlobStreamMqReceiver.startReceiveBlobOps
      split <;> exact resets_of_same rfl rfl
  | asyncReceiveBlob n f =>
      cases hstep
      exact hu.asyncReceiveBlob_resets hord n f
  | idleTimerRun timeout =>
      cases hstep
      obtain ⟨hmq, -, -, -, herr⟩ := hu.idleTimerRun timeout
      exact resets_of_same herr (congrArg Mq.received hmq)
  | mqReadable =>
      dsimp only at hstep
      split at hstep
      · rename_i hw
        cases hstep
        have hreads : ({ u.inp with evWaits := u.inp.evWaits - 1 } : In).Reads fs done := { hu.reads with }
        apply Inv.onEvMqReadable_resets (r := { u with inp := { u.inp with evWaits := u.inp.evWaits - 1 } }) hreads hord
        intro herr
        by_contra hreq
        have hwaits := hu.waits herr
        rw [if_neg hreq] at hwaits
        omega
      · cases hstep
  | timerFires =>
      obtain ⟨t, -, heq⟩ := Option.map_eq_some_iff.mp hstep
      cases heq
      exact resets_of_same rfl rfl
  | timerReadable => exact absurd rfl hi

/-- The event of the idle timer: it has fired, and leaves an error as it is if there is one. -/
theorem step_timerReadable (hstep : r.step .timerReadable ks = some (r', obs)) :
    0 < r.inp.idleTimer.signals ∧
      (r.inp.pendingErrCode.isSome → r'.inp.pendingErrCode = r.inp.pendingErrCode) := by
  dsimp only [BlobStreamMqReceiver.step] at hstep
  obtain ⟨t, htake, heq⟩ := Option.map_eq_some_iff.1 hstep
  cases heq
  constructor
  · by_contra hzero
    have hnone : (r.withAnswers ks).inp.idleTimer.takeEvent = none := if_neg fun h => hzero h.2
    rw [hnone] at htake
    cases htake
  · intro hsome
    unfold onEvIdleTimerFired
    dsimp only
    split
    · rfl
    · rename_i hnone
      exact absurd hsome hnone

/-- What a step that leaves no error does to the idle timer. -/
inductive IdleTimerStep (r : BlobStreamMqReceiver) (i : Input) (r' : BlobStreamMqReceiver) : Prop where
  /-- None but rescheduling it. -/
  | kept (timeout : r'.inp.idleTimeout = r.inp.idleTimeout) (timer : r'.inp.idleTimer = r.inp.idleTimer)
  /-- It is scheduled for the first time. -/
  | engaged (timeout : {n : Nat // 0 < n}) (input : i = .idleTimerRun timeout) (off : r.inp.idleTimeout = 0)
      (on : r'.inp.idleTimeout ≠ 0) (timer : r'.inp.idleTimer = r.inp.idleTimer.schedule)
  /-- It fires. -/
  | fires (input : i = .timerFires) (fire : r.inp.idleTimer.fire = some r'.inp.idleTimer)

/-- What a step does to the idle timer, as long as there is no error. -/
theorem Inv.step_idleTimer (h : r.Inv fs done) (hstep : r.step i ks = some (r', obs))
    (herr' : r'.inp.pendingErrCode = none) : r.inp.pendingErrCode = none ∧ r.IdleTimerStep i r' := by
  -- Where an error is kept, there was none.
  have hnone : (r.inp.pendingErrCode.isSome → r'.inp.pendingErrCode = r.inp.pendingErrCode) →
      r.inp.pendingErrCode = none := by
    intro hkept
    by_contra hne
    have hsome := Option.isSome_iff_ne_none.mpr hne
    rw [← hkept hsome, herr'] at hsome
    cases hsome
  have hframe : Timers.mqIdleFrame r'.inp = Timers.mqIdleFrame r.inp → r.IdleTimerStep i r' :=
    fun hframe => .kept (congrArg Prod.fst hframe) (congrArg Prod.snd hframe)
  have hok : (r.withAnswers ks).inp.idleTimer.Ok := h.reads.timer
  cases i with
  | startReceiveBlobOps =>
      cases hstep
      have hsame : (r.withAnswers ks).startReceiveBlobOps.2.inp = (r.withAnswers ks).inp := by
        unfold BlobStreamMqReceiver.startReceiveBlobOps
        split <;> rfl
      exact ⟨hnone fun _ => by rw [hsame]; rfl, hframe (by rw [hsame]; rfl)⟩
  | asyncReceiveBlob n f =>
      cases hstep
      obtain ⟨hsame, hkept⟩ := Timers.mqIdleFrame_asyncReceiveBlob hok (n := n) (f := f)
      exact ⟨hnone hkept, hframe hsame⟩
  | idleTimerRun timeout =>
      cases hstep
      obtain ⟨-, -, -, -, herr⟩ := (h.withAnswers ks).idleTimerRun timeout
      have hnone : r.inp.pendingErrCode = none := herr.symm.trans herr'
      refine ⟨hnone, ?_⟩
      rcases Timers.mqIdleTimerRun_cases (r := r.withAnswers ks) timeout with
        heq | ⟨hoff, hon, ⟨hsome, -⟩ | ⟨-, htimer⟩⟩
      · exact hframe (by rw [heq]; rfl)
      · rw [herr'] at hsome
        cases hsome
      · exact .engaged timeout rfl hoff hon htimer
  | mqReadable =>
      dsimp only [BlobStreamMqReceiver.step] at hstep
      split at hstep
      · cases hstep
        let u : BlobStreamMqReceiver := { r.withAnswers ks with
          inp := { (r.withAnswers ks).inp with evWaits := (r.withAnswers ks).inp.evWaits - 1 } }
        obtain ⟨hsame, hkept⟩ := Timers.mqIdleFrame_onEvMqReadable (r := u) hok
        exact ⟨hnone hkept, hframe hsame⟩
      · cases hstep
  | timerFires =>
      obtain ⟨t, hfire, heq⟩ := Option.map_eq_some_iff.mp hstep
      cases heq
      exact ⟨herr', .fires rfl hfire⟩
  | timerReadable =>
      obtain ⟨t, -, -, -, hsome⟩ := Timers.mqReceiver_readable hstep
      rw [herr'] at hsome
      cases hsome

end BlobStreamMqReceiver

end FlowIpc.MqStream
