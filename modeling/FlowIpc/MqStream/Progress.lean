import FlowIpc.MqStream.Exclusive
import FlowIpc.MqStream.Fifo

/-!
# A queue stream does not get stuck

Whatever a sender and a receiver on one queue have been through, as long as neither knows of an error all
that has been accepted can still be delivered (`deliversAll`). What it takes is the queue's being ready, the
event loop's reporting so, and requests for blobs: whatever is held back by the sender has the event loop
wait for the queue to be writable, and whatever request is outstanding has it wait for the queue to be
readable.

The steps taken are those of one operation at a time, each of which sends what is held back (`flushed`) or
takes one more message off the queue (`advances`).
-/

namespace FlowIpc.MqStream

open Lts PrefixCode Negotiation

/-! ## A queue that is ready -/

namespace Out

/-- A queue that is ready for all the payloads that are held back takes them. -/
theorem drain_ready (mq : Mq) {q : List Blob} (hfits : ∀ m ∈ q, m.length ≤ mq.maxMsgSize)
    (hready : mq.answers = List.replicate q.length .ready) :
    drain mq q = ({ mq with sent := mq.sent ++ q, answers := [] }, [], none) := by
  induction q generalizing mq with
  | nil =>
      rw [drain, List.append_nil]
      have hnil : mq.answers = [] := hready
      rw [← hnil]
  | cons m q ih =>
      have htry : mq.trySend m =
          (true, none, { mq with sent := mq.sent ++ [m], answers := List.replicate q.length .ready }) := by
        unfold Mq.trySend
        rw [if_neg (Nat.not_lt.mpr (hfits m List.mem_cons_self)), hready]
        rfl
      rw [drain, htry]
      simp only
      rw [ih { mq with sent := mq.sent ++ [m], answers := List.replicate q.length .ready }
        (fun m' hm' => hfits m' (List.mem_cons_of_mem _ hm')) rfl]
      simp

end Out

namespace In

variable {r r' : In} {fs done : List Frame} {msg : Blob}

/-- The only error in a message is the graceful close. -/
theorem Sound.onMsg_err {res : Option Result} (h : r.Sound fs done) (hord : Ordered fs)
    (herr : r.pendingErrCode = none) (htaken : r.mq.taken = r.readMsgs done ++ [msg])
    (hcall : r.onMsg msg = (res, r')) :
    r'.pendingErrCode = none ∨ r'.pendingErrCode = Code.receivesFinishedCannotReceive.toErrorCode := by
  have hpre : r.readMsgs done ++ [msg] <+: stream Frame.enc fs := by
    rw [← htaken]
    exact (Mq.taken_prefix _).trans h.sent_prefix
  unfold In.onMsg at hcall
  unfold readMsgs at hpre
  split at hcall
  · rename_i hctl
    rw [hctl, if_pos rfl] at hpre
    obtain ⟨f, c, hf, hc, rfl⟩ := next_ctlCmd h.done_prefix hpre
    let u : In := { r with controlState := false }
    have hu : u.Sound fs done := { h with }
    obtain ⟨-, -, -, herr'⟩ := hu.onCtlCmd hord herr hf hc
    have hsame : r'.pendingErrCode = (u.onCtlCmd (ctlBytes c)).pendingErrCode := by
      simp only at hcall
      split at hcall
      · cases hcall
        rfl
      · cases hcall
        rfl
    rw [hsame]
    exact herr'
  · rename_i hctl
    have hctl : r.controlState = false := by simpa using hctl
    rw [hctl, if_neg (by simp), List.append_nil] at hpre
    obtain ⟨f, hf, hcases⟩ := next_msg h.done_prefix hpre
    rcases hcases with ⟨b, rfl, rfl⟩ | ⟨rfl, c, hc⟩
    · rw [if_neg (by simpa using b.property)] at hcall
      have hneg : r.protocolNegotiator.negotiatedProtoVer ≠ verUnknown := by
        intro hunk
        exact absurd ((hord.eq_version_iff hf).mpr ((h.negotiated herr).mp hunk)) (by simp)
      rw [if_neg hneg] at hcall
      cases hcall
      exact .inl (notIdle_pendingErrCode.trans herr)
    · simp only [List.length_nil, if_true] at hcall
      cases hcall
      exact .inl herr

/-- A queue that is ready once, and has a message, is read once. -/
theorem Reads.readMsgLoop_ready {res : Result} {n : Nat} (h : r.Reads fs done) (hord : Ordered fs)
    (herr : r.pendingErrCode = none) (hready : r.mq.answers = [.ready])
    (hmore : r.mq.received < r.mq.sent.length) (hmax : r.mqMaxMsgSz = r.mq.maxMsgSize)
    (hn : r.mq.maxMsgSize ≤ n) (hcall : r.readMsgLoop n = (res, r')) :
    r'.mq.received = r.mq.received + 1 ∧
      (r'.pendingErrCode = none ∨
        r'.pendingErrCode = Code.receivesFinishedCannotReceive.toErrorCode) := by
  have hsize : ¬ (if r.controlState then r.mqMaxMsgSz else n) < r.mq.maxMsgSize := by
    split
    · rw [hmax]
      exact Nat.lt_irrefl _
    · exact Nat.not_lt.mpr hn
  have hget : r.mq.sent[r.mq.received]? = some r.mq.sent[r.mq.received] := List.getElem?_eq_getElem hmore
  generalize r.mq.sent[r.mq.received] = msg at hget
  let mq : Mq := { r.mq with received := r.mq.received + 1, answers := [] }
  have htry : r.mq.tryReceive (if r.controlState then r.mqMaxMsgSz else n) = (some msg, none, mq) := by
    unfold Mq.tryReceive
    rw [if_neg hsize, hready]
    simp only [hget]
    rfl
  obtain ⟨-, hsent, hok, hcases⟩ := Mq.tryReceive_cases h.mqOk htry
  have htaken : mq.taken = r.mq.taken ++ [msg] := by
    rcases hcases with ⟨e, he, -⟩ | ⟨-, hnone, -⟩ | ⟨blob, -, hblob, htaken⟩
    · cases he
    · cases hnone
    · cases hblob
      exact htaken
  let u : In := { r with mq := mq }
  have hu : u.Sound fs done :=
    { h with
      mqOk := hok
      sent_prefix := by
        rw [hsent]
        exact h.sent_prefix }
  have hnone : ({ r with mq := mq, pendingErrCode := none } : In) = u := by
    rw [← herr]
  have honce : r.readMsgOnce n = u.onMsg msg := by
    unfold In.readMsgOnce
    rw [htry]
    simp only [hnone]
  rcases hmsg : u.onMsg msg with ⟨res₁, r₁⟩
  have hmq₁ : r₁.mq = mq := by
    have hsame : (u.onMsg msg).2.mq = u.mq := onMsg_mq
    rw [hmsg] at hsame
    exact hsame
  have htaken' : u.mq.taken = u.readMsgs done ++ [msg] := by
    rw [show u.mq.taken = mq.taken from rfl, htaken, h.taken_eq herr]
    rfl
  have herr₁ := hu.onMsg_err hord herr htaken' hmsg
  rw [hmsg] at honce
  rw [In.readMsgLoop, honce] at hcall
  rcases res₁ with _ | res₁
  · -- The queue has no more answers, and would block.
    simp only at hcall
    have hagain : r₁.pendingErrCode = none := by
      obtain ⟨new, -, hturn⟩ := hu.onMsg hord herr htaken' hmsg
      cases hturn with
      | again err _ _ => exact err
    have hsize₁ : ¬ (if r₁.controlState then r₁.mqMaxMsgSz else n) < r₁.mq.maxMsgSize := by
      have hmax₁ : (u.onMsg msg).2.mqMaxMsgSz = u.mqMaxMsgSz := onMsg_mqMaxMsgSz
      rw [hmsg] at hmax₁
      rw [hmq₁]
      split
      · rw [hmax₁]
        exact Nat.not_lt.mpr (Nat.le_of_eq hmax.symm)
      · exact Nat.not_lt.mpr hn
    have htry₁ : r₁.mq.tryReceive (if r₁.controlState then r₁.mqMaxMsgSz else n) = (none, none, mq) := by
      unfold Mq.tryReceive
      rw [if_neg hsize₁, hmq₁]
    rw [In.readMsgLoop, In.readMsgOnce, htry₁] at hcall
    cases hcall
    exact ⟨rfl, .inl rfl⟩
  · cases hcall
    exact ⟨congrArg Mq.received hmq₁, herr₁⟩

end In

/-! ## The sender -/

namespace BlobStreamMqSender

variable {s s' : BlobStreamMqSender} {fs gs : List Frame}

/-- What a step does not change: the size limit; that sending has been started; that it is finished or not,
unless the step is to end it; and an error, once there is one. -/
structure Keeps (s s' : BlobStreamMqSender) (ends : Bool) : Prop where
  mqMaxMsgSz_eq : s'.mqMaxMsgSz = s.mqMaxMsgSz
  started : s.started = true → s'.started = true
  finished_eq : ends = false → s'.finished = s.finished
  err_eq : s.out.pendingErrCode.isSome → s'.out.pendingErrCode = s.out.pendingErrCode

/-- To do nothing keeps a sender as it is. -/
theorem keeps_refl (s : BlobStreamMqSender) (ends : Bool) : s.Keeps s ends :=
  ⟨rfl, id, fun _ => rfl, fun _ => rfl⟩

/-- Where there is no error none is kept. -/
theorem keeps_err {err err' : ErrorCode} (herr : err = none) : err.isSome → err' = err := by
  intro hsome
  rw [herr] at hsome
  cases hsome

/-- Starting the operations ends nothing. -/
theorem keeps_startSendBlobOps (h : s.Inv fs) : s.Keeps s.startSendBlobOps.2 false := by
  unfold BlobStreamMqSender.startSendBlobOps
  split
  · exact keeps_refl s false
  · rename_i hstart
    obtain ⟨-, -, herr, -, -⟩ := h.fresh (by simpa using hstart)
    simp only [herr, if_true]
    exact ⟨rfl, fun _ => rfl, fun _ => rfl, keeps_err herr⟩

/-- Sending a blob ends nothing. -/
theorem keeps_sendBlob (h : s.Inv fs) (b : {b : Blob // b ≠ []}) : s.Keeps (s.sendBlob b).2.2 false := by
  rcases hcall : s.sendBlob b with ⟨ok, err, s'⟩
  rcases sendBlob_cases b.property hcall with ⟨-, rfl⟩ | ⟨hsending, -, out, -, -, hs'⟩
  · exact keeps_refl _ false
  · rcases hs' with rfl | rfl
    · exact ⟨rfl, id, fun _ => rfl, keeps_err hsending.noError⟩
    · rw [rescheduleAutoPing_eq (s := { s with out := out }) h.timer]
      exact ⟨rfl, id, fun _ => rfl, keeps_err hsending.noError⟩

/-- Ending the sending may end it. -/
theorem keeps_asyncEndSendingImpl (s : BlobStreamMqSender) (g : Option Nat) :
    s.Keeps (s.asyncEndSendingImpl g).2.2 true := by
  unfold BlobStreamMqSender.asyncEndSendingImpl
  split
  · exact keeps_refl s true
  · split
    · exact keeps_refl s true
    · simp only
      split
      · refine ⟨rfl, id, ?_, fun _ => rfl⟩
        intro hends
        cases hends
      · rename_i herr
        refine ⟨?_, ?_, ?_, keeps_err (by simpa using herr)⟩
        · split_ifs <;> rfl
        · intro hstart
          split_ifs <;> exact hstart
        · intro hends
          cases hends

/-- Asking for pings ends nothing. -/
theorem keeps_autoPing (s : BlobStreamMqSender) (period : {n : Nat // 0 < n}) :
    s.Keeps (s.autoPing period).2 false := by
  unfold BlobStreamMqSender.autoPing
  rw [assert_of period.property]
  split
  · exact keeps_refl s false
  · simp only
    split
    · exact keeps_refl s false
    · split
      · exact keeps_refl s false
      · split
        · exact ⟨rfl, id, fun _ => rfl, fun _ => rfl⟩
        · rename_i herr
          have herr : s.out.pendingErrCode = none := by simpa using herr
          split
          · exact ⟨rfl, id, fun _ => rfl, keeps_err herr⟩
          · exact ⟨rfl, id, fun _ => rfl, keeps_err herr⟩

/-- A ping ends nothing. -/
theorem keeps_onEvAutoPingNowTimerFired (s : BlobStreamMqSender) :
    s.Keeps s.onEvAutoPingNowTimerFired false := by
  unfold BlobStreamMqSender.onEvAutoPingNowTimerFired
  simp only
  split
  · exact ⟨rfl, id, fun _ => rfl, fun _ => rfl⟩
  · rename_i herr
    have herr : s.out.pendingErrCode = none := by simpa using herr
    split
    · exact ⟨rfl, id, fun _ => rfl, keeps_err herr⟩
    · split
      · exact ⟨rfl, id, fun _ => rfl, keeps_err herr⟩
      · exact ⟨rfl, id, fun _ => rfl, keeps_err herr⟩

/-- The writable event changes the low-level state, and may be done with the handler. -/
theorem onEvMqWritable_same (s : BlobStreamMqSender) :
    s.onEvMqWritable.1.mqMaxMsgSz = s.mqMaxMsgSz ∧ s.onEvMqWritable.1.started = s.started ∧
      s.onEvMqWritable.1.finished = s.finished := by
  unfold BlobStreamMqSender.onEvMqWritable
  simp only
  split_ifs <;> (split <;> exact ⟨rfl, rfl, rfl⟩)

/-- Only the end of sending ends it. -/
theorem keeps_step {i : Input} {ks : List MqAnswer} {obs : List Obs} (h : s.Inv fs)
    (hstep : s.step i ks = some (s', obs)) : s.Keeps s' i.isEnd := by
  have hu := h.withAnswers ks
  -- The answers to come are none of what is kept.
  have hsame : (s.withAnswers ks).Keeps s' i.isEnd → s.Keeps s' i.isEnd :=
    fun hkeeps => ⟨hkeeps.mqMaxMsgSz_eq, hkeeps.started, hkeeps.finished_eq, hkeeps.err_eq⟩
  apply hsame
  clear hsame
  unfold BlobStreamMqSender.step at hstep
  generalize s.withAnswers ks = u at hu hstep
  cases i with
  | startSendBlobOps =>
      cases hstep
      exact keeps_startSendBlobOps hu
  | sendBlob b =>
      have hkeeps := keeps_sendBlob hu b
      simp only at hstep
      split at hstep
      · rename_i heq
        rw [heq] at hkeeps
        cases hstep
        exact hkeeps
      · rename_i heq
        rw [heq] at hkeeps
        cases hstep
        exact hkeeps
  | endSending =>
      cases hstep
      exact keeps_asyncEndSendingImpl u none
  | asyncEndSending g =>
      cases hstep
      exact keeps_asyncEndSendingImpl u (some g)
  | autoPing period =>
      cases hstep
      exact keeps_autoPing u period
  | mqWritable =>
      simp only [Option.ite_none_right_eq_some] at hstep
      obtain ⟨hw, hstep⟩ := hstep
      obtain ⟨herr, -, -⟩ := hu.of_evWaits hw
      have hsame := onEvMqWritable_same { u with out := { u.out with evWaits := u.out.evWaits - 1 } }
      have heq : s' = ({ u with out := { u.out with evWaits := u.out.evWaits - 1 } } :
          BlobStreamMqSender).onEvMqWritable.1 := by
        split at hstep
        · rename_i hcall
          cases hstep
          rw [hcall]
        · rename_i hcall
          cases hstep
          rw [hcall]
      rw [← heq] at hsame
      exact ⟨hsame.1, fun hstart => hsame.2.1.trans hstart, fun _ => hsame.2.2, keeps_err herr⟩
  | timerFires =>
      obtain ⟨t, -, heq⟩ := Option.map_eq_some_iff.mp hstep
      cases heq
      exact ⟨rfl, id, fun _ => rfl, fun _ => rfl⟩
  | timerReadable =>
      obtain ⟨t, -, heq⟩ := Option.map_eq_some_iff.mp hstep
      cases heq
      obtain ⟨hmax, hstart, hfin, herr⟩ := keeps_onEvAutoPingNowTimerFired { u with autoPingTimer := t }
      exact ⟨hmax, hstart, hfin, herr⟩

/-- The frames that a sender has been told are told by what it has handed over. -/
theorem Inv.unique (h : s.Inv fs) (h' : s.Inv gs) (herr : s.out.pendingErrCode = none) : fs = gs := by
  have heq : stream Frame.enc fs = stream Frame.enc gs := by
    rw [← h.carries.handed_eq herr, h'.carries.handed_eq herr]
  have hle : fs <+: gs := prefix_of_stream Frame.isPrefixCode_enc (by rw [heq])
  have hge : gs <+: fs := prefix_of_stream Frame.isPrefixCode_enc (by rw [heq])
  exact hle.eq_of_length_le hge.length_le

/-- Sending that is finished, and has not failed, has been finished by the graceful close. -/
def Ended (s : BlobStreamMqSender) (fs : List Frame) : Prop :=
  s.finished = true → s.out.pendingErrCode = none → .endSending ∈ fs

/-- What was put out last at the end of sending stays last. -/
theorem Ended.step {i : Input} {ks : List MqAnswer} {obs : List Obs} (h : s.Inv fs) (hended : s.Ended fs)
    (hstep : s.step i ks = some (s', obs)) (h' : s'.Inv gs) (hsub : fs <+: gs) : s'.Ended gs := by
  have hkeeps := keeps_step h hstep
  intro hfin herr
  -- An error would have been kept.
  have hnone : s.out.pendingErrCode = none := by
    by_contra hne
    have hsome := Option.isSome_iff_ne_none.mpr hne
    rw [← hkeeps.err_eq hsome, herr] at hsome
    cases hsome
  -- A call that ends the sending tells the graceful close, or changes nothing.
  have hcall {u : BlobStreamMqSender} (hu : u.Inv fs) (hufin : u.finished = s.finished) {g : Option Nat}
      (heq : s' = (u.asyncEndSendingImpl g).2.2) : .endSending ∈ gs := by
    rcases hcall : u.asyncEndSendingImpl g with ⟨ok, err, t⟩
    rw [hcall] at heq
    obtain rfl : s' = t := heq
    obtain ⟨-, hout⟩ := hu.asyncEndSendingImpl hcall
    cases hout with
    | refused _ _ hsame _ =>
        rw [hsame] at hfin
        exact hsub.subset (hended (hufin.symm.trans hfin) hnone)
    | failed _ _ hfail _ _ _ =>
        rw [← hfail.2] at herr
        rw [herr] at hfail
        cases hfail.1
    | flushed _ _ _ hinv _ _ _ =>
        rw [h'.unique hinv herr]
        simp
    | pending _ _ _ hinv _ _ =>
        rw [h'.unique hinv herr]
        simp
  unfold BlobStreamMqSender.step at hstep
  cases i with
  | endSending =>
      cases hstep
      exact hcall (h.withAnswers ks) rfl rfl
  | asyncEndSending g =>
      cases hstep
      exact hcall (h.withAnswers ks) rfl rfl
  | _ => exact hsub.subset (hended ((hkeeps.finished_eq rfl).symm.trans hfin) hnone)

/-- A blob that is accepted fits. -/
theorem accepted_fits {i : Input} {ks : List MqAnswer} {obs : List Obs}
    (hstep : s.step i ks = some (s', obs)) {b : {b : Blob // b ≠ []}} (hb : b ∈ accepted obs) :
    b.val.length ≤ s.mqMaxMsgSz := by
  change b.val.length ≤ (s.withAnswers ks).mqMaxMsgSz
  unfold BlobStreamMqSender.step at hstep
  generalize s.withAnswers ks = u at hstep ⊢
  cases i with
  | sendBlob b' =>
      simp only at hstep
      split at hstep
      · rename_i t hcall
        cases hstep
        obtain rfl : b = b' := by simpa [accepted, Obs.accepted?] using hb
        by_contra hlong
        unfold BlobStreamMqSender.sendBlob at hcall
        rw [assert_of (by simpa using b.property)] at hcall
        simp only at hcall
        split at hcall
        · cases hcall
        · split at hcall
          · cases hcall
          · rw [if_pos (Nat.not_le.mp hlong)] at hcall
            cases hcall
      · cases hstep
        cases hb
  | mqWritable =>
      simp only [Option.ite_none_right_eq_some] at hstep
      obtain ⟨-, hstep⟩ := hstep
      split at hstep
      · cases hstep
        cases hb
      · cases hstep
        cases hb
  | startSendBlobOps => cases hstep; cases hb
  | endSending => cases hstep; cases hb
  | asyncEndSending g => cases hstep; cases hb
  | autoPing period => cases hstep; cases hb
  | timerFires =>
      obtain ⟨t, -, heq⟩ := Option.map_eq_some_iff.mp hstep
      cases heq
      cases hb
  | timerReadable =>
      obtain ⟨t, -, heq⟩ := Option.map_eq_some_iff.mp hstep
      cases heq
      cases hb

/-- A sender that holds something back sends it all when the queue is ready for it. -/
theorem Inv.mqWritable_ready (h : s.Inv fs) (herr : s.out.pendingErrCode = none)
    (hq : s.out.pendingPayloadsQ ≠ []) (hfits : ∀ m ∈ s.out.pendingPayloadsQ, m.length ≤ s.out.mq.maxMsgSize) :
    ∃ s' obs, s.step .mqWritable (List.replicate s.out.pendingPayloadsQ.length .ready) = some (s', obs) ∧
      accepted obs = [] ∧ s'.out.pendingErrCode = none ∧ s'.out.pendingPayloadsQ = [] ∧
      s'.out.mq.sent = s.out.mq.sent ++ s.out.pendingPayloadsQ ∧
      s'.out.mq.received = s.out.mq.received := by
  have hone : s.out.evWaits = 1 := by
    rw [h.carries.ok.evWaits_eq, if_pos ⟨herr, hq⟩]
  have hdrain := Out.drain_ready
    { s.out.mq with answers := List.replicate s.out.pendingPayloadsQ.length .ready } hfits rfl
  unfold BlobStreamMqSender.step BlobStreamMqSender.withAnswers
  simp only
  rw [if_pos (by rw [hone]; exact Nat.one_pos)]
  unfold BlobStreamMqSender.onEvMqWritable
  rw [assert_of (by exact hq)]
  simp only
  rw [assert_of (by exact herr)]
  simp only [hdrain, Option.isSome_none, Bool.false_eq_true, if_false, if_true]
  cases s.pendingOnLastSendDoneFunc with
  | none => exact ⟨_, _, rfl, rfl, rfl, rfl, rfl, rfl⟩
  | some f => exact ⟨_, _, rfl, rfl, rfl, rfl, rfl, rfl⟩

end BlobStreamMqSender

/-! ## The receiver -/

/-- Reading does not touch the size limit of the queue. -/
theorem Mq.tryReceive_maxMsgSize (mq : Mq) (size : Nat) :
    (mq.tryReceive size).2.2.maxMsgSize = mq.maxMsgSize := by
  unfold Mq.tryReceive
  split
  · rfl
  · split
    · rfl
    · split <;> rfl
    · rfl
    · rfl

/-- Reading does not change the limit on messages. -/
theorem In.replay_maxMsgSize (mq : Mq) (as : List (Handoff.Act Nat)) :
    (In.replay mq as).maxMsgSize = mq.maxMsgSize := by
  unfold In.replay
  induction as generalizing mq with
  | nil => rfl
  | cons a as ih =>
      rw [List.foldl_cons, ih]
      split
      · exact mq.tryReceive_maxMsgSize _
      · rfl

namespace BlobStreamMqReceiver

variable {r r' : BlobStreamMqReceiver} {fs done : List Frame} {i : Input} {ks : List MqAnswer}
  {obs : List Obs}

/-- A receiver goes on to wait when it should. -/
theorem Waits.step (h : r.Waits) (hstep : r.step i ks = some (r', obs)) : r'.Waits := by
  by_cases hi : i = .mqReadable
  · subst hi
    have hone : r.inp.evWaits = 1 := by
      have hle := h.le_one
      by_contra hne
      have hzero : (r.withAnswers ks).inp.evWaits = 0 := by
        change r.inp.evWaits = 0
        omega
      simp [BlobStreamMqReceiver.step, hzero] at hstep
    obtain ⟨t, obs', as, hstep', -, -, hwaits⟩ := does_mqReadable h hone ks
    rw [hstep] at hstep'
    cases hstep'
    exact hwaits
  · exact (does_step h hi hstep).waits

/-- No step changes the limit on messages. -/
theorem Waits.step_maxMsgSize (h : r.Waits) (hstep : r.step i ks = some (r', obs)) :
    r'.inp.mq.maxMsgSize = r.inp.mq.maxMsgSize := by
  rw [h.accounts i ks r' obs hstep, In.replay_maxMsgSize]
  rfl

/-- What is read for the request that is outstanding. -/
theorem readMsg_eq {q : UserRequest} {res : Result} {inp : In} (hreq : r.userRequest = some q)
    (herr : r.inp.pendingErrCode = none) (hloop : r.inp.readMsgLoop q.targetBlobSize = (res, inp)) :
    r.readMsg = (res, { r with inp := inp }) := by
  unfold BlobStreamMqReceiver.readMsg
  rw [assert_of (by exact herr)]
  simp only
  rw [assert_of (by rw [hreq]; rfl), hreq]
  simp only [Option.map_some, Option.getD_some, hloop]

/-- A request that has just been made. -/
theorem asyncReceiveBlob_eq {n f : Nat} {res : Result} {inp : In} (hstart : r.started = true)
    (hreq : r.userRequest = none) (herr : r.inp.pendingErrCode = none) (hn : r.inp.mqMaxMsgSz ≤ n)
    (hloop : r.inp.readMsgLoop n = (res, inp)) :
    r.asyncReceiveBlob n f = (true, res,
      { r with inp := inp, userRequest := if res.1 = wouldBlock then some ⟨n, f⟩ else none }) := by
  have hread := readMsg_eq (r := { r with userRequest := some ⟨n, f⟩ }) rfl herr hloop
  unfold BlobStreamMqReceiver.asyncReceiveBlob
  simp only [hstart, hreq, herr, Bool.true_eq_false, Option.isSome_none, Bool.false_eq_true, if_false]
  rw [if_neg (Nat.not_lt.mpr hn)]
  rw [hstart] at hread
  by_cases hblock : res.1 = wouldBlock
  · simp [hread, hblock]
  · simp [hread, hblock]

/-- A request that is outstanding, the queue being readable. -/
theorem onEvMqReadable_eq {q : UserRequest} {res : Result} {inp : In} (hreq : r.userRequest = some q)
    (herr : r.inp.pendingErrCode = none) (hloop : r.inp.readMsgLoop q.targetBlobSize = (res, inp)) :
    r.onEvMqReadable =
      ({ r with inp := inp, userRequest := if res.1 = wouldBlock then some q else none },
        if res.1 = wouldBlock then none else some (q.onDoneFunc, res)) := by
  unfold BlobStreamMqReceiver.onEvMqReadable
  simp only [herr, Option.isSome_none, Bool.false_eq_true, if_false]
  rw [assert_of (by rw [hreq]; rfl), readMsg_eq hreq herr hloop]
  by_cases hblock : res.1 = wouldBlock
  · simp [hblock, ← hreq]
  · simp [hblock, hreq]

/-- A request, as a step. -/
theorem step_asyncReceiveBlob {n f : Nat} {ok : Bool} {res : Result}
    (h : (r.withAnswers ks).asyncReceiveBlob n f = (ok, res, r')) :
    r.step (.asyncReceiveBlob n f) ks = some (r', [.returned ok f res]) := by
  unfold BlobStreamMqReceiver.step
  simp only [h]

/-- The event, as a step. -/
theorem step_mqReadable {g : Option (Nat × Result)} (hw : 0 < r.inp.evWaits)
    (h : { r.withAnswers ks with
        inp := { (r.withAnswers ks).inp with evWaits := r.inp.evWaits - 1 } }.onEvMqReadable = (r', g)) :
    r.step .mqReadable ks = some (r', invocations g) := by
  unfold BlobStreamMqReceiver.step
  simp only
  rw [if_pos (by exact hw)]
  exact congrArg (fun p : BlobStreamMqReceiver × Option (Nat × Result) => some (p.1, invocations p.2)) h

/-- The buffer of the request that is outstanding is large enough. -/
def Roomy (r : BlobStreamMqReceiver) : Prop :=
  ∀ q, r.userRequest = some q → r.inp.mqMaxMsgSz ≤ q.targetBlobSize

/-- Where there is a message and no error, and the queue is ready, one more message is read: for the request
that is outstanding, or for a new one. -/
theorem Inv.read_ready (h : r.Inv fs done) (hord : Ordered fs) (hroomy : r.Roomy)
    (hstart : r.started = true) (herr : r.inp.pendingErrCode = none)
    (hmax : r.inp.mqMaxMsgSz = r.inp.mq.maxMsgSize) (hmore : r.inp.mq.received < r.inp.mq.sent.length) :
    ∃ i r' obs, (i = .asyncReceiveBlob r.inp.mqMaxMsgSz 0 ∨ i = .mqReadable) ∧
      r.step i [.ready] = some (r', obs) ∧ r'.started = true ∧
      r'.inp.mq.received = r.inp.mq.received + 1 ∧
      (r'.inp.pendingErrCode = none ∨
        (r'.inp.pendingErrCode = Code.receivesFinishedCannotReceive.toErrorCode ∧
          obs.any (decide <| Obs.IsClose ·) = true)) := by
  -- What the loop comes to, as it will be seen.
  have hloop {inp₀ : In} (hreads : inp₀.Reads fs done) (herr₀ : inp₀.pendingErrCode = none)
      (hmq : inp₀.mq = { r.inp.mq with answers := [.ready] })
      (hlimit : inp₀.mqMaxMsgSz = r.inp.mqMaxMsgSz) {n : Nat} (hn : r.inp.mqMaxMsgSz ≤ n) {res : Result}
      {inp : In} (hcall : inp₀.readMsgLoop n = (res, inp)) :
      inp.mq.received = r.inp.mq.received + 1 ∧
        (inp.pendingErrCode = none ∨
          (inp.pendingErrCode = Code.receivesFinishedCannotReceive.toErrorCode ∧
            res.1 = Code.receivesFinishedCannotReceive.toErrorCode)) := by
    have hready := hreads.readMsgLoop_ready hord herr₀ (by rw [hmq]) (by rw [hmq]; exact hmore)
      (by rw [hlimit, hmq]; exact hmax) (by rw [hmq]; exact hmax ▸ hn) hcall
    obtain ⟨hrcvd, hnone | hclose⟩ := hready
    · exact ⟨hrcvd.trans (by rw [hmq]), .inl hnone⟩
    · refine ⟨hrcvd.trans (by rw [hmq]), .inr ⟨hclose, ?_⟩⟩
      obtain ⟨new, -, hturn⟩ := hreads.readMsgLoop hord herr₀ hcall
      cases hturn with
      | got b err _ _ =>
          rw [hclose] at err
          cases err
      | failed e err _ _ => exact err.symm.trans hclose
      | wouldBlock err _ _ =>
          rw [hclose] at err
          cases err
  have hclose_ne : Code.receivesFinishedCannotReceive.toErrorCode ≠ wouldBlock := by decide
  rcases hreq : r.userRequest with _ | q
  · have hreads : (r.withAnswers [.ready]).inp.Reads fs done := (h.withAnswers [.ready]).reads
    rcases hcall : (r.withAnswers [.ready]).inp.readMsgLoop r.inp.mqMaxMsgSz with ⟨res, inp⟩
    obtain ⟨hrcvd, herr'⟩ := hloop hreads herr rfl rfl (Nat.le_refl _) hcall
    have heq := asyncReceiveBlob_eq (r := r.withAnswers [.ready]) (f := 0) hstart hreq herr
      (Nat.le_refl _) hcall
    refine ⟨_, _, _, .inl rfl, step_asyncReceiveBlob heq, hstart, hrcvd, ?_⟩
    rcases herr' with hnone | ⟨hclose, hres⟩
    · exact .inl hnone
    · exact .inr ⟨hclose, by simp [Obs.IsClose, hres]⟩
  · have hone : r.inp.evWaits = 1 := by rw [h.waits herr, hreq]; rfl
    let u : BlobStreamMqReceiver :=
      { r.withAnswers [.ready] with
        inp := { (r.withAnswers [.ready]).inp with evWaits := r.inp.evWaits - 1 } }
    have hreads : u.inp.Reads fs done := { (h.withAnswers [.ready]).reads with }
    rcases hcall : u.inp.readMsgLoop q.targetBlobSize with ⟨res, inp⟩
    obtain ⟨hrcvd, herr'⟩ := hloop hreads herr rfl rfl (hroomy q hreq) hcall
    have heq := onEvMqReadable_eq (r := u) hreq herr hcall
    refine ⟨_, _, _, .inr rfl, step_mqReadable (by rw [hone]; exact Nat.one_pos) heq, hstart, hrcvd, ?_⟩
    rcases herr' with hnone | ⟨hclose, hres⟩
    · exact .inl hnone
    · refine .inr ⟨hclose, ?_⟩
      rw [if_neg (by rw [hres]; exact hclose_ne)]
      simp [invocations, Obs.IsClose, hres]

/-- A request is taken only with room for what the queue might hold. -/
theorem Roomy.step (hroomy : r.Roomy) (h : r.Inv fs done) (hord : Ordered fs)
    (hstep : r.step i ks = some (r', obs)) : r'.Roomy := by
  have hlimit := step_mqMaxMsgSz hstep
  -- A request that is kept, or none.
  have hkept (hreq : ∀ q, r'.userRequest = some q → r.userRequest = some q) : r'.Roomy := by
    intro q hq
    rw [hlimit]
    exact hroomy q (hreq q hq)
  have hu := h.withAnswers ks
  unfold BlobStreamMqReceiver.step at hstep
  cases i with
  | startReceiveBlobOps =>
      cases hstep
      apply hkept
      intro q hq
      unfold BlobStreamMqReceiver.startReceiveBlobOps at hq
      split at hq
      · exact hq
      · exact hq
  | asyncReceiveBlob n f =>
      rcases hcall : (r.withAnswers ks).asyncReceiveBlob n f with ⟨ok, res, t⟩
      simp only [hcall] at hstep
      cases hstep
      cases hu.asyncReceiveBlob_cases hord hcall with
      | refused _ _ => exact hkept fun q hq => hq
      | latched _ _ => exact hkept fun q hq => hq
      | invalid _ _ => exact hkept fun q hq => hq
      | read res inp new _ hsize _ _ _ =>
          intro q hq
          rw [hlimit]
          simp only at hq
          split at hq
          · cases hq
            exact hsize
          · cases hq
  | idleTimerRun timeout =>
      cases hstep
      apply hkept
      intro q hq
      rw [(hu.idleTimerRun timeout).2.2.2.1] at hq
      exact hq
  | mqReadable =>
      simp only [Option.ite_none_right_eq_some] at hstep
      obtain ⟨hw, hstep⟩ := hstep
      rcases hcall : BlobStreamMqReceiver.onEvMqReadable
        { r.withAnswers ks with
          inp := { (r.withAnswers ks).inp with evWaits := (r.withAnswers ks).inp.evWaits - 1 } } with ⟨t, g⟩
      simp only [hcall] at hstep
      cases hstep
      cases hu.onEvMqReadable_cases hord hw hcall with
      | late _ => exact hkept fun q hq => hq
      | read q res inp new _ hreq _ _ _ =>
          apply hkept
          intro q' hq'
          simp only at hq'
          split at hq'
          · cases hq'
            exact hreq
          · cases hq'
  | timerFires =>
      obtain ⟨t, -, heq⟩ := Option.map_eq_some_iff.mp hstep
      cases heq
      exact hkept fun q hq => hq
  | timerReadable =>
      obtain ⟨t, htake, heq⟩ := Option.map_eq_some_iff.mp hstep
      rcases hcall : BlobStreamMqReceiver.onEvIdleTimerFired
        { r.withAnswers ks with inp := { (r.withAnswers ks).inp with idleTimer := t } } with ⟨v, g⟩
      rw [hcall] at heq
      cases heq
      obtain ⟨-, -, -, ⟨-, hreq, -⟩ | ⟨-, hreq, -, -⟩⟩ := hu.onEvIdleTimerFired htake hcall
      · apply hkept
        intro q hq
        rw [hreq] at hq
        exact hq
      · apply hkept
        intro q hq
        rw [hreq] at hq
        cases hq

end BlobStreamMqReceiver

/-! ## The two of them -/

/-- All that is known of a sender and a receiver on one queue. -/
structure World.Account (w : World) (fs done : List Frame) : Prop where
  inv : w.Inv fs done
  waits : w.rcv.Waits
  roomy : w.rcv.Roomy
  queue : w.rcv.inp.mq.maxMsgSize = w.snd.out.mq.maxMsgSize
  sndLimit : w.snd.mqMaxMsgSz = w.snd.out.mq.maxMsgSize
  rcvLimit : w.rcv.inp.mqMaxMsgSz = w.snd.out.mq.maxMsgSize
  fits : ∀ b ∈ w.accepted, b.val.length ≤ w.snd.out.mq.maxMsgSize
  ended : w.snd.Ended fs

namespace World

variable {w w' : World} {fs done : List Frame}

/-- At the start nothing is on its way. -/
theorem account_init (n : Nat) : (init n).Account [] [] where
  inv := inv_init n
  waits := ⟨Nat.zero_le 1, fun h => (by cases h), fun h => (by cases h)⟩
  roomy q hq := by cases hq
  queue := rfl
  sndLimit := rfl
  rcvLimit := rfl
  fits b hb := by cases hb
  ended hfin := by cases hfin

/-- A step of the sender adds what it puts out. -/
theorem Account.snd_step {i : BlobStreamMqSender.Input} {ks : List MqAnswer} (h : w.Account fs done)
    (hstep : w.Step (.snd i ks) w') : ∃ new, w'.Account (fs ++ new) done := by
  obtain ⟨new, hinv, -⟩ := h.inv.snd_step hstep
  obtain ⟨⟨s, obs⟩, hsnd, rfl⟩ := Option.map_eq_some_iff.mp hstep
  have hmax := (h.inv.snd.step hsnd).1.maxMsgSize_eq
  have hkeeps := BlobStreamMqSender.keeps_step h.inv.snd hsnd
  refine ⟨new, ?_⟩
  exact {
    inv := hinv
    waits := ⟨h.waits.le_one, h.waits.waited, h.waits.requested⟩
    roomy := h.roomy
    queue := rfl
    sndLimit := hkeeps.mqMaxMsgSz_eq.trans (h.sndLimit.trans hmax.symm)
    rcvLimit := h.rcvLimit.trans hmax.symm
    fits := by
      intro b hb
      rw [show s.out.mq.maxMsgSize = w.snd.out.mq.maxMsgSize from hmax]
      rcases List.mem_append.mp hb with hb | hb
      · exact h.fits b hb
      · rw [← h.sndLimit]
        exact BlobStreamMqSender.accepted_fits hsnd hb
    ended := h.ended.step h.inv.snd hsnd hinv.snd (List.prefix_append _ _) }

/-- A step of the receiver adds what it takes in. -/
theorem Account.rcv_step {i : BlobStreamMqReceiver.Input} {ks : List MqAnswer} (h : w.Account fs done)
    (hstep : w.Step (.rcv i ks) w') : ∃ new, w'.Account fs (done ++ new) := by
  obtain ⟨new, hinv⟩ := h.inv.rcv_step hstep
  obtain ⟨⟨r, obs⟩, hrcv, rfl⟩ := Option.map_eq_some_iff.mp hstep
  have hmax : r.inp.mq.maxMsgSize = w.snd.out.mq.maxMsgSize :=
    (h.waits.step_maxMsgSize hrcv).trans h.queue
  refine ⟨new, ?_⟩
  exact {
    inv := hinv
    waits := h.waits.step hrcv
    roomy := h.roomy.step h.inv.rcv h.inv.snd.ordered hrcv
    queue := rfl
    sndLimit := h.sndLimit.trans hmax.symm
    rcvLimit := (BlobStreamMqReceiver.step_mqMaxMsgSz hrcv).trans (h.rcvLimit.trans hmax.symm)
    fits := fun b hb => hmax ▸ h.fits b hb
    ended := h.ended }

/-- What is on its way is accounted for in every state that is reached. -/
theorem Reached.account (h : w.Reached) : ∃ fs done, w.Account fs done := by
  apply Lts.Reachable.invariant (P := fun w => ∃ fs done, World.Account w fs done) _ _ h
  · rintro w ⟨n, rfl⟩
    exact ⟨[], [], account_init n⟩
  · rintro w (⟨i, ks⟩ | ⟨i, ks⟩) w' ⟨fs, done, hacc⟩ hstep
    · obtain ⟨new, hacc'⟩ := hacc.snd_step hstep
      exact ⟨fs ++ new, done, hacc'⟩
    · obtain ⟨new, hacc'⟩ := hacc.rcv_step hstep
      exact ⟨fs, done ++ new, hacc'⟩

/-- What is held back fits, provided the commands do. -/
theorem Account.payload_fits (h : w.Account fs done) (herr : w.snd.out.pendingErrCode = none)
    (hctl : 8 ≤ w.snd.out.mq.maxMsgSize) {m : Blob} (hm : m ∈ w.snd.out.pendingPayloadsQ) :
    m.length ≤ w.snd.out.mq.maxMsgSize := by
  have hmem : m ∈ stream Frame.enc fs := by
    rw [← h.inv.snd.carries.handed_eq herr]
    exact List.mem_append_right _ hm
  obtain ⟨f, hf, hmf⟩ := List.mem_flatMap.mp hmem
  rcases hc : f.rawCmd with _ | c
  · cases f with
    | blob b =>
        obtain rfl : m = b.val := by simpa [Frame.enc] using hmf
        apply h.fits b
        rw [h.inv.accepted_eq]
        exact List.mem_filterMap.mpr ⟨.blob b, hf, rfl⟩
    | _ => cases hc
  · rw [Frame.enc_of_rawCmd hc] at hmf
    rcases List.mem_cons.mp hmf with rfl | hmf
    · exact Nat.zero_le _
    · rw [List.mem_singleton.mp hmf, length_ctlBytes]
      exact hctl

/-- Neither knows of an error, but for the graceful close, which has then been reported. -/
structure Going (w : World) : Prop where
  sndStarted : w.snd.started = true
  rcvStarted : w.rcv.started = true
  sndErr : w.snd.out.pendingErrCode = none
  rcvErr : w.rcv.inp.pendingErrCode = none ∨
    (w.rcv.inp.pendingErrCode = Code.receivesFinishedCannotReceive.toErrorCode ∧ w.closed = true)
  ctlFits : 8 ≤ w.snd.out.mq.maxMsgSize

/-- Nothing is left to be done: all has been sent and read, or the graceful close has been reported. -/
def Settled (w : World) : Prop :=
  w.closed = true ∨ (w.rcv.inp.pendingErrCode = none ∧ w.snd.out.pendingPayloadsQ = [] ∧
    w.rcv.inp.mq.sent.length ≤ w.rcv.inp.mq.received)

/-- How much is left: what is held back has to be sent, and then to be read. -/
def left (w : World) : Nat :=
  2 * w.snd.out.pendingPayloadsQ.length + (w.rcv.inp.mq.sent.length - w.rcv.inp.mq.received)

/-- The steps that it takes: the event loop reports that the queue is ready, and requests are made. -/
def IsService (m : Move) : Prop :=
  (∃ ks, m = .snd .mqWritable ks) ∨ ∃ ks, m = .rcv .mqReadable ks ∨ ∃ n f, m = .rcv (.asyncReceiveBlob n f) ks

/-- What such a step leaves as it was. -/
def Same (w w' : World) : Prop :=
  w'.accepted = w.accepted ∧ w'.snd.finished = w.snd.finished

/-- What is held back is sent. -/
theorem Account.flushed (h : w.Account fs done) (hgoing : w.Going) (hq : w.snd.out.pendingPayloadsQ ≠ []) :
    ∃ m w', IsService m ∧ w.Step m w' ∧ (∃ fs', w'.Account fs' done) ∧ w'.Going ∧ w.Same w' ∧
      w'.left < w.left := by
  obtain ⟨s, obs, hsnd, hobs, herr, hnil, hsent, hrcvd⟩ := h.inv.snd.mqWritable_ready hgoing.sndErr hq
    fun m hm => h.payload_fits hgoing.sndErr hgoing.ctlFits hm
  have hkeeps := BlobStreamMqSender.keeps_step h.inv.snd hsnd
  have hmax := (h.inv.snd.step hsnd).1.maxMsgSize_eq
  have hstep : w.Step (.snd .mqWritable _) _ := Option.map_eq_some_iff.mpr ⟨(s, obs), hsnd, rfl⟩
  obtain ⟨new, hacc⟩ := h.snd_step hstep
  refine ⟨_, _, .inl ⟨_, rfl⟩, hstep, ⟨fs ++ new, hacc⟩, ?_, ⟨?_, hkeeps.finished_eq rfl⟩, ?_⟩
  · exact ⟨hkeeps.started hgoing.sndStarted, hgoing.rcvStarted, herr, hgoing.rcvErr, hmax ▸ hgoing.ctlFits⟩
  · simp only
    rw [hobs, List.append_nil]
  · have hpos := List.length_pos_iff.mpr hq
    have hok : w.rcv.inp.mq.received ≤ w.rcv.inp.mq.sent.length := h.inv.rcv.reads.mqOk
    rw [h.inv.sent_eq, h.inv.received_eq] at hok
    unfold left
    simp only
    rw [hnil, hsent, hrcvd, h.inv.sent_eq, h.inv.received_eq, List.length_nil, List.length_append]
    omega

/-- What has been sent is read, message by message. -/
theorem Account.advances (h : w.Account fs done) (hgoing : w.Going) (herr : w.rcv.inp.pendingErrCode = none)
    (hmore : w.rcv.inp.mq.received < w.rcv.inp.mq.sent.length) :
    ∃ m w', IsService m ∧ w.Step m w' ∧ (∃ done', w'.Account fs done') ∧ w'.Going ∧ w.Same w' ∧
      w'.left < w.left := by
  obtain ⟨i, r, obs, hi, hrcv, hstart, hrcvd, herr'⟩ := h.inv.rcv.read_ready h.inv.snd.ordered h.roomy
    hgoing.rcvStarted herr (h.rcvLimit.trans h.queue.symm) hmore
  have hsent := (h.inv.rcv.step h.inv.snd.ordered hrcv).1
  have hstep : w.Step (.rcv i [.ready]) _ := Option.map_eq_some_iff.mpr ⟨(r, obs), hrcv, rfl⟩
  obtain ⟨new, hacc⟩ := h.rcv_step hstep
  have hservice : IsService (.rcv i [.ready]) := by
    rcases hi with rfl | rfl
    · exact .inr ⟨_, .inr ⟨_, _, rfl⟩⟩
    · exact .inr ⟨_, .inl rfl⟩
  refine ⟨_, _, hservice, hstep, ⟨done ++ new, hacc⟩, ?_, ⟨rfl, rfl⟩, ?_⟩
  · refine ⟨hgoing.sndStarted, hstart, hgoing.sndErr, ?_, ?_⟩
    · rcases herr' with hnone | ⟨hclose, hseen⟩
      · exact .inl hnone
      · refine .inr ⟨hclose, ?_⟩
        simp only
        rw [hseen, Bool.or_true]
    · change 8 ≤ r.inp.mq.maxMsgSize
      rw [h.waits.step_maxMsgSize hrcv, h.queue]
      exact hgoing.ctlFits
  · unfold left
    simp only
    rw [hsent, hrcvd]
    omega

/-- Where all that was sent has been read, it has been read as what it was. -/
theorem Account.done_eq (h : w.Account fs done) (hsnd : w.snd.out.pendingErrCode = none)
    (hrcv : w.rcv.inp.pendingErrCode = none) (hq : w.snd.out.pendingPayloadsQ = [])
    (hall : w.rcv.inp.mq.sent.length ≤ w.rcv.inp.mq.received) : done = fs := by
  have htaken := h.inv.rcv.reads.taken_eq hrcv
  rw [Mq.taken, List.take_of_length_le hall, h.inv.sent_eq, h.inv.snd.carries.sent_eq hsnd hq] at htaken
  obtain ⟨rest, rfl⟩ := h.inv.rcv.reads.done_prefix
  rw [stream_append, In.readMsgs, List.append_cancel_left_eq] at htaken
  cases rest with
  | nil => exact (List.append_nil _).symm
  | cons f rest =>
      exfalso
      -- No frame is empty, or an escape alone.
      rw [stream_cons] at htaken
      cases f with
      | blob b =>
          rw [show Frame.enc (.blob b) = [b.val] from rfl] at htaken
          split at htaken
          · simp only [List.singleton_append, List.cons.injEq] at htaken
            exact b.property htaken.1
          · cases htaken
      | _ =>
          rw [Frame.enc_of_rawCmd rfl] at htaken
          split at htaken
          · cases htaken
          · cases htaken

/-- What is left comes down to nothing. -/
theorem Account.settles (h : w.Account fs done) (hgoing : w.Going) :
    ∃ ms w', (∀ m ∈ ms, IsService m) ∧ Run Step w ms w' ∧ w.Same w' ∧ w'.Going ∧ w'.Settled ∧
      ∃ fs' done', w'.Account fs' done' := by
  have hrun : ∃ ms w', (∀ m ∈ ms, IsService m) ∧ Run Step w ms w' ∧
      ((∃ fs done, w'.Account fs done) ∧ w'.Going ∧ w.Same w') ∧ w'.Settled := by
    refine exists_run_of_decreasing (P := fun v => (∃ fs done, v.Account fs done) ∧ v.Going ∧ w.Same v)
      left ?_ ⟨⟨fs, done, h⟩, hgoing, rfl, rfl⟩
    rintro v ⟨⟨fs, done, hv⟩, hgoing, hacc, hfin⟩ hmore
    have hopen : ¬ v.closed = true := fun hclosed => hmore (.inl hclosed)
    have herr : v.rcv.inp.pendingErrCode = none := by
      rcases hgoing.rcvErr with herr | ⟨-, hclosed⟩
      · exact herr
      · exact absurd hclosed hopen
    by_cases hq : v.snd.out.pendingPayloadsQ = []
    · have hlt : v.rcv.inp.mq.received < v.rcv.inp.mq.sent.length := by
        by_contra hle
        exact hmore (.inr ⟨herr, hq, Nat.not_lt.mp hle⟩)
      obtain ⟨m, v', hm, hstep, hv', hgoing', hsame, hless⟩ := hv.advances hgoing herr hlt
      exact ⟨m, v', hm, hstep, ⟨⟨fs, hv'⟩, hgoing', hsame.1.trans hacc, hsame.2.trans hfin⟩, hless⟩
    · obtain ⟨m, v', hm, hstep, ⟨fs', hv'⟩, hgoing', hsame, hless⟩ := hv.flushed hgoing hq
      exact ⟨m, v', hm, hstep, ⟨⟨fs', done, hv'⟩, hgoing', hsame.1.trans hacc, hsame.2.trans hfin⟩, hless⟩
  obtain ⟨ms, w', hms, hrun, ⟨hacc, hgoing', hsame⟩, hsettled⟩ := hrun
  exact ⟨ms, w', hms, hrun, hsame, hgoing', hsettled, hacc⟩

/-! ## The result -/

/-- **A queue stream does not get stuck.** Whatever a sender and a receiver have been through, if both have
been started and neither knows of an error, and the commands fit into a message of the queue, then some run
delivers all that has been accepted, and the graceful close if sending has been finished. It takes no
new message and no call of the sender's user: the event loop reports that the queue is ready where it has been
asked to, and blobs are requested. -/
theorem deliversAll (h : w.Reached) (hgoing : w.Going) :
    ∃ ms w', (∀ m ∈ ms, IsService m) ∧ Run Step w ms w' ∧ w'.accepted = w.accepted ∧
      w'.delivered = w.accepted.map Subtype.val ∧ (w.snd.finished = true → w'.closed = true) := by
  obtain ⟨fs, done, hacc⟩ := h.account
  obtain ⟨ms, w', hms, hrun, ⟨haccepted, hfin⟩, hgoing', hsettled, fs', done', hacc'⟩ := hacc.settles hgoing
  have hdone : done' = fs' := by
    rcases hsettled with hclosed | ⟨herr, hq, hall⟩
    · exact hacc'.inv.snd.ordered.eq_of_end_mem hacc'.inv.rcv.reads.done_prefix (hacc'.inv.closed hclosed)
    · exact hacc'.done_eq hgoing'.sndErr herr hq hall
  refine ⟨ms, w', hms, hrun, haccepted, ?_, ?_⟩
  · rw [hacc'.inv.delivered_eq, hdone, ← hacc'.inv.accepted_eq, haccepted]
  · intro hfinished
    rcases hsettled with hclosed | ⟨herr, -, -⟩
    · exact hclosed
    · have hmem := hacc'.ended (hfin.trans hfinished) hgoing'.sndErr
      rw [← hdone] at hmem
      have hsome := hacc'.inv.rcv.reads.closed hmem
      rw [herr] at hsome
      cases hsome

/-- Two blobs and the graceful close meet a queue that is full from the middle of the first command on, while
a request is outstanding. -/
def stuckMoves : List Move :=
  [.snd .startSendBlobOps [.ready], .rcv .startReceiveBlobOps [], .rcv (.asyncReceiveBlob 8 0) [.ready],
    .snd (.sendBlob (blobOf 7 [])) [], .snd (.sendBlob (blobOf 8 [9])) [], .snd .endSending []]

/-- Two blobs that are stuck on the way are delivered, and then the end. -/
theorem deliversAll_stuckMoves : ∃ w ms w', stuckMoves.foldlM next (init 8) = some w ∧ w.delivered = [] ∧
    Run Step w ms w' ∧ w'.delivered = [[7], [8, 9]] ∧ w'.closed = true := by
  have hseen : (stuckMoves.foldlM next (init 8)).map (fun w => (w.delivered, w.accepted.map Subtype.val)) =
      some ([], [[7], [8, 9]]) := by decide +kernel
  have hflags : (stuckMoves.foldlM next (init 8)).map
      (fun w => (w.snd.finished, w.snd.started, w.rcv.started)) = some (true, true, true) := by
    decide +kernel
  have herrs : (stuckMoves.foldlM next (init 8)).map
      (fun w => (w.snd.out.pendingErrCode, w.rcv.inp.pendingErrCode, w.snd.out.mq.maxMsgSize)) =
        some (none, none, 8) := by decide +kernel
  obtain ⟨w, hfold, hseen⟩ := Option.map_eq_some_iff.mp hseen
  rw [hfold, Option.map_some, Option.some.injEq] at hflags herrs
  simp only [Prod.mk.injEq] at hseen hflags herrs
  obtain ⟨hnone, haccepted⟩ := hseen
  obtain ⟨hfin, hsnd, hrcv⟩ := hflags
  obtain ⟨hsndErr, hrcvErr, hctl⟩ := herrs
  have hreached : w.Reached := ⟨_, _, ⟨8, rfl⟩, .of_foldlM hfold⟩
  obtain ⟨ms, w', -, hrun, -, hdelivered, hclosed⟩ :=
    deliversAll hreached ⟨hsnd, hrcv, hsndErr, .inl hrcvErr, Nat.le_of_eq hctl.symm⟩
  exact ⟨w, ms, w', hfold, hnone, hrun, hdelivered.trans haccepted, hclosed hfin⟩

end World

end FlowIpc.MqStream
