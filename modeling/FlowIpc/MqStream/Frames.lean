import FlowIpc.Lib.PrefixCode
import FlowIpc.MqStream.Snd

/-!
# What a sender puts on its queue

Seen from the queue, a sender sends *frames*: the version, blobs, pings and the graceful close. A
blob is a message and the others are two messages each, and the frames form a prefix code
(`isPrefixCode_enc`), so that messages taken off the queue say which frames they are of.

`Out.Carries o fs` says that the messages sent and those still queued are exactly those of the frames
`fs`, or, after an error, that those sent are the first of them. Each low-level function is inverted
once (`syncWriteOrQPayload_cases`, `syncWriteOrQCtlCmdImpl_cases`, `drain_cases`), and keeps
`Carries`, for the frames there were and at most one more.
-/

namespace FlowIpc.MqStream

open PrefixCode

/-! ## Frames -/

/-- What a sender can tell its receiver. -/
inductive Frame where
  /-- The protocol version. -/
  | version
  /-- A blob of the user's. -/
  | blob (b : {b : Blob // b ≠ []})
  /-- A ping. -/
  | ping
  /-- The graceful close. -/
  | endSending
  deriving DecidableEq

namespace Frame

/-- The command a frame consists in, if it is not a blob. -/
def rawCmd : Frame → Option Int
  | version => some (-1)
  | blob _ => none
  | ping => some ctlPing
  | endSending => some ctlEndSending

/-- The messages of a frame. -/
def enc : Frame → List Blob
  | version => [[], ctlBytes (-1)]
  | blob b => [b.val]
  | ping => [[], ctlBytes ctlPing]
  | endSending => [[], ctlBytes ctlEndSending]

/-- The blob of a frame, if it is one. -/
def blob? : Frame → Option {b : Blob // b ≠ []}
  | blob b => some b
  | _ => none

/-- A command is an escape and its bytes. -/
theorem enc_of_rawCmd {f : Frame} {c : Int} (h : f.rawCmd = some c) : f.enc = [[], ctlBytes c] := by
  cases f with
  | blob b => cases h
  | version => cases h; rfl
  | ping => cases h; rfl
  | endSending => cases h; rfl

/-- A command is no blob. -/
theorem blob?_of_rawCmd {f : Frame} {c : Int} (h : f.rawCmd = some c) : f.blob? = none := by
  cases f with
  | blob b => cases h
  | version => rfl
  | ping => rfl
  | endSending => rfl

/-- The version is not taken for a ping. -/
theorem ctlBytes_version_ne_ping : ctlBytes (-1) ≠ ctlBytes ctlPing := by decide

/-- The version is not taken for the end of sending. -/
theorem ctlBytes_version_ne_end : ctlBytes (-1) ≠ ctlBytes ctlEndSending := by decide

/-- A ping is not taken for the end of sending. -/
theorem ctlBytes_ping_ne_end : ctlBytes ctlPing ≠ ctlBytes ctlEndSending := by decide

/-- Frames can be told apart by their messages. -/
theorem isPrefixCode_enc : IsPrefixCode enc where
  ne_nil f := by cases f <;> simp [enc]
  eq_of_prefix f g h := by
    have hping := ctlBytes_version_ne_ping
    have hend := ctlBytes_version_ne_end
    have hends := ctlBytes_ping_ne_end
    -- Blobs are not empty, so they start no command; commands differ in their second messages.
    cases f with
    | blob b =>
        cases g with
        | blob b' =>
            have hb : b.val = b'.val := by simpa [enc] using h
            rw [Subtype.ext hb]
        | _ =>
            have hb : b.val = [] := by simpa [enc] using h
            exact absurd hb b.property
    | _ =>
        cases g with
        | blob b' =>
            have hlen := h.length_le
            simp [enc] at hlen
        | _ => simp_all [enc, List.cons_prefix_cons, eq_comm]

end Frame

/-- The blobs among some frames. -/
def blobs (fs : List Frame) : List {b : Blob // b ≠ []} :=
  fs.filterMap Frame.blob?

@[simp] theorem blobs_nil : blobs [] = [] := rfl

/-- The blobs of two lists of frames are those of the one and then those of the other. -/
@[simp] theorem blobs_append (fs gs : List Frame) : blobs (fs ++ gs) = blobs fs ++ blobs gs :=
  List.filterMap_append

/-- First frames have the first blobs. -/
theorem blobs_mono {fs gs : List Frame} (h : fs <+: gs) : blobs fs <+: blobs gs := by
  obtain ⟨rest, rfl⟩ := h
  rw [blobs_append]
  exact List.prefix_append _ _

/-- The order of frames that a sender keeps to: the version is the first and comes once, and nothing
follows the graceful close. -/
structure Ordered (fs : List Frame) : Prop where
  version_first : fs = [] ∨ ∃ gs, fs = .version :: gs ∧ .version ∉ gs
  end_last : .endSending ∉ fs.dropLast

/-- Who has seen the graceful close has seen every frame. -/
theorem Ordered.eq_of_end_mem {fs done : List Frame} (h : Ordered fs) (hdone : done <+: fs)
    (hend : .endSending ∈ done) : done = fs :=
  eq_of_mem_of_not_mem_dropLast hdone hend h.end_last

/-- The first frame is the version, and no other is. -/
theorem Ordered.eq_version_iff {fs done : List Frame} {f : Frame} (h : Ordered fs)
    (hf : done ++ [f] <+: fs) : f = .version ↔ done = [] := by
  obtain ⟨rest, rfl⟩ := hf
  rcases h.version_first with hnil | ⟨gs, hgs, hver⟩
  · simp at hnil
  · cases done with
    | nil =>
        rw [List.nil_append, List.singleton_append, List.cons.injEq] at hgs
        simp [hgs.1]
    | cons g done =>
        have hmem : f ∈ gs := by
          rw [List.cons_append, List.cons_append, List.cons.injEq] at hgs
          rw [← hgs.2]
          simp
        constructor
        · rintro rfl
          exact absurd hmem hver
        · intro hnil
          cases hnil

/-- The message after whole frames is a blob, or the escape of a command. -/
theorem next_msg {fs done : List Frame} {msg : Blob} (hdone : done <+: fs)
    (h : stream Frame.enc done ++ [msg] <+: stream Frame.enc fs) :
    ∃ f, done ++ [f] <+: fs ∧
      ((∃ b : {b : Blob // b ≠ []}, f = .blob b ∧ msg = b.val) ∨
        (msg = [] ∧ ∃ c, f.rawCmd = some c)) := by
  obtain ⟨gs, rfl⟩ := hdone
  rw [stream_append, List.prefix_append_right_inj] at h
  cases gs with
  | nil => simp at h
  | cons f gs =>
      refine ⟨f, by simp, ?_⟩
      cases f with
      | blob b =>
          have hmsg : msg = b.val := by simpa [Frame.enc] using h
          exact .inl ⟨b, rfl, hmsg⟩
      | _ =>
          have hmsg : msg = [] := by simpa [Frame.enc] using h
          exact .inr ⟨hmsg, _, rfl⟩

/-- The message after whole frames and an escape is a command. -/
theorem next_ctlCmd {fs done : List Frame} {msg : Blob} (hdone : done <+: fs)
    (h : stream Frame.enc done ++ [[]] ++ [msg] <+: stream Frame.enc fs) :
    ∃ f c, done ++ [f] <+: fs ∧ f.rawCmd = some c ∧ msg = ctlBytes c := by
  obtain ⟨gs, rfl⟩ := hdone
  rw [List.append_assoc, stream_append, List.prefix_append_right_inj] at h
  cases gs with
  | nil => simp at h
  | cons f gs =>
      cases hc : f.rawCmd with
      | some c =>
          rw [stream_cons, Frame.enc_of_rawCmd hc] at h
          have hmsg : msg = ctlBytes c := by simpa [List.cons_prefix_cons] using h
          exact ⟨f, c, by simp, hc, hmsg⟩
      | none =>
          cases f with
          | blob b =>
              simp [Frame.enc, List.cons_prefix_cons] at h
              exact absurd h.1 b.property
          | _ => cases hc

/-! ## Single writes -/

namespace Out

/-- No assertion has failed, the error if any is one to report, and the queue is being waited for
exactly while payloads are queued and no error is known. -/
structure Ok (o : Out) : Prop where
  noFailure : o.assertFailed = false
  genuine : Genuine o.pendingErrCode
  evWaits_eq : o.evWaits = if o.pendingErrCode = none ∧ o.pendingPayloadsQ ≠ [] then 1 else 0

/-- The messages sent, and after them those queued. -/
def handed (o : Out) : List Blob :=
  o.mq.sent ++ o.pendingPayloadsQ

variable {o o' : Out} {msg : Blob} {avoid flushed avoided : Bool}

/-- If nothing is held back nothing is waited for. -/
theorem Ok.evWaits_of_nil (h : o.Ok) (hq : o.pendingPayloadsQ = []) : o.evWaits = 0 := by
  rw [h.evWaits_eq, if_neg]
  rintro ⟨-, hne⟩
  exact hne hq

/-- Queuing a payload on a sound sender. -/
theorem queuePayload_cases (hok : o.Ok) (herr : o.pendingErrCode = none)
    (h : o.queuePayload msg avoid = (flushed, avoided, o')) :
    (avoid = true ∧ avoided = true ∧ flushed = decide (o.pendingPayloadsQ = []) ∧ o' = o) ∨
      (avoid = false ∧ avoided = false ∧ flushed = false ∧ o'.Ok ∧ o'.pendingErrCode = none ∧
        o'.mq = o.mq ∧ o'.pendingPayloadsQ = o.pendingPayloadsQ ++ [msg]) := by
  unfold queuePayload at h
  split at h
  · rename_i havoid
    cases h
    exact .inl ⟨havoid, rfl, rfl, rfl⟩
  · rename_i havoid
    have havoid : avoid = false := by simpa using havoid
    cases hq : o.pendingPayloadsQ with
    | nil =>
        have hw := hok.evWaits_of_nil hq
        simp only [hq, List.nil_append, List.length_singleton, if_true] at h
        cases h
        refine .inr ⟨havoid, rfl, rfl, ⟨?_, hok.genuine, ?_⟩, herr, rfl, rfl⟩
        · simp [asyncWriteQHeadPayload, assert, hok.noFailure]
        · simp [asyncWriteQHeadPayload, assert, herr, hw]
    | cons m q =>
        have hw := hok.evWaits_eq
        rw [herr, hq] at hw
        simp only [hq, List.cons_append, List.length_cons, List.length_append] at h
        rw [if_neg (by simp)] at h
        cases h
        refine .inr ⟨havoid, rfl, rfl, ⟨hok.noFailure, hok.genuine, ?_⟩, herr, rfl, rfl⟩
        simpa [herr] using hw

/-- What low-level writing does to a sender, whatever else: it stays sound, and only adds messages to
the queue. -/
structure Extends (o o' : Out) : Prop where
  ok : o'.Ok
  maxMsgSize_eq : o'.mq.maxMsgSize = o.mq.maxMsgSize
  received_eq : o'.mq.received = o.mq.received
  sent_prefix : o.mq.sent <+: o'.mq.sent

/-- What is put out by one step after the other is put out by both. -/
theorem Extends.trans {o'' : Out} (h : o.Extends o') (h' : o'.Extends o'') : o.Extends o'' where
  ok := h'.ok
  maxMsgSize_eq := h'.maxMsgSize_eq.trans h.maxMsgSize_eq
  received_eq := h'.received_eq.trans h.received_eq
  sent_prefix := h.sent_prefix.trans h'.sent_prefix

/-- The three things that writing or queuing a payload can come to; `flushed` and `avoided` are what
the caller is told. -/
inductive PayloadOutcome (o : Out) (msg : Blob) (avoid flushed avoided : Bool) (o' : Out) : Prop where
  /-- Sending it failed; nothing was queued, and nothing is. -/
  | failed (err : o'.pendingErrCode.isSome) (flushed : flushed = true) (avoided : avoided = false)
      (before : o.pendingPayloadsQ = []) (after : o'.pendingPayloadsQ = [])
      (sent : o'.mq.sent = o.mq.sent)
  /-- It was sent, or queued behind the others if there are any. -/
  | written (err : o'.pendingErrCode = none)
      (flushed : flushed = decide (o'.pendingPayloadsQ = [])) (avoided : avoided = false)
      (handed : o'.handed = o.handed ++ [msg])
      (before : o'.pendingPayloadsQ = [] → o.pendingPayloadsQ = [])
  /-- It was dropped, as the caller allows. -/
  | dropped (avoid : avoid = true) (err : o'.pendingErrCode = none) (avoided : avoided = true)
      (queue : o'.pendingPayloadsQ = o.pendingPayloadsQ) (sent : o'.mq.sent = o.mq.sent)

/-- `queuePayload_cases`, as seen from before the attempt to send. -/
theorem payloadOutcome_of_queuePayload {p : Out} (hext : o.Extends p)
    (herr : p.pendingErrCode = none) (hq : p.pendingPayloadsQ = o.pendingPayloadsQ)
    (hsent : p.mq.sent = o.mq.sent) (h : p.queuePayload msg avoid = (flushed, avoided, o')) :
    o.Extends o' ∧ PayloadOutcome o msg avoid flushed avoided o' := by
  rcases queuePayload_cases hext.ok herr h with
    ⟨havoid, hav, -, rfl⟩ | ⟨-, hav, hfl, hok', herr', hmq, hq'⟩
  · exact ⟨hext, .dropped havoid herr hav hq hsent⟩
  · have hext' : o.Extends o' := by
      refine ⟨hok', ?_, ?_, ?_⟩
      · rw [hmq, hext.maxMsgSize_eq]
      · rw [hmq, hext.received_eq]
      · rw [hmq]
        exact hext.sent_prefix
    refine ⟨hext', .written herr' ?_ hav ?_ ?_⟩
    · rw [hq', hfl]
      simp
    · rw [handed, handed, hmq, hq', hq, hsent, List.append_assoc]
    · intro hnil
      rw [hq'] at hnil
      exact absurd hnil (by simp)

/-- What writing or queuing a payload does to a sound sender. -/
theorem syncWriteOrQPayload_cases (hok : o.Ok) (herr : o.pendingErrCode = none)
    (h : o.syncWriteOrQPayload msg avoid = (flushed, avoided, o')) :
    o.Extends o' ∧ PayloadOutcome o msg avoid flushed avoided o' := by
  unfold syncWriteOrQPayload at h
  rw [assert_of herr] at h
  simp only at h
  split at h
  · rename_i hq
    rcases htry : o.mq.trySend msg with ⟨sent, err, mq⟩
    rw [htry] at h
    obtain ⟨hmax, hrcvd, hcases⟩ := Mq.trySend_cases htry
    have hw := hok.evWaits_of_nil hq
    rcases hcases with ⟨e, rfl, rfl, hsent⟩ | ⟨rfl, rfl, hsent⟩ | ⟨rfl, rfl, hsent⟩
    · simp only [Option.isSome_some, if_true] at h
      rw [assert_of trivial] at h
      cases h
      have hok' : ({ o with mq := mq, pendingErrCode := some e.toErr } : Out).Ok :=
        ⟨hok.noFailure, e.genuine_toErr, by simp [hw]⟩
      refine ⟨⟨hok', hmax, hrcvd, ?_⟩, .failed rfl rfl rfl hq hq hsent⟩
      rw [hsent]
    · simp only [Option.isSome_none, Bool.false_eq_true, if_false] at h
      let p : Out := { o with mq := mq, pendingErrCode := none }
      have hext : o.Extends p := by
        refine ⟨⟨hok.noFailure, by simp [p], ?_⟩, hmax, hrcvd, ?_⟩
        · simp [p, hw, hq]
        · exact (congrArg (o.mq.sent <+: ·) hsent).mpr List.prefix_rfl
      exact payloadOutcome_of_queuePayload hext rfl rfl hsent h
    · simp only [Option.isSome_none, Bool.false_eq_true, if_false, if_true] at h
      cases h
      have hok' : ({ o with mq := mq, pendingErrCode := none } : Out).Ok :=
        ⟨hok.noFailure, by simp, by simp [hw, hq]⟩
      refine ⟨⟨hok', hmax, hrcvd, ?_⟩, .written rfl ?_ rfl ?_ ?_⟩
      · rw [hsent]
        exact List.prefix_append _ _
      · simp [hq]
      · simp [handed, hq, hsent]
      · intro _
        exact hq
  · exact payloadOutcome_of_queuePayload ⟨hok, rfl, rfl, List.prefix_rfl⟩ herr rfl rfl h

/-! ## Commands -/

/-- What writing or queuing a command can come to. -/
inductive CtlCmdOutcome (o : Out) (rawCmd : Int) (flushed : Bool) (o' : Out) : Prop where
  /-- Sending it failed, at the escape or after it. -/
  | failed (err : o'.pendingErrCode.isSome) (flushed : flushed = true)
      (before : o.pendingPayloadsQ = []) (after : o'.pendingPayloadsQ = [])
      (sent : o'.mq.sent = o.mq.sent ∨ o'.mq.sent = o.mq.sent ++ [[]])
  /-- Both messages were sent or queued. -/
  | written (err : o'.pendingErrCode = none)
      (flushed : flushed = decide (o'.pendingPayloadsQ = []))
      (handed : o'.handed = o.handed ++ [[], ctlBytes rawCmd])
  /-- Neither was: only a ping is dropped. -/
  | dropped (ping : rawCmd = ctlPing) (err : o'.pendingErrCode = none)
      (queue : o'.pendingPayloadsQ = o.pendingPayloadsQ) (sent : o'.mq.sent = o.mq.sent)

/-- What writing or queuing a command does to a sound sender. Where the escape went out the command
is not dropped. -/
theorem syncWriteOrQCtlCmdImpl_cases {rawCmd : Int} (hok : o.Ok) (herr : o.pendingErrCode = none)
    (h : o.syncWriteOrQCtlCmdImpl rawCmd = (flushed, o')) :
    o.Extends o' ∧ CtlCmdOutcome o rawCmd flushed o' := by
  unfold syncWriteOrQCtlCmdImpl at h
  simp only at h
  rcases h₁ : o.syncWriteOrQPayload [] (decide (0 ≤ rawCmd ∧ rawCmd = ctlPing)) with ⟨fl, av, p⟩
  rw [h₁] at h
  obtain ⟨hext, hout⟩ := syncWriteOrQPayload_cases hok herr h₁
  cases hout with
  | failed herr₁ hfl hav hq hq₁ hsent =>
      simp only [Option.ne_none_iff_isSome.mpr herr₁, if_false] at h
      rw [assert_of hfl] at h
      cases h
      exact ⟨hext, .failed herr₁ hfl hq hq₁ (.inl hsent)⟩
  | dropped havoid herr₁ hav hq hsent =>
      simp only [herr₁, hav, if_true] at h
      cases h
      exact ⟨hext, .dropped (of_decide_eq_true havoid).2 herr₁ hq hsent⟩
  | written herr₁ hfl hav hhanded hbefore =>
      simp only [herr₁, hav, if_true, Bool.false_eq_true, if_false] at h
      rcases h₂ : p.syncWriteOrQPayload (ctlBytes rawCmd) false with ⟨fl₂, av₂, p₂⟩
      rw [h₂] at h
      obtain ⟨hext₂, hout₂⟩ := syncWriteOrQPayload_cases hext.ok herr₁ h₂
      cases hout₂ with
      | dropped havoid => cases havoid
      | failed herr₂ hfl₂ hav₂ hq₁ hq₂ hsent₂ =>
          simp only [hfl₂] at h
          rw [assert_of (by simp)] at h
          cases h
          -- The queue was empty after the escape, so the escape has been sent.
          have hq := hbefore hq₁
          have hsent : p.mq.sent = o.mq.sent ++ [[]] := by
            simpa [handed, hq, hq₁] using hhanded
          exact ⟨hext.trans hext₂, .failed herr₂ rfl hq hq₂ (.inr (hsent₂.trans hsent))⟩
      | written herr₂ hfl₂ hav₂ hhanded₂ hbefore₂ =>
          simp only at h
          rw [assert_of (by simp [herr₂])] at h
          cases h
          refine ⟨hext.trans hext₂, .written herr₂ hfl₂ ?_⟩
          rw [hhanded₂, hhanded, List.append_assoc]
          rfl

/-! ## The writable event -/

/-- What the writable event's loop does: it moves payloads from the head of the queue to the end of
what was sent, and a failure leaves some. -/
theorem drain_cases {mq mq' : Mq} {q q' : List Blob} {err : ErrorCode}
    (h : drain mq q = (mq', q', err)) :
    mq'.maxMsgSize = mq.maxMsgSize ∧ mq'.received = mq.received ∧ mq.sent <+: mq'.sent ∧
      mq'.sent ++ q' = mq.sent ++ q ∧ (err.isSome → q' ≠ []) ∧ Genuine err := by
  induction q generalizing mq with
  | nil =>
      cases h
      exact ⟨rfl, rfl, List.prefix_rfl, rfl, by simp, by simp⟩
  | cons m q ih =>
      rw [drain] at h
      rcases htry : mq.trySend m with ⟨sent, err₁, mq₁⟩
      rw [htry] at h
      obtain ⟨hmax, hrcvd, hcases⟩ := Mq.trySend_cases htry
      rcases hcases with ⟨e, rfl, rfl, hsent⟩ | ⟨rfl, rfl, hsent⟩ | ⟨rfl, rfl, hsent⟩
      · cases h
        exact ⟨hmax, hrcvd, by rw [hsent], by rw [hsent], by simp, e.genuine_toErr⟩
      · cases h
        exact ⟨hmax, hrcvd, by rw [hsent], by rw [hsent], by simp, by simp⟩
      · obtain ⟨hmax', hrcvd', hpre, hhanded, herr⟩ := ih h
        rw [hsent] at hpre hhanded
        refine ⟨hmax'.trans hmax, hrcvd'.trans hrcvd, ?_, ?_, herr⟩
        · exact (List.prefix_append _ _).trans hpre
        · rw [hhanded, List.append_assoc]
          rfl

/-! ## Frames over messages -/

/-- The sender has put on its queue, or holds back, the messages of the frames `fs` and no others. -/
structure Carries (o : Out) (fs : List Frame) : Prop where
  ok : o.Ok
  /-- What was sent are the first messages, also after an error. -/
  sent_prefix : o.mq.sent <+: stream Frame.enc fs
  /-- Without an error every message was sent or is queued. -/
  handed_eq : o.pendingErrCode = none → o.handed = stream Frame.enc fs

variable {fs : List Frame}

/-- Sent messages are the first of those handed over. -/
theorem carries_of_handed (hok : o.Ok) (h : o.handed = stream Frame.enc fs) : o.Carries fs where
  ok := hok
  sent_prefix := by
    rw [← h]
    exact List.prefix_append _ _
  handed_eq _ := h

/-- After a failed write, with nothing left in the queue, what was sent still starts the stream. -/
theorem carries_of_sent (hok : o.Ok) (herr : o.pendingErrCode.isSome)
    (h : o.mq.sent <+: stream Frame.enc fs) : o.Carries fs where
  ok := hok
  sent_prefix := h
  handed_eq hnone := by simp [hnone] at herr

/-- With an empty queue everything was sent. -/
theorem Carries.sent_eq (hc : o.Carries fs) (herr : o.pendingErrCode = none)
    (hq : o.pendingPayloadsQ = []) : o.mq.sent = stream Frame.enc fs := by
  rw [← hc.handed_eq herr, handed, hq, List.append_nil]

/-- A blob that is written is one more frame; one whose write fails is none. -/
theorem Carries.blob (hc : o.Carries fs) (herr : o.pendingErrCode = none)
    {b : {b : Blob // b ≠ []}} (h : o.syncWriteOrQPayload b false = (flushed, avoided, o')) :
    o.Extends o' ∧ ((o'.pendingErrCode.isSome ∧ o'.Carries fs) ∨
      (o'.pendingErrCode = none ∧ o'.Carries (fs ++ [.blob b]))) := by
  obtain ⟨hext, hout⟩ := syncWriteOrQPayload_cases hc.ok herr h
  refine ⟨hext, ?_⟩
  cases hout with
  | failed herr' _ _ hq hq' hsent =>
      refine .inl ⟨herr', carries_of_sent hext.ok herr' ?_⟩
      rw [hsent]
      exact hc.sent_prefix
  | written herr' _ _ hhanded _ =>
      refine .inr ⟨herr', carries_of_handed hext.ok ?_⟩
      rw [hhanded, hc.handed_eq herr, stream_append, stream_singleton]
      rfl
  | dropped havoid => cases havoid

/-- A command that is written, or fails, is one more frame; a ping may be none. -/
theorem Carries.ctlCmd (hc : o.Carries fs) (herr : o.pendingErrCode = none) {f : Frame} {c : Int}
    (hf : f.rawCmd = some c) (h : o.syncWriteOrQCtlCmdImpl c = (flushed, o')) :
    o.Extends o' ∧
      ((o'.Carries (fs ++ [f]) ∧ (flushed = false ↔ o'.pendingErrCode = none ∧
          o'.pendingPayloadsQ ≠ [])) ∨
        (f = .ping ∧ o'.Carries fs ∧ o'.pendingErrCode = none)) := by
  have henc := Frame.enc_of_rawCmd hf
  obtain ⟨hext, hout⟩ := syncWriteOrQCtlCmdImpl_cases hc.ok herr h
  refine ⟨hext, ?_⟩
  cases hout with
  | failed herr' hfl hq hq' hsent =>
      refine .inl ⟨carries_of_sent hext.ok herr' ?_, ?_⟩
      · rw [stream_append, stream_singleton, henc]
        rcases hsent with hsent | hsent
        · rw [hsent]
          exact hc.sent_prefix.trans (List.prefix_append _ _)
        · rw [hsent, hc.sent_eq herr hq, List.prefix_append_right_inj]
          exact ⟨[ctlBytes c], rfl⟩
      · simp [hfl, hq']
  | written herr' hfl hhanded =>
      refine .inl ⟨carries_of_handed hext.ok ?_, ?_⟩
      · rw [hhanded, hc.handed_eq herr, stream_append, stream_singleton, henc]
      · simp [hfl, herr']
  | dropped hping herr' hq hsent =>
      have hf' : f = .ping := by
        subst hping
        cases f with
        | ping => rfl
        | blob b => cases hf
        | version => exact absurd hf (by decide)
        | endSending => exact absurd hf (by decide)
      refine .inr ⟨hf', carries_of_handed hext.ok ?_, herr'⟩
      rw [handed, hq, hsent]
      exact hc.handed_eq herr

end Out

end FlowIpc.MqStream
