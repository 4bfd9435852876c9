import FlowIpc.BlobSender.Cells
import FlowIpc.MqStream.Failed
import FlowIpc.MqStream.SndInv
import Mathlib.Tactic.SplitIfs

/-!
# The sender of a queue stream is a sender of blobs

The cells of `Blob_stream_mq_sender_impl` are the messages of its queue: one for a blob, two for what
else there is. `Acts` says that a call or an event of the sender's is a step of the machine over them,
and that one that is refused, or a blob that is declined, leaves every part of the sender as it was. It
is so of a sender whose constructor failed, too (`Dead.acts`).

Source: `sync_io/detail/blob_stream_mq_snd_impl.hpp`.
-/

namespace FlowIpc.MqStream

open BlobSender (Item Op Reply Cells Sender cellMedium declines)

/-- The frame of an item. -/
def frame : Item → Frame
  | .version => .version
  | .blob b => .blob b
  | .ping => .ping
  | .endSending => .endSending

/-- The messages of an item. -/
def itemEnc (f : Item) : List Blob :=
  (frame f).enc

/-- No item is without messages. -/
theorem itemEnc_ne_nil (f : Item) : itemEnc f ≠ [] :=
  Frame.isPrefixCode_enc.ne_nil (frame f)

/-! ## Writing -/

/-- The queue's codes are not those that the sender has for itself. -/
theorem Mq.declines_trySend {mq mq' : Mq} {blob : Blob} {sent : Bool} {err : ErrorCode}
    (h : mq.trySend blob = (sent, err, mq')) : declines err = false := by
  rcases (trySend_cases h).2.2 with ⟨e, rfl, -⟩ | ⟨rfl, -⟩ | ⟨rfl, -⟩
  · cases e <;> rfl
  · rfl
  · rfl

namespace Out

variable {o o' : Out} {msg : Blob} {avoid flushed avoided : Bool} {c : Int}

/-- The messages on the queue, and those held back. -/
def toCells (o : Out) : Cells Blob :=
  ⟨o.mq.sent, o.pendingPayloadsQ⟩

/-- Behind others a payload is queued, or dropped if it may be. -/
theorem syncWriteOrQPayload_behind (herr : o.pendingErrCode = none)
    (hq : o.pendingPayloadsQ ≠ []) (h : o.syncWriteOrQPayload msg avoid = (flushed, avoided, o')) :
    o'.mq = o.mq ∧ o'.pendingErrCode = none ∧ avoided = avoid ∧
      (if avoid = true then o' = o else o'.pendingPayloadsQ ≠ []) := by
  unfold syncWriteOrQPayload at h
  rw [assert_of herr, if_neg hq] at h
  unfold queuePayload at h
  cases avoid with
  | true =>
      cases h
      exact ⟨rfl, herr, rfl, rfl⟩
  | false =>
      simp only [Bool.false_eq_true, if_false] at h
      cases h
      split
      · exact ⟨rfl, herr, rfl, by simp [asyncWriteQHeadPayload, assert]⟩
      · exact ⟨rfl, herr, rfl, by simp⟩

/-- Where a payload is written at once, a failure is the queue's. -/
theorem syncWriteOrQPayload_declines (herr : o.pendingErrCode = none)
    (h : o.syncWriteOrQPayload msg avoid = (flushed, avoided, o')) :
    declines o'.pendingErrCode = false := by
  by_cases hq : o.pendingPayloadsQ = []
  · unfold syncWriteOrQPayload at h
    rw [assert_of herr, if_pos hq] at h
    rcases htry : o.mq.trySend msg with ⟨sent, err, mq⟩
    have hdec := Mq.declines_trySend htry
    simp only [htry] at h
    split at h
    · cases h
      exact hdec
    · split at h
      · cases h
        exact hdec
      · unfold queuePayload at h
        split at h
        · cases h
          exact hdec
        · simp only at h
          split at h <;> (cases h; exact hdec)
  · rw [(syncWriteOrQPayload_behind herr hq h).2.1]
    rfl

/-- A blob is handed over. -/
theorem put_blob (hok : o.Ok) (herr : o.pendingErrCode = none) {b : {b : Blob // b ≠ []}}
    (h : o.syncWriteOrQPayload b false = (flushed, avoided, o')) :
    Cells.Put itemEnc o.toCells (.blob b) o'.toCells o'.pendingErrCode := by
  obtain ⟨hext, hout⟩ := syncWriteOrQPayload_cases hok herr h
  have hdec := syncWriteOrQPayload_declines herr h
  cases hout with
  | dropped havoid => cases havoid
  | failed herr' _ _ hq _ hsent =>
      obtain ⟨e, he⟩ := Option.isSome_iff_exists.mp herr'
      rw [he] at hdec ⊢
      have hcells : o'.toCells = ⟨o.toCells.sent ++ [], o'.pendingPayloadsQ⟩ := by
        simp [toCells, hsent]
      rw [hcells]
      exact .failed hq List.nil_prefix (by simp [itemEnc, frame, Frame.enc]) e hdec
  | written herr' _ _ hhanded _ =>
      obtain ⟨l, hl⟩ := hext.sent_prefix
      rw [herr']
      refine .added (l := l) hhanded hl.symm fun hq => ?_
      have hmq := (syncWriteOrQPayload_behind herr hq h).1
      rw [hmq] at hl
      simpa using hl

/-- A command behind others is queued, or dropped if it is a ping. -/
theorem syncWriteOrQCtlCmdImpl_behind (herr : o.pendingErrCode = none)
    (hq : o.pendingPayloadsQ ≠ []) (h : o.syncWriteOrQCtlCmdImpl c = (flushed, o')) :
    o'.mq = o.mq ∧ (c = ctlPing → o' = o) := by
  unfold syncWriteOrQCtlCmdImpl at h
  rcases h₁ : o.syncWriteOrQPayload [] (decide (0 ≤ c ∧ c = ctlPing)) with ⟨fl, av, p⟩
  obtain ⟨hmq, herr₁, rfl, hp⟩ := syncWriteOrQPayload_behind herr hq h₁
  simp only [h₁, herr₁, if_true] at h
  split at h
  · rename_i havoid
    cases h
    rw [if_pos havoid] at hp
    exact ⟨hmq, fun _ => hp⟩
  · rename_i havoid
    rw [if_neg havoid] at hp
    rcases h₂ : p.syncWriteOrQPayload (ctlBytes c) false with ⟨fl₂, av₂, p₂⟩
    obtain ⟨hmq₂, herr₂, -, -⟩ := syncWriteOrQPayload_behind herr₁ hp h₂
    simp only [h₂] at h
    rw [assert_of (by simp [herr₂])] at h
    cases h
    refine ⟨hmq₂.trans hmq, ?_⟩
    rintro rfl
    exact absurd (by decide) havoid

/-- Where a command is written at once, a failure is the queue's. -/
theorem syncWriteOrQCtlCmdImpl_declines (herr : o.pendingErrCode = none)
    (h : o.syncWriteOrQCtlCmdImpl c = (flushed, o')) : declines o'.pendingErrCode = false := by
  unfold syncWriteOrQCtlCmdImpl at h
  rcases h₁ : o.syncWriteOrQPayload [] (decide (0 ≤ c ∧ c = ctlPing)) with ⟨fl, av, p⟩
  have hdec := syncWriteOrQPayload_declines herr h₁
  simp only [h₁] at h
  split at h
  · rename_i herr₁
    split at h
    · cases h
      exact hdec
    · rcases h₂ : p.syncWriteOrQPayload (ctlBytes c) false with ⟨fl₂, av₂, p₂⟩
      have hdec₂ := syncWriteOrQPayload_declines herr₁ h₂
      simp only [h₂] at h
      cases h
      exact hdec₂
  · cases h
    exact hdec

/-- A command is handed over; a ping may be dropped, and is if there are others. -/
theorem put_ctlCmd (hok : o.Ok) (herr : o.pendingErrCode = none) {f : Item}
    (hf : (frame f).rawCmd = some c) (h : o.syncWriteOrQCtlCmdImpl c = (flushed, o')) :
    ((f = .ping → o.pendingPayloadsQ = []) ∧
        Cells.Put itemEnc o.toCells f o'.toCells o'.pendingErrCode) ∨
      (f = .ping ∧ o'.toCells = o.toCells ∧ o'.pendingErrCode = none) := by
  have henc : itemEnc f = [[], ctlBytes c] := Frame.enc_of_rawCmd hf
  have hping : c = ctlPing ↔ f = .ping := by
    cases f with
    | ping => simpa [frame, Frame.rawCmd, eq_comm] using hf
    | blob b => cases hf
    | version => cases hf; decide
    | endSending => cases hf; decide
  obtain ⟨hext, hout⟩ := syncWriteOrQCtlCmdImpl_cases hok herr h
  have hdec := syncWriteOrQCtlCmdImpl_declines herr h
  cases hout with
  | dropped hc herr' hq hsent =>
      exact .inr ⟨hping.mp hc, by simp [toCells, hq, hsent], herr'⟩
  | failed herr' _ hq _ hsent =>
      refine .inl ⟨fun _ => hq, ?_⟩
      obtain ⟨e, he⟩ := Option.isSome_iff_exists.mp herr'
      rw [he] at hdec ⊢
      rcases hsent with hsent | hsent
      · have hcells : o'.toCells = ⟨o.toCells.sent ++ [], o'.pendingPayloadsQ⟩ := by
          simp [toCells, hsent]
        rw [hcells]
        exact .failed hq List.nil_prefix (by simp [henc]) e hdec
      · have hcells : o'.toCells = ⟨o.toCells.sent ++ [[]], o'.pendingPayloadsQ⟩ := by
          simp [toCells, hsent]
        rw [hcells]
        exact .failed hq (by simp [henc]) (by simp [henc]) e hdec
  | written herr' _ hhanded =>
      by_cases hq : o.pendingPayloadsQ = []
      · obtain ⟨l, hl⟩ := hext.sent_prefix
        rw [herr', ← henc] at *
        exact .inl ⟨fun _ => hq, .added (l := l) hhanded hl.symm fun hne => absurd hq hne⟩
      · obtain ⟨hmq, hdrop⟩ := syncWriteOrQCtlCmdImpl_behind herr hq h
        by_cases hp : f = .ping
        · obtain rfl := hdrop (hping.mpr hp)
          exact .inr ⟨hp, rfl, herr'⟩
        · rw [herr', ← henc] at *
          refine .inl ⟨fun hp' => absurd hp' hp, .added (l := []) hhanded ?_ fun _ => rfl⟩
          simp [toCells, hmq]

/-- What the writable event's loop passes on. -/
theorem flush_drain {mq : Mq} {q : List Blob} {err : ErrorCode}
    (h : drain o.mq o.pendingPayloadsQ = (mq, q, err)) : Cells.Flush o.toCells ⟨mq.sent, q⟩ err := by
  obtain ⟨-, -, ⟨l, hl⟩, hcells, hleft, -⟩ := drain_cases h
  rw [← hl] at hcells ⊢
  refine .passed ?_ hleft
  rw [List.append_assoc, List.append_cancel_left_eq] at hcells
  exact hcells

end Out

/-! ## Calls and events -/

namespace BlobStreamMqSender

open Negotiation BlobSender

/-- What of a sender its user has to do with. -/
def view (s : BlobStreamMqSender) : Sender (Cells Blob) :=
  ⟨s.started, s.finished, decide (s.autoPingPeriod ≠ 0), s.out.pendingErrCode, s.autoPingTimer,
    s.out.toCells⟩

/-- A call or an event, and what is seen of it, during which the queue gives the answers `ks`. -/
def react (s : BlobStreamMqSender) (op : Op) (ks : List MqAnswer) :
    Option (BlobStreamMqSender × Reply) :=
  let s := s.withAnswers ks
  match op with
  | .startSendBlobOps =>
    let (ok, s) := s.startSendBlobOps
    some (s, .returned ok none)
  | .sendBlob b =>
    let (ok, err, s) := s.sendBlob b
    some (s, .returned ok err)
  | .endSending =>
    let (ok, s) := s.endSending
    some (s, .returned ok none)
  | .autoPing period =>
    let (ok, s) := s.autoPing period
    some (s, .returned ok none)
  | .writable =>
    if 0 < s.out.evWaits then
      some ({ s with out := { s.out with evWaits := s.out.evWaits - 1 } }.onEvMqWritable.1, .event)
    else none
  | .timerFires => s.autoPingTimer.fire.map fun timer => ({ s with autoPingTimer := timer }, .event)
  | .timerReadable =>
    s.autoPingTimer.takeEvent.map fun timer =>
      ({ s with autoPingTimer := timer }.onEvAutoPingNowTimerFired, .event)

/-- The call, or the event, as an input. -/
def toInput : Op → Input
  | .startSendBlobOps => .startSendBlobOps
  | .sendBlob b => .sendBlob b
  | .endSending => .endSending
  | .autoPing period => .autoPing period
  | .writable => .mqWritable
  | .timerFires => .timerFires
  | .timerReadable => .timerReadable

variable {s s' : BlobStreamMqSender} {fs : List Frame} {op : Op} {r : Reply} {ks : List MqAnswer}

/-- To react is to take a step. -/
theorem step_of_react (h : s.react op ks = some (s', r)) :
    ∃ obs, s.step (toInput op) ks = some (s', obs) := by
  unfold react at h
  unfold step
  cases op with
  | startSendBlobOps =>
      cases h
      exact ⟨_, rfl⟩
  | sendBlob b =>
      rcases hcall : (s.withAnswers ks).sendBlob b with ⟨ok, err, t⟩
      simp only [hcall] at h
      cases h
      simp only [toInput, hcall]
      split <;> (rename_i heq; cases heq; exact ⟨_, rfl⟩)
  | endSending =>
      cases h
      exact ⟨_, rfl⟩
  | autoPing period =>
      cases h
      exact ⟨_, rfl⟩
  | writable =>
      simp only at h
      split at h
      · rename_i hw
        cases h
        simp only [toInput, if_pos hw]
        split <;> (rename_i heq; rw [heq]; exact ⟨_, rfl⟩)
      · cases h
  | timerFires =>
      simp only [Option.map_eq_some_iff, toInput] at h ⊢
      obtain ⟨t, hfire, heq⟩ := h
      cases heq
      exact ⟨_, t, hfire, rfl⟩
  | timerReadable =>
      simp only [Option.map_eq_some_iff, toInput] at h ⊢
      obtain ⟨t, htake, heq⟩ := h
      cases heq
      exact ⟨_, t, htake, rfl⟩

/-- What a call or an event is: a step of the machine over messages. -/
structure Acts (s : BlobStreamMqSender) (op : Op) (r : Reply) (s' : BlobStreamMqSender) : Prop where
  step : Step (cellMedium itemEnc) s.mqMaxMsgSz s.view (op, r) s'.view
  idle : r.idle = true → s' = s
  mqMaxMsgSz_eq : s'.mqMaxMsgSz = s.mqMaxMsgSz

/-- Starting the operations is a step of the machine. -/
theorem Inv.acts_start (h : s.Inv fs) :
    Acts s .startSendBlobOps (.returned s.startSendBlobOps.1 none) s.startSendBlobOps.2 := by
  unfold BlobStreamMqSender.startSendBlobOps
  split
  · rename_i hstart
    exact ⟨.startRefused hstart, fun _ => rfl, rfl⟩
  · rename_i hstart
    have hstart : s.started = false := by simpa using hstart
    obtain ⟨-, -, herr, hneg, -⟩ := h.fresh hstart
    -- The version is 1, and it is asked for once.
    have hver : (ProtocolNegotiator.ctor versionOne).localMaxProtoVerForSending.1 = 1 := by decide
    have hnext : (ProtocolNegotiator.ctor versionOne).localMaxProtoVerForSending.2
        |>.localMaxProtoVerForSending.1 = verUnknown := by decide
    rcases hw : s.out.syncWriteOrQCtlCmdImpl (-1) with ⟨fl, out⟩
    simp only [herr, if_true, hneg, hver]
    rw [assert_of (by exact hnext), assert_of (by decide)]
    simp only [hw]
    refine ⟨?_, fun hidle => (by cases hidle), rfl⟩
    rcases Out.put_ctlCmd h.carries.ok herr (f := .version) rfl hw with ⟨-, hput⟩ | ⟨hping, -⟩
    · exact Step.start (M := cellMedium itemEnc) (m := s.view) hstart herr hput
    · cases hping

/-- What is declined is declined in the same words. -/
theorem declined_view (s : BlobStreamMqSender) {b : Blob} :
    s.view.declined s.mqMaxMsgSz b =
      if s.started = false then some (.returned false none)
      else if s.finished = true then some (.returned true Code.sendsFinishedCannotSend.toErrorCode)
      else if s.mqMaxMsgSz < b.length then some (.returned true Code.invalidArgument.toErrorCode)
      else if s.out.pendingErrCode.isSome then some (.returned true s.out.pendingErrCode)
      else none :=
  rfl

/-- Putting off the next ping is the machine's, the assertion apart. -/
theorem view_rescheduleAutoPing (herr : s.out.pendingErrCode = none) (hping : s.autoPingPeriod ≠ 0) :
    s.rescheduleAutoPing.view = s.view.putOff ∧ s.rescheduleAutoPing.mqMaxMsgSz = s.mqMaxMsgSz := by
  have hview : s.view.pinging = true := decide_eq_true hping
  unfold BlobStreamMqSender.rescheduleAutoPing
  simp only
  split
  · rename_i hone
    exact ⟨(Sender.putOff_of_one (m := s.view) herr hview hone).symm, rfl⟩
  · rename_i hne
    exact ⟨(Sender.putOff_of_not_one (m := s.view) herr hview hne).symm, rfl⟩

/-- Sending a blob, or declining it, is a step of the machine. -/
theorem Inv.acts_send (h : s.Inv fs) (b : {b : Blob // b ≠ []}) :
    Acts s (.sendBlob b) (.returned (s.sendBlob b).1 (s.sendBlob b).2.1) (s.sendBlob b).2.2 := by
  rcases hcall : s.sendBlob b with ⟨ok, err, s'⟩
  simp only
  unfold BlobStreamMqSender.sendBlob at hcall
  rw [assert_of (by simpa using b.property)] at hcall
  simp only at hcall
  have hdec := s.declined_view (b := b)
  split at hcall
  · rename_i hstart
    cases hcall
    rw [if_pos hstart] at hdec
    exact ⟨.sendDeclined hdec, fun _ => rfl, rfl⟩
  · rename_i hstart
    rw [if_neg hstart] at hdec
    split at hcall
    · rename_i hfin
      cases hcall
      rw [if_pos hfin] at hdec
      exact ⟨.sendDeclined hdec, fun _ => rfl, rfl⟩
    · rename_i hfin
      rw [if_neg hfin] at hdec
      split at hcall
      · rename_i hlen
        cases hcall
        rw [if_pos hlen] at hdec
        exact ⟨.sendDeclined hdec, fun _ => rfl, rfl⟩
      · rename_i hlen
        rw [if_neg hlen] at hdec
        split at hcall
        · rename_i herr
          cases hcall
          rw [if_pos herr] at hdec
          exact ⟨.sendDeclined hdec, fun _ => rfl, rfl⟩
        · rename_i herr
          rw [if_neg herr] at hdec
          have herr : s.out.pendingErrCode = none := by simpa using herr
          rcases hw : s.out.syncWriteOrQPayload b false with ⟨fl, av, out⟩
          have hput := Out.put_blob h.carries.ok herr hw
          have hidle : Reply.idle (.returned true out.pendingErrCode) = false :=
            (cellMedium itemEnc).put_err hput
          have hstep := Step.send (M := cellMedium itemEnc) (n := s.mqMaxMsgSz) hdec hput
          simp only [hw] at hcall
          -- The ping is put off if the blob was handed over, and there are pings.
          split at hcall
          · rename_i herr'
            cases hcall
            rw [Sender.putOff_of_not] at hstep
            · exact ⟨hstep, fun hi => absurd hi (by simp [hidle]), rfl⟩
            · rintro ⟨hnone, -⟩
              exact Option.ne_none_iff_isSome.mpr herr' hnone
          · rename_i herr'
            have herr' : out.pendingErrCode = none := by simpa using herr'
            split at hcall
            · rename_i hping
              cases hcall
              obtain ⟨hview, hmax⟩ :=
                view_rescheduleAutoPing (s := { s with out := out }) herr' hping
              refine ⟨?_, fun hi => absurd hi (by simp [hidle]), hmax⟩
              rw [hview]
              exact hstep
            · rename_i hping
              cases hcall
              rw [Sender.putOff_of_not] at hstep
              · exact ⟨hstep, fun hi => absurd hi (by simp [hidle]), rfl⟩
              · rintro ⟨-, hon⟩
                exact hping (of_decide_eq_true hon)

/-- The end of sending is a step of the machine. -/
theorem Inv.acts_end (h : s.Inv fs) :
    Acts s .endSending (.returned s.endSending.1 none) s.endSending.2 := by
  rcases hcall : s.asyncEndSendingImpl none with ⟨ok, err, s'⟩
  unfold BlobStreamMqSender.endSending
  rw [hcall]
  simp only
  unfold BlobStreamMqSender.asyncEndSendingImpl at hcall
  split at hcall
  · rename_i hstart
    cases hcall
    exact ⟨.endRefused (.inl hstart), fun _ => rfl, rfl⟩
  · rename_i hstart
    have hstart : s.started = true := by simpa using hstart
    split at hcall
    · rename_i hfin
      cases hcall
      exact ⟨.endRefused (.inr hfin), fun _ => rfl, rfl⟩
    · rename_i hfin
      have hfin : s.finished = false := by simpa using hfin
      simp only at hcall
      split at hcall
      · rename_i herr
        cases hcall
        exact ⟨Step.endLatched (M := cellMedium itemEnc) (m := s.view) hstart hfin herr,
          fun hidle => (by cases hidle), rfl⟩
      · rename_i herr
        have herr : s.out.pendingErrCode = none := by simpa using herr
        rcases hw : s.out.syncWriteOrQCtlCmdImpl ctlEndSending with ⟨fl, out⟩
        have hput : Cells.Put itemEnc s.out.toCells .endSending out.toCells out.pendingErrCode := by
          rcases Out.put_ctlCmd h.carries.ok herr (f := .endSending) rfl hw with
            ⟨-, hput⟩ | ⟨hping, -⟩
          · exact hput
          · cases hping
        have hstep :=
          Step.endSending (M := cellMedium itemEnc) (n := s.mqMaxMsgSz) (m := s.view) hstart hfin herr hput
        simp only [hw, Option.isSome_none, Bool.false_eq_true, and_false, if_false] at hcall
        have hview : s'.view = { s.view.took out.toCells out.pendingErrCode with finished := true } ∧
            s'.mqMaxMsgSz = s.mqMaxMsgSz ∧ ok = true := by
          cases hcall
          split <;> exact ⟨rfl, rfl, rfl⟩
        obtain ⟨hview, hmax, rfl⟩ := hview
        exact ⟨hview ▸ hstep, fun hidle => (by cases hidle), hmax⟩

/-- A ping is tried. -/
theorem Inv.ping (h : s.Inv fs) (herr : s.out.pendingErrCode = none) {fl : Bool} {out : Out}
    (hw : s.out.syncWriteOrQCtlCmdImpl ctlPing = (fl, out)) :
    (cellMedium itemEnc).Ping s.out.toCells out.toCells out.pendingErrCode := by
  rcases Out.put_ctlCmd h.carries.ok herr (f := .ping) rfl hw with ⟨hidle, hput⟩ | ⟨-, heq, herr'⟩
  · exact .put (hidle rfl) hput
  · rw [heq, herr']
    exact .dropped

/-- Asking for pings is a step of the machine. -/
theorem Inv.acts_autoPing (h : s.Inv fs) (period : {n : Nat // 0 < n}) :
    Acts s (.autoPing period) (.returned (s.autoPing period).1 none) (s.autoPing period).2 := by
  have hne : decide (period.val ≠ 0) = true := decide_eq_true (Nat.pos_iff_ne_zero.mp period.property)
  unfold BlobStreamMqSender.autoPing
  rw [assert_of period.property]
  simp only
  split
  · rename_i hstart
    exact ⟨.pingRefused (.inl hstart), fun _ => rfl, rfl⟩
  · rename_i hstart
    have hstart : s.started = true := by simpa using hstart
    split
    · rename_i hfin
      exact ⟨.pingRefused (.inr (.inl hfin)), fun _ => rfl, rfl⟩
    · rename_i hfin
      have hfin : s.finished = false := by simpa using hfin
      split
      · rename_i hping
        exact ⟨.pingRefused (.inr (.inr (decide_eq_true hping))), fun _ => rfl, rfl⟩
      · rename_i hping
        have hping : s.view.pinging = false := decide_eq_false hping
        split
        · rename_i herr
          refine ⟨?_, fun hidle => (by cases hidle), rfl⟩
          have hstep := Step.pingLatched (M := cellMedium itemEnc) (n := s.mqMaxMsgSz) (m := s.view)
            (p := period) hstart hfin hping herr
          unfold view
          rw [hne]
          exact hstep
        · rename_i herr
          have herr : s.out.pendingErrCode = none := by simpa using herr
          rcases hw : s.out.syncWriteOrQCtlCmdImpl ctlPing with ⟨fl, out⟩
          have hstep := Step.ping (M := cellMedium itemEnc) (n := s.mqMaxMsgSz) (m := s.view)
            (p := period) hstart hfin hping herr (h.ping herr hw)
          simp only
          split
          · rename_i herr'
            refine ⟨?_, fun hidle => (by cases hidle), rfl⟩
            rw [Sender.schedule_of_isSome herr'] at hstep
            unfold view
            rw [hne]
            exact hstep
          · rename_i herr'
            have herr' : out.pendingErrCode = none := by simpa using herr'
            refine ⟨?_, fun hidle => (by cases hidle), rfl⟩
            rw [Sender.schedule_of_none herr'] at hstep
            unfold view
            rw [hne]
            exact hstep

/-- A ping that is due is a step of the machine. -/
theorem Inv.acts_due (h : s.Inv fs) {t : Timer} (ht : s.autoPingTimer.takeEvent = some t) :
    Acts s .timerReadable .event { s with autoPingTimer := t }.onEvAutoPingNowTimerFired := by
  unfold BlobStreamMqSender.onEvAutoPingNowTimerFired
  simp only
  split
  · rename_i herr
    exact ⟨Step.dueLatched (M := cellMedium itemEnc) (m := s.view) ht (.inl herr),
      fun hidle => (by cases hidle), rfl⟩
  · rename_i herr
    have herr : s.out.pendingErrCode = none := by simpa using herr
    split
    · rename_i hfin
      exact ⟨Step.dueLatched (M := cellMedium itemEnc) (m := s.view) ht (.inr hfin),
        fun hidle => (by cases hidle), rfl⟩
    · rename_i hfin
      have hfin : s.finished = false := by simpa using hfin
      rcases hw : s.out.syncWriteOrQCtlCmdImpl ctlPing with ⟨fl, out⟩
      have hstep := Step.due (M := cellMedium itemEnc) (n := s.mqMaxMsgSz) (m := s.view) ht hfin herr
        (h.ping herr hw)
      split
      · rename_i herr'
        refine ⟨?_, fun hidle => (by cases hidle), rfl⟩
        rw [Sender.schedule_of_isSome herr'] at hstep
        exact hstep
      · rename_i herr'
        have herr' : out.pendingErrCode = none := by simpa using herr'
        refine ⟨?_, fun hidle => (by cases hidle), rfl⟩
        rw [Sender.schedule_of_none herr'] at hstep
        exact hstep

/-- What is done when the queue is writable is a step of the machine. -/
theorem Inv.acts_writable (h : s.Inv fs) (hw : 0 < s.out.evWaits) :
    Acts s .writable .event
      { s with out := { s.out with evWaits := s.out.evWaits - 1 } }.onEvMqWritable.1 := by
  obtain ⟨herr, hq, -⟩ := h.of_evWaits hw
  rcases hd : Out.drain s.out.mq s.out.pendingPayloadsQ with ⟨mq, q, err⟩
  have hstep := Step.flush (M := cellMedium itemEnc) (n := s.mqMaxMsgSz) (m := s.view) hq herr
    (Out.flush_drain hd)
  rcases hcall : BlobStreamMqSender.onEvMqWritable
    { s with out := { s.out with evWaits := s.out.evWaits - 1 } } with ⟨s', r⟩
  have hview : s'.view = s.view.took ⟨mq.sent, q⟩ err ∧ s'.mqMaxMsgSz = s.mqMaxMsgSz := by
    unfold BlobStreamMqSender.onEvMqWritable at hcall
    rw [assert_of (by exact hq)] at hcall
    simp only at hcall
    rw [assert_of (by exact herr)] at hcall
    simp only [hd] at hcall
    -- Whether a handler is invoked makes no difference to the rest.
    split_ifs at hcall <;> split at hcall <;> (cases hcall; exact ⟨rfl, rfl⟩)
  exact ⟨hview.1 ▸ hstep, fun hidle => (by cases hidle), hview.2⟩

/-- Every call and every event is a step of the machine. -/
theorem Inv.acts (h : s.Inv fs) (hreact : s.react op ks = some (s', r)) :
    Acts (s.withAnswers ks) op r s' := by
  have hu := h.withAnswers ks
  unfold react at hreact
  generalize s.withAnswers ks = u at hu hreact ⊢
  cases op with
  | startSendBlobOps =>
      cases hreact
      exact hu.acts_start
  | sendBlob b =>
      cases hreact
      exact hu.acts_send b
  | endSending =>
      cases hreact
      exact hu.acts_end
  | autoPing period =>
      cases hreact
      exact hu.acts_autoPing period
  | writable =>
      simp only at hreact
      split at hreact
      · rename_i hw
        cases hreact
        exact hu.acts_writable hw
      · cases hreact
  | timerFires =>
      simp only [Option.map_eq_some_iff] at hreact
      obtain ⟨t, hfire, heq⟩ := hreact
      cases heq
      exact ⟨Step.timerFires (M := cellMedium itemEnc) (m := u.view) hfire,
        fun hidle => (by cases hidle), rfl⟩
  | timerReadable =>
      simp only [Option.map_eq_some_iff] at hreact
      obtain ⟨t, htake, heq⟩ := hreact
      cases heq
      exact hu.acts_due htake

/-! ## After a constructor that failed -/

variable {mq : Mq} {n : Nat} {e : Err}

/-- Sending is started, and nothing is sent. -/
theorem Dead.acts_start (h : s.Dead mq n e) :
    Acts s .startSendBlobOps (.returned s.startSendBlobOps.1 none) s.startSendBlobOps.2 := by
  have herr : s.view.latched.isSome := h.isSome
  unfold BlobStreamMqSender.startSendBlobOps
  split
  · rename_i hstart
    exact ⟨.startRefused hstart, fun _ => rfl, rfl⟩
  · rename_i hstart
    have hstart : s.view.started = false := Bool.eq_false_of_not_eq_true hstart
    simp only [h.err_eq, reduceCtorEq, if_false]
    exact ⟨Step.startLatched (M := cellMedium itemEnc) hstart herr, fun hidle => (by cases hidle), rfl⟩

/-- Every blob is declined, at the latest for the error. -/
theorem Dead.acts_send (h : s.Dead mq n e) (b : {b : Blob // b ≠ []}) :
    Acts s (.sendBlob b) (.returned (s.sendBlob b).1 (s.sendBlob b).2.1) (s.sendBlob b).2.2 := by
  have hdec := s.declined_view (b := b)
  rw [h.err_eq] at hdec
  have hdec : s.view.declined s.mqMaxMsgSz b = some (.returned (s.sendBlob b).1 (s.sendBlob b).2.1) := by
    rw [hdec, h.reports.sendBlob b]
    split
    · rfl
    · split
      · rfl
      · split <;> rfl
  rw [h.sendBlob b]
  exact ⟨Step.sendDeclined (M := cellMedium itemEnc) hdec, fun _ => rfl, rfl⟩

/-- The sending is ended without a graceful close. -/
theorem Dead.acts_end (h : s.Dead mq n e) :
    Acts s .endSending (.returned s.endSending.1 none) s.endSending.2 := by
  have herr : s.view.latched.isSome := h.isSome
  unfold BlobStreamMqSender.endSending BlobStreamMqSender.asyncEndSendingImpl
  simp only [h.isSome, if_true]
  split
  · rename_i hstart
    exact ⟨.endRefused (.inl hstart), fun _ => rfl, rfl⟩
  · rename_i hstart
    have hstart : s.view.started = true := Bool.eq_true_of_not_eq_false hstart
    split
    · rename_i hfin
      exact ⟨.endRefused (.inr hfin), fun _ => rfl, rfl⟩
    · rename_i hfin
      have hfin : s.view.finished = false := Bool.eq_false_of_not_eq_true hfin
      exact ⟨Step.endLatched (M := cellMedium itemEnc) hstart hfin herr, fun hidle => (by cases hidle), rfl⟩

/-- Pings are asked for, and there are none. -/
theorem Dead.acts_autoPing (h : s.Dead mq n e) (period : {n : Nat // 0 < n}) :
    Acts s (.autoPing period) (.returned (s.autoPing period).1 none) (s.autoPing period).2 := by
  have herr : s.view.latched.isSome := h.isSome
  have hne : decide (period.val ≠ 0) = true := decide_eq_true (Nat.pos_iff_ne_zero.mp period.property)
  unfold BlobStreamMqSender.autoPing
  rw [assert_of period.property]
  simp only [h.isSome, if_true]
  split
  · rename_i hstart
    exact ⟨.pingRefused (.inl hstart), fun _ => rfl, rfl⟩
  · rename_i hstart
    have hstart : s.view.started = true := Bool.eq_true_of_not_eq_false hstart
    split
    · rename_i hfin
      exact ⟨.pingRefused (.inr (.inl hfin)), fun _ => rfl, rfl⟩
    · rename_i hfin
      have hfin : s.view.finished = false := Bool.eq_false_of_not_eq_true hfin
      split
      · rename_i hping
        exact ⟨.pingRefused (.inr (.inr (decide_eq_true hping))), fun _ => rfl, rfl⟩
      · rename_i hping
        have hping : s.view.pinging = false := decide_eq_false hping
        refine ⟨?_, fun hidle => (by cases hidle), rfl⟩
        have hstep := Step.pingLatched (M := cellMedium itemEnc) (n := s.mqMaxMsgSz) (m := s.view)
          (p := period) hstart hfin hping herr
        unfold view
        rw [hne]
        exact hstep

/-- Every call is a step of the machine, and there are no events. -/
theorem Dead.acts (h : s.Dead mq n e) (hreact : s.react op ks = some (s', r)) :
    Acts (s.withAnswers ks) op r s' := by
  have hu := h.withAnswers ks
  unfold react at hreact
  generalize s.withAnswers ks = u at hu hreact ⊢
  cases op with
  | startSendBlobOps =>
      cases hreact
      exact hu.acts_start
  | sendBlob b =>
      cases hreact
      exact hu.acts_send b
  | endSending =>
      cases hreact
      exact hu.acts_end
  | autoPing period =>
      cases hreact
      exact hu.acts_autoPing period
  | writable =>
      simp only [hu.evWaits_eq, Nat.lt_irrefl, if_false] at hreact
      cases hreact
  | timerFires =>
      simp only [hu.timer_eq] at hreact
      cases hreact
  | timerReadable =>
      simp only [hu.timer_eq] at hreact
      cases hreact

end BlobStreamMqSender

end FlowIpc.MqStream
