import FlowIpc.MqStream.Frames

/-!
# The sender keeps its frames in order

`Inv s fs`: the sender `s` has been told to send the frames `fs`, in that order, the version first
and the graceful close last if at all, and its queue carries them. Every step keeps this, for the
frames there were and at most the one that the step's input is about (`Inv.step`). No assertion of
the sender fails in such a state (`Inv.noFailure`).
-/

namespace FlowIpc.MqStream.BlobStreamMqSender

open Negotiation PrefixCode

/-- The sender `s` has been told to send the frames `fs`. -/
structure Inv (s : BlobStreamMqSender) (fs : List Frame) : Prop where
  carries : s.out.Carries fs
  timer : s.autoPingTimer.Ok
  /-- Nothing is scheduled before `auto_ping()`. -/
  timer_off : s.autoPingPeriod = 0 → s.autoPingTimer.evWaits = 0
  fresh : s.started = false → fs = [] ∧ s.finished = false ∧ s.out.pendingErrCode = none ∧
    s.protocolNegotiator = .ctor versionOne ∧ s.autoPingPeriod = 0
  begun : s.started = true → ∃ gs, fs = .version :: gs ∧ .version ∉ gs
  ended : .endSending ∈ fs → s.finished = true
  last : .endSending ∉ fs.dropLast
  /-- A handler waits only for payloads that are queued, the graceful close among them. -/
  pending : s.pendingOnLastSendDoneFunc.isSome → s.finished = true ∧ s.out.pendingErrCode = none ∧
    s.out.pendingPayloadsQ ≠ []

variable {s s' : BlobStreamMqSender} {fs : List Frame}

/-- No assertion has failed. -/
theorem Inv.noFailure (h : s.Inv fs) : s.out.assertFailed = false :=
  h.carries.ok.noFailure

/-- A sender that has just been constructed has been told nothing. -/
theorem inv_ctor {mq : Mq} (hsent : mq.sent = []) : (ctor mq).Inv [] where
  carries := by
    apply Out.carries_of_handed ⟨rfl, by simp [ctor], rfl⟩
    simp [ctor, Out.handed, hsent]
  timer := Timer.ok_inactive
  timer_off _ := rfl
  fresh _ := ⟨rfl, rfl, rfl, rfl, rfl⟩
  begun h := by cases h
  ended h := by simp at h
  last := by simp
  pending h := by cases h

/-- A sender that has been told to stop has no handler, or one that waits for the queue. -/
theorem Inv.pending_eq_none (h : s.Inv fs) (hfin : s.finished = false) :
    s.pendingOnLastSendDoneFunc = none := by
  cases hp : s.pendingOnLastSendDoneFunc with
  | none => rfl
  | some f =>
      have hpend := h.pending (by rw [hp]; rfl)
      rw [hfin] at hpend
      exact absurd hpend.1 (by simp)

/-- Before the end of sending no frame is the graceful close. -/
theorem Inv.end_not_mem (h : s.Inv fs) (hfin : s.finished = false) : .endSending ∉ fs := by
  intro hmem
  have := h.ended hmem
  rw [hfin] at this
  cases this

/-- The answers to come are no part of it. -/
theorem Inv.withAnswers (h : s.Inv fs) (ks : List MqAnswer) : (s.withAnswers ks).Inv fs where
  carries := ⟨⟨h.carries.ok.noFailure, h.carries.ok.genuine, h.carries.ok.evWaits_eq⟩,
    h.carries.sent_prefix, h.carries.handed_eq⟩
  timer := h.timer
  timer_off := h.timer_off
  fresh := h.fresh
  begun := h.begun
  ended := h.ended
  last := h.last
  pending := h.pending

/-! ## One more frame -/

/-- A frame other than the version and the close is written by a sender that has been started and has
not finished. -/
theorem Inv.write {out : Out} (h : s.Inv fs) (hstart : s.started = true) (hfin : s.finished = false)
    {f : Frame} (hf : f ≠ .version) (hf' : f ≠ .endSending) (hc : out.Carries (fs ++ [f])) :
    ({ s with out := out } : BlobStreamMqSender).Inv (fs ++ [f]) where
  carries := hc
  timer := h.timer
  timer_off := h.timer_off
  fresh hs := by
    rw [hstart] at hs
    cases hs
  begun _ := by
    obtain ⟨gs, rfl, hgs⟩ := h.begun hstart
    refine ⟨gs ++ [f], by simp, ?_⟩
    simp [hgs, hf.symm]
  ended hmem := by
    apply absurd hmem
    simp [h.end_not_mem hfin, hf'.symm]
  last := by
    rw [List.dropLast_concat]
    exact h.end_not_mem hfin
  pending hp := by
    rw [h.pending_eq_none hfin] at hp
    cases hp

/-- What was told does not change with the low-level state that carries it, nor with a handler that is
invoked or still has something to wait for. -/
theorem Inv.setOut {out : Out} (h : s.Inv fs) (hstart : s.started = true) (hc : out.Carries fs)
    (g : Option Nat) (hg : g.isSome → s.finished = true ∧ out.pendingErrCode = none ∧
      out.pendingPayloadsQ ≠ []) :
    ({ s with out := out, pendingOnLastSendDoneFunc := g } : BlobStreamMqSender).Inv fs where
  carries := hc
  timer := h.timer
  timer_off := h.timer_off
  fresh hs := by
    rw [hstart] at hs
    cases hs
  begun := h.begun
  ended := h.ended
  last := h.last
  pending := hg

/-- A write that adds no frame leaves the rest as it was. -/
theorem Inv.drop {out : Out} (h : s.Inv fs) (hstart : s.started = true) (hfin : s.finished = false)
    (hc : out.Carries fs) : ({ s with out := out } : BlobStreamMqSender).Inv fs := by
  apply h.setOut hstart hc
  intro hp
  rw [h.pending_eq_none hfin] at hp
  cases hp

/-- The timer can be anything sound, and on only after `auto_ping()`. -/
theorem Inv.setTimer (h : s.Inv fs) {t : Timer} (ht : t.Ok)
    (hoff : s.autoPingPeriod = 0 → t.evWaits = 0) :
    ({ s with autoPingTimer := t } : BlobStreamMqSender).Inv fs :=
  { h with timer := ht, timer_off := hoff }

/-! ## Operations -/

/-- What a step does to a sender that has been told the frames `fs`: it tells it no more, or one
more, which is then `f`. -/
def Tells (s : BlobStreamMqSender) (fs : List Frame) (f : Frame) (s' : BlobStreamMqSender) : Prop :=
  s.out.Extends s'.out ∧ (s'.Inv fs ∨ s'.Inv (fs ++ [f]))

/-- Where nothing is written the queue stays as it is. -/
theorem Inv.extends_refl (h : s.Inv fs) : s.out.Extends s.out :=
  ⟨h.carries.ok, rfl, rfl, List.prefix_rfl⟩

/-- Sends are accepted: started, not finished, no error. -/
structure Sending (s : BlobStreamMqSender) : Prop where
  started : s.started = true
  notFinished : s.finished = false
  noError : s.out.pendingErrCode = none

/-- Starting the operations tells the version. -/
theorem Inv.startSendBlobOps (h : s.Inv fs) : s.Tells fs .version s.startSendBlobOps.2 := by
  unfold BlobStreamMqSender.startSendBlobOps
  split
  · exact ⟨h.extends_refl, .inl h⟩
  · rename_i hstart
    have hstart : s.started = false := by simpa using hstart
    obtain ⟨rfl, hfin, herr, hneg, -⟩ := h.fresh hstart
    -- The version is 1, and it is asked for once.
    have hver : (ProtocolNegotiator.ctor versionOne).localMaxProtoVerForSending.1 = 1 := by decide
    have hnext : (ProtocolNegotiator.ctor versionOne).localMaxProtoVerForSending.2
        |>.localMaxProtoVerForSending.1 = verUnknown := by decide
    rcases hw : s.out.syncWriteOrQCtlCmdImpl (-1) with ⟨fl, out⟩
    obtain ⟨hext, hcases⟩ := h.carries.ctlCmd herr (f := .version) rfl hw
    have hcarries : out.Carries [.version] := by
      rcases hcases with ⟨hcarries, -⟩ | ⟨hping, -⟩
      · exact hcarries
      · cases hping
    simp only [herr, if_true, hneg, hver]
    rw [assert_of (by exact hnext), assert_of (by decide)]
    simp only [hw]
    refine ⟨hext, .inr ?_⟩
    exact {
      carries := hcarries
      timer := h.timer
      timer_off := h.timer_off
      fresh := fun hs => by cases hs
      begun := fun _ => ⟨[], rfl, by simp⟩
      ended := fun hmem => by simp at hmem
      last := by simp
      pending := fun hp => by
        rw [h.pending_eq_none hfin] at hp
        cases hp }

/-- What `send_blob()` does: it refuses and changes nothing, or it writes. -/
theorem sendBlob_cases {b : Blob} (hb : b ≠ []) {ok : Bool} {err : ErrorCode}
    (h : s.sendBlob b = (ok, err, s')) :
    (¬ (ok = true ∧ err = none) ∧ s' = s) ∨
      (s.Sending ∧ ok = true ∧ ∃ out, (s.out.syncWriteOrQPayload b false).2.2 = out ∧
        err = out.pendingErrCode ∧
        (s' = { s with out := out } ∨ s' = { s with out := out }.rescheduleAutoPing)) := by
  unfold sendBlob at h
  rw [assert_of (by simpa using hb)] at h
  simp only at h
  split at h
  · cases h
    exact .inl ⟨by simp, rfl⟩
  · rename_i hstart
    split at h
    · cases h
      exact .inl ⟨by simp, rfl⟩
    · rename_i hfin
      split at h
      · cases h
        exact .inl ⟨by simp, rfl⟩
      · split at h
        · rename_i herr
          cases h
          exact .inl ⟨fun hacc => by simp [hacc.2] at herr, rfl⟩
        · rename_i herr
          have hsending : s.Sending := ⟨by simpa using hstart, by simpa using hfin, by simpa using herr⟩
          rcases hw : s.out.syncWriteOrQPayload b false with ⟨fl, av, out⟩
          simp only [hw] at h
          split at h
          · cases h
            exact .inr ⟨hsending, rfl, out, rfl, rfl, .inl rfl⟩
          · split at h
            · cases h
              exact .inr ⟨hsending, rfl, out, rfl, rfl, .inr rfl⟩
            · cases h
              exact .inr ⟨hsending, rfl, out, rfl, rfl, .inl rfl⟩

/-- A timer in order, if it is rescheduled, is as it was. -/
theorem rescheduleAutoPing_eq (ht : s.autoPingTimer.Ok) : s.rescheduleAutoPing = s := by
  unfold BlobStreamMqSender.rescheduleAutoPing
  have hle := Timer.expiresAfter_le_one ht
  dsimp only
  split
  · rename_i hone
    rw [ht.rewait_eq hone]
  · rename_i hne
    have hzero : s.autoPingTimer.expiresAfter.1 = 0 := by omega
    rw [assert_of hzero, Timer.expiresAfter_of_zero hzero]

/-- A blob is told if the call returns no error, and only then. -/
theorem Inv.sendBlob (h : s.Inv fs) (b : {b : Blob // b ≠ []}) {ok : Bool} {err : ErrorCode}
    (hcall : s.sendBlob b = (ok, err, s')) :
    s.out.Extends s'.out ∧
      ((ok = true ∧ err = none ∧ s'.Inv (fs ++ [.blob b])) ∨
        (¬ (ok = true ∧ err = none) ∧ s'.Inv fs)) := by
  rcases sendBlob_cases b.property hcall with ⟨hrefused, rfl⟩ | ⟨hopen, rfl, out, hout, rfl, hs'⟩
  · exact ⟨h.extends_refl, .inr ⟨hrefused, h⟩⟩
  · rcases hw : s.out.syncWriteOrQPayload b false with ⟨fl, av, out'⟩
    obtain rfl : out' = out := by rw [← hout, hw]
    obtain ⟨hext, hcases⟩ := h.carries.blob hopen.noError hw
    -- Rescheduling the ping changes nothing of this.
    have hresched : ∀ {gs : List Frame}, ({ s with out := out' } : BlobStreamMqSender).Inv gs →
        s'.Inv gs ∧ s'.out = out' := by
      intro gs hinv
      rcases hs' with rfl | rfl
      · exact ⟨hinv, rfl⟩
      · rw [rescheduleAutoPing_eq hinv.timer]
        exact ⟨hinv, rfl⟩
    rcases hcases with ⟨herr, hcarries⟩ | ⟨herr, hcarries⟩
    · obtain ⟨hinv, heq⟩ := hresched (h.drop hopen.started hopen.notFinished hcarries)
      refine ⟨by rw [heq]; exact hext, .inr ⟨?_, hinv⟩⟩
      rintro ⟨-, hnone⟩
      simp [hnone] at herr
    · obtain ⟨hinv, heq⟩ := hresched (h.write hopen.started hopen.notFinished (by simp) (by simp)
        hcarries)
      exact ⟨by rw [heq]; exact hext, .inl ⟨rfl, herr, hinv⟩⟩

/-- The four things that a call of `*end_sending()` can come to. -/
inductive EndOutcome (s : BlobStreamMqSender) (fs : List Frame) (onDoneFunc : Option Nat)
    (ok : Bool) (err : ErrorCode) (s' : BlobStreamMqSender) : Prop where
  /-- Sending has not been started, or has been finished already. -/
  | refused (ok : ok = false) (err : err = none) (state : s' = s)
      (why : s.started = false ∨ s.finished = true)
  /-- An error is known, or is found out. -/
  | failed (open' : s.started = true ∧ s.finished = false) (ok : ok = true)
      (err : err.isSome ∧ err = s'.out.pendingErrCode)
      (inv : s'.Inv fs ∨ s'.Inv (fs ++ [.endSending])) (finished : s'.finished = true)
      (handler : s'.pendingOnLastSendDoneFunc = none)
  /-- Everything was sent, the graceful close included. -/
  | flushed (open' : s.started = true ∧ s.finished = false) (ok : ok = true) (err : err = none)
      (inv : s'.Inv (fs ++ [.endSending]))
      (sent : s'.out.pendingErrCode = none ∧ s'.out.pendingPayloadsQ = [])
      (finished : s'.finished = true) (handler : s'.pendingOnLastSendDoneFunc = none)
  /-- Something is queued, and the handler waits for it. -/
  | pending (open' : s.started = true ∧ s.finished = false) (ok : ok = true) (err : err = wouldBlock)
      (inv : s'.Inv (fs ++ [.endSending])) (finished : s'.finished = true)
      (handler : s'.pendingOnLastSendDoneFunc = onDoneFunc)

/-- The graceful close is written by a sender that has not finished, and finishes it. -/
theorem Inv.writeEnd {out : Out} (h : s.Inv fs) (hstart : s.started = true)
    (hfin : s.finished = false) (hc : out.Carries (fs ++ [.endSending])) (g : Option Nat)
    (hg : g.isSome → out.pendingErrCode = none ∧ out.pendingPayloadsQ ≠ []) :
    ({ s with finished := true, out := out, pendingOnLastSendDoneFunc := g } :
      BlobStreamMqSender).Inv (fs ++ [.endSending]) where
  carries := hc
  timer := h.timer
  timer_off := h.timer_off
  fresh hs := by
    rw [hstart] at hs
    cases hs
  begun _ := by
    obtain ⟨gs, rfl, hgs⟩ := h.begun hstart
    exact ⟨gs ++ [.endSending], by simp, by simp [hgs]⟩
  ended _ := rfl
  last := by
    rw [List.dropLast_concat]
    exact h.end_not_mem hfin
  pending hp := ⟨rfl, hg hp⟩

/-- The end of sending is told, unless it is refused or there is an error. -/
theorem Inv.asyncEndSendingImpl (h : s.Inv fs) {onDoneFunc : Option Nat} {ok : Bool}
    {err : ErrorCode} (hcall : s.asyncEndSendingImpl onDoneFunc = (ok, err, s')) :
    s.out.Extends s'.out ∧ EndOutcome s fs onDoneFunc ok err s' := by
  unfold BlobStreamMqSender.asyncEndSendingImpl at hcall
  split at hcall
  · rename_i hstart
    cases hcall
    exact ⟨h.extends_refl, .refused rfl rfl rfl (.inl hstart)⟩
  · rename_i hstart
    have hstart : s.started = true := by simpa using hstart
    split at hcall
    · rename_i hfin
      cases hcall
      exact ⟨h.extends_refl, .refused rfl rfl rfl (.inr hfin)⟩
    · rename_i hfin
      have hfin : s.finished = false := by simpa using hfin
      have hnone := h.pending_eq_none hfin
      simp only at hcall
      split at hcall
      · rename_i herr
        cases hcall
        have hinv : ({ s with finished := true } : BlobStreamMqSender).Inv fs := {
          carries := h.carries
          timer := h.timer
          timer_off := h.timer_off
          fresh := fun hs => by
            rw [hstart] at hs
            cases hs
          begun := h.begun
          ended := fun _ => rfl
          last := h.last
          pending := fun hp => by
            rw [hnone] at hp
            cases hp }
        exact ⟨h.extends_refl, .failed ⟨hstart, hfin⟩ rfl ⟨herr, rfl⟩ (.inl hinv) rfl hnone⟩
      · rename_i herr
        have herr : s.out.pendingErrCode = none := by simpa using herr
        rcases hw : s.out.syncWriteOrQCtlCmdImpl ctlEndSending with ⟨fl, out⟩
        obtain ⟨hext, hcases⟩ := h.carries.ctlCmd herr (f := .endSending) rfl hw
        obtain ⟨hcarries, hqd⟩ : out.Carries (fs ++ [.endSending]) ∧
            (fl = false ↔ out.pendingErrCode = none ∧ out.pendingPayloadsQ ≠ []) := by
          rcases hcases with hc | ⟨hping, -⟩
          · exact hc
          · cases hping
        simp only [hw] at hcall
        cases fl with
        | false =>
            obtain ⟨herr', hq'⟩ := hqd.mp rfl
            have hinv := h.writeEnd hstart hfin hcarries onDoneFunc fun _ => ⟨herr', hq'⟩
            cases onDoneFunc with
            | none =>
                simp [herr'] at hcall
                obtain ⟨rfl, rfl, rfl⟩ := hcall
                rw [← hnone] at hinv
                exact ⟨hext, .pending ⟨hstart, hfin⟩ rfl rfl hinv rfl hnone⟩
            | some f =>
                simp [herr', assert_of hnone] at hcall
                obtain ⟨rfl, rfl, rfl⟩ := hcall
                exact ⟨hext, .pending ⟨hstart, hfin⟩ rfl rfl hinv rfl rfl⟩
        | true =>
            have hinv := h.writeEnd hstart hfin hcarries none fun hp => by cases hp
            rw [← hnone] at hinv
            simp at hcall
            obtain ⟨rfl, rfl, rfl⟩ := hcall
            cases herr' : out.pendingErrCode with
            | none =>
                have hq' : out.pendingPayloadsQ = [] := by simpa [herr'] using hqd
                exact ⟨hext, .flushed ⟨hstart, hfin⟩ rfl rfl hinv ⟨herr', hq'⟩ rfl hnone⟩
            | some e =>
                exact ⟨hext, .failed ⟨hstart, hfin⟩ rfl ⟨rfl, herr'.symm⟩ (.inr hinv) rfl hnone⟩

/-- A ping that is written, or dropped, or whose write fails. -/
theorem Inv.writePing (h : s.Inv fs) (hs : s.Sending) {fl : Bool} {out : Out}
    (hw : s.out.syncWriteOrQCtlCmdImpl ctlPing = (fl, out)) :
    s.Tells fs .ping { s with out := out } := by
  obtain ⟨hext, hcases⟩ := h.carries.ctlCmd hs.noError (f := .ping) rfl hw
  refine ⟨hext, ?_⟩
  rcases hcases with ⟨hcarries, -⟩ | ⟨-, hcarries, -⟩
  · exact .inr (h.write hs.started hs.notFinished (by simp) (by simp) hcarries)
  · exact .inl (h.drop hs.started hs.notFinished hcarries)

/-- What a step tells does not depend on the timer it leaves behind. -/
theorem Tells.setTimer {f : Frame} (h : s.Tells fs f s') {t : Timer} (ht : t.Ok)
    (hoff : s'.autoPingPeriod = 0 → t.evWaits = 0) :
    s.Tells fs f { s' with autoPingTimer := t } := by
  obtain ⟨hext, h | h⟩ := h
  · exact ⟨hext, .inl (h.setTimer ht hoff)⟩
  · exact ⟨hext, .inr (h.setTimer ht hoff)⟩

/-- Asking for pings tells one. -/
theorem Inv.autoPing (h : s.Inv fs) (period : {n : Nat // 0 < n}) :
    s.Tells fs .ping (s.autoPing period).2 := by
  have hne : period.val ≠ 0 := by
    have := period.property
    omega
  unfold BlobStreamMqSender.autoPing
  rw [assert_of period.property]
  simp only
  split
  · exact ⟨h.extends_refl, .inl h⟩
  · rename_i hstart
    split
    · exact ⟨h.extends_refl, .inl h⟩
    · rename_i hfin
      split
      · exact ⟨h.extends_refl, .inl h⟩
      · rename_i hperiod
        have hzero := h.timer_off (by simpa using hperiod)
        let t : BlobStreamMqSender := { s with autoPingPeriod := period }
        have ht : t.Inv fs := {
          h with
          timer_off := fun h₀ => absurd h₀ hne
          fresh := fun h₀ => absurd h₀ hstart }
        split
        · exact ⟨h.extends_refl, .inl ht⟩
        · rename_i herr
          have hsending : t.Sending :=
            ⟨by simpa using hstart, by simpa using hfin, by simpa using herr⟩
          rcases hw : s.out.syncWriteOrQCtlCmdImpl ctlPing with ⟨fl, out⟩
          have htells := ht.writePing hsending hw
          change s.Tells fs .ping _ at htells
          simp only
          split
          · exact htells
          · exact htells.setTimer (h.timer.schedule hzero) fun h₀ => absurd h₀ hne

/-- A ping that is due is told. -/
theorem Inv.onEvAutoPingNowTimerFired (h : s.Inv fs) {t : Timer}
    (ht : s.autoPingTimer.takeEvent = some t) :
    s.Tells fs .ping { s with autoPingTimer := t }.onEvAutoPingNowTimerFired := by
  obtain ⟨hok, hzero⟩ := h.timer.takeEvent ht
  let u : BlobStreamMqSender := { s with autoPingTimer := t.consumeTimerFiringSignal }
  have hu : u.Inv fs := h.setTimer hok fun _ => hzero
  -- Pings are scheduled after `auto_ping()` only, so that one is pending says that it was called.
  have hperiod : s.autoPingPeriod ≠ 0 := by
    intro h₀
    have hoff := h.timer_off h₀
    unfold Timer.takeEvent at ht
    rw [if_neg (by omega)] at ht
    cases ht
  unfold BlobStreamMqSender.onEvAutoPingNowTimerFired
  simp only
  split
  · exact ⟨h.extends_refl, .inl hu⟩
  · rename_i herr
    split
    · exact ⟨h.extends_refl, .inl hu⟩
    · rename_i hfin
      have hstart : s.started = true := by
        by_contra hs
        exact hperiod (h.fresh (by simpa using hs)).2.2.2.2
      have hsending : u.Sending := ⟨hstart, by simpa using hfin, by simpa using herr⟩
      rcases hw : s.out.syncWriteOrQCtlCmdImpl ctlPing with ⟨fl, out⟩
      have htells := hu.writePing hsending hw
      change s.Tells fs .ping _ at htells
      simp only
      split
      · exact htells
      · exact htells.setTimer (hok.schedule hzero) fun h₀ => absurd h₀ hperiod

/-- What the writable event does to the handler of `async_end_sending()`. -/
inductive WritableOutcome (s s' : BlobStreamMqSender) : Option (Nat × ErrorCode) → Prop where
  /-- It is not invoked: there is none, or there is still something to send. -/
  | silent (handler : s'.pendingOnLastSendDoneFunc = s.pendingOnLastSendDoneFunc) :
      WritableOutcome s s' none
  /-- It is invoked with the error found, or once all is sent. -/
  | invoked (f : Nat) (err : ErrorCode) (before : s.pendingOnLastSendDoneFunc = some f)
      (after : s'.pendingOnLastSendDoneFunc = none) (code : err = s'.out.pendingErrCode)
      (sent : err = none → s'.out.pendingPayloadsQ = []) : WritableOutcome s s' (some (f, err))

/-- The event is waited for only while something is queued and no error is known. -/
theorem Inv.of_evWaits (h : s.Inv fs) (hw : 0 < s.out.evWaits) :
    s.out.pendingErrCode = none ∧ s.out.pendingPayloadsQ ≠ [] ∧ s.out.evWaits = 1 := by
  have heq := h.carries.ok.evWaits_eq
  split at heq
  · rename_i hboth
    exact ⟨hboth.1, hboth.2, heq⟩
  · omega

/-- When the queue is writable nothing new is told. -/
theorem Inv.onEvMqWritable (h : s.Inv fs) (hw : 0 < s.out.evWaits) {r : Option (Nat × ErrorCode)}
    (hcall : { s with out := { s.out with evWaits := s.out.evWaits - 1 } }.onEvMqWritable =
      (s', r)) :
    s.out.Extends s'.out ∧ s'.Inv fs ∧ s'.finished = s.finished ∧ WritableOutcome s s' r := by
  obtain ⟨herr, hq, hone⟩ := h.of_evWaits hw
  have hhanded := h.carries.handed_eq herr
  rcases hd : Out.drain s.out.mq s.out.pendingPayloadsQ with ⟨mq, q, err⟩
  obtain ⟨hmax, hrcvd, hpre, hmsgs, hleft, hgen⟩ := Out.drain_cases hd
  rw [Out.handed, ← hmsgs] at hhanded
  -- Whatever follows, the messages stay in order.
  have hcarries : ∀ out : Out, out.Ok → out.mq = mq → out.pendingPayloadsQ = q →
      s.out.Extends out ∧ out.Carries fs := by
    intro out hok hmq hqq
    refine ⟨⟨hok, by rw [hmq, hmax], by rw [hmq, hrcvd], by rw [hmq]; exact hpre⟩, ?_⟩
    apply Out.carries_of_handed hok
    rw [Out.handed, hmq, hqq, hhanded]
  have hstart : s.started = true := by
    by_contra hs
    obtain ⟨rfl, -⟩ := h.fresh (by simpa using hs)
    apply hq
    rw [hmsgs, stream_nil] at hhanded
    exact (List.append_eq_nil_iff.mp hhanded).2
  unfold BlobStreamMqSender.onEvMqWritable at hcall
  simp only [hone, Nat.sub_self] at hcall
  rw [assert_of (by exact herr), assert_of (by exact hq)] at hcall
  simp only [hd] at hcall
  cases err with
  | some e =>
      have hq' := hleft rfl
      simp only [Option.isSome_some, if_true] at hcall
      rw [assert_of hq'] at hcall
      have hok : Out.Ok ⟨mq, q, some e, 0, s.out.assertFailed⟩ := ⟨h.noFailure, hgen, by simp⟩
      obtain ⟨hext, hc⟩ := hcarries _ hok rfl rfl
      cases hf : s.pendingOnLastSendDoneFunc with
      | none =>
          simp only [hf] at hcall
          cases hcall
          rw [← hf]
          refine ⟨hext, h.setOut hstart hc _ ?_, rfl, .silent rfl⟩
          simp [hf]
      | some f =>
          simp only [hf, Option.isSome_some, if_true] at hcall
          cases hcall
          refine ⟨hext, h.setOut hstart hc none ?_, rfl, .invoked f _ hf rfl rfl ?_⟩
          · simp
          · simp
  | none =>
      simp only [Option.isSome_none, Bool.false_eq_true, if_false] at hcall
      cases q with
      | nil =>
          have hok : Out.Ok ⟨mq, [], none, 0, s.out.assertFailed⟩ :=
            ⟨h.noFailure, by simp, by simp⟩
          obtain ⟨hext, hc⟩ := hcarries _ hok rfl rfl
          cases hf : s.pendingOnLastSendDoneFunc with
          | none =>
              simp only [hf, if_true] at hcall
              cases hcall
              rw [← hf]
              refine ⟨hext, h.setOut hstart hc _ ?_, rfl, .silent rfl⟩
              simp [hf]
          | some f =>
              simp only [hf, Option.isSome_some, if_true] at hcall
              cases hcall
              refine ⟨hext, h.setOut hstart hc none ?_, rfl, .invoked f _ hf rfl rfl fun _ => rfl⟩
              simp
      | cons m q =>
          have hok : Out.Ok ⟨mq, m :: q, none, 1, s.out.assertFailed⟩ :=
            ⟨h.noFailure, by simp, by simp⟩
          obtain ⟨hext, hc⟩ := hcarries _ hok rfl rfl
          simp only [reduceCtorEq, if_false, Out.asyncWriteQHeadPayload] at hcall
          rw [Out.assert_of (by simp)] at hcall
          have hinv := h.setOut hstart hc s.pendingOnLastSendDoneFunc fun hp =>
            ⟨(h.pending hp).1, rfl, by simp⟩
          cases hf : s.pendingOnLastSendDoneFunc with
          | none =>
              simp only [hf] at hcall hinv
              cases hcall
              exact ⟨hext, hinv, rfl, .silent hf.symm⟩
          | some f =>
              simp only [hf] at hcall hinv
              cases hcall
              exact ⟨hext, hinv, rfl, .silent hf.symm⟩

/-! ## Steps -/

/-- The frame that a step on this input may tell. -/
def Input.frame? : Input → Option Frame
  | .startSendBlobOps => some .version
  | .sendBlob b => some (.blob b)
  | .endSending => some .endSending
  | .asyncEndSending _ => some .endSending
  | .autoPing _ => some .ping
  | .mqWritable => none
  | .timerFires => none
  | .timerReadable => some .ping

/-- The blob whose acceptance is seen. -/
def Obs.accepted? : Obs → Option {b : Blob // b ≠ []}
  | .accepted b => some b
  | _ => none

/-- The blobs accepted. -/
def accepted (obs : List Obs) : List {b : Blob // b ≠ []} :=
  obs.filterMap Obs.accepted?

/-- A step in which no blob is accepted. -/
theorem Tells.exists_new {f : Frame} (h : s.Tells fs f s') {i : Input} (hi : i.frame? = some f)
    (hf : f.blob? = none) : s.out.Extends s'.out ∧ ∃ new, s'.Inv (fs ++ new) ∧
      blobs new = [] ∧ (new = [] ∨ ∃ g, i.frame? = some g ∧ new = [g]) := by
  obtain ⟨hext, h | h⟩ := h
  · exact ⟨hext, [], by simpa using h, rfl, .inl rfl⟩
  · exact ⟨hext, [f], h, by simp [blobs, hf], .inr ⟨f, hi, rfl⟩⟩

/-- Whatever it came to, the end of sending has been told or it has not. -/
theorem EndOutcome.tells {g : Option Nat} {ok : Bool} {err : ErrorCode} (h : s.Inv fs)
    (hext : s.out.Extends s'.out) (hout : EndOutcome s fs g ok err s') :
    s.Tells fs .endSending s' := by
  refine ⟨hext, ?_⟩
  cases hout with
  | refused _ _ hs _ => exact .inl (hs ▸ h)
  | failed _ _ _ hinv _ _ => exact hinv
  | flushed _ _ _ hinv _ _ _ => exact .inr hinv
  | pending _ _ _ hinv _ _ => exact .inr hinv

/-- A step tells at most the frame its input is about, and accepts a blob exactly if that is the
frame it tells. -/
theorem Inv.step {i : Input} {ks : List MqAnswer} {obs : List Obs} (h : s.Inv fs)
    (hstep : s.step i ks = some (s', obs)) :
    s.out.Extends s'.out ∧ ∃ new, s'.Inv (fs ++ new) ∧ blobs new = accepted obs ∧
      (new = [] ∨ ∃ f, i.frame? = some f ∧ new = [f]) := by
  have hs := h.withAnswers ks
  have hext₀ : s.out.Extends (s.withAnswers ks).out :=
    ⟨hs.carries.ok, rfl, rfl, List.prefix_rfl⟩
  unfold BlobStreamMqSender.step at hstep
  generalize s.withAnswers ks = u at hs hext₀ hstep
  cases i with
  | startSendBlobOps =>
      cases hstep
      obtain ⟨hext, htell⟩ := hs.startSendBlobOps.exists_new (i := .startSendBlobOps) rfl rfl
      exact ⟨hext₀.trans hext, htell⟩
  | sendBlob b =>
      rcases hcall : u.sendBlob b with ⟨ok, err, t⟩
      obtain ⟨hext, hcases⟩ := hs.sendBlob b hcall
      simp only [hcall] at hstep
      rcases hcases with ⟨rfl, rfl, hinv⟩ | ⟨hrefused, hinv⟩
      · cases hstep
        exact ⟨hext₀.trans hext, [.blob b], hinv, rfl, .inr ⟨_, rfl, rfl⟩⟩
      · split at hstep
        · rename_i heq
          cases heq
          exact absurd ⟨rfl, rfl⟩ hrefused
        · rename_i heq
          cases heq
          cases hstep
          exact ⟨hext₀.trans hext, [], by simpa using hinv, rfl, .inl rfl⟩
  | endSending =>
      rcases hcall : u.asyncEndSendingImpl none with ⟨ok, err, t⟩
      obtain ⟨hext, hout⟩ := hs.asyncEndSendingImpl hcall
      simp only [BlobStreamMqSender.endSending, hcall] at hstep
      cases hstep
      obtain ⟨hext, htell⟩ := (hout.tells hs hext).exists_new (i := .endSending) rfl rfl
      exact ⟨hext₀.trans hext, htell⟩
  | asyncEndSending g =>
      rcases hcall : u.asyncEndSendingImpl (some g) with ⟨ok, err, t⟩
      obtain ⟨hext, hout⟩ := hs.asyncEndSendingImpl hcall
      simp only [BlobStreamMqSender.asyncEndSending, hcall] at hstep
      cases hstep
      obtain ⟨hext, htell⟩ := (hout.tells hs hext).exists_new (i := .asyncEndSending g) rfl rfl
      exact ⟨hext₀.trans hext, htell⟩
  | autoPing period =>
      cases hstep
      obtain ⟨hext, htell⟩ := (hs.autoPing period).exists_new (i := .autoPing period) rfl rfl
      exact ⟨hext₀.trans hext, htell⟩
  | mqWritable =>
      simp only at hstep
      split at hstep
      · rename_i hw
        rcases hcall : BlobStreamMqSender.onEvMqWritable
          { u with out := { u.out with evWaits := u.out.evWaits - 1 } } with ⟨t, r⟩
        obtain ⟨hext, hinv, -, -⟩ := hs.onEvMqWritable hw hcall
        rw [hcall] at hstep
        refine ⟨?_, [], ?_, ?_, .inl rfl⟩
        · cases r <;> (cases hstep; exact hext₀.trans hext)
        · rw [List.append_nil]
          cases r <;> (cases hstep; exact hinv)
        · cases r <;> (cases hstep; rfl)
      · cases hstep
  | timerFires =>
      simp only [Option.map_eq_some_iff] at hstep
      obtain ⟨t, hfire, heq⟩ := hstep
      cases heq
      refine ⟨hext₀, [], ?_, rfl, .inl rfl⟩
      rw [List.append_nil]
      apply hs.setTimer (hs.timer.fire hfire)
      intro hoff
      rw [Timer.fire_evWaits hfire]
      exact hs.timer_off hoff
  | timerReadable =>
      simp only [Option.map_eq_some_iff] at hstep
      obtain ⟨t, htake, heq⟩ := hstep
      cases heq
      obtain ⟨hext, htell⟩ :=
        (hs.onEvAutoPingNowTimerFired htake).exists_new (i := .timerReadable) rfl rfl
      exact ⟨hext₀.trans hext, htell⟩

end FlowIpc.MqStream.BlobStreamMqSender
