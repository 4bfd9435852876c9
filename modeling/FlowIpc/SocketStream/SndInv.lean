import FlowIpc.SocketStream.Frames

/-!
# The sender keeps its frames in order

`Inv s told`: the sender `s` has told its version and some frames, the graceful close last if at all,
and its queue carries them. Every step keeps this, for the frames there were and at most the one that
the step's input is about (`Inv.step`).

The handler of `async_end_sending()` is a matter of its own. The call puts it away before it knows
whether there will be anything to wait for, and puts it away again, empty by now, if there is: so the
handler is never there when it is needed (`Inv.handler`), and the assertion that it has not been put
away before fails (`EndOutcome.queued`).
-/

namespace FlowIpc.SocketStream.NativeSocketStreamSnd

open Negotiation PrefixCode

/-- The sender `s` has told the version and some frames, or nothing. -/
structure Inv (s : NativeSocketStreamSnd) (told : Option (List Frame)) : Prop where
  carries : s.out.Carries told
  timer : s.autoPingTimer.Ok
  /-- Nothing is scheduled before `auto_ping()`. -/
  timer_off : s.autoPingPeriod = 0 → s.autoPingTimer.evWaits = 0
  fresh : s.started = false → told = none ∧ s.finished = false ∧ s.out.pendingErrCode = none ∧
    s.out.pendingPayloadsQ = [] ∧ s.protocolNegotiator = .ctor versionOne ∧ s.autoPingPeriod = 0
  begun : s.started = true → s.out.pendingErrCode = none → told ≠ none
  ended : ∀ fs, told = some fs → .endSending ∈ fs → s.finished = true
  last : ∀ fs, told = some fs → .endSending ∉ fs.dropLast
  /-- A handler that is put away has nothing to wait for. -/
  handler : s.pendingOnLastSendDoneFunc.isSome →
    s.finished = true ∧ (s.out.pendingErrCode.isSome ∨ s.out.pendingPayloadsQ = [])
  /-- The only other assertion that can fail is one in the call that finishes. -/
  unhurt : s.finished = false → s.assertFailed = false

variable {s s' : NativeSocketStreamSnd} {told : Option (List Frame)} {fs : List Frame}

/-- No assertion of low-level writing fails. -/
theorem Inv.noFailure (h : s.Inv told) : s.out.assertFailed = false :=
  h.carries.ok.noFailure

/-- A sender that has just been constructed has told nothing. -/
theorem inv_ctor {statePeer : Bool} {p : PeerSocket} (hsent : p.sent = []) :
    (ctor statePeer p).Inv none where
  carries := by
    apply Out.carries_of_handed ⟨rfl, by simp [ctor], rfl⟩
    simp [ctor, Out.handed, hsent, wire]
  timer := Timer.ok_inactive
  timer_off _ := rfl
  fresh _ := ⟨rfl, rfl, rfl, rfl, rfl, rfl⟩
  begun h := by cases h
  ended _ h := by cases h
  last _ h := by cases h
  handler h := by cases h
  unhurt _ := rfl

/-- A sender that has not been told to stop has no handler. -/
theorem Inv.handler_eq_none (h : s.Inv told) (hfin : s.finished = false) :
    s.pendingOnLastSendDoneFunc = none := by
  cases hp : s.pendingOnLastSendDoneFunc with
  | none => rfl
  | some f =>
      have hhandler := h.handler (by rw [hp]; rfl)
      rw [hfin] at hhandler
      exact absurd hhandler.1 (by simp)

/-- While there is something to wait for there is no handler. -/
theorem Inv.handler_eq_none_of_queue (h : s.Inv told) (herr : s.out.pendingErrCode = none)
    (hq : s.out.pendingPayloadsQ ≠ []) : s.pendingOnLastSendDoneFunc = none := by
  cases hp : s.pendingOnLastSendDoneFunc with
  | none => rfl
  | some f =>
      rcases (h.handler (by rw [hp]; rfl)).2 with herr' | hq'
      · simp [herr] at herr'
      · exact absurd hq' hq

/-- Before the end of sending no frame is the graceful close. -/
theorem Inv.end_not_mem (h : s.Inv (some fs)) (hfin : s.finished = false) : .endSending ∉ fs := by
  intro hmem
  have := h.ended fs rfl hmem
  rw [hfin] at this
  cases this

/-- The answers to come are no part of it. -/
theorem Inv.withAnswers (h : s.Inv told) (ks : List SockAnswer) : (s.withAnswers ks).Inv told where
  carries := ⟨⟨h.carries.ok.noFailure, h.carries.ok.genuine, h.carries.ok.evWaits_eq⟩,
    h.carries.sent_le, h.carries.handed_eq⟩
  timer := h.timer
  timer_off := h.timer_off
  fresh := h.fresh
  begun := h.begun
  ended := h.ended
  last := h.last
  handler := h.handler
  unhurt := h.unhurt

/-! ## One more frame -/

/-- Sends are accepted: started, not finished, no error. -/
structure Sending (s : NativeSocketStreamSnd) : Prop where
  started : s.started = true
  notFinished : s.finished = false
  noError : s.out.pendingErrCode = none

/-- What has been told, to a sender that sends: the version at least. -/
theorem Inv.exists_told (h : s.Inv told) (hs : s.Sending) : ∃ fs, told = some fs :=
  Option.ne_none_iff_exists'.mp (h.begun hs.started hs.noError)

/-- A frame other than the close is written by a sender that sends. -/
theorem Inv.write {out : Out} (h : s.Inv (some fs)) (hs : s.Sending) {f : Frame}
    (hf : f ≠ .endSending) (hc : out.Carries (some (fs ++ [f]))) :
    ({ s with out := out } : NativeSocketStreamSnd).Inv (some (fs ++ [f])) where
  carries := hc
  timer := h.timer
  timer_off := h.timer_off
  fresh hstart := absurd hs.started (by simpa using hstart)
  begun _ _ := by simp
  ended gs hgs hmem := by
    cases hgs
    apply absurd hmem
    simp [h.end_not_mem hs.notFinished, hf.symm]
  last gs hgs := by
    cases hgs
    rw [List.dropLast_concat]
    exact h.end_not_mem hs.notFinished
  handler hp := by
    rw [h.handler_eq_none hs.notFinished] at hp
    cases hp
  unhurt := h.unhurt

/-- A write that adds no frame leaves the rest as it was. -/
theorem Inv.drop {out : Out} (h : s.Inv told) (hs : s.Sending) (hc : out.Carries told) :
    ({ s with out := out } : NativeSocketStreamSnd).Inv told where
  carries := hc
  timer := h.timer
  timer_off := h.timer_off
  fresh hstart := absurd hs.started (by simpa using hstart)
  begun hstart _ := h.begun hs.started hs.noError
  ended := h.ended
  last := h.last
  handler hp := by
    rw [h.handler_eq_none hs.notFinished] at hp
    cases hp
  unhurt := h.unhurt

/-- The timer can be anything sound, and on only after `auto_ping()`. -/
theorem Inv.setTimer (h : s.Inv told) {t : Timer} (ht : t.Ok)
    (hoff : s.autoPingPeriod = 0 → t.evWaits = 0) :
    ({ s with autoPingTimer := t } : NativeSocketStreamSnd).Inv told :=
  { h with timer := ht, timer_off := hoff }

/-! ## Operations -/

/-- What a step does to a sender that has told `told`: it tells no more, or one frame more, which is
then `f`. No assertion fails. -/
structure Tells (s : NativeSocketStreamSnd) (told : Option (List Frame)) (f : Frame)
    (s' : NativeSocketStreamSnd) : Prop where
  extends' : s.out.Extends s'.out
  noFailure : s'.assertFailed = s.assertFailed
  inv : s'.Inv told ∨ ∃ fs, told = some fs ∧ s'.Inv (some (fs ++ [f]))

/-- Where nothing is written the socket stays as it is. -/
theorem Inv.tells_refl (h : s.Inv told) (f : Frame) : s.Tells told f s :=
  ⟨h.carries.ok.extends_refl, rfl, .inl h⟩

/-- Starting the operations tells the version, in PEER state. -/
theorem Inv.startSendNativeHandleOps (h : s.Inv told) :
    s.out.Extends s.startSendNativeHandleOps.2.out ∧
      s.startSendNativeHandleOps.2.assertFailed = s.assertFailed ∧
      (s.startSendNativeHandleOps.2.Inv told ∨
        told = none ∧ s.startSendNativeHandleOps.2.Inv (some [])) := by
  unfold NativeSocketStreamSnd.startSendNativeHandleOps
  split
  · exact ⟨h.carries.ok.extends_refl, rfl, .inl h⟩
  · rename_i hstart
    have hstart : s.started = false := by simpa using hstart
    obtain ⟨rfl, hfin, herr, -, hneg, -⟩ := h.fresh hstart
    have hnone := h.handler_eq_none hfin
    -- The version is 1, and it is asked for once.
    have hver : (ProtocolNegotiator.ctor versionOne).localMaxProtoVerForSending.1 = 1 := by decide
    have hnext : (ProtocolNegotiator.ctor versionOne).localMaxProtoVerForSending.2
        |>.localMaxProtoVerForSending.1 = verUnknown := by decide
    rcases hw : s.out.syncWriteOrQPayload none (lengthBytes 1) false with ⟨fl, out⟩
    obtain ⟨hext, hcases⟩ := h.carries.version herr hw
    simp only [hneg, hver]
    rw [if_pos (by decide), assert_of (by exact herr), assert_of (by exact hnext)]
    simp only [Int.toNat_one, hw]
    refine ⟨hext, trivial, ?_⟩
    rcases hcases with ⟨herr', hcarries⟩ | ⟨herr', hcarries⟩
    · left
      exact {
        carries := hcarries
        timer := h.timer
        timer_off := h.timer_off
        fresh := fun hs => by cases hs
        begun := fun _ hnone' => by
          rw [show out.pendingErrCode = none from hnone'] at herr'
          cases herr'
        ended := h.ended
        last := h.last
        handler := fun hp => by
          rw [show s.pendingOnLastSendDoneFunc = none from hnone] at hp
          cases hp
        unhurt := h.unhurt }
    · right
      exact ⟨trivial, {
        carries := hcarries
        timer := h.timer
        timer_off := h.timer_off
        fresh := fun hs => by cases hs
        begun := fun _ _ => by simp
        ended := fun fs hfs hmem => by
          cases hfs
          simp at hmem
        last := fun fs hfs => by
          cases hfs
          simp
        handler := fun hp => by
          rw [show s.pendingOnLastSendDoneFunc = none from hnone] at hp
          cases hp
        unhurt := h.unhurt }⟩

/-- What `send_native_handle()` does: it refuses and changes nothing, or it writes. -/
theorem sendNativeHandle_cases {m : UserMsg} {ok : Bool} {err : ErrorCode}
    (h : s.sendNativeHandle m.val.1 m.val.2 = (ok, err, s')) :
    (¬ (ok = true ∧ err = none) ∧ s' = s) ∨
      (s.Sending ∧ m.val.2.length ≤ maxMetaBlobLength ∧ ok = true ∧
        err = (s.out.sendLowLvlPayloads m.val.1 m.val.2).pendingErrCode ∧
        (s' = { s with out := s.out.sendLowLvlPayloads m.val.1 m.val.2 } ∨
          s' = { s with out := s.out.sendLowLvlPayloads m.val.1 m.val.2 }.rescheduleAutoPing)) := by
  have hm : m.val.1 ≠ none ∨ m.val.2.length ≠ 0 := by simpa using m.property
  unfold sendNativeHandle at h
  rw [assert_of hm] at h
  simp only at h
  split at h
  · cases h
    exact .inl ⟨by simp, rfl⟩
  · rename_i hopen
    split at h
    · cases h
      exact .inl ⟨by simp, rfl⟩
    · rename_i hfin
      split at h
      · cases h
        exact .inl ⟨by simp, rfl⟩
      · rename_i hlen
        split at h
        · rename_i herr
          cases h
          exact .inl ⟨fun hacc => by simp [hacc.2] at herr, rfl⟩
        · rename_i herr
          have hsending : s.Sending := by
            refine ⟨?_, by simpa using hfin, by simpa using herr⟩
            by_contra hstart
            exact hopen (.inl (by simpa using hstart))
          have hle : m.val.2.length ≤ maxMetaBlobLength := Nat.not_lt.mp hlen
          split at h
          · cases h
            exact .inr ⟨hsending, hle, rfl, rfl, .inl rfl⟩
          · split at h
            · cases h
              exact .inr ⟨hsending, hle, rfl, rfl, .inr rfl⟩
            · cases h
              exact .inr ⟨hsending, hle, rfl, rfl, .inl rfl⟩

/-- A timer in order, if it is rescheduled, is as it was. -/
theorem rescheduleAutoPing_eq (ht : s.autoPingTimer.Ok) : s.rescheduleAutoPing = s := by
  unfold NativeSocketStreamSnd.rescheduleAutoPing
  have hle := Timer.expiresAfter_le_one ht
  dsimp only
  split
  · rename_i hone
    rw [ht.rewait_eq hone]
  · rename_i hne
    have hzero : s.autoPingTimer.expiresAfter.1 = 0 := by omega
    rw [assert_of hzero, Timer.expiresAfter_of_zero hzero]

/-- The message of the user's that a sender accepts. -/
def UserMsg.toMsg (m : UserMsg) (hle : m.val.2.length ≤ maxMetaBlobLength) : Msg :=
  ⟨m.val.1, m.val.2, m.property, hle⟩

/-- A message is told if the call returns no error, and only then. -/
theorem Inv.sendNativeHandle (h : s.Inv told) (m : UserMsg) {ok : Bool} {err : ErrorCode}
    (hcall : s.sendNativeHandle m.val.1 m.val.2 = (ok, err, s')) :
    s.out.Extends s'.out ∧ s'.assertFailed = s.assertFailed ∧
      ((ok = true ∧ err = none ∧ ∃ fs hle, told = some fs ∧
          s'.Inv (some (fs ++ [.msg (m.toMsg hle)]))) ∨
        (¬ (ok = true ∧ err = none) ∧ s'.Inv told)) := by
  rcases sendNativeHandle_cases hcall with ⟨hrefused, rfl⟩ | ⟨hopen, hle, rfl, rfl, hs'⟩
  · exact ⟨h.carries.ok.extends_refl, rfl, .inr ⟨hrefused, h⟩⟩
  · obtain ⟨fs, rfl⟩ := h.exists_told hopen
    obtain ⟨hext, hcases⟩ := h.carries.msg hopen.noError (m.toMsg hle) rfl
    change s.out.Extends (s.out.sendLowLvlPayloads m.val.1 m.val.2) at hext
    -- Rescheduling the ping changes nothing of this.
    have hresched : ∀ {told'}, ({ s with out := s.out.sendLowLvlPayloads m.val.1 m.val.2 } :
        NativeSocketStreamSnd).Inv told' → s'.Inv told' ∧
          s'.out = s.out.sendLowLvlPayloads m.val.1 m.val.2 ∧ s'.assertFailed = s.assertFailed := by
      intro told' hinv
      rcases hs' with rfl | rfl
      · exact ⟨hinv, rfl, rfl⟩
      · rw [rescheduleAutoPing_eq hinv.timer]
        exact ⟨hinv, rfl, rfl⟩
    rcases hcases with ⟨herr, hcarries⟩ | ⟨herr, hcarries⟩
    · obtain ⟨hinv, heq, hfail⟩ := hresched (h.drop hopen hcarries)
      refine ⟨by rw [heq]; exact hext, hfail, .inr ⟨?_, hinv⟩⟩
      rintro ⟨-, hnone⟩
      have herr : (s.out.sendLowLvlPayloads m.val.1 m.val.2).pendingErrCode.isSome := herr
      rw [hnone] at herr
      cases herr
    · obtain ⟨hinv, heq, hfail⟩ := hresched (h.write hopen (by simp) hcarries)
      exact ⟨by rw [heq]; exact hext, hfail, .inl ⟨rfl, herr, fs, hle, rfl, hinv⟩⟩

/-- The four things that a call of `*end_sending()` can come to. -/
inductive EndOutcome (s : NativeSocketStreamSnd) (told : Option (List Frame))
    (onDoneFunc : Option Nat) (ok : Bool) (err : ErrorCode) (s' : NativeSocketStreamSnd) : Prop where
  /-- Sending has not been started, or has been finished already. -/
  | refused (ok : ok = false) (err : err = none) (state : s' = s)
      (why : s.started = false ∨ s.statePeer = false ∨ s.finished = true)
  /-- An error is known, or is found out. -/
  | failed (ok : ok = true) (err : err.isSome ∧ err = s'.out.pendingErrCode) (inv : s'.Inv told)
      (finished : s'.finished = true) (noFailure : s'.assertFailed = s.assertFailed)
  /-- Everything was sent, the graceful close included. -/
  | flushed (ok : ok = true) (err : err = none)
      (inv : ∃ fs, told = some fs ∧ s'.Inv (some (fs ++ [.endSending])))
      (sent : s'.out.pendingErrCode = none ∧ s'.out.pendingPayloadsQ = [])
      (finished : s'.finished = true) (noFailure : s'.assertFailed = s.assertFailed)
  /-- Something is queued. The handler, if any, is lost, and its assertion fails. -/
  | queued (ok : ok = true) (err : err = wouldBlock)
      (inv : ∃ fs, told = some fs ∧ s'.Inv (some (fs ++ [.endSending])))
      (waits : s'.out.pendingErrCode = none ∧ s'.out.pendingPayloadsQ ≠ [])
      (finished : s'.finished = true) (handler : s'.pendingOnLastSendDoneFunc = none)
      (failure : s'.assertFailed = (s.assertFailed || onDoneFunc.isSome))

/-- Sending can be finished: there is a peer, sending has been started and not yet finished. -/
structure Open (s : NativeSocketStreamSnd) : Prop where
  started : s.started = true
  peer : s.statePeer = true
  notFinished : s.finished = false

/-- The end of sending, where an error keeps the graceful close from being sent. -/
theorem Inv.finishFailed {out : Out} (h : s.Inv told) (hopen : s.Open) (hc : out.Carries told)
    (herr : out.pendingErrCode.isSome) (g : Option Nat) :
    ({ s with finished := true, out := out, pendingOnLastSendDoneFunc := g } :
      NativeSocketStreamSnd).Inv told where
  carries := hc
  timer := h.timer
  timer_off := h.timer_off
  fresh hstart := absurd hopen.started (by simpa using hstart)
  begun _ hnone := by
    rw [show out.pendingErrCode = none from hnone] at herr
    cases herr
  ended _ _ _ := rfl
  last := h.last
  handler _ := ⟨rfl, .inl herr⟩
  unhurt hfin := by cases hfin

/-- The graceful close is written by a sender that has not finished, and finishes it. -/
theorem Inv.writeEnd {out : Out} (h : s.Inv (some fs)) (hopen : s.Open)
    (hc : out.Carries (some (fs ++ [.endSending]))) (g : Option Nat)
    (hg : g.isSome → out.pendingPayloadsQ = []) (b : Bool) :
    ({ s with finished := true, out := out, pendingOnLastSendDoneFunc := g, assertFailed := b } :
      NativeSocketStreamSnd).Inv (some (fs ++ [.endSending])) where
  carries := hc
  timer := h.timer
  timer_off := h.timer_off
  fresh hstart := absurd hopen.started (by simpa using hstart)
  begun _ _ := by simp
  ended _ _ _ := rfl
  last gs hgs := by
    cases hgs
    rw [List.dropLast_concat]
    exact h.end_not_mem hopen.notFinished
  handler hp := ⟨rfl, .inr (hg hp)⟩
  unhurt hfin := by cases hfin

/-- A call is accepted exactly by a sender that is open. -/
theorem open_iff : s.Open ↔ ¬ (s.started = false ∨ s.statePeer = false) ∧ s.finished = false := by
  constructor
  · rintro ⟨hstart, hpeer, hfin⟩
    simp [hstart, hpeer, hfin]
  · rintro ⟨hopen, hfin⟩
    simp only [not_or, Bool.not_eq_false] at hopen
    exact ⟨hopen.1, hopen.2, hfin⟩

/-- The end of sending is told, unless it is refused or there is an error. -/
theorem Inv.asyncEndSendingImpl (h : s.Inv told) {onDoneFunc : Option Nat} {ok : Bool}
    {err : ErrorCode} (hcall : s.asyncEndSendingImpl onDoneFunc = (ok, err, s')) :
    s.out.Extends s'.out ∧ EndOutcome s told onDoneFunc ok err s' := by
  unfold NativeSocketStreamSnd.asyncEndSendingImpl at hcall
  split at hcall
  · rename_i hstart
    cases hcall
    refine ⟨h.carries.ok.extends_refl, .refused rfl rfl rfl ?_⟩
    rcases hstart with hstart | hpeer
    · exact .inl hstart
    · exact .inr (.inl hpeer)
  · rename_i hstart
    split at hcall
    · rename_i hfin
      cases hcall
      exact ⟨h.carries.ok.extends_refl, .refused rfl rfl rfl (.inr (.inr hfin))⟩
    · rename_i hfin
      have hopen : s.Open := open_iff.mpr ⟨hstart, by simpa using hfin⟩
      have hnone := h.handler_eq_none hopen.notFinished
      simp only at hcall
      split at hcall
      · rename_i herr
        cases hcall
        have hinv := h.finishFailed hopen h.carries herr s.pendingOnLastSendDoneFunc
        exact ⟨h.carries.ok.extends_refl, .failed rfl ⟨herr, rfl⟩ hinv rfl rfl⟩
      · rename_i herr
        have herr : s.out.pendingErrCode = none := by simpa using herr
        obtain ⟨fs, rfl⟩ := h.exists_told ⟨hopen.started, hopen.notFinished, herr⟩
        rw [assert_of (by exact hnone)] at hcall
        rcases hw : s.out.syncWriteOrQPayload none (lengthBytes 0) false with ⟨fl, out⟩
        obtain ⟨hext, hcases⟩ := h.carries.single herr (f := .endSending) rfl rfl hw
        simp only [hw] at hcall
        rcases hcases with ⟨herr', rfl, hcarries⟩ | ⟨herr', rfl, hcarries⟩ | ⟨havoid, -⟩
        · have hinv := h.finishFailed hopen hcarries herr' onDoneFunc
          simp only [Bool.not_true, Bool.false_eq_true, false_and, if_false, herr', if_true] at hcall
          rw [assert_of trivial] at hcall
          cases hcall
          exact ⟨hext, .failed rfl ⟨herr', rfl⟩ hinv rfl rfl⟩
        · by_cases hq : out.pendingPayloadsQ = []
          · have hinv := h.writeEnd hopen hcarries onDoneFunc (fun _ => hq) s.assertFailed
            simp [hq, herr'] at hcall
            obtain ⟨rfl, rfl, rfl⟩ := hcall
            exact ⟨hext, .flushed rfl rfl ⟨fs, rfl, hinv⟩ ⟨herr', hq⟩ rfl rfl⟩
          · have hinv := h.writeEnd hopen hcarries none (fun hp => by cases hp)
              (s.assertFailed || onDoneFunc.isSome)
            have hs' : s' = { s with
                finished := true
                out := out
                pendingOnLastSendDoneFunc := none
                assertFailed := s.assertFailed || onDoneFunc.isSome } := by
              cases onDoneFunc with
              | none =>
                  simp [hq, herr'] at hcall
                  simp [← hcall.2.2]
              | some g =>
                  simp [hq, herr', assert] at hcall
                  simp [← hcall.2.2]
            have hres : ok = true ∧ err = wouldBlock := by
              cases onDoneFunc <;> (simp [hq, herr'] at hcall; simp [← hcall.1, ← hcall.2.1])
            subst hs'
            exact ⟨hext, .queued hres.1 hres.2 ⟨fs, rfl, hinv⟩ ⟨herr', hq⟩ rfl rfl rfl⟩
        · cases havoid

/-- A ping that is written, or dropped, or whose write fails. -/
theorem Inv.writePing (h : s.Inv told) (hs : s.Sending) {fl : Bool} {out : Out}
    (hw : s.out.syncWriteOrQPayload none (lengthBytes metaBlobLengthPingSentinel) true =
      (fl, out)) :
    s.Tells told .ping { s with out := out } := by
  obtain ⟨fs, rfl⟩ := h.exists_told hs
  obtain ⟨hext, hcases⟩ := h.carries.single hs.noError (f := .ping) rfl rfl hw
  refine ⟨hext, rfl, ?_⟩
  rcases hcases with ⟨-, -, hcarries⟩ | ⟨-, -, hcarries⟩ | ⟨-, -, hcarries⟩
  · exact .inl (h.drop hs hcarries)
  · exact .inr ⟨fs, rfl, h.write hs (by simp) hcarries⟩
  · exact .inl (h.drop hs hcarries)

/-- What a step tells does not depend on the timer it leaves behind. -/
theorem Tells.setTimer {f : Frame} (h : s.Tells told f s') {t : Timer} (ht : t.Ok)
    (hoff : s'.autoPingPeriod = 0 → t.evWaits = 0) :
    s.Tells told f { s' with autoPingTimer := t } where
  extends' := h.extends'
  noFailure := h.noFailure
  inv := by
    rcases h.inv with hinv | ⟨fs, hfs, hinv⟩
    · exact .inl (hinv.setTimer ht hoff)
    · exact .inr ⟨fs, hfs, hinv.setTimer ht hoff⟩

/-- Asking for pings tells one. -/
theorem Inv.autoPing (h : s.Inv told) (period : {n : Nat // 0 < n}) :
    s.Tells told .ping (s.autoPing period).2 := by
  have hne : period.val ≠ 0 := by
    have := period.property
    omega
  unfold NativeSocketStreamSnd.autoPing
  rw [assert_of period.property]
  simp only
  split
  · exact h.tells_refl _
  · rename_i hstart
    split
    · exact h.tells_refl _
    · rename_i hfin
      have hopen : s.Open := open_iff.mpr ⟨hstart, by simpa using hfin⟩
      split
      · exact h.tells_refl _
      · rename_i hperiod
        have hzero := h.timer_off (by simpa using hperiod)
        let t : NativeSocketStreamSnd := { s with autoPingPeriod := period }
        have ht : t.Inv told := {
          h with
          timer_off := fun h₀ => absurd h₀ hne
          fresh := fun h₀ => absurd hopen.started (by simpa using h₀) }
        split
        · exact ⟨h.carries.ok.extends_refl, rfl, .inl ht⟩
        · rename_i herr
          have hsending : t.Sending := ⟨hopen.started, hopen.notFinished, by simpa using herr⟩
          rcases hw : s.out.syncWriteOrQPayload none (lengthBytes metaBlobLengthPingSentinel) true
            with ⟨fl, out⟩
          have hping := ht.writePing hsending hw
          have htells : s.Tells told .ping _ := ⟨hping.extends', hping.noFailure, hping.inv⟩
          simp only
          split
          · exact htells
          · exact htells.setTimer (h.timer.schedule hzero) fun h₀ => absurd h₀ hne

/-- A ping that is due is told. -/
theorem Inv.onEvAutoPingNowTimerFired (h : s.Inv told) {t : Timer}
    (ht : s.autoPingTimer.takeEvent = some t) :
    s.Tells told .ping { s with autoPingTimer := t }.onEvAutoPingNowTimerFired := by
  obtain ⟨hok, hzero⟩ := h.timer.takeEvent ht
  let u : NativeSocketStreamSnd := { s with autoPingTimer := t.consumeTimerFiringSignal }
  have hu : u.Inv told := h.setTimer hok fun _ => hzero
  -- Pings are scheduled after `auto_ping()` only, so that one is pending says that it was called.
  have hperiod : s.autoPingPeriod ≠ 0 := by
    intro h₀
    have hoff := h.timer_off h₀
    unfold Timer.takeEvent at ht
    rw [if_neg (by omega)] at ht
    cases ht
  unfold NativeSocketStreamSnd.onEvAutoPingNowTimerFired
  simp only
  split
  · exact ⟨h.carries.ok.extends_refl, rfl, .inl hu⟩
  · rename_i herr
    split
    · exact ⟨h.carries.ok.extends_refl, rfl, .inl hu⟩
    · rename_i hfin
      have hstart : s.started = true := by
        by_contra hs
        exact hperiod (h.fresh (by simpa using hs)).2.2.2.2.2
      have hsending : u.Sending := ⟨hstart, by simpa using hfin, by simpa using herr⟩
      rcases hw : s.out.syncWriteOrQPayload none (lengthBytes metaBlobLengthPingSentinel) true
        with ⟨fl, out⟩
      have hping := hu.writePing hsending hw
      have htells : s.Tells told .ping _ := ⟨hping.extends', hping.noFailure, hping.inv⟩
      simp only
      split
      · exact htells
      · exact htells.setTimer (hok.schedule hzero) fun h₀ => absurd h₀ hperiod

/-- The event is waited for only while something is queued and no error is known. -/
theorem Inv.of_evWaits (h : s.Inv told) (hw : 0 < s.out.evWaits) :
    s.out.pendingErrCode = none ∧ s.out.pendingPayloadsQ ≠ [] ∧ s.out.evWaits = 1 := by
  have heq := h.carries.ok.evWaits_eq
  split at heq
  · rename_i hboth
    exact ⟨hboth.1, hboth.2, heq⟩
  · omega

/-- The writable event writes what it can. It finds no handler to invoke. -/
theorem Inv.onEvPeerSocketWritableOrError (h : s.Inv told) (hw : 0 < s.out.evWaits)
    {r : Option (Nat × ErrorCode)}
    (hcall : { s with
      out := { s.out with evWaits := s.out.evWaits - 1 } }.onEvPeerSocketWritableOrError = (s', r)) :
    r = none ∧ s.out.Extends s'.out ∧ s'.Inv told ∧ s' = { s with out := s'.out } := by
  obtain ⟨herr, hq, hone⟩ := h.of_evWaits hw
  have hf := h.handler_eq_none_of_queue herr hq
  have hhanded := h.carries.handed_eq herr
  rcases hd : Out.drain s.out.peerSocket s.out.pendingPayloadsQ with ⟨p, q, err⟩
  obtain ⟨hrcvd, hpre, hcells, hleft, hgen⟩ := Out.drain_cases hd
  rw [Out.handed, ← hcells] at hhanded
  have hstart : s.started = true := by
    by_contra hs
    exact hq (h.fresh (by simpa using hs)).2.2.2.1
  -- Whatever follows, the cells stay in order.
  have hcarries : ∀ out : Out, out.Ok → out.peerSocket.sent = p.sent →
      out.peerSocket.received = p.received → out.pendingPayloadsQ = q →
      s' = { s with out := out, pendingOnLastSendDoneFunc := none } →
      s.out.Extends s'.out ∧ s'.Inv told ∧ s' = { s with out := s'.out } := by
    rintro out hok hsent hrcvd' hqq rfl
    refine ⟨⟨hok, by rw [hrcvd', hrcvd], by rw [hsent]; exact hpre⟩, ?_, by rw [← hf]⟩
    exact {
      carries := by
        apply Out.carries_of_handed hok
        rw [Out.handed, hsent, hqq, hhanded]
      timer := h.timer
      timer_off := h.timer_off
      fresh := fun hs => absurd hstart (by simpa using hs)
      begun := fun _ _ => h.begun hstart herr
      ended := h.ended
      last := h.last
      handler := fun hp => by cases hp
      unhurt := h.unhurt }
  unfold NativeSocketStreamSnd.onEvPeerSocketWritableOrError at hcall
  simp only [hone, Nat.sub_self] at hcall
  rw [assert_of (by exact herr), assert_of (by exact hq)] at hcall
  simp only [hd] at hcall
  cases err with
  | some e =>
      have hq' := hleft rfl
      simp only [reduceCtorEq, false_and, if_false, Option.isSome_some, if_true] at hcall
      rw [assert_of (by exact hq')] at hcall
      simp only [hf] at hcall
      cases hcall
      have hok : Out.Ok ⟨p, q, some e, 0, s.out.assertFailed⟩ := ⟨h.noFailure, hgen, by simp⟩
      exact ⟨rfl, hcarries _ hok rfl rfl rfl rfl⟩
  | none =>
      cases q with
      | nil =>
          simp [hf] at hcall
          obtain ⟨rfl, rfl⟩ := hcall
          have hok : Out.Ok ⟨p, [], none, 0, s.out.assertFailed⟩ := ⟨h.noFailure, by simp, by simp⟩
          exact ⟨rfl, hcarries _ hok rfl rfl rfl rfl⟩
      | cons payload q =>
          obtain ⟨hext, hqq, hsent⟩ := Out.asyncWriteQHeadPayload_cases
            (o := ⟨p, payload :: q, none, 0, s.out.assertFailed⟩) h.noFailure (by simp) rfl rfl
          simp only [ne_eq, reduceCtorEq, not_false_eq_true, and_self, if_true, hqq, hf,
            Option.isSome_none, if_false] at hcall
          rw [assert_of trivial] at hcall
          simp only [ite_self] at hcall
          cases hcall
          exact ⟨rfl, hcarries _ hext.ok hsent hext.received_eq hqq rfl⟩

/-! ## Steps -/

/-- The message whose acceptance is seen. -/
def Obs.accepted? : Obs → Option UserMsg
  | .accepted m => some m
  | _ => none

/-- The messages accepted. -/
def accepted (obs : List Obs) : List UserMsg :=
  obs.filterMap Obs.accepted?

/-- A message as the user gave it. -/
def userMsg (m : Msg) : UserMsg :=
  ⟨(m.hndl, m.blob), m.ne_nothing⟩

@[simp] theorem userMsg_toMsg (m : UserMsg) (hle : m.val.2.length ≤ maxMetaBlobLength) :
    userMsg (m.toMsg hle) = m := rfl

/-- A call of one of the functions that end the sending. -/
def Input.isEnd : Input → Bool
  | .endSending => true
  | .asyncEndSending _ => true
  | _ => false

/-- What a step can add to what has been told: the version, or one frame. That is a message if and
only if one was accepted, and the graceful close only if that was asked for. -/
def Told (told told' : Option (List Frame)) (acc : List UserMsg) (ends : Bool) : Prop :=
  (told' = told ∧ acc = []) ∨ (told = none ∧ told' = some [] ∧ acc = []) ∨
    ∃ fs f, told = some fs ∧ told' = some (fs ++ [f]) ∧ (msgs [f]).map userMsg = acc ∧
      (f = .endSending → ends = true)

/-- A ping, told or not, is no message. -/
theorem Tells.exists_told {ends : Bool} (h : s.Tells told .ping s') :
    s.out.Extends s'.out ∧ ∃ told', s'.Inv told' ∧ Told told told' [] ends := by
  refine ⟨h.extends', ?_⟩
  rcases h.inv with hinv | ⟨fs, hfs, hinv⟩
  · exact ⟨told, hinv, .inl ⟨rfl, rfl⟩⟩
  · exact ⟨_, hinv, .inr (.inr ⟨fs, .ping, hfs, rfl, rfl, by simp⟩)⟩

/-- The end of sending, told or not, is no message. -/
theorem EndOutcome.exists_told {g : Option Nat} {ok : Bool} {err : ErrorCode} (h : s.Inv told)
    (hout : EndOutcome s told g ok err s') : ∃ told', s'.Inv told' ∧ Told told told' [] true := by
  have hend : ∀ {fs}, told = some fs → Told told (some (fs ++ [.endSending])) [] true := fun hfs =>
    .inr (.inr ⟨_, .endSending, hfs, rfl, rfl, fun _ => rfl⟩)
  cases hout with
  | refused _ _ hs _ => exact ⟨told, hs ▸ h, .inl ⟨rfl, rfl⟩⟩
  | failed _ _ hinv _ _ => exact ⟨told, hinv, .inl ⟨rfl, rfl⟩⟩
  | flushed _ _ hinv _ _ _ =>
      obtain ⟨fs, hfs, hinv⟩ := hinv
      exact ⟨_, hinv, hend hfs⟩
  | queued _ _ hinv _ _ _ _ =>
      obtain ⟨fs, hfs, hinv⟩ := hinv
      exact ⟨_, hinv, hend hfs⟩

/-- A step tells at most one frame, and accepts a message exactly if it tells it. -/
theorem Inv.step {i : Input} {ks : List SockAnswer} {obs : List Obs} (h : s.Inv told)
    (hstep : s.step i ks = some (s', obs)) :
    s.out.Extends s'.out ∧ ∃ told', s'.Inv told' ∧ Told told told' (accepted obs) i.isEnd := by
  have hs := h.withAnswers ks
  have hext₀ : s.out.Extends (s.withAnswers ks).out := ⟨hs.carries.ok, rfl, List.prefix_rfl⟩
  unfold NativeSocketStreamSnd.step at hstep
  generalize s.withAnswers ks = u at hs hext₀ hstep
  suffices hext : u.out.Extends s'.out ∧
      ∃ told', s'.Inv told' ∧ Told told told' (accepted obs) i.isEnd from
    ⟨hext₀.trans hext.1, hext.2⟩
  have hrefl := hs.carries.ok.extends_refl
  cases i with
  | connected =>
      cases hstep
      refine ⟨hrefl, told, ?_, .inl ⟨rfl, rfl⟩⟩
      exact { hs with }
  | startSendNativeHandleOps =>
      cases hstep
      obtain ⟨hext, -, hcases⟩ := hs.startSendNativeHandleOps
      refine ⟨hext, ?_⟩
      rcases hcases with hinv | ⟨hnone, hinv⟩
      · exact ⟨told, hinv, .inl ⟨rfl, rfl⟩⟩
      · exact ⟨some [], hinv, .inr (.inl ⟨hnone, rfl, rfl⟩)⟩
  | sendNativeHandle m =>
      rcases hcall : u.sendNativeHandle m.val.1 m.val.2 with ⟨ok, err, t⟩
      obtain ⟨hext, -, hcases⟩ := hs.sendNativeHandle m hcall
      simp only [hcall] at hstep
      rcases hcases with ⟨rfl, rfl, fs, hle, hfs, hinv⟩ | ⟨hrefused, hinv⟩
      · cases hstep
        exact ⟨hext, _, hinv, .inr (.inr ⟨fs, _, hfs, rfl, rfl, by simp⟩)⟩
      · split at hstep
        · rename_i heq
          cases heq
          exact absurd ⟨rfl, rfl⟩ hrefused
        · rename_i heq
          cases heq
          cases hstep
          exact ⟨hext, told, hinv, .inl ⟨rfl, rfl⟩⟩
  | endSending =>
      rcases hcall : u.asyncEndSendingImpl none with ⟨ok, err, t⟩
      obtain ⟨hext, hout⟩ := hs.asyncEndSendingImpl hcall
      simp only [NativeSocketStreamSnd.endSending, hcall] at hstep
      cases hstep
      exact ⟨hext, hout.exists_told hs⟩
  | asyncEndSending g =>
      rcases hcall : u.asyncEndSendingImpl (some g) with ⟨ok, err, t⟩
      obtain ⟨hext, hout⟩ := hs.asyncEndSendingImpl hcall
      simp only [NativeSocketStreamSnd.asyncEndSending, hcall] at hstep
      cases hstep
      exact ⟨hext, hout.exists_told hs⟩
  | autoPing period =>
      cases hstep
      exact (hs.autoPing period).exists_told
  | socketWritable =>
      simp only at hstep
      split at hstep
      · rename_i hw
        rcases hcall : NativeSocketStreamSnd.onEvPeerSocketWritableOrError
          { u with out := { u.out with evWaits := u.out.evWaits - 1 } } with ⟨t, r⟩
        obtain ⟨rfl, hext, hinv, -⟩ := hs.onEvPeerSocketWritableOrError hw hcall
        rw [hcall] at hstep
        cases hstep
        exact ⟨hext, told, hinv, .inl ⟨rfl, rfl⟩⟩
      · cases hstep
  | timerFires =>
      simp only [Option.map_eq_some_iff] at hstep
      obtain ⟨t, hfire, heq⟩ := hstep
      cases heq
      refine ⟨hrefl, told, ?_, .inl ⟨rfl, rfl⟩⟩
      apply hs.setTimer (hs.timer.fire hfire)
      intro hoff
      rw [Timer.fire_evWaits hfire]
      exact hs.timer_off hoff
  | timerReadable =>
      simp only [Option.map_eq_some_iff] at hstep
      obtain ⟨t, htake, heq⟩ := hstep
      cases heq
      exact (hs.onEvAutoPingNowTimerFired htake).exists_told

end FlowIpc.SocketStream.NativeSocketStreamSnd
