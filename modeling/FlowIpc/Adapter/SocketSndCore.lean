import FlowIpc.Adapter.SndCore
import FlowIpc.SocketStream.EndSending
import Mathlib.Tactic.SplitIfs

/-!
# The socket stream's sender as a core

`socketSndCore`: the sending direction of a `Native_socket_stream::Impl` is a core that an
`Async_adapter_sender` can wrap, with a reservation. A handler of `async_end_sending()` is lost where the
graceful close has to be queued, so a call keeps its handler only if the sending has been ended before
or the close need not be queued (`EndsAtOnce`).
-/

namespace FlowIpc.Adapter

open SocketStream PrefixCode

/-- What happens to a sender besides calls. -/
inductive SocketSndEv where
  /-- The socket is reported writable. -/
  | socketWritable
  /-- The ping timer fires in its worker thread. -/
  | timerFires
  /-- The signal pipe of the ping timer is reported readable. -/
  | timerReadable

/-- The step of the sender that it is. -/
def SocketSndEv.toInput : SocketSndEv → NativeSocketStreamSnd.Input
  | socketWritable => .socketWritable
  | timerFires => .timerFires
  | timerReadable => .timerReadable

namespace SocketSnd

open NativeSocketStreamSnd (UserMsg userMsg)

/-- What the handler was invoked with, if it was. -/
def invoked? : List NativeSocketStreamSnd.Obs → Option ErrorCode
  | .invoked _ err :: _ => some err
  | _ => none

/-- An event, during which the socket gives the answers `ks`. -/
def event (s : NativeSocketStreamSnd) (ev : SocketSndEv) (ks : List SockAnswer) :
    Option (NativeSocketStreamSnd × Option ErrorCode) :=
  (s.step ev.toInput ks).map fun (s, obs) => (s, invoked? obs)

/-- What was put on the socket are the version, the frames of these messages, and the graceful close
behind them. -/
def Handed (s : NativeSocketStreamSnd) (acc : List UserMsg) : Prop :=
  ∃ fs, s.out.peerSocket.sent = wire (some (fs ++ [.endSending])) ∧ (msgs fs).map userMsg = acc

variable {s s' : NativeSocketStreamSnd} {told : Option (List Frame)} {ph : Phase}
  {acc : List UserMsg} {ks : List SockAnswer}

/-- How far a sender is that has told `told`. No handler is ever waiting. -/
inductive At (s : NativeSocketStreamSnd) (told : Option (List Frame)) : Phase → Prop where
  /-- It goes on. -/
  | opened (finished : s.finished = false) : At s told .opened
  /-- It was given no handler. -/
  | silent (finished : s.finished = true) : At s told .silent
  /-- It has nothing left to do. -/
  | done (err : ErrorCode) (finished : s.finished = true) (code : err = s.out.pendingErrCode)
      (flushed : err = none → s.out.pendingPayloadsQ = [] ∧ .endSending ∈ frames told) :
      At s told (.done err)

/-- A sender in use that has accepted the messages `acc`. -/
structure Inv (s : NativeSocketStreamSnd) (ph : Phase) (acc : List UserMsg) : Prop where
  started : s.started = true
  peer : s.statePeer = true
  noFailure : s.assertFailed = false
  told : ∃ told, s.Inv told ∧ (msgs (frames told)).map userMsg = acc ∧ At s told ph

/-- A sender that is in use as before, whatever it has written. -/
structure Same (s s' : NativeSocketStreamSnd) : Prop where
  started : s'.started = s.started
  peer : s'.statePeer = s.statePeer
  finished : s'.finished = s.finished

/-- Putting off a ping neither starts, connects nor finishes a sender. -/
theorem same_rescheduleAutoPing : Same s s.rescheduleAutoPing := by
  unfold NativeSocketStreamSnd.rescheduleAutoPing
  simp only
  split
  · exact ⟨rfl, rfl, rfl⟩
  · exact ⟨rfl, rfl, rfl⟩

/-- Asking for pings neither starts, connects nor finishes a sender. -/
theorem same_autoPing (period : Nat) : Same s (s.autoPing period).2 := by
  unfold NativeSocketStreamSnd.autoPing
  simp only
  split
  · exact ⟨rfl, rfl, rfl⟩
  · split
    · exact ⟨rfl, rfl, rfl⟩
    · split
      · exact ⟨rfl, rfl, rfl⟩
      · split
        · exact ⟨rfl, rfl, rfl⟩
        · split
          · exact ⟨rfl, rfl, rfl⟩
          · exact ⟨rfl, rfl, rfl⟩

/-- A ping neither starts, connects nor finishes a sender. -/
theorem same_onEvAutoPingNowTimerFired : Same s s.onEvAutoPingNowTimerFired := by
  unfold NativeSocketStreamSnd.onEvAutoPingNowTimerFired
  simp only
  split
  · exact ⟨rfl, rfl, rfl⟩
  · split
    · exact ⟨rfl, rfl, rfl⟩
    · split
      · exact ⟨rfl, rfl, rfl⟩
      · exact ⟨rfl, rfl, rfl⟩

/-- A sender that has been told to stop does not ping. -/
theorem autoPing_of_finished (hfin : s.finished = true) (period : {n : Nat // 0 < n}) :
    (s.autoPing period).2 = s := by
  unfold NativeSocketStreamSnd.autoPing
  rw [NativeSocketStreamSnd.assert_of period.property]
  simp only
  split
  · rfl
  · rfl

/-- Where a sender is goes by what it has put out, and whether it has finished. -/
theorem At.congr (h : At s told ph) (hfin : s'.finished = s.finished) (hout : s'.out = s.out) :
    At s' told ph := by
  cases h with
  | opened finished => exact .opened (hfin.trans finished)
  | silent finished => exact .silent (hfin.trans finished)
  | done err finished code flushed =>
      rw [← hout] at code flushed
      exact .done err (hfin.trans finished) code flushed

/-- The bookkeeping does not depend on what the socket will answer. -/
theorem Inv.withAnswers (h : Inv s ph acc) (ks : List SockAnswer) :
    Inv (s.withAnswers ks) ph acc := by
  obtain ⟨told, hs, hacc, hat⟩ := h.told
  refine ⟨h.started, h.peer, h.noFailure, told, hs.withAnswers ks, hacc, ?_⟩
  cases hat with
  | opened finished => exact .opened finished
  | silent finished => exact .silent finished
  | done err finished code flushed => exact .done err finished code flushed

/-- It goes on, or it has been told to stop. -/
theorem At.finished_iff (h : At s told ph) : s.finished = false ↔ ph = .opened := by
  cases h with
  | opened finished => simp [finished]
  | silent finished => simp [finished]
  | done _ finished _ _ => simp [finished]

/-- What is put on the socket is all, once nothing is queued. -/
theorem handed (h : s.Inv told) (herr : s.out.pendingErrCode = none)
    (hq : s.out.pendingPayloadsQ = []) (hend : .endSending ∈ frames told) :
    Handed s ((msgs (frames told)).map userMsg) := by
  cases told with
  | none => cases hend
  | some fs =>
      obtain ⟨gs, rfl⟩ := eq_snoc_of_mem hend (h.last fs rfl)
      refine ⟨gs, h.carries.sent_eq herr hq, ?_⟩
      rw [frames, Option.getD_some, msgs_append]
      exact congrArg (List.map userMsg) (List.append_nil _).symm

/-! ## What the adapter relies on -/

/-- Sending is started, and nothing has been accepted. -/
theorem start_spec {p : PeerSocket} (hsent : p.sent = []) (ks : List SockAnswer) :
    (((NativeSocketStreamSnd.ctor true p).withAnswers ks).startSendNativeHandleOps).1 = true ∧
      Inv (((NativeSocketStreamSnd.ctor true p).withAnswers ks).startSendNativeHandleOps).2
        .opened [] := by
  have hctor : (NativeSocketStreamSnd.ctor true p).Inv none := NativeSocketStreamSnd.inv_ctor hsent
  have hu := hctor.withAnswers ks
  obtain ⟨-, hfail, hcases⟩ := hu.startSendNativeHandleOps
  refine ⟨rfl, rfl, rfl, hfail, ?_⟩
  rcases hcases with hinv | ⟨-, hinv⟩
  · exact ⟨none, hinv, rfl, .opened rfl⟩
  · exact ⟨some [], hinv, rfl, .opened rfl⟩

/-- A sender in use does not refuse a message without an error. -/
theorem sendNativeHandle_ok (hstart : s.started = true) (hpeer : s.statePeer = true) (m : UserMsg) :
    (s.sendNativeHandle m.val.1 m.val.2).1 = true := by
  have hm : m.val.1 ≠ none ∨ m.val.2.length ≠ 0 := by simpa using m.property
  unfold NativeSocketStreamSnd.sendNativeHandle
  rw [NativeSocketStreamSnd.assert_of hm]
  simp only [hstart, hpeer, Bool.true_eq_false, or_self, if_false]
  split
  · rfl
  · split
    · rfl
    · split
      · rfl
      · split
        · rfl
        · split
          · rfl
          · rfl

/-- Accepted or not, a message changes nothing about the end of sending. -/
theorem Inv.sendNativeHandle (h : Inv s ph acc) (m : UserMsg) {ok : Bool} {err : ErrorCode}
    (hcall : s.sendNativeHandle m.val.1 m.val.2 = (ok, err, s')) :
    ok = true ∧ Inv s' ph (if err = none then acc ++ [m] else acc) := by
  obtain ⟨told, hs, rfl, hat⟩ := h.told
  have hok : ok = true := by
    have htrue := sendNativeHandle_ok h.started h.peer m
    rw [hcall] at htrue
    exact htrue
  refine ⟨hok, ?_⟩
  obtain ⟨-, hfail, hcases⟩ := hs.sendNativeHandle m hcall
  rcases NativeSocketStreamSnd.sendNativeHandle_cases hcall with
    ⟨hrefused, rfl⟩ | ⟨hopen, -, -, -, hs'⟩
  · rw [if_neg fun herr => hrefused ⟨hok, herr⟩]
    exact ⟨h.started, h.peer, h.noFailure, told, hs, rfl, hat⟩
  · have hsame : Same s s' := by
      rcases hs' with rfl | rfl
      · exact ⟨rfl, rfl, rfl⟩
      · exact ⟨same_rescheduleAutoPing.started, same_rescheduleAutoPing.peer,
          same_rescheduleAutoPing.finished⟩
    obtain rfl := hat.finished_iff.mp hopen.notFinished
    refine ⟨hsame.started.trans h.started, hsame.peer.trans h.peer, hfail.trans h.noFailure, ?_⟩
    have hat' : ∀ told', At s' told' .opened := fun told' =>
      .opened (hsame.finished.trans hopen.notFinished)
    rcases hcases with ⟨-, rfl, fs, hle, rfl, hinv⟩ | ⟨hrefused, hinv⟩
    · rw [if_pos rfl]
      refine ⟨_, hinv, ?_, hat' _⟩
      rw [frames, frames, Option.getD_some, Option.getD_some, msgs_append, List.map_append]
      rfl
    · rw [if_neg fun herr => hrefused ⟨hok, herr⟩]
      exact ⟨told, hinv, rfl, hat' told⟩

/-- What tells a ping at most leaves a sender that goes on as it was. -/
theorem Inv.of_tells (h : Inv s .opened acc) (hsame : Same s s')
    (htells : ∀ told, s.Inv told → s.Tells told .ping s') : Inv s' .opened acc := by
  obtain ⟨told, hs, rfl, hat⟩ := h.told
  have hfin := hsame.finished.trans (hat.finished_iff.mpr rfl)
  have ht := htells told hs
  refine ⟨hsame.started.trans h.started, hsame.peer.trans h.peer, ht.noFailure.trans h.noFailure, ?_⟩
  rcases ht.inv with hinv | ⟨fs, rfl, hinv⟩
  · exact ⟨told, hinv, rfl, .opened hfin⟩
  · refine ⟨_, hinv, ?_, .opened hfin⟩
    rw [frames, frames, Option.getD_some, Option.getD_some, msgs_append]
    exact congrArg (List.map userMsg) (List.append_nil _)

/-- Asking for pings accepts nothing. -/
theorem Inv.autoPing (h : Inv s ph acc) (period : {n : Nat // 0 < n}) :
    Inv (s.autoPing period).2 ph acc := by
  obtain ⟨told, hs, -, hat⟩ := h.told
  cases hfin : s.finished with
  | false =>
      obtain rfl := hat.finished_iff.mp hfin
      exact h.of_tells (same_autoPing period) fun told hs => hs.autoPing period
  | true =>
      rw [autoPing_of_finished hfin]
      exact h

/-- A ping accepts nothing. -/
theorem Inv.onEvAutoPingNowTimerFired (h : Inv s ph acc) {t : Timer}
    (ht : s.autoPingTimer.takeEvent = some t) :
    Inv { s with autoPingTimer := t }.onEvAutoPingNowTimerFired ph acc := by
  obtain ⟨told, hs, hacc, hat⟩ := h.told
  by_cases hfin : s.finished = true
  · obtain ⟨hok, hzero⟩ := hs.timer.takeEvent ht
    rw [NativeSocketStreamSnd.onEvAutoPingNowTimerFired_of_finished (by exact hfin)]
    refine ⟨h.started, h.peer, h.noFailure, told, hs.setTimer hok fun _ => hzero, hacc, ?_⟩
    exact hat.congr rfl rfl
  · obtain rfl := hat.finished_iff.mp (by simpa using hfin)
    have hsame := same_onEvAutoPingNowTimerFired (s := { s with autoPingTimer := t })
    apply h.of_tells ⟨hsame.started, hsame.peer, hsame.finished⟩
    intro told hs
    exact hs.onEvAutoPingNowTimerFired ht

/-- Ending the sending leaves a sender in use. -/
theorem asyncEndSendingImpl_same {onDoneFunc : Option Nat} {ok : Bool} {err : ErrorCode}
    (hcall : s.asyncEndSendingImpl onDoneFunc = (ok, err, s')) :
    s'.started = s.started ∧ s'.statePeer = s.statePeer := by
  have hs' : s' = (s.asyncEndSendingImpl onDoneFunc).2.2 := by rw [hcall]
  rw [hs']
  unfold NativeSocketStreamSnd.asyncEndSendingImpl NativeSocketStreamSnd.assert
  split
  · exact ⟨rfl, rfl⟩
  · split
    · exact ⟨rfl, rfl⟩
    · simp only
      split_ifs <;> exact ⟨rfl, rfl⟩

/-- A sender in use refuses to end exactly if it has been told to stop. -/
theorem Inv.refused_ne (h : Inv s ph acc) (hat : At s told ph)
    (why : s.started = false ∨ s.statePeer = false ∨ s.finished = true) : ph ≠ .opened := by
  rintro rfl
  have hfin := hat.finished_iff.mpr rfl
  rcases why with why | why | why
  · rw [h.started] at why
    cases why
  · rw [h.peer] at why
    cases why
  · rw [hfin] at why
    cases why

/-- A sender that was not told to stop before is told to by a call that is accepted. -/
theorem opened_of_accepted {onDoneFunc : Option Nat} {err : ErrorCode} (hat : At s told ph)
    (hcall : s.asyncEndSendingImpl onDoneFunc = (true, err, s')) : ph = .opened := by
  apply hat.finished_iff.mp
  by_contra hfin
  unfold NativeSocketStreamSnd.asyncEndSendingImpl at hcall
  split at hcall
  · cases hcall
  · rw [if_pos (by simpa using hfin)] at hcall
    cases hcall

/-- What `end_sending()` comes to. -/
theorem Inv.endSending (h : Inv s ph acc) {ok : Bool} (hcall : s.endSending = (ok, s')) :
    EndEffect Inv ph acc s' ok := by
  obtain ⟨told, hs, rfl, hat⟩ := h.told
  rcases himpl : s.asyncEndSendingImpl none with ⟨ok₁, err, s₁⟩
  obtain ⟨-, hout⟩ := hs.asyncEndSendingImpl himpl
  obtain ⟨hstart, hpeer⟩ := asyncEndSendingImpl_same himpl
  simp only [NativeSocketStreamSnd.endSending, himpl] at hcall
  cases hcall
  have hclose : ∀ {fs : List Frame}, told = some fs →
      (msgs (frames (some (fs ++ [.endSending])))).map userMsg = (msgs (frames told)).map userMsg := by
    rintro fs rfl
    rw [frames, frames, Option.getD_some, Option.getD_some, msgs_append]
    exact congrArg (List.map userMsg) (List.append_nil _)
  cases hout with
  | refused hok _ hstate why =>
      subst hok hstate
      exact .refused (h.refused_ne hat why) h
  | failed hok _ hinv hfin hfail =>
      subst hok
      refine .ended (opened_of_accepted hat himpl) ⟨hstart.trans h.started, hpeer.trans h.peer,
        hfail.trans h.noFailure, told, hinv, rfl, .silent hfin⟩
  | flushed hok _ hinv _ hfin hfail =>
      subst hok
      obtain ⟨fs, htold, hinv⟩ := hinv
      exact .ended (opened_of_accepted hat himpl) ⟨hstart.trans h.started, hpeer.trans h.peer,
        hfail.trans h.noFailure, _, hinv, hclose htold, .silent hfin⟩
  | queued hok _ hinv _ hfin _ hfail =>
      subst hok
      obtain ⟨fs, htold, hinv⟩ := hinv
      refine .ended (opened_of_accepted hat himpl) ⟨hstart.trans h.started, hpeer.trans h.peer, ?_,
        _, hinv, hclose htold, .silent hfin⟩
      rw [hfail, h.noFailure]
      rfl

/-- A call of `async_end_sending()` keeps its handler. -/
def Keeps (s : NativeSocketStreamSnd) (ks : List SockAnswer) : Prop :=
  s.finished = true ∨ s.EndsAtOnce ks

/-- What `async_end_sending()` comes to. -/
theorem Inv.asyncEndSending (h : Inv s ph acc) (hkeeps : Keeps s ks) {ok : Bool} {err : ErrorCode}
    {f : Nat} (hcall : (s.withAnswers ks).asyncEndSending f = (ok, err, s')) :
    AsyncEndEffect Inv ph acc s' ok err := by
  obtain ⟨told₀, hs₀, -⟩ := h.told
  have hu := h.withAnswers ks
  obtain ⟨told, hs, rfl, hat⟩ := hu.told
  obtain ⟨-, hout⟩ := hs.asyncEndSendingImpl hcall
  obtain ⟨hstart, hpeer⟩ := asyncEndSendingImpl_same hcall
  cases hout with
  | refused hok _ hstate why =>
      subst hok hstate
      exact .refused err (hu.refused_ne hat why) hu
  | failed hok herr hinv hfin hfail =>
      subst hok
      have hgen := hinv.carries.ok.genuine
      refine .answered err (opened_of_accepted hat hcall) (herr.2 ▸ hgen.1) ⟨hstart.trans hu.started,
        hpeer.trans hu.peer, hfail.trans hu.noFailure, told, hinv, rfl, .done err hfin herr.2 ?_⟩
      intro hnone
      rw [hnone] at herr
      cases herr.1
  | flushed hok herr hinv hsent hfin hfail =>
      subst hok herr
      obtain ⟨fs, rfl, hinv⟩ := hinv
      refine .answered none (opened_of_accepted hat hcall) (by simp) ⟨hstart.trans hu.started,
        hpeer.trans hu.peer, hfail.trans hu.noFailure, _, hinv, ?_,
        .done none hfin hsent.1.symm fun _ => ⟨hsent.2, by simp [frames]⟩⟩
      rw [frames, frames, Option.getD_some, Option.getD_some, msgs_append]
      exact congrArg (List.map userMsg) (List.append_nil _)
  | queued hok herr =>
      -- The graceful close would have to be queued, and so the handler would be lost.
      subst hok
      have hopen := hat.finished_iff.mpr (opened_of_accepted hat hcall)
      rcases hkeeps with hfin | honce
      · rw [show s.finished = false from hopen] at hfin
        cases hfin
      · exact absurd herr ((hs₀.endsAtOnce_iff hcall).mp honce)

/-- When the socket is writable, the handler that waited for the end is invoked if everything has been sent, or can
no longer be. -/
theorem Inv.onEvPeerSocketWritableOrError (h : Inv s ph acc) (hw : 0 < s.out.evWaits)
    {r : Option (Nat × ErrorCode)}
    (hcall : { s with
      out := { s.out with evWaits := s.out.evWaits - 1 } }.onEvPeerSocketWritableOrError = (s', r)) :
    r = none ∧ Inv s' ph acc := by
  obtain ⟨told, hs, rfl, hat⟩ := h.told
  obtain ⟨hnone, -, hinv, heq⟩ := hs.onEvPeerSocketWritableOrError hw hcall
  obtain ⟨herr, hq, -⟩ := hs.of_evWaits hw
  have hfin : s'.finished = s.finished := by rw [heq]
  have hstart : s'.started = s.started := by rw [heq]
  have hpeer : s'.statePeer = s.statePeer := by rw [heq]
  have hfail : s'.assertFailed = s.assertFailed := by rw [heq]
  refine ⟨hnone, hstart.trans h.started, hpeer.trans h.peer, hfail.trans h.noFailure, told, hinv,
    rfl, ?_⟩
  cases hat with
  | opened finished => exact .opened (hfin.trans finished)
  | silent finished => exact .silent (hfin.trans finished)
  | done err finished code flushed => exact absurd (flushed (code.trans herr)).1 hq

/-- What an event comes to. -/
theorem Inv.event (h : Inv s ph acc) {ev : SocketSndEv} {r : Option ErrorCode}
    (hev : event s ev ks = some (s', r)) : SndEventEffect Inv ph acc s' r := by
  have hu := h.withAnswers ks
  unfold SocketSnd.event at hev
  simp only [Option.map_eq_some_iff] at hev
  obtain ⟨⟨s₁, obs⟩, hstep, heq⟩ := hev
  cases heq
  unfold NativeSocketStreamSnd.step at hstep
  generalize s.withAnswers ks = u at hu hstep
  cases ev with
  | socketWritable =>
      simp only [SocketSndEv.toInput] at hstep
      split at hstep
      · rename_i hw
        rcases hcall : NativeSocketStreamSnd.onEvPeerSocketWritableOrError
          { u with out := { u.out with evWaits := u.out.evWaits - 1 } } with ⟨t, r⟩
        obtain ⟨rfl, hinv⟩ := hu.onEvPeerSocketWritableOrError hw hcall
        rw [hcall] at hstep
        cases hstep
        exact .nothing hinv
      · cases hstep
  | timerFires =>
      simp only [SocketSndEv.toInput, Option.map_eq_some_iff] at hstep
      obtain ⟨t, hfire, heq⟩ := hstep
      cases heq
      obtain ⟨told, hs, hacc, hat⟩ := hu.told
      refine .nothing ⟨hu.started, hu.peer, hu.noFailure, told,
        hs.setTimer (hs.timer.fire hfire) ?_, hacc, hat.congr rfl rfl⟩
      intro hoff
      rw [Timer.fire_evWaits hfire]
      exact hs.timer_off hoff
  | timerReadable =>
      simp only [SocketSndEv.toInput, Option.map_eq_some_iff] at hstep
      obtain ⟨t, htake, heq⟩ := hstep
      cases heq
      exact .nothing (hu.onEvAutoPingNowTimerFired htake)

end SocketSnd

/-- The core of the sending direction of a `Native_socket_stream`. -/
def socketSndCore : SndCore where
  State := NativeSocketStreamSnd
  Msg := NativeSocketStreamSnd.UserMsg
  Ev := SocketSndEv
  Ans := List SockAnswer
  Init s := ∃ p : PeerSocket, p.sent = [] ∧ s = .ctor true p
  startSendOps s ks := (s.withAnswers ks).startSendNativeHandleOps
  send s m ks := (s.withAnswers ks).sendNativeHandle m.val.1 m.val.2
  autoPing s period ks := (s.withAnswers ks).autoPing period
  endSending s ks := (s.withAnswers ks).endSending
  asyncEndSending s ks := (s.withAnswers ks).asyncEndSending 0
  event := SocketSnd.event
  hosed s := s.out.pendingErrCode
  assertFailed s := s.out.assertFailed || s.assertFailed
  Handed := SocketSnd.Handed
  Keeps := SocketSnd.Keeps
  Inv := SocketSnd.Inv
  noFailure s ph acc h := by
    obtain ⟨told, hs, -⟩ := h.told
    rw [hs.noFailure, h.noFailure]
    rfl
  genuine s ph acc h := by
    obtain ⟨told, hs, -⟩ := h.told
    exact hs.carries.ok.genuine
  waiting_spec s acc h := by
    obtain ⟨told, -, -, hat⟩ := h.told
    cases hat
  done_spec s err acc h := by
    obtain ⟨told, hs, rfl, hat⟩ := h.told
    cases hat with
    | done _ _ code flushed =>
        refine ⟨code.symm, fun hnone => ?_⟩
        obtain ⟨hq, hend⟩ := flushed hnone
        exact SocketSnd.handed hs (code.symm.trans hnone) hq hend
  start_spec s ks := by
    rintro ⟨p, hsent, rfl⟩
    exact SocketSnd.start_spec hsent ks
  send_spec s ph acc m ks ok err s' h hcall := (h.withAnswers ks).sendNativeHandle m hcall
  autoPing_spec s ph acc period ks h := (h.withAnswers ks).autoPing period
  endSending_spec s ph acc ks ok s' h hcall := (h.withAnswers ks).endSending hcall
  asyncEndSending_spec s ph acc ks ok err s' h hkeeps hcall := h.asyncEndSending hkeeps hcall
  event_spec s ph acc ev ks s' r h hev := h.event hev

end FlowIpc.Adapter
