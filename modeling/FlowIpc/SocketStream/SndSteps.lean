import FlowIpc.SocketStream.SndInv
import Mathlib.Tactic.SplitIfs

/-!
# What a step of the sender writes

A step writes nothing, or the version, or one frame, or what the writable event's loop can (`Wrote`).
Which of these, and which calls of the user's it answers, is said here once; what the writing comes to
is then a matter of `Out` alone.

Source: `sync_io/detail/native_socket_stream_impl_snd.cpp`.
-/

namespace FlowIpc.SocketStream

namespace Out

/-- The writing of a frame: of a message, a ping, which may be dropped, or the graceful close. -/
def writeFrame (o : Out) : Frame → Out
  | .msg m => o.sendLowLvlPayloads m.hndl m.blob
  | .ping => (o.syncWriteOrQPayload none (lengthBytes metaBlobLengthPingSentinel) true).2
  | .endSending => (o.syncWriteOrQPayload none (lengthBytes 0) false).2

/-- The writing of the version. -/
def writeVersion (o : Out) : Out :=
  (o.syncWriteOrQPayload none (lengthBytes 1) false).2

/-- What the writable event does to an out-queue, its wait being over.
Source: `native_socket_stream_impl_snd.cpp` `snd_on_ev_peer_socket_writable_or_error` -/
def onWritable (o : Out) : Out :=
  let (p, q, err) := drain o.peerSocket o.pendingPayloadsQ
  let o :=
    { o with peerSocket := p, pendingPayloadsQ := q, pendingErrCode := err, evWaits := o.evWaits - 1 }
  if o.pendingErrCode = none ∧ o.pendingPayloadsQ ≠ [] then o.asyncWriteQHeadPayload else o

end Out

namespace NativeSocketStreamSnd

open Negotiation

/-! ## Calls -/

/-- A call of the user's that makes the sender tell something. -/
inductive Call where
  /-- `send_native_handle()`, `send_blob()` -/
  | send (m : UserMsg)
  /-- `*end_sending()` -/
  | endSending
  deriving DecidableEq

/-- The call that was accepted, if that is what was seen. -/
def Obs.call? : Obs → Option Call
  | .accepted m => some (.send m)
  | .ended ok _ _ => if ok then some .endSending else none
  | .invoked _ _ => none

/-- The calls accepted, in order. -/
def calls (obs : List Obs) : List Call :=
  obs.filterMap Obs.call?

@[simp] theorem calls_nil : calls [] = [] := rfl

/-- The calls of two stretches are those of the one and then those of the other. -/
@[simp] theorem calls_append (obs obs' : List Obs) : calls (obs ++ obs') = calls obs ++ calls obs' :=
  List.filterMap_append

/-- The call that a frame answers; a ping answers none. -/
def call? : Frame → Option Call
  | .msg m => some (.send (userMsg m))
  | .ping => none
  | .endSending => some .endSending

/-- No call is answered when a handler is invoked. -/
@[simp] theorem calls_invocations (r : Option (Nat × ErrorCode)) : calls (invocations r) = [] := by
  cases r with
  | none => rfl
  | some r => rfl

/-- The frame that an input asks for, or may. -/
inductive Input.Tells : Input → Frame → Prop where
  /-- A message of the user's. -/
  | msg (m : Msg) : Input.Tells (.sendNativeHandle (userMsg m)) (.msg m)
  /-- The graceful close. -/
  | endSending : Input.Tells .endSending .endSending
  /-- The graceful close, with a handler. -/
  | asyncEndSending (f : Nat) : Input.Tells (.asyncEndSending f) .endSending
  /-- The first ping. -/
  | autoPing (period : {n : Nat // 0 < n}) : Input.Tells (.autoPing period) .ping
  /-- A ping that is due. -/
  | timerReadable : Input.Tells .timerReadable .ping

/-! ## Steps -/

/-- What a step on `i` writes, of a sender that has its answers for the step; the calls it answers are
told for steps after which no error is known. -/
inductive Wrote (u : NativeSocketStreamSnd) (i : Input) (obs : List Obs) (s' : NativeSocketStreamSnd) :
    Prop where
  /-- Nothing. -/
  | nothing (out : s'.out = u.out) (started : s'.started = u.started)
      (calls : u.out.pendingErrCode = none → calls obs = [])
  /-- The version, as sending is started. -/
  | version (before : u.started = false) (started : s'.started = true)
      (out : s'.out = u.out.writeVersion) (calls : calls obs = [])
  /-- A frame. -/
  | frame (f : Frame) (tells : i.Tells f) (sending : u.Sending) (started : s'.started = true)
      (out : s'.out = u.out.writeFrame f)
      (calls : s'.out.pendingErrCode = none → calls obs = (call? f).toList)
  /-- What was queued. -/
  | queue (wait : 0 < u.out.evWaits) (started : s'.started = u.started)
      (out : s'.out = u.out.onWritable) (calls : calls obs = [])

variable {s s' u : NativeSocketStreamSnd} {told : Option (List Frame)} {i : Input}
  {obs : List Obs}

/-- An assertion is no write. -/
@[simp] theorem assert_out (p : Prop) [Decidable p] : (s.assert p).out = s.out := rfl

@[simp] theorem assert_started (p : Prop) [Decidable p] : (s.assert p).started = s.started := rfl

/-- Starting the operations writes the version. -/
theorem Inv.wrote_start (h : u.Inv told) : Wrote u i [] u.startSendNativeHandleOps.2 := by
  unfold NativeSocketStreamSnd.startSendNativeHandleOps
  split
  · exact .nothing rfl rfl fun _ => rfl
  · rename_i hstart
    have hstart : u.started = false := by simpa using hstart
    obtain ⟨-, -, -, -, hneg, -⟩ := h.fresh hstart
    have hver : (ProtocolNegotiator.ctor versionOne).localMaxProtoVerForSending.1 = 1 := by decide
    simp only [hneg, hver]
    rw [if_pos (by decide)]
    exact .version hstart rfl rfl rfl

/-- The calls seen where `send_native_handle()` returns, and no error is known. -/
theorem wrote_send (m : UserMsg) {ok : Bool} {err : ErrorCode}
    (hcall : u.sendNativeHandle m.val.1 m.val.2 = (ok, err, s')) :
    Wrote u (.sendNativeHandle m) (if ok = true ∧ err = none then [.accepted m] else []) s' := by
  rcases sendNativeHandle_cases hcall with ⟨hrefused, rfl⟩ | ⟨hopen, hle, rfl, rfl, hs'⟩
  · rw [if_neg hrefused]
    exact .nothing rfl rfl fun _ => rfl
  · have hout : s'.out = u.out.writeFrame (.msg (m.toMsg hle)) ∧ s'.started = u.started := by
      rcases hs' with rfl | rfl
      · exact ⟨rfl, rfl⟩
      · unfold NativeSocketStreamSnd.rescheduleAutoPing
        simp only
        split <;> exact ⟨rfl, rfl⟩
    refine .frame (.msg (m.toMsg hle)) (.msg (m.toMsg hle)) hopen (hout.2.trans hopen.started) hout.1 fun hnone => ?_
    rw [hout.1] at hnone
    rw [if_pos ⟨rfl, hnone⟩]
    rfl

/-- The end of sending writes the graceful close. -/
theorem wrote_end {g : Option Nat} {ok : Bool} {err err' : ErrorCode} (htells : i.Tells .endSending)
    (hcall : u.asyncEndSendingImpl g = (ok, err, s')) : Wrote u i [.ended ok g err'] s' := by
  unfold NativeSocketStreamSnd.asyncEndSendingImpl at hcall
  split at hcall
  · cases hcall
    exact .nothing rfl rfl fun _ => rfl
  · rename_i hstart
    split at hcall
    · cases hcall
      exact .nothing rfl rfl fun _ => rfl
    · rename_i hfin
      have hopen : u.Open := open_iff.mpr ⟨hstart, by simpa using hfin⟩
      simp only at hcall
      split at hcall
      · rename_i herr
        cases hcall
        exact .nothing rfl rfl fun hnone => by simp [hnone] at herr
      · rename_i herr
        have hsending : u.Sending :=
          ⟨hopen.started, hopen.notFinished, by simpa using herr⟩
        simp only [Prod.mk.injEq] at hcall
        obtain ⟨rfl, -, rfl⟩ := hcall
        refine .frame .endSending htells hsending ?_ ?_ fun _ => rfl
        · split <;> split <;> exact hopen.started
        · split <;> split <;> rfl

/-- A ping is tried. -/
theorem Sending.wrote_ping (hs : u.Sending) (htells : i.Tells .ping) (hstart : s'.started = u.started)
    (hout : s'.out = u.out.writeFrame .ping) : Wrote u i [] s' :=
  .frame .ping htells hs (hstart.trans hs.started) hout fun _ => rfl

/-- Asking for pings writes one. -/
theorem wrote_autoPing (period : {n : Nat // 0 < n}) :
    Wrote u (.autoPing period) [] (u.autoPing period).2 := by
  unfold NativeSocketStreamSnd.autoPing
  rw [assert_of period.property]
  simp only
  split
  · exact .nothing rfl rfl fun _ => rfl
  · rename_i hstart
    split
    · exact .nothing rfl rfl fun _ => rfl
    · rename_i hfin
      have hopen : u.Open := open_iff.mpr ⟨hstart, by simpa using hfin⟩
      split
      · exact .nothing rfl rfl fun _ => rfl
      · split
        · exact .nothing rfl rfl fun _ => rfl
        · rename_i herr
          have hsending : u.Sending :=
            ⟨hopen.started, hopen.notFinished, by simpa using herr⟩
          split
          · exact hsending.wrote_ping (.autoPing period) rfl rfl
          · exact hsending.wrote_ping (.autoPing period) rfl rfl

/-- Pings are scheduled after `auto_ping()` only, so that one is pending says that it was called. -/
theorem Inv.started_of_takeEvent (h : u.Inv told) {t : Timer}
    (ht : u.autoPingTimer.takeEvent = some t) : u.started = true := by
  by_contra hs
  have hoff := h.timer_off (h.fresh (by simpa using hs)).2.2.2.2.2
  unfold Timer.takeEvent at ht
  rw [if_neg (by omega)] at ht
  cases ht

/-- Another is written when it is due. -/
theorem wrote_timer {t : Timer} (hstart : u.started = true) :
    Wrote u .timerReadable [] { u with autoPingTimer := t }.onEvAutoPingNowTimerFired := by
  unfold NativeSocketStreamSnd.onEvAutoPingNowTimerFired
  simp only
  split
  · exact .nothing rfl rfl fun _ => rfl
  · rename_i herr
    split
    · exact .nothing rfl rfl fun _ => rfl
    · rename_i hfin
      have hsending : u.Sending := ⟨hstart, by simpa using hfin, by simpa using herr⟩
      split
      · exact hsending.wrote_ping .timerReadable rfl rfl
      · exact hsending.wrote_ping .timerReadable rfl rfl

/-- When the socket is writable what is queued is written. -/
theorem wrote_writable (hw : 0 < u.out.evWaits) {r : Option (Nat × ErrorCode)}
    (hq : u.out.pendingPayloadsQ ≠ []) (herr : u.out.pendingErrCode = none)
    (hcall : { u with
      out := { u.out with evWaits := u.out.evWaits - 1 } }.onEvPeerSocketWritableOrError = (s', r)) :
    Wrote u i (invocations r) s' := by
  unfold NativeSocketStreamSnd.onEvPeerSocketWritableOrError at hcall
  rw [assert_of (by exact hq)] at hcall
  simp only at hcall
  rw [assert_of (by exact herr)] at hcall
  have hout : s'.out = u.out.onWritable ∧ s'.started = u.started := by
    unfold Out.onWritable
    rcases hd : Out.drain u.out.peerSocket u.out.pendingPayloadsQ with ⟨p, q, err⟩
    simp only [hd] at hcall ⊢
    -- Whether a handler is invoked makes no difference to the rest.
    by_cases hmore : err = none ∧ q ≠ []
    · simp only [if_pos hmore] at hcall ⊢
      split_ifs at hcall <;> split at hcall <;> cases hcall <;> exact ⟨rfl, rfl⟩
    · simp only [if_neg hmore] at hcall ⊢
      split_ifs at hcall <;> split at hcall <;> cases hcall <;> exact ⟨rfl, rfl⟩
  exact .queue hw hout.2 hout.1 (calls_invocations r)

/-- What a step writes. -/
theorem Inv.wrote (h : s.Inv told) {ks : List SockAnswer} (hstep : s.step i ks = some (s', obs)) :
    Wrote (s.withAnswers ks) i obs s' := by
  have hu := h.withAnswers ks
  unfold NativeSocketStreamSnd.step at hstep
  generalize s.withAnswers ks = u at hu hstep ⊢
  cases i with
  | connected =>
      cases hstep
      exact .nothing rfl rfl fun _ => rfl
  | startSendNativeHandleOps =>
      cases hstep
      exact hu.wrote_start
  | sendNativeHandle m =>
      rcases hcall : u.sendNativeHandle m.val.1 m.val.2 with ⟨ok, err, t⟩
      have hw := wrote_send m hcall
      simp only [hcall] at hstep
      split at hstep
      · rename_i heq
        cases heq
        cases hstep
        rw [if_pos ⟨rfl, rfl⟩] at hw
        exact hw
      · rename_i hne heq
        cases heq
        cases hstep
        rw [if_neg ?_] at hw
        · exact hw
        · rintro ⟨rfl, rfl⟩
          exact hne rfl rfl
  | endSending =>
      rcases hcall : u.asyncEndSendingImpl none with ⟨ok, err, t⟩
      simp only [NativeSocketStreamSnd.endSending, hcall] at hstep
      cases hstep
      exact wrote_end .endSending hcall
  | asyncEndSending g =>
      rcases hcall : u.asyncEndSendingImpl (some g) with ⟨ok, err, t⟩
      simp only [NativeSocketStreamSnd.asyncEndSending, hcall] at hstep
      cases hstep
      exact wrote_end (.asyncEndSending g) hcall
  | autoPing period =>
      cases hstep
      exact wrote_autoPing period
  | socketWritable =>
      simp only at hstep
      split at hstep
      · rename_i hw
        obtain ⟨herr, hq, -⟩ := hu.of_evWaits hw
        cases hstep
        exact wrote_writable hw hq herr rfl
      · cases hstep
  | timerFires =>
      simp only [Option.map_eq_some_iff] at hstep
      obtain ⟨t, -, heq⟩ := hstep
      cases heq
      exact .nothing rfl rfl fun _ => rfl
  | timerReadable =>
      simp only [Option.map_eq_some_iff] at hstep
      obtain ⟨t, htake, heq⟩ := hstep
      cases heq
      exact wrote_timer (hu.started_of_takeEvent htake)

end NativeSocketStreamSnd

end FlowIpc.SocketStream
