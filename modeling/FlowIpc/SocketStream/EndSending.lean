import FlowIpc.Lib.Transition
import FlowIpc.SocketStream.SndInv

/-!
# Completion of `async_end_sending()` on a socket stream

A call `async_end_sending(&err, F)` that is accepted promises one of two things: `err` is the result
and `F` is never invoked; or `err` is would-block and `F` is invoked once, with success by the event
that empties the out-queue, or with the error by the event that finds one (`Completes`).

`async_end_sending_impl()` moves `F` to its place before it writes the graceful close, and if that has
to be queued it asserts the place to be empty and moves `F` there again, `F` being empty by then. So
the promise is kept exactly where the graceful close need not be queued (`completes_iff`).

Source: `sync_io/detail/native_socket_stream_impl_snd.cpp` `async_end_sending_impl`,
`snd_on_ev_peer_socket_writable_or_error`.
-/

namespace FlowIpc.SocketStream

open Lts

namespace NativeSocketStreamSnd

/-! ## Runs -/

/-- A step of a sender, and what has been seen so far. -/
def next (w : NativeSocketStreamSnd × List Obs) (i : Input × List SockAnswer) :
    Option (NativeSocketStreamSnd × List Obs) :=
  (w.1.step i.1 i.2).map fun r => (r.1, w.2 ++ r.2)

/-- The steps of a sender. -/
def Step (w : NativeSocketStreamSnd × List Obs) (i : Input × List SockAnswer)
    (w' : NativeSocketStreamSnd × List Obs) : Prop :=
  next w i = some w'

/-- A sender that has just been constructed, around a socket nothing was sent on. -/
def Init (w : NativeSocketStreamSnd × List Obs) : Prop :=
  ∃ statePeer p, p.sent = [] ∧ w = (ctor statePeer p, [])

/-- Some run leads to this sender. -/
def Reached (s : NativeSocketStreamSnd) : Prop :=
  ∃ obs, Reachable Step Init (s, obs)

variable {s s' : NativeSocketStreamSnd} {told : Option (List Frame)}

/-- A sender that is reached has told something. -/
theorem Reached.exists_inv (h : s.Reached) : ∃ told, s.Inv told := by
  obtain ⟨obs, h⟩ := h
  refine Reachable.invariant (P := fun w => ∃ told, w.1.Inv told) ?_ ?_ h
  · rintro _ ⟨statePeer, p, hp, rfl⟩
    exact ⟨none, inv_ctor hp⟩
  · rintro w i w' ⟨told, hinv⟩ hstep
    obtain ⟨r, hr, rfl⟩ := Option.map_eq_some_iff.mp hstep
    obtain ⟨-, told', hinv', -⟩ := hinv.step hr
    exact ⟨told', hinv'⟩

/-! ## The promise -/

/-- No assertion has failed. -/
def NoFailure (s : NativeSocketStreamSnd) : Prop :=
  s.out.assertFailed = false ∧ s.assertFailed = false

/-- The invocations of handlers among what was seen. -/
def invoked (obs : List Obs) : List (Nat × ErrorCode) :=
  obs.filterMap fun
    | .invoked f err => some (f, err)
    | _ => none

/-- The handler `f` is kept, and an event that will find it is being waited for. -/
structure Waits (s : NativeSocketStreamSnd) (f : Nat) : Prop where
  kept : s.pendingOnLastSendDoneFunc = some f
  unsent : s.out.pendingErrCode = none ∧ s.out.pendingPayloadsQ ≠ []
  evWaits : 0 < s.out.evWaits

/-- What a call of `async_end_sending()` with the handler `f` promises that returned `true`, left the
code `err`, and left the sender as `s`. -/
inductive Completes (s : NativeSocketStreamSnd) (f : Nat) (err : ErrorCode) : Prop where
  /-- The result is known, and no handler will be invoked. -/
  | atOnce (code : err ≠ wouldBlock)
      (silent : ∀ is s' obs, Run Step (s, []) is (s', obs) → s'.NoFailure ∧ invoked obs = [])
  /-- The handler waits for the out-queue, and once that is empty, or an error is known, it has been
  invoked. -/
  | later (code : err = wouldBlock)
      (once : ∀ is s' obs, Run Step (s, []) is (s', obs) → s'.NoFailure ∧
        ((s'.Waits f ∧ invoked obs = []) ∨
          (s'.pendingOnLastSendDoneFunc = none ∧ invoked obs = [(f, s'.out.pendingErrCode)] ∧
            (s'.out.pendingErrCode.isSome ∨ s'.out.pendingPayloadsQ = []))))

/-! ## Where the graceful close need not be queued -/

end NativeSocketStreamSnd

/-- Writing `size` bytes to this socket now needs no wait: it takes them all, or it fails, or it has
been put away by the time the wait would be asked for. -/
def PeerSocket.NeedsNoWait (p : PeerSocket) (size : Nat) : Prop :=
  p.alive = false ∨
    match p.answers with
    | .moves n :: ks => size ≤ n + 1 ∨ ks.head? = some .hosed
    | .wouldBlock :: ks => ks.head? = some .hosed
    | .failed _ :: _ => True
    | .hosed :: _ => True
    | [] => False

/-- A socket that has been put away does not come back. -/
theorem PeerSocket.lock_alive_of_dead {p : PeerSocket} (h : p.alive = false) :
    p.lock.alive = false := by
  unfold lock
  split
  · rfl
  · exact h

/-- No wait is needed: seen from after the attempt to write. -/
theorem PeerSocket.needsNoWait_iff {p p' : PeerSocket} {blob : Blob} {n : Nat} {err : ErrorCode}
    (hblob : blob ≠ []) (h : p.sndNbWriteLowLvlPayload none blob = (n, err, p')) :
    p.NeedsNoWait blob.length ↔ err.isSome ∨ n = blob.length ∨ p'.lock.alive = false := by
  have hpos : 0 < blob.length := List.length_pos_iff.mpr hblob
  obtain ⟨alive, sent, received, answers⟩ := p
  unfold sndNbWriteLowLvlPayload at h
  unfold NeedsNoWait
  cases alive with
  | false =>
      simp only [lock_alive_of_dead, Bool.false_eq_true, if_false] at h
      cases h
      exact ⟨fun _ => .inl rfl, fun _ => .inl rfl⟩
  | true =>
      cases answers with
      | nil =>
          simp only [lock, writeSome] at h
          cases h
          simp [lock]
          omega
      | cons k ks =>
          cases k with
          | moves m =>
              simp only [lock, writeSome] at h
              cases h
              cases ks with
              | nil => simp [lock]
              | cons k ks => cases k <;> simp [lock]
          | wouldBlock =>
              simp only [lock, writeSome] at h
              cases h
              cases ks with
              | nil => simp [lock]; omega
              | cons k ks => cases k <;> simp [lock] <;> omega
          | failed m =>
              simp only [lock, writeSome] at h
              cases h
              simp
          | hosed =>
              simp only [lock, Bool.false_eq_true, if_false] at h
              cases h
              simp [Code.toErrorCode]

namespace Out

variable {o : Out} {blob : Blob}

/-- The wait for the socket is asked for unless that has been put away. -/
theorem asyncWriteQHeadPayload_err_iff (herr : o.pendingErrCode = none) :
    o.asyncWriteQHeadPayload.pendingErrCode.isSome ↔ o.peerSocket.lock.alive = false := by
  unfold asyncWriteQHeadPayload assert
  simp only
  split
  · rename_i halive
    simp [herr, halive]
  · rename_i halive
    simpa using halive

/-- What is left of a payload is not queued only if the socket has been put away. -/
theorem queuePayload_flushed_iff {n : Nat} (herr : o.pendingErrCode = none) :
    (o.queuePayload none blob n false).1 = true ↔
      o.pendingPayloadsQ = [] ∧ o.peerSocket.lock.alive = false := by
  unfold queuePayload
  simp only [Bool.false_eq_true, if_false, false_and]
  by_cases hq : o.pendingPayloadsQ = []
  · rw [if_pos (by simp [hq]), asyncWriteQHeadPayload_err_iff (by exact herr)]
    exact ⟨fun h => ⟨hq, h⟩, fun h => h.2⟩
  · rw [if_neg (by simpa using hq)]
    exact ⟨fun h => (by cases h), fun h => absurd h.1 hq⟩

/-- What it takes for a payload not to be queued. -/
theorem syncWriteOrQPayload_flushed_iff (herr : o.pendingErrCode = none) (hblob : blob ≠ []) :
    (o.syncWriteOrQPayload none blob false).1 = true ↔
      o.pendingPayloadsQ = [] ∧ o.peerSocket.NeedsNoWait blob.length := by
  unfold syncWriteOrQPayload
  rw [assert_of herr]
  simp only
  split
  · rename_i hq
    rcases hwrite : o.peerSocket.sndNbWriteLowLvlPayload none blob with ⟨n, err, p⟩
    rw [PeerSocket.needsNoWait_iff hblob hwrite]
    simp only
    split
    · rename_i hsome
      exact ⟨fun _ => ⟨hq, .inl hsome⟩, fun _ => rfl⟩
    · rename_i hnone
      split
      · rename_i hfull
        exact ⟨fun _ => ⟨hq, .inr (.inl hfull)⟩, fun _ => rfl⟩
      · rename_i hpart
        rw [queuePayload_flushed_iff (by simpa using hnone)]
        simp [hq, hnone, hpart]
  · rename_i hq
    rw [queuePayload_flushed_iff herr]
    exact ⟨fun h => absurd h.1 hq, fun h => absurd h.1 hq⟩

end Out

namespace NativeSocketStreamSnd

variable {s s' : NativeSocketStreamSnd} {told : Option (List Frame)} {ks : List SockAnswer}
  {f : Nat} {err : ErrorCode}

/-- The graceful close need not be queued: there is an error already, or nothing is queued and the
socket, answering `ks`, takes the two bytes, fails, or has been put away. -/
def EndsAtOnce (s : NativeSocketStreamSnd) (ks : List SockAnswer) : Prop :=
  s.out.pendingErrCode.isSome ∨
    (s.out.pendingPayloadsQ = [] ∧ (s.withAnswers ks).out.peerSocket.NeedsNoWait 2)

/-- An accepted call reports would-block exactly if the graceful close has to be queued. -/
theorem Inv.endsAtOnce_iff (h : s.Inv told)
    (hcall : (s.withAnswers ks).asyncEndSending f = (true, err, s')) :
    s.EndsAtOnce ks ↔ err ≠ wouldBlock := by
  have hu := h.withAnswers ks
  unfold EndsAtOnce
  rw [show s.out.pendingErrCode = (s.withAnswers ks).out.pendingErrCode from rfl,
    show s.out.pendingPayloadsQ = (s.withAnswers ks).out.pendingPayloadsQ from rfl]
  generalize s.withAnswers ks = u at hu hcall
  unfold asyncEndSending NativeSocketStreamSnd.asyncEndSendingImpl at hcall
  split at hcall
  · cases hcall
  · split at hcall
    · cases hcall
    · rename_i hfin
      simp only at hcall
      split at hcall
      · rename_i herr
        cases hcall
        exact ⟨fun _ => hu.carries.ok.genuine.1, fun _ => .inl herr⟩
      · rename_i herr
        have herr : u.out.pendingErrCode = none := by simpa using herr
        rw [assert_of (by exact hu.handler_eq_none (by simpa using hfin))] at hcall
        rcases hw : u.out.syncWriteOrQPayload none (lengthBytes 0) false with ⟨fl, out⟩
        have hiff := Out.syncWriteOrQPayload_flushed_iff herr (lengthBytes_ne_nil 0)
        rw [hw, length_lengthBytes] at hiff
        have hne : out.pendingErrCode ≠ wouldBlock :=
          (Out.syncWriteOrQPayload_cases hu.carries.ok herr (lengthBytes_ne_nil 0) (fun _ => rfl)
            hw).1.ok.genuine.1
        rw [herr, ← hiff]
        simp only [hw] at hcall
        cases fl with
        | true =>
            simp at hcall
            simpa [← hcall.1] using hne
        | false =>
            simp at hcall
            simp [← hcall.1]

/-- A sender that has finished and has nothing to send any more. -/
structure Done (s : NativeSocketStreamSnd) : Prop where
  inv : ∃ told, s.Inv told
  finished : s.finished = true
  nothing : s.out.pendingErrCode.isSome ∨ s.out.pendingPayloadsQ = []
  noFailure : s.assertFailed = false

/-- Who has ended the sending has started it. -/
theorem Done.started (h : s.Done) : s.started = true := by
  obtain ⟨told, hinv⟩ := h.inv
  by_contra hs
  have hfin := (hinv.fresh (by simpa using hs)).2.1
  rw [h.finished] at hfin
  cases hfin

/-- The timer does not matter any more. -/
theorem Done.setTimer (h : s.Done) {t : Timer} (ht : t.Ok)
    (hoff : s.autoPingPeriod = 0 → t.evWaits = 0) :
    ({ s with autoPingTimer := t } : NativeSocketStreamSnd).Done := by
  obtain ⟨told, hinv⟩ := h.inv
  exact ⟨⟨told, hinv.setTimer ht hoff⟩, h.finished, h.nothing, h.noFailure⟩

/-- It refuses to be finished once more. -/
theorem Done.asyncEndSendingImpl (h : s.Done) (onDoneFunc : Option Nat) :
    s.asyncEndSendingImpl onDoneFunc = (false, none, s) := by
  unfold NativeSocketStreamSnd.asyncEndSendingImpl
  split
  · rfl
  · rw [if_pos h.finished]

/-- It refuses to ping. -/
theorem Done.autoPing (h : s.Done) (period : {n : Nat // 0 < n}) :
    s.autoPing period = (false, s) := by
  unfold NativeSocketStreamSnd.autoPing
  rw [assert_of period.property]
  simp only
  split
  · rfl
  · rw [if_pos h.finished]

/-- Its pings are over. -/
theorem onEvAutoPingNowTimerFired_of_finished (h : s.finished = true) :
    s.onEvAutoPingNowTimerFired =
      { s with autoPingTimer := s.autoPingTimer.consumeTimerFiringSignal } := by
  unfold onEvAutoPingNowTimerFired
  simp only
  split
  · rfl
  · rfl

/-- A sender that has finished stays so, and invokes nothing. -/
theorem Done.step {i : Input} {obs : List Obs} (h : s.Done) (hstep : s.step i ks = some (s', obs)) :
    s'.Done ∧ invoked obs = [] := by
  obtain ⟨told, hinv⟩ := h.inv
  have hu : (s.withAnswers ks).Done :=
    ⟨⟨told, hinv.withAnswers ks⟩, h.finished, h.nothing, h.noFailure⟩
  unfold NativeSocketStreamSnd.step at hstep
  generalize s.withAnswers ks = u at hu hstep
  obtain ⟨told, hinv⟩ := hu.inv
  cases i with
  | connected =>
      cases hstep
      exact ⟨⟨⟨told, { hinv with }⟩, hu.finished, hu.nothing, hu.noFailure⟩, rfl⟩
  | startSendNativeHandleOps =>
      cases hstep
      rw [startSendNativeHandleOps, if_pos hu.started]
      exact ⟨hu, rfl⟩
  | sendNativeHandle m =>
      rcases hcall : u.sendNativeHandle m.val.1 m.val.2 with ⟨ok, err, t⟩
      rcases sendNativeHandle_cases hcall with ⟨hrefused, rfl⟩ | ⟨hopen, -⟩
      · simp only [hcall] at hstep
        split at hstep
        · rename_i heq
          cases heq
          exact absurd ⟨rfl, rfl⟩ hrefused
        · rename_i heq
          cases heq
          cases hstep
          exact ⟨hu, rfl⟩
      · have hfin := hopen.notFinished
        rw [hu.finished] at hfin
        cases hfin
  | endSending =>
      simp only [endSending, hu.asyncEndSendingImpl] at hstep
      cases hstep
      exact ⟨hu, rfl⟩
  | asyncEndSending g =>
      simp only [asyncEndSending, hu.asyncEndSendingImpl] at hstep
      cases hstep
      exact ⟨hu, rfl⟩
  | autoPing period =>
      cases hstep
      rw [hu.autoPing]
      exact ⟨hu, rfl⟩
  | socketWritable =>
      simp only at hstep
      split at hstep
      · rename_i hw
        obtain ⟨herr, hq, -⟩ := hinv.of_evWaits hw
        have hnothing := hu.nothing
        simp [herr, hq] at hnothing
      · cases hstep
  | timerFires =>
      simp only [Option.map_eq_some_iff] at hstep
      obtain ⟨t, hfire, heq⟩ := hstep
      cases heq
      refine ⟨hu.setTimer (hinv.timer.fire hfire) ?_, rfl⟩
      intro hoff
      rw [Timer.fire_evWaits hfire]
      exact hinv.timer_off hoff
  | timerReadable =>
      simp only [Option.map_eq_some_iff] at hstep
      obtain ⟨t, htake, heq⟩ := hstep
      cases heq
      obtain ⟨hok, hzero⟩ := hinv.timer.takeEvent htake
      rw [onEvAutoPingNowTimerFired_of_finished (by exact hu.finished)]
      exact ⟨hu.setTimer hok fun _ => hzero, rfl⟩

/-- Over any run. -/
theorem Done.run (h : s.Done) {is : List (Input × List SockAnswer)} {obs : List Obs}
    (hrun : Run Step (s, []) is (s', obs)) : s'.NoFailure ∧ invoked obs = [] := by
  have hinv : s'.Done ∧ invoked obs = [] := by
    refine Run.invariant (P := fun w => w.1.Done ∧ invoked w.2 = []) ?_ hrun ⟨h, rfl⟩
    rintro w i w' ⟨hd, hnil⟩ hstep
    obtain ⟨r, hr, rfl⟩ := Option.map_eq_some_iff.mp hstep
    obtain ⟨hd', hnil'⟩ := hd.step hr
    refine ⟨hd', ?_⟩
    rw [invoked, List.filterMap_append]
    exact List.append_eq_nil_iff.mpr ⟨hnil, hnil'⟩
  obtain ⟨told, hs⟩ := hinv.1.inv
  exact ⟨⟨hs.noFailure, hinv.1.noFailure⟩, hinv.2⟩

/-- **Completion of `async_end_sending()`.** Of any sender that is reached and any answers of the
socket: an accepted call keeps its promise exactly where the graceful close need not be queued. -/
theorem completes_iff (hs : s.Reached)
    (hcall : (s.withAnswers ks).asyncEndSending f = (true, err, s')) :
    Completes s' f err ↔ s.EndsAtOnce ks := by
  obtain ⟨told, hinv⟩ := hs.exists_inv
  rw [hinv.endsAtOnce_iff hcall]
  have hu := hinv.withAnswers ks
  obtain ⟨-, hout⟩ := hu.asyncEndSendingImpl hcall
  constructor
  · intro hc
    cases hout with
    | refused hok => cases hok
    | failed _ herr hinv' =>
        rw [herr.2]
        exact hinv'.carries.ok.genuine.1
    | flushed _ herr => simp [herr]
    | queued _ _ _ _ _ _ hfail =>
        -- The assertion that the handler has not been put away yet has failed.
        have hnot : ¬ s'.NoFailure := by
          rintro ⟨-, hnone⟩
          simp [hfail] at hnone
        cases hc with
        | atOnce _ hsilent => exact absurd (hsilent [] s' [] (Run.nil _)).1 hnot
        | later _ honce => exact absurd (honce [] s' [] (Run.nil _)).1 hnot
  · intro hne
    apply Completes.atOnce hne
    intro is t obs hrun
    apply Done.run ?_ hrun
    -- The call was accepted, so nothing had gone wrong before it.
    have hopen : s.finished = false := by
      cases hfin : s.finished with
      | false => rfl
      | true =>
          unfold asyncEndSending NativeSocketStreamSnd.asyncEndSendingImpl at hcall
          rw [if_pos (show (s.withAnswers ks).finished = true from hfin)] at hcall
          split at hcall <;> cases hcall
    have hunhurt := hinv.unhurt hopen
    cases hout with
    | refused hok => cases hok
    | failed _ herr hinv' hfin hfail =>
        exact ⟨⟨told, hinv'⟩, hfin, .inl (herr.2 ▸ herr.1), hfail.trans hunhurt⟩
    | flushed _ _ hinv' hsent hfin hfail =>
        obtain ⟨fs, -, hinv'⟩ := hinv'
        exact ⟨⟨_, hinv'⟩, hfin, .inr hsent.2, hfail.trans hunhurt⟩
    | queued _ herr => exact absurd herr hne

/-- A sender that was constructed around a connected socket and has sent its version. -/
def opened : NativeSocketStreamSnd :=
  ((ctor true ⟨true, [], 0, []⟩).withAnswers [.moves 1]).startSendNativeHandleOps.2

/-- It can be reached. -/
theorem reached_opened : opened.Reached := by
  refine ⟨[], (ctor true ⟨true, [], 0, []⟩, []), [(.startSendNativeHandleOps, [.moves 1])], ?_, ?_⟩
  · exact ⟨true, ⟨true, [], 0, []⟩, rfl, rfl⟩
  · exact Run.single rfl

/-- The socket takes both bytes. -/
theorem completes_opened :
    Completes ((opened.withAnswers [.moves 1]).asyncEndSending 7).2.2 7 none ↔
      opened.EndsAtOnce [.moves 1] :=
  completes_iff reached_opened rfl

/-- The socket would block: the handler is lost, and an assertion fails. -/
theorem not_completes_wouldBlock :
    ¬ ∀ s, Reached s → ∀ ks f err s', (s.withAnswers ks).asyncEndSending f = (true, err, s') →
      Completes s' f err := by
  intro h
  have hc := h opened reached_opened [.wouldBlock] 7 _ _ rfl
  cases hc with
  | atOnce hcode _ => exact hcode rfl
  | later _ honce =>
      have hfail := (honce [] _ [] (Run.nil _)).1.2
      exact absurd hfail (by decide)

end NativeSocketStreamSnd

end FlowIpc.SocketStream
