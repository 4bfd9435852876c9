import FlowIpc.Lib.Transition
import FlowIpc.SocketStream.Serving
import Mathlib.Data.PNat.Defs

/-!
# Each request to receive is done with once

Whatever comes in, and whatever the order of requests, events and timeouts: a request that was accepted
is done with once, at once or by its handler; while it is outstanding, and at no other time, one wait
for the socket can still do something, and what that has captured is what the bytes that have come in
say (`midst`). An error stays, and is the answer to any later request; nothing is read any more.

A wait that is left over from a request that an idle timeout has completed is reported to the receiver
like any other; the error is there then, so that nothing is done.

Source: `sync_io/detail/native_socket_stream_impl_rcv.cpp`.
-/

namespace FlowIpc.SocketStream

open Lts Negotiation

namespace NativeSocketStreamRcv

variable {r r' : NativeSocketStreamRcv} {tr tr' : Trace} {st : Status} {neg : Bool} {part : List Cell}
  {q : RcvUserRequest} {e : Err}

/-! ## What a wait has captured -/

/-- What a wait records is what all the cells that have come in leave unfinished. -/
theorem midst_of_records (is : r.inp.At neg part) (records : r.inp.Records q neg part) :
    midst r.inp.peerSocket.taken = part := by
  cases hneg : neg with
  | false =>
      rw [is.fresh hneg, midst, if_pos]
      cases records with
      | start => simp
      | head => simp
      | blob => cases hneg
  | true =>
      rw [(is.settled hneg).2]
      cases records with
      | start => simp
      | head => simp
      | @blob c d l _ _ _ left _ notPing =>
          apply unfinished_of_lt
          rw [blobLength, if_neg notPing]
          exact left

/-- A request is there exactly if one wait can still do something, and what that has captured. -/
theorem Is.request_iff (h : r.Is st) :
    (r.inp.userRequest.isSome ↔ r.inp.pendingErrCode = none ∧
      r.inp.evWaits = [waitFor (midst r.inp.peerSocket.taken)]) ∧
    r.inp.evWaits.length ≤ 1 ∧
    (r.inp.pendingErrCode = none → r.inp.userRequest = none → r.inp.evWaits = []) := by
  cases h with
  | idle is waits request =>
      rw [waits, request]
      simp
  | busy is waits request records =>
      rw [waits, request, is.err, midst_of_records is records]
      simp
  | latched _ err _ waits request =>
      rw [err, request]
      simp [waits]

/-! ## After an error -/

/-- What a receiver that keeps an error answers to a call, or an event. -/
def Input.told (e : Err) : Input → List Obs
  | .asyncReceiveNativeHandle hndl _ f => [.returned true f ⟨some e, some hndl, []⟩]
  | .asyncReceiveBlob _ f => [.returned true f ⟨some e, none, []⟩]
  | _ => []

/-- A receiver with an error, which had begun. -/
structure Latched (r : NativeSocketStreamRcv) (e : Err) : Prop where
  err : r.inp.pendingErrCode = some e
  request : r.inp.userRequest = none
  begun : r.started = true ∧ r.statePeer = true

/-- An error, once there, is latched. -/
theorem Is.latched_of_err (h : r.Is st) (hbegun : r.Begun) (herr : r.inp.pendingErrCode = some e) :
    r.Latched e := by
  have hboth : r.started = true ∧ r.statePeer = true := by
    rcases hbegun with hboth | ⟨-, hnone, -⟩
    · exact hboth
    · rw [herr] at hnone
      cases hnone
  cases h with
  | idle is _ _ =>
      rw [is.err] at herr
      cases herr
  | busy is _ _ _ =>
      rw [is.err] at herr
      cases herr
  | latched _ _ _ _ request => exact ⟨herr, request, hboth⟩

/-- It keeps the error, tells it, and leaves the socket alone. -/
theorem Latched.step {i : Input} {ks : List SockAnswer} {obs : List Obs} (h : r.Latched e)
    (hstep : r.step i ks = some (r', obs)) :
    r'.Latched e ∧ r'.inp.peerSocket = { r.inp.peerSocket with answers := ks } ∧
      obs = i.told e := by
  obtain ⟨herr, hreq, hstarted, hpeer⟩ := h
  have hu : (r.withAnswers ks).Latched e := ⟨herr, hreq, hstarted, hpeer⟩
  have hsocket : (r.withAnswers ks).inp.peerSocket = { r.inp.peerSocket with answers := ks } := rfl
  have hsome : (r.withAnswers ks).inp.pendingErrCode.isSome = true := by rw [hu.err]; rfl
  rw [← hsocket]
  unfold NativeSocketStreamRcv.step at hstep
  generalize r.withAnswers ks = u at hu hsome hstep ⊢
  -- A request is told the error, if it is not refused.
  have hask : ∀ hndl buf f, u.asyncReceiveNativeHandleImpl hndl buf f =
      (true, ⟨some e, hndl, []⟩, u.resetRequest) := by
    intro hndl buf f
    unfold asyncReceiveNativeHandleImpl
    rw [if_neg (by simp [hu.begun]), if_neg (by simp [hu.request]), if_pos hsome, hu.err]
  cases i with
  | connected =>
      cases hstep
      exact ⟨⟨hu.err, hu.request, hu.begun.1, rfl⟩, rfl, rfl⟩
  | startReceiveNativeHandleOps =>
      cases hstep
      unfold startReceiveNativeHandleOps
      rw [if_pos hu.begun.1]
      exact ⟨hu, rfl, rfl⟩
  | asyncReceiveNativeHandle hndl buf f =>
      simp only [asyncReceiveNativeHandle, hask] at hstep
      cases hstep
      exact ⟨⟨hu.err, rfl, hu.begun⟩, rfl, rfl⟩
  | asyncReceiveBlob buf f =>
      simp only [asyncReceiveBlob, hask] at hstep
      cases hstep
      exact ⟨⟨hu.err, rfl, hu.begun⟩, rfl, rfl⟩
  | idleTimerRun timeout =>
      cases hstep
      unfold NativeSocketStreamRcv.idleTimerRun
      rw [assert_of timeout.property]
      simp only
      rw [if_neg (by simp [hu.begun])]
      split
      · exact ⟨hu, rfl, rfl⟩
      · exact ⟨⟨hu.err, hu.request, hu.begun⟩, rfl, rfl⟩
  | socketReadable msgState =>
      simp only at hstep
      split at hstep
      · unfold NativeSocketStreamRcv.onEvPeerSocketReadableOrError at hstep
        rw [if_pos hsome, assert_of (by exact hu.request)] at hstep
        cases hstep
        exact ⟨⟨hu.err, hu.request, hu.begun⟩, rfl, rfl⟩
      · cases hstep
  | timerFires =>
      simp only [Option.map_eq_some_iff] at hstep
      obtain ⟨t, -, heq⟩ := hstep
      cases heq
      exact ⟨⟨hu.err, hu.request, hu.begun⟩, rfl, rfl⟩
  | timerReadable =>
      simp only [Option.map_eq_some_iff] at hstep
      obtain ⟨t, -, heq⟩ := hstep
      unfold NativeSocketStreamRcv.onEvIdleTimerFired at heq
      simp only at heq
      rw [if_pos hsome] at heq
      cases heq
      exact ⟨⟨hu.err, hu.request, hu.begun⟩, rfl, rfl⟩

/-- Over a run. -/
theorem Latched.run {is : List (Input × List SockAnswer)} (h : r.Latched e)
    (hrun : Run Step (r, tr) is (r', tr')) :
    r'.inp.pendingErrCode = some e ∧
      (∃ ks, r'.inp.peerSocket = { r.inp.peerSocket with answers := ks }) ∧
      ∃ more, tr' = tr ++ more ∧ ∀ x ∈ more, x.2 = x.1.told e := by
  suffices hall : r'.Latched e ∧ (∃ ks, r'.inp.peerSocket = { r.inp.peerSocket with answers := ks }) ∧
      ∃ more, tr' = tr ++ more ∧ ∀ x ∈ more, x.2 = x.1.told e from ⟨hall.1.err, hall.2⟩
  refine Run.invariant (P := fun w => w.1.Latched e ∧
    (∃ ks, w.1.inp.peerSocket = { r.inp.peerSocket with answers := ks }) ∧
      ∃ more, w.2 = tr ++ more ∧ ∀ x ∈ more, x.2 = x.1.told e) ?_ hrun
    ⟨h, ⟨r.inp.peerSocket.answers, rfl⟩, [], (List.append_nil tr).symm, fun x hx => by cases hx⟩
  rintro w ⟨i, ks⟩ w' ⟨hlatched, ⟨ks', hsocket⟩, more, htr, hmore⟩ hstep
  obtain ⟨⟨r₁, obs⟩, hr, rfl⟩ := Option.map_eq_some_iff.mp hstep
  obtain ⟨hlatched', hsocket', hobs⟩ := hlatched.step hr
  refine ⟨hlatched', ⟨ks, by rw [hsocket', hsocket]⟩, more ++ [(i, obs)], ?_, ?_⟩
  · rw [htr, List.append_assoc]
  · intro x hx
    rcases List.mem_append.mp hx with hx | hx
    · exact hmore x hx
    · rw [List.mem_singleton.mp hx]
      exact hobs

/-! ## The result -/

/-- What holds after any run. -/
theorem is_of_run {w : NativeSocketStreamRcv × Trace} {is : List (Input × List SockAnswer)}
    (hw : Init w) (h : Run Step w is (r, tr)) :
    ∃ st, r.Is st ∧ r.Begun ∧ (seen tr).foldlM account none = some st.pending := by
  obtain ⟨statePeer, p, hp, rfl⟩ := hw
  refine Run.invariant (P := fun w => ∃ st, w.1.Is st ∧ w.1.Begun ∧
    (seen w.2).foldlM account none = some st.pending) ?_ h
    ⟨.idle false, is_ctor hp, .inr ⟨rfl, rfl, rfl⟩, rfl⟩
  rintro w ⟨i, ks⟩ w' ⟨st, his, hbegun, haccount⟩ hstep
  obtain ⟨⟨r₁, obs⟩, hr, rfl⟩ := Option.map_eq_some_iff.mp hstep
  obtain ⟨st', hdoes⟩ := his.step hbegun hr
  refine ⟨st', hdoes.is, hdoes.begun, ?_⟩
  rw [seen_snoc, List.foldlM_append, haccount]
  exact hdoes.accounts

/-- A request of which a byte has come in when the idle timer fires; its wait is reported then. -/
def sampleTimeout : List (Input × List SockAnswer) :=
  [(.startReceiveNativeHandleOps, []), (.idleTimerRun (Nat.succPNat 4), []),
    (.asyncReceiveBlob [0, 0] 3, [.moves 1, .moves 0, .moves 9]), (.timerFires, []),
    (.timerReadable, []), (.socketReadable (.headPayload 1), [.moves 9]),
    (.asyncReceiveBlob [0, 0] 4, [.moves 9])]

end NativeSocketStreamRcv

end FlowIpc.SocketStream
