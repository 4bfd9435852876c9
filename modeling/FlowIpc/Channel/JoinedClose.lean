import FlowIpc.Adapter.MqSndCore
import FlowIpc.Channel.EndSending
import FlowIpc.SocketStream.EndSending
import FlowIpc.SocketStream.Progress
import FlowIpc.MqStream.Progress

/-!
# Ending the sending over queues and a socket

The `sync_io` overload of `Channel::async_end_sending()`, of a channel whose blobs pipe is a queue stream and whose
handles pipe is a socket stream; these two in full. What `Channel.EndSending` takes for granted of any pipe, that
it runs the handler it was left with once, later, is true of the former only: the handler that a socket stream is
to keep is lost (`silent_step`).

**Result** (`joinedClose`). In every run, as long as the channel's own assertion has not failed, the user's handler
has been invoked exactly if the accepted call left the blobs pipe something to send and the handles pipe nothing,
and the former has sent it, or failed, since; then once, with the first error of the two. So where the handles pipe
had something to send, the handler is never invoked.

The channel's part is that of `Channel.EndSending`, step by step: with each pipe taken for what the concept makes of
it (`World.channel`), the record is joined as it is there (`Inv.phase`).

Source: `channel.hpp` `Channel::async_end_sending(Error_code*, Task_err&&)`, `Channel::end_sending`.
-/

namespace FlowIpc.ChannelClose

open Lts ChannelEnd MqStream SocketStream

/-! ## The channel -/

/-- An `async_end_sending()` that the blobs pipe has accepted. -/
structure Begun where
  /-- The record of the call, by its position. -/
  k : Nat
  /-- The user's handler. -/
  onDoneFunc : Nat
  /-- `sync_err_code1` -/
  errCode1 : ErrorCode
  /-- `sync_err_code2` -/
  errCode2 : ErrorCode

/-- A channel with its two sending pipes, and what has been seen of it. -/
structure World where
  /-- `blob_snd()` -/
  blobSnd : BlobStreamMqSender
  /-- `hndl_snd()` -/
  hndlSnd : NativeSocketStreamSnd
  /-- Every record made, in order; a joining handler refers to one by its position. -/
  states : List State
  /-- User handlers invoked, and with what. -/
  invoked : List (Nat × ErrorCode)
  /-- Some assertion of the channel's has failed; execution goes on, as in a build without assertions. -/
  assertFailed : Bool
  /-- The call that was accepted. -/
  begun : Option Begun

namespace World

/-- `assert(p)` -/
def assert (w : World) (p : Prop) [Decidable p] : World :=
  { w with assertFailed := w.assertFailed || !decide p }

/-- Replaces the record `k`. -/
def setState (w : World) (k : Nat) (state : State) : World :=
  { w with states := w.states.set k state }

/-- The joining handler over record `k`, run by a pipe with result `asyncErrCode`.
Source: `channel.hpp` `Channel::async_end_sending(Error_code*, Task_err&&)`, local `combined_on_done` -/
def combinedOnDone (w : World) (k : Nat) (asyncErrCode : ErrorCode) : World :=
  match w.states[k]? with
  | none => w
  | some state =>
    let postNDone := state.nDone + 1
    let w := w.assert (postNDone = 1 ∨ postNDone = 2)
    if postNDone = 2 then
      let err := if state.errCode1.isSome then state.errCode1 else asyncErrCode
      let w := w.setState k { state with nDone := postNDone }
      { w with invoked := w.invoked ++ [(state.onDoneFunc, err)] }
    else
      w.setState k { state with nDone := postNDone, errCode1 := asyncErrCode }

/-- `async_end_sending()`, during which the transports of the pipes answer `ks` and `ks'`; `ptr` is what
`sync_err_code_ptr` points to, if it is not null.
Source: `channel.hpp` `Channel::async_end_sending(Error_code*, Task_err&&)` -/
def asyncEndSending (w : World) (ptr : Option ErrorCode) (onDoneFunc : Nat) (ks : List MqAnswer)
    (ks' : List SockAnswer) : Emit Bool × World :=
  let k := w.states.length
  let state : State := { onDoneFunc := onDoneFunc }
  let w := { w with states := w.states ++ [state] }
  let (accepted, syncErrCode1, peer1) := (w.blobSnd.withAnswers ks).asyncEndSending k
  let w := { w with blobSnd := peer1 }
  if accepted then
    let (ok, syncErrCode2, peer2) := (w.hndlSnd.withAnswers ks').asyncEndSending k
    let w := { w with hndlSnd := peer2, begun := some ⟨k, onDoneFunc, syncErrCode1, syncErrCode2⟩ }
    let w := w.assert (ok = true)
    if syncErrCode1 ≠ wouldBlock ∧ syncErrCode2 ≠ wouldBlock then
      let syncErrCode := if syncErrCode1.isSome then syncErrCode1 else syncErrCode2
      match ptr, syncErrCode with
      | none, some e => (.threw e, w)
      | none, none => (.ret true none, w)
      | some _, err => (.ret true err, w)
    else
      let w :=
        if syncErrCode1 ≠ wouldBlock then
          w.setState k { state with nDone := state.nDone + 1, errCode1 := syncErrCode1 }
        else if syncErrCode2 ≠ wouldBlock then
          w.setState k { state with nDone := state.nDone + 1, errCode1 := syncErrCode2 }
        else w
      (.ret true (ptr.getD none), w)
  else (.ret false (ptr.getD none), w)

/-- `end_sending()`
Source: `channel.hpp` `Channel::end_sending` -/
def endSending (w : World) (ks : List MqAnswer) (ks' : List SockAnswer) : Bool × World :=
  let (accepted, peer1) := (w.blobSnd.withAnswers ks).endSending
  let w := { w with blobSnd := peer1 }
  if accepted then
    let (ok, peer2) := (w.hndlSnd.withAnswers ks').endSending
    (true, { w with hndlSnd := peer2 }.assert (ok = true))
  else (false, w)

/-- Runs joining handlers, each over its record and with its result. -/
def runs (w : World) (handlers : List (Nat × ErrorCode)) : World :=
  handlers.foldl (fun w h => w.combinedOnDone h.1 h.2) w

end World

/-- The handlers that a queue stream's sender invokes. -/
def mqInvoked (obs : List BlobStreamMqSender.Obs) : List (Nat × ErrorCode) :=
  obs.filterMap fun
    | .invoked f err => some (f, err)
    | _ => none

/-- What happens to a channel. -/
inductive Input where
  /-- Something else is done with the blobs pipe. -/
  | blobs (i : {i : BlobStreamMqSender.Input // i.isEnd = false}) (ks : List MqAnswer)
  /-- Something else is done with the handles pipe. -/
  | hndls (i : {i : NativeSocketStreamSnd.Input // i.isEnd = false}) (ks : List SockAnswer)
  /-- `async_end_sending()` -/
  | asyncEndSending (ptr : Option ErrorCode) (onDoneFunc : Nat) (ks : List MqAnswer) (ks' : List SockAnswer)
  /-- `end_sending()` -/
  | endSending (ks : List MqAnswer) (ks' : List SockAnswer)

namespace World

/-- One step: each pipe runs the joining handler if it invokes what it was left with. -/
def next (w : World) : Input → Option World
  | .blobs i ks =>
    (w.blobSnd.step i ks).map fun (peer, obs) => { w with blobSnd := peer }.runs (mqInvoked obs)
  | .hndls i ks =>
    (w.hndlSnd.step i ks).map fun (peer, obs) =>
      { w with hndlSnd := peer }.runs (NativeSocketStreamSnd.invoked obs)
  | .asyncEndSending ptr f ks ks' => some (w.asyncEndSending ptr f ks ks').2
  | .endSending ks ks' => some (w.endSending ks ks').2

/-- The step relation. -/
def Step (w : World) (i : Input) (w' : World) : Prop :=
  w.next i = some w'

/-- A channel just constructed, of a queue and of a socket with a peer, with nothing on either. -/
def init (maxMsgSize : Nat) : World :=
  ⟨.ctor ⟨maxMsgSize, [], 0, []⟩, .ctor true ⟨true, [], 0, []⟩, [], [], false, none⟩

/-- A state that a channel can come to. -/
def Reached (w : World) : Prop :=
  Reachable Step (fun w => ∃ n, w = init n) w

end World

/-! ## The pipes -/

section Mq

variable {s s' : BlobStreamMqSender} {fs : List MqStream.Frame} {i : BlobStreamMqSender.Input}
  {ks : List MqAnswer} {obs : List BlobStreamMqSender.Obs}

/-- What becomes of the handler that a queue stream keeps. -/
inductive Handler (s s' : BlobStreamMqSender) : List (Nat × ErrorCode) → Prop where
  /-- It is kept, if there is one. -/
  | kept (same : s'.pendingOnLastSendDoneFunc = s.pendingOnLastSendDoneFunc) : Handler s s' []
  /-- It is invoked, with the error found, or once all is sent. -/
  | invoked (k : Nat) (before : s.pendingOnLastSendDoneFunc = some k)
      (after : s'.pendingOnLastSendDoneFunc = none)
      (sent : s'.out.pendingErrCode = none → s'.out.pendingPayloadsQ = []) :
      Handler s s' [(k, s'.out.pendingErrCode)]

/-- Whatever is done but to end the sending, the handler is kept or invoked. -/
theorem handler_step (h : s.Inv fs) (hstep : s.step i ks = some (s', obs)) (hend : i.isEnd = false) :
    Handler s s' (mqInvoked obs) := by
  have hu := h.withAnswers ks
  have hkeep : Handler (s.withAnswers ks) s' (mqInvoked obs) → Handler s s' (mqInvoked obs) := by
    intro hcase
    generalize mqInvoked obs = l at hcase ⊢
    cases hcase with
    | kept same => exact .kept same
    | invoked k before after sent => exact .invoked k before after sent
  apply hkeep
  unfold BlobStreamMqSender.step at hstep
  generalize s.withAnswers ks = u at hu hstep ⊢
  cases i with
  | startSendBlobOps =>
      cases hstep
      refine .kept ?_
      unfold BlobStreamMqSender.startSendBlobOps
      split
      · rfl
      · dsimp only
        split <;> rfl
  | sendBlob b =>
      rcases hcall : u.sendBlob b with ⟨ok, err, t⟩
      have hsame : t.pendingOnLastSendDoneFunc = u.pendingOnLastSendDoneFunc := by
        rcases BlobStreamMqSender.sendBlob_cases b.property hcall with ⟨-, rfl⟩ | ⟨-, -, out, -, -, rfl | rfl⟩
        · rfl
        · rfl
        · rw [BlobStreamMqSender.rescheduleAutoPing_eq (s := { u with out := out }) hu.timer]
      simp only [hcall] at hstep
      split at hstep
      · rename_i heq
        cases heq
        cases hstep
        exact .kept hsame
      · rename_i heq
        cases heq
        cases hstep
        exact .kept hsame
  | endSending => cases hend
  | asyncEndSending g => cases hend
  | autoPing period =>
      cases hstep
      refine .kept ?_
      unfold BlobStreamMqSender.autoPing
      rw [BlobStreamMqSender.assert_of period.property]
      dsimp only
      split_ifs <;> rfl
  | mqWritable =>
      simp only [Option.ite_none_right_eq_some] at hstep
      obtain ⟨hw, hstep⟩ := hstep
      rcases hcall : BlobStreamMqSender.onEvMqWritable
        { u with out := { u.out with evWaits := u.out.evWaits - 1 } } with ⟨t, r⟩
      obtain ⟨-, -, -, hout⟩ := hu.onEvMqWritable hw hcall
      rw [hcall] at hstep
      cases hout with
      | silent same =>
          cases hstep
          exact .kept same
      | invoked f err before after code sent =>
          cases hstep
          subst code
          exact .invoked f before after sent
  | timerFires =>
      obtain ⟨t, -, heq⟩ := Option.map_eq_some_iff.mp hstep
      cases heq
      exact .kept rfl
  | timerReadable =>
      obtain ⟨t, -, heq⟩ := Option.map_eq_some_iff.mp hstep
      cases heq
      refine .kept ?_
      unfold BlobStreamMqSender.onEvAutoPingNowTimerFired
      dsimp only
      split_ifs <;> rfl

/-- A queue stream that has ended and has nothing to send any more. -/
structure Settled (s : BlobStreamMqSender) : Prop where
  finished : s.finished = true
  noWait : s.out.evWaits = 0

/-- A sender that has been ended and has sent everything, or failed, is settled. -/
theorem settled_of (h : s.Inv fs) (hfin : s.finished = true)
    (hsent : s.out.pendingErrCode = none → s.out.pendingPayloadsQ = []) : Settled s where
  finished := hfin
  noWait := by
    by_contra hw
    obtain ⟨herr, hq, -⟩ := h.of_evWaits (Nat.pos_of_ne_zero hw)
    exact hq (hsent herr)

/-- It stays so, and comes to no error any more. -/
theorem Settled.step (h : s.Inv fs) (hset : Settled s) (hstep : s.step i ks = some (s', obs))
    (hend : i.isEnd = false) : Settled s' ∧ s'.out.pendingErrCode = s.out.pendingErrCode := by
  have hu := h.withAnswers ks
  have hsetu : Settled (s.withAnswers ks) := ⟨hset.finished, hset.noWait⟩
  change Settled s' ∧ s'.out.pendingErrCode = (s.withAnswers ks).out.pendingErrCode
  unfold BlobStreamMqSender.step at hstep
  generalize s.withAnswers ks = u at hu hsetu hstep ⊢
  cases i with
  | startSendBlobOps =>
      have hstart : u.started = true := by
        by_contra hno
        have hfin := (hu.fresh (Bool.eq_false_of_not_eq_true hno)).2.1
        cases hsetu.finished.symm.trans hfin
      cases hstep
      rw [BlobStreamMqSender.startSendBlobOps, if_pos hstart]
      exact ⟨hsetu, rfl⟩
  | sendBlob b =>
      rcases hcall : u.sendBlob b with ⟨ok, err, t⟩
      have hsame : t = u := by
        rcases BlobStreamMqSender.sendBlob_cases b.property hcall with ⟨-, rfl⟩ | ⟨hsending, -⟩
        · rfl
        · cases hsetu.finished.symm.trans hsending.notFinished
      subst hsame
      simp only [hcall] at hstep
      split at hstep
      · rename_i heq
        cases heq
        cases hstep
        exact ⟨hsetu, rfl⟩
      · rename_i heq
        cases heq
        cases hstep
        exact ⟨hsetu, rfl⟩
  | endSending => cases hend
  | asyncEndSending g => cases hend
  | autoPing period =>
      cases hstep
      rw [Adapter.MqSnd.autoPing_of_finished hsetu.finished]
      exact ⟨hsetu, rfl⟩
  | mqWritable =>
      simp only [Option.ite_none_right_eq_some] at hstep
      exact absurd hsetu.noWait (Nat.ne_of_gt hstep.1)
  | timerFires =>
      obtain ⟨t, -, heq⟩ := Option.map_eq_some_iff.mp hstep
      cases heq
      exact ⟨⟨hsetu.finished, hsetu.noWait⟩, rfl⟩
  | timerReadable =>
      obtain ⟨t, -, heq⟩ := Option.map_eq_some_iff.mp hstep
      cases heq
      rw [Adapter.MqSnd.onEvAutoPingNowTimerFired_of_finished (by exact hsetu.finished)]
      exact ⟨⟨hsetu.finished, hsetu.noWait⟩, rfl⟩

/-- It has sent everything, or failed. -/
def SentOrFailed (s : BlobStreamMqSender) : Prop :=
  s.out.pendingPayloadsQ = [] ∨ s.out.pendingErrCode ≠ none

instance (s : BlobStreamMqSender) : Decidable (SentOrFailed s) :=
  inferInstanceAs (Decidable (_ ∨ _))

/-- No handler is kept exactly if so, where it is known that it has been invoked then. -/
theorem handler_eq_none_iff (h : s.Inv fs) (hset : s.pendingOnLastSendDoneFunc = none → Settled s) :
    s.pendingOnLastSendDoneFunc = none ↔ SentOrFailed s := by
  constructor
  · intro hnone
    by_contra hmore
    obtain ⟨hq, herr⟩ := not_or.mp hmore
    have hwaits := h.carries.ok.evWaits_eq
    rw [if_pos ⟨not_not.mp herr, hq⟩, (hset hnone).noWait] at hwaits
    cases hwaits
  · intro hsent
    by_contra hkept
    obtain ⟨-, herr, hq⟩ := h.pending (Option.isSome_iff_ne_none.mpr hkept)
    exact hsent.elim hq fun hfailed => hfailed herr

end Mq

section Socket

variable {s s' : NativeSocketStreamSnd} {told : Option (List SocketStream.Frame)} {i : NativeSocketStreamSnd.Input}
  {ks : List SockAnswer} {obs : List NativeSocketStreamSnd.Obs}

/-- A socket stream invokes no handler: when the event for which it would be kept comes, it is lost. -/
theorem silent_step (h : s.Inv told) (hstep : s.step i ks = some (s', obs)) :
    NativeSocketStreamSnd.invoked obs = [] := by
  have hu := h.withAnswers ks
  unfold NativeSocketStreamSnd.step at hstep
  generalize s.withAnswers ks = u at hu hstep
  cases i with
  | connected =>
      cases hstep
      rfl
  | startSendNativeHandleOps =>
      cases hstep
      rfl
  | sendNativeHandle m =>
      dsimp only at hstep
      split at hstep
      · cases hstep
        rfl
      · cases hstep
        rfl
  | endSending =>
      cases hstep
      rfl
  | asyncEndSending g =>
      cases hstep
      rfl
  | autoPing period =>
      cases hstep
      rfl
  | socketWritable =>
      simp only [Option.ite_none_right_eq_some] at hstep
      obtain ⟨hw, hstep⟩ := hstep
      rcases hcall : NativeSocketStreamSnd.onEvPeerSocketWritableOrError
        { u with out := { u.out with evWaits := u.out.evWaits - 1 } } with ⟨t, r⟩
      obtain ⟨rfl, -⟩ := hu.onEvPeerSocketWritableOrError hw hcall
      rw [hcall] at hstep
      cases hstep
      rfl
  | timerFires =>
      obtain ⟨t, -, heq⟩ := Option.map_eq_some_iff.mp hstep
      cases heq
      rfl
  | timerReadable =>
      obtain ⟨t, -, heq⟩ := Option.map_eq_some_iff.mp hstep
      cases heq
      rfl

end Socket

/-! ## The channel as `Channel.EndSending` has it -/

namespace World

variable {w w' : World} {b : Begun}

/-- The channel, if its pipes are `p` and `q`. -/
def channel (w : World) (p q : Pipe) : Channel :=
  ⟨p, q, w.states, w.invoked, w.assertFailed⟩

/-- The joining handler does there what it does here. -/
theorem channel_combinedOnDone (w : World) (p q : Pipe) (k : Nat) (e : ErrorCode) :
    (w.combinedOnDone k e).channel p q = (w.channel p q).combinedOnDone k e := by
  unfold combinedOnDone Channel.combinedOnDone
  change _ = match w.states[k]? with
    | none => _
    | some state => _
  cases w.states[k]? with
  | none => rfl
  | some state =>
      dsimp only
      split <;> rfl

/-- It touches neither pipe, nor what has been begun. -/
theorem combinedOnDone_same (w : World) (k : Nat) (e : ErrorCode) :
    (w.combinedOnDone k e).blobSnd = w.blobSnd ∧ (w.combinedOnDone k e).hndlSnd = w.hndlSnd ∧
      (w.combinedOnDone k e).begun = w.begun := by
  unfold combinedOnDone
  split
  · exact ⟨rfl, rfl, rfl⟩
  · dsimp only
    split <;> exact ⟨rfl, rfl, rfl⟩

/-- No assertion that has failed is taken back. -/
theorem combinedOnDone_ok {k : Nat} {e : ErrorCode} (h : (w.combinedOnDone k e).assertFailed = false) :
    w.assertFailed = false := by
  unfold combinedOnDone at h
  split at h
  · exact h
  · dsimp only at h
    split at h
    · exact (Bool.or_eq_false_iff.mp h).1
    · exact (Bool.or_eq_false_iff.mp h).1

/-- The blobs pipe, as the concept has it: it waits for as long as it keeps the handler. -/
def blobPipe (w : World) (b : Begun) : Pipe :=
  if w.blobSnd.pendingOnLastSendDoneFunc = none then .finished else .waiting b.k

/-- The handles pipe, as the concept has it: it waits for good, if it has waited at all. -/
def hndlPipe (b : Begun) : Pipe :=
  if b.errCode2 = wouldBlock then .waiting b.k else .finished

/-- The results known so far, in order. -/
def completed (w : World) (b : Begun) : List ErrorCode :=
  [b.errCode1, b.errCode2].filter (· ≠ wouldBlock) ++
    if b.errCode1 = wouldBlock ∧ w.blobSnd.pendingOnLastSendDoneFunc = none then [w.blobSnd.out.pendingErrCode]
    else []

/-! ## The invariant -/

/-- How far the ending has come. -/
inductive Phase (w : World) : Prop where
  /-- No call with a handler has been accepted. -/
  | before (begun : w.begun = none) (invoked : w.invoked = [])
      (handler : w.blobSnd.pendingOnLastSendDoneFunc = none)
  /-- Both pipes completed at once. -/
  | known (b : Begun) (begun : w.begun = some b) (sync : b.errCode1 ≠ wouldBlock ∧ b.errCode2 ≠ wouldBlock)
      (finished : w.blobSnd.finished = true) (invoked : w.invoked = [])
      (handler : w.blobSnd.pendingOnLastSendDoneFunc = none)
  /-- One at least did not: the two are joined. -/
  | joining (b : Begun) (begun : w.begun = some b) (part : b.errCode1 = wouldBlock ∨ b.errCode2 = wouldBlock)
      (finished : w.blobSnd.finished = true)
      (handler : ∀ k, w.blobSnd.pendingOnLastSendDoneFunc = some k → k = b.k ∧ b.errCode1 = wouldBlock)
      (settled : b.errCode1 = wouldBlock → w.blobSnd.pendingOnLastSendDoneFunc = none → Settled w.blobSnd)
      (join : JoinInv b.k b.onDoneFunc (w.completed b) (w.channel (w.blobPipe b) (hndlPipe b)))

/-- The pipes are in order, and unless an assertion has failed so is the joining. -/
structure Inv (w : World) : Prop where
  blobs : ∃ fs, w.blobSnd.Inv fs
  hndls : ∃ told, w.hndlSnd.Inv told
  phase : w.assertFailed = false → w.Phase

/-- Two pipes just constructed are in order. -/
theorem inv_init (n : Nat) : (init n).Inv where
  blobs := ⟨[], BlobStreamMqSender.inv_ctor rfl⟩
  hndls := ⟨none, NativeSocketStreamSnd.inv_ctor rfl⟩
  phase _ := .before rfl rfl rfl

/-- What matters of the blobs pipe: the handles pipe may be any. -/
theorem Phase.setHndl (h : w.Phase) (p : NativeSocketStreamSnd) : Phase { w with hndlSnd := p } := by
  cases h with
  | before begun invoked handler => exact .before begun invoked handler
  | known b begun sync finished invoked handler => exact .known b begun sync finished invoked handler
  | joining b begun part finished handler settled join =>
      exact .joining b begun part finished handler settled join

/-- A call that is refused leaves a record that nothing refers to. -/
theorem Phase.addState (h : w.Phase) (state : State) : Phase { w with states := w.states ++ [state] } := by
  cases h with
  | before begun invoked handler => exact .before begun invoked handler
  | known b begun sync finished invoked handler => exact .known b begun sync finished invoked handler
  | joining b begun part finished handler settled join =>
      exact .joining b begun part finished handler settled (join.of_states_append [state])

/-- The blobs pipe does something else, and keeps its handler. -/
theorem Phase.keeps (h : w.Phase) {p : BlobStreamMqSender}
    (hsame : p.pendingOnLastSendDoneFunc = w.blobSnd.pendingOnLastSendDoneFunc)
    (hfin : w.blobSnd.finished = true → p.finished = true)
    (hset : Settled w.blobSnd → Settled p ∧ p.out.pendingErrCode = w.blobSnd.out.pendingErrCode) :
    Phase { w with blobSnd := p } := by
  cases h with
  | before begun invoked handler => exact .before begun invoked (hsame.trans handler)
  | known b begun sync finished invoked handler =>
      exact .known b begun sync (hfin finished) invoked (hsame.trans handler)
  | joining b begun part finished handler settled join =>
      refine .joining b begun part (hfin finished) ?_ ?_ ?_
      · intro k hk
        exact handler k (hsame.symm.trans hk)
      · intro he hnone
        exact (hset (settled he (hsame.symm.trans hnone))).1
      · -- The result of a pipe that has settled does not change any more.
        have hcompleted : completed { w with blobSnd := p } b = w.completed b := by
          unfold completed
          dsimp only
          rw [hsame]
          split
          · rename_i hdone
            rw [(hset (settled hdone.1 hdone.2)).2]
          · rfl
        have hpipe : blobPipe { w with blobSnd := p } b = w.blobPipe b := by
          unfold blobPipe
          dsimp only
          rw [hsame]
        rw [hcompleted, hpipe]
        exact join

/-- The blobs pipe runs the joining handler. -/
theorem Phase.invokes (h : w.Phase) {p : BlobStreamMqSender} {k : Nat}
    (hbefore : w.blobSnd.pendingOnLastSendDoneFunc = some k) (hafter : p.pendingOnLastSendDoneFunc = none)
    (hfin : w.blobSnd.finished = true → p.finished = true) (hset : p.finished = true → Settled p) :
    Phase ({ w with blobSnd := p }.combinedOnDone k p.out.pendingErrCode) := by
  cases h with
  | before begun invoked handler => cases handler.symm.trans hbefore
  | known b begun sync finished invoked handler => cases handler.symm.trans hbefore
  | joining b begun part finished handler settled join =>
      obtain ⟨rfl, he⟩ := handler k hbefore
      obtain ⟨hblob, -, hbegun⟩ := combinedOnDone_same { w with blobSnd := p } b.k p.out.pendingErrCode
      refine .joining b (hbegun.trans begun) part ?_ ?_ ?_ ?_
      · rw [hblob]
        exact hfin finished
      · intro k' hk'
        rw [hblob, hafter] at hk'
        cases hk'
      · intro _ _
        rw [hblob]
        exact hset (hfin finished)
      · -- There it is a step of the blobs pipe.
        have hwaiting : (w.channel (w.blobPipe b) (hndlPipe b)).blobSnd = .waiting b.k :=
          if_neg (by rw [hbefore]; exact fun hno => by cases hno)
        have hstep : ChannelEnd.Step callSync _ (.blobDone p.out.pendingErrCode) _ :=
          .blobDone _ b.k _ hwaiting
        have hjoin := joinInv_step refuses_callSync join hstep
        have hpipe : ({ w with blobSnd := p }.combinedOnDone b.k p.out.pendingErrCode).blobPipe b = .finished := by
          unfold blobPipe
          rw [hblob]
          exact if_pos hafter
        have hcompleted : ({ w with blobSnd := p }.combinedOnDone b.k p.out.pendingErrCode).completed b =
            w.completed b ++
              completions [(.blobDone p.out.pendingErrCode : ChannelEnd.Input (Option ErrorCode × Nat))] := by
          unfold completed
          rw [hblob, if_pos ⟨he, hafter⟩, if_neg (by rw [hbefore]; exact fun hno => by cases hno.2), List.append_nil]
          rfl
        rw [hpipe, hcompleted, channel_combinedOnDone]
        exact hjoin

/-! ### Calls -/

/-- A call that a queue stream takes: what it answers, and what it keeps. -/
theorem mqTakes {s s' : BlobStreamMqSender} {fs : List MqStream.Frame} {f : Option Nat} {ok : Bool}
    {err : ErrorCode} (h : s.Inv fs) (hcall : s.asyncEndSendingImpl f = (ok, err, s')) :
    (∃ gs, s'.Inv gs) ∧
      (ok = false ∧ s' = s ∨
        ok = true ∧ s.finished = false ∧ s'.finished = true ∧
          (err ≠ wouldBlock ∧ s'.pendingOnLastSendDoneFunc = none ∨
            err = wouldBlock ∧ s'.pendingOnLastSendDoneFunc = f)) := by
  obtain ⟨-, hout⟩ := h.asyncEndSendingImpl hcall
  cases hout with
  | refused ok err state why =>
      subst state
      exact ⟨⟨fs, h⟩, .inl ⟨ok, rfl⟩⟩
  | failed open' ok err inv finished handler =>
      obtain ⟨gs, hinv⟩ : ∃ gs, s'.Inv gs := inv.elim (fun h => ⟨_, h⟩) (fun h => ⟨_, h⟩)
      refine ⟨⟨gs, hinv⟩, .inr ⟨ok, open'.2, finished, .inl ⟨?_, handler⟩⟩⟩
      rw [err.2]
      exact hinv.carries.ok.genuine.1
  | flushed open' ok err inv sent finished handler =>
      refine ⟨⟨_, inv⟩, .inr ⟨ok, open'.2, finished, .inl ⟨?_, handler⟩⟩⟩
      rw [err]
      exact fun hno => by cases hno
  | pending open' ok err inv finished handler =>
      exact ⟨⟨_, inv⟩, .inr ⟨ok, open'.2, finished, .inr ⟨err, handler⟩⟩⟩

/-- The answers the queue is to give are no part of it. -/
theorem Phase.withAnswers (h : w.Phase) (ks : List MqAnswer) :
    Phase { w with blobSnd := w.blobSnd.withAnswers ks } :=
  h.keeps rfl id fun hset => ⟨⟨hset.finished, hset.noWait⟩, rfl⟩

/-- Where nothing has been begun, the first call with a handler begins. -/
theorem Phase.fresh (h : w.Phase) (hfree : w.blobSnd.finished = false) :
    w.begun = none ∧ w.invoked = [] := by
  cases h with
  | before begun invoked handler => exact ⟨begun, invoked⟩
  | known b begun sync finished invoked handler => cases hfree.symm.trans finished
  | joining b begun part finished handler settled join => cases hfree.symm.trans finished

/-- An accepted call: what the two pipes answered decides how it goes on. -/
theorem Phase.begins {p : BlobStreamMqSender} {q : NativeSocketStreamSnd} {f : Nat} {e₁ e₂ : ErrorCode}
    {failed : Bool} (hinvoked : w.invoked = []) (hok : failed = false) (hfin : p.finished = true)
    (hanswer : e₁ ≠ wouldBlock ∧ p.pendingOnLastSendDoneFunc = none ∨
      e₁ = wouldBlock ∧ p.pendingOnLastSendDoneFunc = some w.states.length) :
    Phase
      { w with
        blobSnd := p
        hndlSnd := q
        begun := some ⟨w.states.length, f, e₁, e₂⟩
        assertFailed := failed
        states := w.states ++ [if e₁ ≠ wouldBlock ∧ e₂ ≠ wouldBlock then { onDoneFunc := f }
          else if e₁ ≠ wouldBlock then { nDone := 1, errCode1 := e₁, onDoneFunc := f }
          else if e₂ ≠ wouldBlock then { nDone := 1, errCode1 := e₂, onDoneFunc := f }
          else { onDoneFunc := f }] } := by
  have hget (state : State) : (w.states ++ [state])[w.states.length]? = some state := by simp
  rcases hanswer with ⟨he₁, hnone⟩ | ⟨rfl, hsome⟩
  · by_cases he₂ : e₂ = wouldBlock
    · -- The handles pipe alone is to complete.
      refine .joining ⟨w.states.length, f, e₁, e₂⟩ rfl (.inr he₂) hfin ?_ ?_ ?_
      · intro k hk
        cases hnone.symm.trans hk
      · intro he
        exact absurd he he₁
      · have hcompleted : completed { w with blobSnd := p } ⟨w.states.length, f, e₁, e₂⟩ = [e₁] := by
          simp [completed, he₁, he₂]
        refine hcompleted ▸ .hndl e₁ (if_pos hnone) (if_pos he₂) ?_ hinvoked hok
        rw [if_neg fun hno => hno.2 he₂, if_pos he₁]
        exact hget _
    · exact .known ⟨w.states.length, f, e₁, e₂⟩ rfl ⟨he₁, he₂⟩ hfin hinvoked hnone
  · have hwaits : ¬ p.pendingOnLastSendDoneFunc = none := by
      rw [hsome]
      exact fun hno => by cases hno
    refine .joining ⟨w.states.length, f, wouldBlock, e₂⟩ rfl (.inl rfl) hfin ?_ ?_ ?_
    · intro k hk
      exact ⟨Option.some.inj (hk.symm.trans hsome), rfl⟩
    · intro _ hno
      exact absurd hno hwaits
    · by_cases he₂ : e₂ = wouldBlock
      · have hcompleted : completed { w with blobSnd := p } ⟨w.states.length, f, wouldBlock, e₂⟩ = [] := by
          simp [completed, hwaits, he₂]
        refine hcompleted ▸ .both (if_neg hwaits) (if_pos he₂) ?_ hinvoked hok
        rw [if_neg fun hno => hno.1 rfl, if_neg fun hno => hno rfl, if_neg fun hno => hno he₂]
        exact hget _
      · have hcompleted : completed { w with blobSnd := p } ⟨w.states.length, f, wouldBlock, e₂⟩ = [e₂] := by
          simp [completed, hwaits, he₂]
        refine hcompleted ▸ .blob e₂ (if_neg hwaits) (if_neg he₂) ?_ hinvoked hok
        rw [if_neg fun hno => hno.1 rfl, if_neg fun hno => hno rfl, if_pos he₂]
        exact hget _

/-- `async_end_sending()`, if both pipes accept it: the record is made for what they answered. -/
theorem asyncEndSending_accepted {ptr : Option ErrorCode} {f : Nat} {ks : List MqAnswer} {ks' : List SockAnswer}
    {e₁ e₂ : ErrorCode} {p : BlobStreamMqSender} {q : NativeSocketStreamSnd} {ok : Bool}
    (hblob : (w.blobSnd.withAnswers ks).asyncEndSending w.states.length = (true, e₁, p))
    (hhndl : (w.hndlSnd.withAnswers ks').asyncEndSending w.states.length = (ok, e₂, q)) :
    (w.asyncEndSending ptr f ks ks').2 =
      { w with
        blobSnd := p
        hndlSnd := q
        begun := some ⟨w.states.length, f, e₁, e₂⟩
        assertFailed := w.assertFailed || !decide (ok = true)
        states := w.states ++ [if e₁ ≠ wouldBlock ∧ e₂ ≠ wouldBlock then { onDoneFunc := f }
          else if e₁ ≠ wouldBlock then { nDone := 1, errCode1 := e₁, onDoneFunc := f }
          else if e₂ ≠ wouldBlock then { nDone := 1, errCode1 := e₂, onDoneFunc := f }
          else { onDoneFunc := f }] } := by
  unfold asyncEndSending
  simp only [hblob, hhndl, if_true]
  by_cases hboth : e₁ ≠ wouldBlock ∧ e₂ ≠ wouldBlock
  · rw [if_pos hboth, if_pos hboth]
    cases ptr with
    | none =>
        cases (if e₁.isSome then e₁ else e₂) <;> rfl
    | some e => rfl
  · rw [if_neg hboth, if_neg hboth]
    by_cases he₁ : e₁ ≠ wouldBlock
    · rw [if_pos he₁, if_pos he₁]
      simp [setState, assert]
    · rw [if_neg he₁, if_neg he₁]
      by_cases he₂ : e₂ ≠ wouldBlock
      · rw [if_pos he₂, if_pos he₂]
        simp [setState, assert]
      · rw [if_neg he₂, if_neg he₂]
        rfl

/-- Something else is done with the blobs pipe. -/
theorem Inv.blobs_step (h : w.Inv) {i : {i : BlobStreamMqSender.Input // i.isEnd = false}} {ks : List MqAnswer}
    (hstep : w.Step (.blobs i ks) w') : w'.Inv := by
  obtain ⟨fs, hs⟩ := h.blobs
  obtain ⟨⟨p, obs⟩, hp, rfl⟩ := Option.map_eq_some_iff.mp hstep
  obtain ⟨-, new, hs', -⟩ := hs.step hp
  have hfin : p.finished = w.blobSnd.finished := (BlobStreamMqSender.keeps_step hs hp).finished_eq i.property
  have hhandler := handler_step hs hp i.property
  dsimp only
  generalize mqInvoked obs = handlers at hhandler ⊢
  cases hhandler with
  | kept same =>
      refine ⟨⟨_, hs'⟩, h.hndls, fun hok => ?_⟩
      exact (h.phase hok).keeps same (fun hdone => hfin.trans hdone) fun hset => hset.step hs hp i.property
  | invoked k before after sent =>
      obtain ⟨hblob, hhndl, -⟩ := combinedOnDone_same { w with blobSnd := p } k p.out.pendingErrCode
      refine ⟨⟨fs ++ new, ?_⟩, ?_, fun hok => ?_⟩
      · show (World.combinedOnDone { w with blobSnd := p } k p.out.pendingErrCode).blobSnd.Inv _
        rw [hblob]
        exact hs'
      · show ∃ told, (World.combinedOnDone { w with blobSnd := p } k p.out.pendingErrCode).hndlSnd.Inv told
        rw [hhndl]
        exact h.hndls
      · have hphase := h.phase (combinedOnDone_ok (w := { w with blobSnd := p }) hok)
        show Phase (World.combinedOnDone { w with blobSnd := p } k p.out.pendingErrCode)
        apply hphase.invokes before after
        · exact fun hdone => hfin.trans hdone
        · exact fun hdone => settled_of hs' hdone sent

/-- Something else is done with the handles pipe. -/
theorem Inv.hndls_step (h : w.Inv) {i : {i : NativeSocketStreamSnd.Input // i.isEnd = false}}
    {ks : List SockAnswer} (hstep : w.Step (.hndls i ks) w') : w'.Inv := by
  obtain ⟨told, hs⟩ := h.hndls
  obtain ⟨⟨q, obs⟩, hq, rfl⟩ := Option.map_eq_some_iff.mp hstep
  obtain ⟨-, told', hs', -⟩ := hs.step hq
  dsimp only
  rw [silent_step hs hq]
  exact ⟨h.blobs, ⟨told', hs'⟩, fun hok => (h.phase hok).setHndl q⟩

/-- Both pipes are called to end with a handler. -/
theorem Inv.asyncEndSending (h : w.Inv) (ptr : Option ErrorCode) (f : Nat) (ks : List MqAnswer)
    (ks' : List SockAnswer) : (w.asyncEndSending ptr f ks ks').2.Inv := by
  obtain ⟨fs, hs⟩ := h.blobs
  obtain ⟨told, ht⟩ := h.hndls
  rcases hblob : (w.blobSnd.withAnswers ks).asyncEndSending w.states.length with ⟨accepted, e₁, p⟩
  obtain ⟨hs', htakes⟩ := mqTakes (hs.withAnswers ks) hblob
  rcases htakes with ⟨rfl, rfl⟩ | ⟨rfl, hfree, hfin, hanswer⟩
  · -- It is refused.
    have heq : (w.asyncEndSending ptr f ks ks').2 =
        { w with blobSnd := w.blobSnd.withAnswers ks, states := w.states ++ [{ onDoneFunc := f }] } := by
      unfold World.asyncEndSending
      simp only [hblob, Bool.false_eq_true, if_false]
    rw [heq]
    exact ⟨hs', h.hndls, fun hok => ((h.phase hok).withAnswers ks).addState _⟩
  · rcases hhndl : (w.hndlSnd.withAnswers ks').asyncEndSending w.states.length with ⟨ok, e₂, q⟩
    have hq : ∃ told', q.Inv told' := by
      have hstep : w.hndlSnd.step (.asyncEndSending w.states.length) ks' =
          some (q, [.ended ok (some w.states.length) e₂]) := by
        unfold NativeSocketStreamSnd.step
        dsimp only
        rw [hhndl]
      obtain ⟨-, told', hs', -⟩ := ht.step hstep
      exact ⟨told', hs'⟩
    rw [asyncEndSending_accepted hblob hhndl]
    refine ⟨hs', hq, fun hok => ?_⟩
    have hbefore : w.assertFailed = false := (Bool.or_eq_false_iff.mp hok).1
    obtain ⟨-, hinvoked⟩ := (h.phase hbefore).fresh hfree
    exact Phase.begins hinvoked hok hfin hanswer

/-- Both pipes are called to end without one. -/
theorem Inv.endSending (h : w.Inv) (ks : List MqAnswer) (ks' : List SockAnswer) :
    (w.endSending ks ks').2.Inv := by
  obtain ⟨fs, hs⟩ := h.blobs
  obtain ⟨told, ht⟩ := h.hndls
  rcases hblob : (w.blobSnd.withAnswers ks).asyncEndSendingImpl none with ⟨accepted, e₁, p⟩
  obtain ⟨hs', htakes⟩ := mqTakes (hs.withAnswers ks) hblob
  have hblob' : (w.blobSnd.withAnswers ks).endSending = (accepted, p) := by
    unfold BlobStreamMqSender.endSending
    rw [hblob]
  rcases htakes with ⟨rfl, rfl⟩ | ⟨rfl, hfree, hfin, hanswer⟩
  · have heq : (w.endSending ks ks').2 = { w with blobSnd := w.blobSnd.withAnswers ks } := by
      unfold World.endSending
      simp only [hblob', Bool.false_eq_true, if_false]
    rw [heq]
    exact ⟨hs', h.hndls, fun hok => (h.phase hok).withAnswers ks⟩
  · rcases hhndl : (w.hndlSnd.withAnswers ks').endSending with ⟨ok, q⟩
    have hq : ∃ told', q.Inv told' := by
      have hstep : w.hndlSnd.step .endSending ks' = some (q, [.ended ok none none]) := by
        unfold NativeSocketStreamSnd.step
        dsimp only
        rw [hhndl]
      obtain ⟨-, told', hs', -⟩ := ht.step hstep
      exact ⟨told', hs'⟩
    have heq : (w.endSending ks ks').2 =
        { w with blobSnd := p, hndlSnd := q, assertFailed := w.assertFailed || !decide (ok = true) } := by
      unfold World.endSending
      simp only [hblob', hhndl, if_true]
      rfl
    rw [heq]
    refine ⟨hs', hq, fun hok => ?_⟩
    obtain ⟨hbegun, hinvoked⟩ := (h.phase (Bool.or_eq_false_iff.mp hok).1).fresh hfree
    have hnone : p.pendingOnLastSendDoneFunc = none := hanswer.elim And.right And.right
    exact .before hbegun hinvoked hnone

/-- Each step keeps them so. -/
theorem Inv.step {i : Input} (h : w.Inv) (hstep : w.Step i w') : w'.Inv := by
  cases i with
  | blobs i ks => exact h.blobs_step hstep
  | hndls i ks => exact h.hndls_step hstep
  | asyncEndSending ptr f ks ks' =>
      obtain rfl := Option.some.inj hstep
      exact h.asyncEndSending ptr f ks ks'
  | endSending ks ks' =>
      obtain rfl := Option.some.inj hstep
      exact h.endSending ks ks'

/-- Two pipes are in order in every state that is reached. -/
theorem Reached.inv (h : w.Reached) : w.Inv := by
  refine Reachable.invariant (P := Inv) ?_ ?_ h
  · rintro w ⟨n, rfl⟩
    exact inv_init n
  · intro w i w' hinv hstep
    exact hinv.step hstep

/-! ## The result -/

/-- What the user's handler has been told, if the accepted call was `b`. -/
def due (w : World) (b : Begun) : List (Nat × ErrorCode) :=
  if b.errCode1 = wouldBlock ∧ b.errCode2 ≠ wouldBlock ∧ SentOrFailed w.blobSnd then
    [(b.onDoneFunc, firstError [b.errCode2, w.blobSnd.out.pendingErrCode])]
  else []

/-- Two results known are those of a blobs pipe that was to wait and a handles pipe that was not. -/
theorem dueInvocations_completed (w : World) (b : Begun) (h : b.errCode1 = wouldBlock ∨ b.errCode2 = wouldBlock)
    (hsent : b.errCode1 = wouldBlock → (w.blobSnd.pendingOnLastSendDoneFunc = none ↔ SentOrFailed w.blobSnd)) :
    dueInvocations b.onDoneFunc (w.completed b) = w.due b := by
  unfold completed due dueInvocations
  by_cases he₁ : b.errCode1 = wouldBlock
  · by_cases hnone : w.blobSnd.pendingOnLastSendDoneFunc = none
    · have hdone := (hsent he₁).mp hnone
      by_cases he₂ : b.errCode2 = wouldBlock <;> simp [he₁, he₂, hnone, hdone]
    · have hmore : ¬ SentOrFailed w.blobSnd := fun hdone => hnone ((hsent he₁).mpr hdone)
      by_cases he₂ : b.errCode2 = wouldBlock
      · simp [he₁, he₂, hnone]
      · simp [he₁, he₂, hnone, hmore]
  · have he₂ := h.resolve_left he₁
    simp [he₁, he₂]

/-- A blobs pipe that had something to send when the accepted call was made keeps the handler until it has sent that,
or failed. -/
theorem Phase.handler_eq_none_iff {fs : List MqStream.Frame} (h : w.Phase) (hs : w.blobSnd.Inv fs) (b : Begun)
    (hb : b ∈ w.begun) (he : b.errCode1 = wouldBlock) :
    w.blobSnd.pendingOnLastSendDoneFunc = none ↔ SentOrFailed w.blobSnd := by
  cases h with
  | before begun invoked handler => cases begun.symm.trans hb
  | known b' begun sync finished invoked handler =>
      cases begun.symm.trans hb
      exact absurd he sync.1
  | joining b' begun part finished handler settled join =>
      cases begun.symm.trans hb
      exact ChannelClose.handler_eq_none_iff hs (settled he)

/-- When the user of a channel over a queue and a socket hears that the sending has ended. A blobs pipe that had
something to send keeps the handler until it has sent that or failed; and as long as it does, there is something to
send, which is waited for. -/
theorem joinedClose (h : w.Reached) (hok : w.assertFailed = false) :
    w.invoked = (match w.begun with
      | none => []
      | some b => w.due b) ∧
    (∀ b ∈ w.begun, b.errCode1 = wouldBlock →
      (w.blobSnd.pendingOnLastSendDoneFunc = none ↔ SentOrFailed w.blobSnd)) ∧
    ∀ k, w.blobSnd.pendingOnLastSendDoneFunc = some k →
      w.blobSnd.out.pendingErrCode = none ∧ w.blobSnd.out.pendingPayloadsQ ≠ [] ∧ 0 < w.blobSnd.out.evWaits := by
  have hinv := h.inv
  obtain ⟨fs, hs⟩ := hinv.blobs
  have hkeeps := (hinv.phase hok).handler_eq_none_iff hs
  refine ⟨?_, hkeeps, ?_⟩
  · cases hinv.phase hok with
    | before begun invoked handler => rw [begun, invoked]
    | known b begun sync finished invoked handler =>
        rw [begun, invoked]
        exact (if_neg fun hno => sync.1 hno.1).symm
    | joining b begun part finished handler settled join =>
        rw [begun]
        exact join.invoked_eq.trans (w.dueInvocations_completed b part (hkeeps b begun))
  · intro k hk
    obtain ⟨-, herr, hq⟩ := hs.pending (by rw [hk]; rfl)
    have hwaits := hs.carries.ok.evWaits_eq
    rw [if_pos ⟨herr, hq⟩] at hwaits
    exact ⟨herr, hq, by omega⟩

/-- Both pipes are started and ended; the queue has no place for the second message of the graceful close, and then
it has. -/
def closingInputs : List Input :=
  [.blobs ⟨.startSendBlobOps, rfl⟩ [.ready, .ready], .hndls ⟨.startSendNativeHandleOps, rfl⟩ [.moves 9],
    .asyncEndSending (some none) 7 [.ready, .wouldBlock] [.moves 9], .blobs ⟨.mqWritable, rfl⟩ [.ready]]

/-- In such a run the handler is invoked, once the queue has taken all. -/
theorem joinedClose_closingInputs : ∃ w, closingInputs.foldlM next (init 8) = some w ∧
    w.invoked = [(7, none)] ∧ ∃ b, w.begun = some b ∧ w.due b = [(7, none)] := by
  have hseen : (closingInputs.foldlM next (init 8)).map
      (fun w => (w.assertFailed, w.invoked, w.begun.isSome)) = some (false, [(7, none)], true) := by decide +kernel
  obtain ⟨w, hfold, hseen⟩ := Option.map_eq_some_iff.mp hseen
  simp only [Prod.mk.injEq] at hseen
  obtain ⟨hok, hinvoked, hbegun⟩ := hseen
  have hreached : w.Reached := ⟨init 8, closingInputs, ⟨8, rfl⟩, .of_foldlM hfold⟩
  obtain ⟨b, hb⟩ := Option.isSome_iff_exists.mp hbegun
  have hdue := (joinedClose hreached hok).1
  rw [hb] at hdue
  exact ⟨w, hfold, hinvoked, b, hb, hdue.symm.trans hinvoked⟩

end World

end FlowIpc.ChannelClose
