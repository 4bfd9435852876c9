import FlowIpc.Acceptor.Serving
import Mathlib.Logic.Function.Basic

/-!
# The `sync_io` acceptor

A `sync_io::Native_socket_stream_acceptor` has an async-I/O acceptor do the work, and has one request going
at a time. When thread W is done with it, it leaves the code in `m_target_err_code` and puts a byte into a
pipe. The user's event loop waits for that pipe to be readable; then the byte is taken out, and the user's
handler is invoked with the code.

What thread W does goes on beside what the user's thread does: the steps of the two come in any order, and
all requests are those of the one beneath (`Inv`). Over every run the users' handlers are then invoked one
by one, each for its own request and after its own result (`acceptsOneByOne`).

Source: `sync_io/native_socket_stream_acceptor.hpp`, `detail/util.cpp` `pipe_produce`, `pipe_consume`.
-/

namespace FlowIpc.Acceptor

open Lts

/-! ## The object -/

/-- A `sync_io::Native_socket_stream_acceptor`, with what is outside of it and read or written by it.
Source: `sync_io/native_socket_stream_acceptor.hpp` -/
structure SyncIoAcceptor where
  /-- `m_async_io` -/
  asyncIo : NativeSocketStreamAcceptor
  /-- `m_ev_wait_func` is not empty. -/
  evWaitFunc : Bool
  /-- `m_on_done_func_or_empty`, as the request that it is of. -/
  onDoneFuncOrEmpty : Option UserRequest
  /-- `m_target_err_code` -/
  targetErrCode : ErrorCode
  /-- How many bytes are in the pipe from `m_ready_writer` to `m_ready_reader`. -/
  readyBytes : Nat
  /-- How many waits for `m_ev_wait_hndl` to be readable the event loop has going. -/
  evWaits : Nat
  /-- `*target_peer`, for each of the places that a user may name. -/
  target : Nat → Option Nat
  /-- Some assertion has failed, or an empty function has been called. -/
  assertFailed : Bool

/-- A user's handler is invoked. Where the code is falsy, `peer` is what it finds in `*target_peer`. -/
structure Notice where
  /-- The request that the handler is of. -/
  request : UserRequest
  /-- The code that it is given. -/
  errCode : ErrorCode
  /-- The peer that it finds. -/
  peer : Option Nat
  deriving DecidableEq

namespace SyncIoAcceptor

/-- As the constructor leaves it. -/
def ctor (listening : Bool) : SyncIoAcceptor where
  asyncIo := .ctor listening
  evWaitFunc := false
  onDoneFuncOrEmpty := none
  targetErrCode := none
  readyBytes := 0
  evWaits := 0
  target := fun _ => none
  assertFailed := false

/-- Source: `sync_io/native_socket_stream_acceptor.hpp` `start_accept_ops` -/
def startAcceptOps (s : SyncIoAcceptor) : Bool × SyncIoAcceptor :=
  if s.evWaitFunc then (false, s) else (true, { s with evWaitFunc := true })

/-- `util::pipe_produce()`, into `m_ready_writer`.
Source: `detail/util.cpp` `pipe_produce` -/
def pipeProduce (s : SyncIoAcceptor) : SyncIoAcceptor :=
  { s with readyBytes := s.readyBytes + 1 }

/-- `util::pipe_consume()`, from `m_ready_reader`; it aborts if there is nothing to read.
Source: `detail/util.cpp` `pipe_consume` -/
def pipeConsume (s : SyncIoAcceptor) : SyncIoAcceptor :=
  { s with
    readyBytes := s.readyBytes - 1
    assertFailed := s.assertFailed || decide (s.readyBytes = 0) }

/-- The handler that the core is given: the core has set `*target_peer` by then, if it has succeeded.
Source: `sync_io/native_socket_stream_acceptor.hpp` `async_accept` -/
def onAsyncIoDone (s : SyncIoAcceptor) (o : Invocation) : SyncIoAcceptor :=
  match o.result with
  | .peer h =>
    { s with
      target := Function.update s.target o.request.targetPeer (some h)
      targetErrCode := none }.pipeProduce
  | .errorCode e => if e = aborted then s else { s with targetErrCode := some e }.pipeProduce

/-- Source: `sync_io/native_socket_stream_acceptor.hpp` `async_accept` -/
def asyncAccept (s : SyncIoAcceptor) (r : UserRequest) : Bool × SyncIoAcceptor :=
  if s.onDoneFuncOrEmpty.isSome then (false, s)
  else
    let s := { s with
      onDoneFuncOrEmpty := some r
      asyncIo := { s.asyncIo with posted := s.asyncIo.posted ++ [r] } }
    -- The function is called without a look at whether it is there.
    (true, if s.evWaitFunc then { s with evWaits := s.evWaits + 1 } else { s with assertFailed := true })

/-- What the handler of a request finds. -/
def notice (s : SyncIoAcceptor) (r : UserRequest) : Notice :=
  ⟨r, s.targetErrCode, if s.targetErrCode = none then s.target r.targetPeer else none⟩

/-- What `async_accept()` has the event loop do once the pipe is readable.
Source: `sync_io/native_socket_stream_acceptor.hpp` `async_accept` -/
def onActiveEv (s : SyncIoAcceptor) : SyncIoAcceptor × List Notice :=
  let s := s.pipeConsume
  let onDoneFunc := s.onDoneFuncOrEmpty
  let s := { s with onDoneFuncOrEmpty := none }
  match onDoneFunc with
  | none => ({ s with assertFailed := true }, [])
  | some r => (s, [s.notice r])

/-- Thread W, or the destructor of the core, takes a step, and invokes the handlers it comes to. -/
def asyncIoStep (s : SyncIoAcceptor) (i : Input) : Option SyncIoAcceptor :=
  (s.asyncIo.step i).map fun (a, invoked) => invoked.foldl onAsyncIoDone { s with asyncIo := a }

end SyncIoAcceptor

/-- What happens next: a call of the user's, a step of thread W, an event the event loop has waited for, or
the destructor. -/
inductive SyncIoInput where
  /-- `start_accept_ops()` -/
  | startAcceptOps
  /-- `async_accept()`, also from a handler that has just been invoked. -/
  | asyncAccept (r : UserRequest)
  /-- Thread W runs what was posted first. -/
  | runTask
  /-- The background accept completes. -/
  | completes (c : Completion)
  /-- The pipe is readable: the event loop reports it. -/
  | readable
  /-- The destructor is called: that of the core stops thread W. -/
  | stop
  /-- The core aborts what is left. -/
  | finish
  deriving DecidableEq

/-- The step of the core that it is, if it is one. -/
def SyncIoInput.asyncIo : SyncIoInput → Option Input
  | .runTask => some (.runTask [])
  | .completes c => some (.completes c [])
  | .stop => some .stop
  | .finish => some .finish
  | _ => none

/-- The steps of the core, in order. -/
def asyncIoInputs (is : List SyncIoInput) : List Input := is.filterMap SyncIoInput.asyncIo

/-- An input of the `sync_io` acceptor alone is none of the asynchronous one. -/
theorem asyncIoInputs_of_none (is : List SyncIoInput) {i : SyncIoInput} (h : i.asyncIo = none) :
    asyncIoInputs (is ++ [i]) = asyncIoInputs is := by
  simp [asyncIoInputs, h]

/-- Any other is one of the asynchronous one. -/
theorem asyncIoInputs_of_some (is : List SyncIoInput) {i : SyncIoInput} {j : Input}
    (h : i.asyncIo = some j) : asyncIoInputs (is ++ [i]) = asyncIoInputs is ++ [j] := by
  simp [asyncIoInputs, h]

/-- An acceptor, with the requests that it has taken and the handlers that it has invoked. -/
structure SyncIoWorld where
  /-- The acceptor. -/
  acceptor : SyncIoAcceptor
  /-- The requests for which `async_accept()` has returned `true`. -/
  accepted : List UserRequest
  /-- The handlers invoked. -/
  told : List Notice

namespace SyncIoWorld

/-- As it begins. -/
def start (listening : Bool) : SyncIoWorld := ⟨.ctor listening, [], []⟩

/-- What happens next; `none` if it cannot happen. -/
def next (w : SyncIoWorld) : SyncIoInput → Option SyncIoWorld
  | .startAcceptOps =>
    if w.acceptor.asyncIo.phase = .running then some { w with acceptor := w.acceptor.startAcceptOps.2 }
    else none
  | .asyncAccept r =>
    if w.acceptor.asyncIo.phase = .running then
      let (ok, s) := w.acceptor.asyncAccept r
      some { w with acceptor := s, accepted := w.accepted ++ if ok then [r] else [] }
    else none
  | .readable =>
    if w.acceptor.asyncIo.phase = .running ∧ 0 < w.acceptor.evWaits ∧ 0 < w.acceptor.readyBytes then
      let (s, told) := { w.acceptor with evWaits := w.acceptor.evWaits - 1 }.onActiveEv
      some { w with acceptor := s, told := w.told ++ told }
    else none
  | .runTask => (w.acceptor.asyncIoStep (.runTask [])).map fun s => { w with acceptor := s }
  | .completes c => (w.acceptor.asyncIoStep (.completes c [])).map fun s => { w with acceptor := s }
  | .stop => (w.acceptor.asyncIoStep .stop).map fun s => { w with acceptor := s }
  | .finish => (w.acceptor.asyncIoStep .finish).map fun s => { w with acceptor := s }

/-- The steps. -/
def Step (w : SyncIoWorld) (i : SyncIoInput) (w' : SyncIoWorld) : Prop := w.next i = some w'

/-- `async_accept()` is called after `start_accept_ops()` only; the code of a background accept that fails
is one of the system's. -/
def Proper (w : SyncIoWorld) : SyncIoInput → Prop
  | .asyncAccept _ => w.acceptor.evWaitFunc = true
  | .completes (.failure e) => e.val ≠ aborted
  | _ => True

end SyncIoWorld

/-! ## What a step does -/

/-- A result of the core's, as a handler should be told of it. -/
def noticeOf (o : Invocation) : Notice :=
  match o.result with
  | .peer h => ⟨o.request, none, some h⟩
  | .errorCode e => ⟨o.request, some e, none⟩

/-- Whoever is told is who asked. -/
@[simp] theorem request_noticeOf (o : Invocation) : (noticeOf o).request = o.request := by
  obtain ⟨r, _ | _⟩ := o <;> rfl

/-- A result that is not an abort is not told as one. -/
theorem errCode_noticeOf {o : Invocation} (h : o.result ≠ .errorCode aborted) :
    (noticeOf o).errCode ≠ some aborted := by
  obtain ⟨r, peer | e⟩ := o
  · intro heq
    cases heq
  · intro heq
    apply h
    cases heq
    rfl

namespace NativeSocketStreamAcceptor

variable {s a : NativeSocketStreamAcceptor} {i : Input} {invoked : List Invocation}

/-- Where thread W runs after a step, it has run before. -/
theorem running_of_step (h : s.step i = some (a, invoked)) (ha : a.phase = .running) :
    s.phase = .running := by
  unfold step at h
  rcases i with r | during | ⟨c, during⟩ | _ | _
  · simp only [Option.ite_none_right_eq_some] at h
    exact h.1
  · rcases hposted : s.posted with _ | ⟨r, rs⟩
    · simp [hposted] at h
    · simp only [hposted, Option.ite_none_right_eq_some] at h
      obtain ⟨-, heq⟩ := h
      cases heq
      exact ha
  · simp only [Option.ite_none_right_eq_some] at h
    obtain ⟨-, heq⟩ := h
    cases heq
    rw [← ha]
    unfold complete onNextPeerSocketOrError
    rcases c with peer | e
    · rfl
    · simp only
      split
      · rfl
      · split
        · rfl
        · rfl
  · simp only [Option.ite_none_right_eq_some] at h
    obtain ⟨-, heq⟩ := h
    cases heq
    cases ha
  · simp only [Option.ite_none_right_eq_some] at h
    obtain ⟨-, heq⟩ := h
    cases heq
    cases ha

end NativeSocketStreamAcceptor

namespace SyncIoAcceptor

variable {s : SyncIoAcceptor} {o : Invocation}

/-- The handler that the core is given leaves to the user's thread what is of the user's thread. -/
theorem foldl_onAsyncIoDone (s : SyncIoAcceptor) (os : List Invocation) :
    (os.foldl onAsyncIoDone s).asyncIo = s.asyncIo ∧
      (os.foldl onAsyncIoDone s).evWaitFunc = s.evWaitFunc ∧
      (os.foldl onAsyncIoDone s).onDoneFuncOrEmpty = s.onDoneFuncOrEmpty ∧
      (os.foldl onAsyncIoDone s).evWaits = s.evWaits ∧
      (os.foldl onAsyncIoDone s).assertFailed = s.assertFailed := by
  induction os generalizing s with
  | nil => exact ⟨rfl, rfl, rfl, rfl, rfl⟩
  | cons o os ih =>
      have hone : (s.onAsyncIoDone o).asyncIo = s.asyncIo ∧
          (s.onAsyncIoDone o).evWaitFunc = s.evWaitFunc ∧
          (s.onAsyncIoDone o).onDoneFuncOrEmpty = s.onDoneFuncOrEmpty ∧
          (s.onAsyncIoDone o).evWaits = s.evWaits ∧
          (s.onAsyncIoDone o).assertFailed = s.assertFailed := by
        unfold onAsyncIoDone
        rcases o.result with h | e
        · exact ⟨rfl, rfl, rfl, rfl, rfl⟩
        · simp only
          split
          · exact ⟨rfl, rfl, rfl, rfl, rfl⟩
          · exact ⟨rfl, rfl, rfl, rfl, rfl⟩
      rw [List.foldl_cons]
      obtain ⟨h1, h2, h3, h4, h5⟩ := ih (s.onAsyncIoDone o)
      exact ⟨h1.trans hone.1, h2.trans hone.2.1, h3.trans hone.2.2.1, h4.trans hone.2.2.2.1,
        h5.trans hone.2.2.2.2⟩

/-- A result that is not an abort puts one byte into the pipe, and can be found. -/
theorem onAsyncIoDone_of (hne : o.result ≠ .errorCode aborted) :
    (s.onAsyncIoDone o).readyBytes = s.readyBytes + 1 ∧
      (s.onAsyncIoDone o).notice o.request = noticeOf o := by
  obtain ⟨r, h | e⟩ := o
  · unfold onAsyncIoDone pipeProduce notice noticeOf
    simp
  · have he : e ≠ aborted := fun heq => hne (congrArg Result.errorCode heq)
    unfold onAsyncIoDone pipeProduce notice noticeOf
    simp [if_neg he]

end SyncIoAcceptor

/-! ## What holds in every state -/

namespace SyncIoWorld

open NativeSocketStreamAcceptor (Good)

/-- What holds while no destructor has been called: of the core's results `os`, all have been told but the
one that is in the pipe. -/
structure Live (w : SyncIoWorld) (os : List Invocation) : Prop where
  signal : os.length = w.told.length + w.acceptor.readyBytes
  inPipe : ∀ o, os[w.told.length]? = some o → w.acceptor.notice o.request = noticeOf o

/-- The core is where the inputs `js` lead it to, which are those of thread W and the requests taken; its
results are `os`. -/
structure Follows (is : List SyncIoInput) (w : SyncIoWorld) (listening : Bool) (js : List Input)
    (os : List Invocation) : Prop where
  run : Run NativeSocketStreamAcceptor.Step (.ctor listening, []) js (w.acceptor.asyncIo, os)
  calls : Acceptor.calls js = w.accepted
  connections : connections js = connections (asyncIoInputs is)
  fatal : fatal js = fatal (asyncIoInputs is)
  genuine : Acceptor.fatal js ≠ some aborted

/-- What has been told are the first of these results, and what has been taken and not told is what waits for
the pipe. -/
structure Related (is : List SyncIoInput) (w : SyncIoWorld) (listening : Bool) (js : List Input)
    (os : List Invocation) : Prop extends Follows is w listening js os where
  fine : w.acceptor.assertFailed = false
  told : w.told = (os.take w.told.length).map noticeOf
  notAborted : ∀ n ∈ w.told, n.errCode ≠ some aborted
  requests : w.told.map Notice.request ++ w.acceptor.onDoneFuncOrEmpty.toList = w.accepted
  waits : w.acceptor.evWaits = w.acceptor.onDoneFuncOrEmpty.toList.length
  live : w.acceptor.asyncIo.phase = .running → w.Live os

/-- There is such a run. -/
def Inv (listening : Bool) (is : List SyncIoInput) (w : SyncIoWorld) : Prop :=
  ∃ js os, Related is w listening js os

variable {listening : Bool} {is : List SyncIoInput} {w w' : SyncIoWorld} {js : List Input}
  {os : List Invocation}

/-- Both acceptors are in order from the start. -/
theorem inv_start : Inv listening [] (start listening) := by
  refine ⟨[], [], ?_⟩
  exact {
    run := Run.nil _
    calls := rfl
    connections := rfl
    fatal := rfl
    genuine := by simp [Acceptor.fatal]
    fine := rfl
    told := rfl
    notAborted := by simp [start]
    requests := rfl
    waits := rfl
    live := fun _ => ⟨rfl, by intro o ho; cases ho⟩ }

/-- The core's account. -/
theorem Follows.good (h : Follows is w listening js os) :
    ∃ m seen answers, Good js w.acceptor.asyncIo os m seen answers :=
  NativeSocketStreamAcceptor.inv_run h.run

/-- The results are those of the first of the requests taken. -/
theorem Follows.results (h : Follows is w listening js os) :
    os.map Invocation.request <+: w.accepted := by
  obtain ⟨m, seen, answers, hgood⟩ := h.good
  rw [← h.calls, ← hgood.requests]
  exact List.prefix_append _ _

/-- While thread W runs, no result is an abort. -/
theorem Follows.not_aborted (h : Follows is w listening js os)
    (hrunning : w.acceptor.asyncIo.phase = .running) {o : Invocation} (ho : o ∈ os) :
    o.result ≠ .errorCode aborted := by
  obtain ⟨m, seen, answers, hgood⟩ := h.good
  obtain ⟨k, hk⟩ := List.mem_iff_getElem?.mp ho
  obtain ⟨hresult, hthere⟩ := hgood.outcome hk
  rw [hresult]
  unfold outcome
  rcases hc : (Acceptor.connections js)[k]? with _ | peer
  · rcases hf : Acceptor.fatal js with _ | e
    · exfalso
      rcases hthere with hgone | hlt | hsome
      · rw [hrunning] at hgone
        cases hgone
      · rw [List.getElem?_eq_none_iff] at hc
        exact absurd hlt (Nat.not_lt_of_le hc)
      · rw [hf] at hsome
        cases hsome
    · intro heq
      cases heq
      exact h.genuine hf
  · intro heq
    cases heq

/-- At most one request has been taken and not told. -/
theorem Related.accepted_le (h : Related is w listening js os) :
    w.accepted.length ≤ w.told.length + 1 := by
  rw [← h.requests, List.length_append, List.length_map]
  rcases w.acceptor.onDoneFuncOrEmpty <;> simp

/-- At most one result has not been told. -/
theorem Related.results_le (h : Related is w listening js os) : os.length ≤ w.told.length + 1 := by
  have hle := h.results.length_le
  rw [List.length_map] at hle
  exact Nat.le_trans hle h.accepted_le

/-- The result that is in the pipe is of the request that is going on. -/
theorem Related.request_eq (h : Related is w listening js os) {o : Invocation} {r : UserRequest}
    (ho : os[w.told.length]? = some o) (hr : w.acceptor.onDoneFuncOrEmpty = some r) : o.request = r := by
  have hreq := h.requests
  have hk : (os.map Invocation.request)[w.told.length]? = some o.request := by
    rw [List.getElem?_map, ho]
    rfl
  obtain ⟨rest, hrest⟩ := h.results
  have hk' : w.accepted[w.told.length]? = some o.request := by
    rw [← hrest, List.getElem?_append_left (List.getElem?_eq_some_iff.mp hk).1]
    exact hk
  rw [← hreq, hr, List.getElem?_append_right (by simp)] at hk'
  simpa using hk'.symm

/-! ## Step by step -/

/-- `start_accept_ops()` -/
theorem Related.startAcceptOps (h : Related is w listening js os) :
    Related (is ++ [.startAcceptOps]) { w with acceptor := w.acceptor.startAcceptOps.2 } listening js os := by
  have hs : w.acceptor.startAcceptOps.2 = { w.acceptor with evWaitFunc := true } := by
    unfold SyncIoAcceptor.startAcceptOps
    split
    · rename_i hstarted
      rw [← hstarted]
    · rfl
  rw [hs]
  exact {
    run := h.run
    calls := h.calls
    connections := by rw [asyncIoInputs_of_none is rfl, h.connections]
    fatal := by rw [asyncIoInputs_of_none is rfl, h.fatal]
    genuine := h.genuine
    fine := h.fine
    told := h.told
    notAborted := h.notAborted
    requests := h.requests
    waits := h.waits
    live := fun hrunning => ⟨(h.live hrunning).signal, (h.live hrunning).inPipe⟩ }

/-- A request that is refused changes nothing. -/
theorem Related.refused (h : Related is w listening js os) (r : UserRequest) :
    Related (is ++ [.asyncAccept r]) w listening js os where
  run := h.run
  calls := h.calls
  connections := by rw [asyncIoInputs_of_none is rfl, h.connections]
  fatal := by rw [asyncIoInputs_of_none is rfl, h.fatal]
  genuine := h.genuine
  fine := h.fine
  told := h.told
  notAborted := h.notAborted
  requests := h.requests
  waits := h.waits
  live := h.live

/-- A request that is taken is posted on thread W. -/
theorem Related.taken (h : Related is w listening js os) (hrunning : w.acceptor.asyncIo.phase = .running)
    (hnone : w.acceptor.onDoneFuncOrEmpty = none) (hstarted : w.acceptor.evWaitFunc = true)
    (r : UserRequest) :
    Related (is ++ [.asyncAccept r])
      { w with
        acceptor := (w.acceptor.asyncAccept r).2
        accepted := w.accepted ++ [r] } listening (js ++ [.asyncAccept r]) os := by
  have hlive := h.live hrunning
  have hs : (w.acceptor.asyncAccept r).2 =
      { w.acceptor with
        onDoneFuncOrEmpty := some r
        asyncIo := { w.acceptor.asyncIo with posted := w.acceptor.asyncIo.posted ++ [r] }
        evWaits := w.acceptor.evWaits + 1 } := by
    unfold SyncIoAcceptor.asyncAccept
    simp only [hnone, hstarted, Option.isSome_none, Bool.false_eq_true, ↓reduceIte]
  have hrequests := h.requests
  have hwaits := h.waits
  rw [hnone, Option.toList_none, List.append_nil] at hrequests
  rw [hnone, Option.toList_none, List.length_nil] at hwaits
  rw [hs]
  refine {
    run := h.run.snoc ?_
    calls := ?_
    connections := ?_
    fatal := ?_
    genuine := ?_
    fine := h.fine
    told := h.told
    notAborted := h.notAborted
    requests := ?_
    waits := ?_
    live := fun _ => ⟨hlive.signal, hlive.inPipe⟩ }
  · simp only [NativeSocketStreamAcceptor.Step, NativeSocketStreamAcceptor.next,
      NativeSocketStreamAcceptor.step, if_pos hrunning, Option.map_some, List.append_nil]
  · rw [calls_snoc, h.calls]
    rfl
  · rw [connections_snoc, h.connections, asyncIoInputs_of_none is rfl]
    exact List.append_nil _
  · rw [fatal_snoc, h.fatal, asyncIoInputs_of_none is rfl]
    exact Option.or_none
  · rw [fatal_snoc]
    simpa [Input.fatal] using h.genuine
  · rw [hrequests]
    rfl
  · change w.acceptor.evWaits + 1 = 1
    rw [hwaits]

/-- The event loop reports that the pipe is readable: the handler is invoked with what it should be. -/
theorem Related.readable (h : Related is w listening js os) (hrunning : w.acceptor.asyncIo.phase = .running)
    (hwait : 0 < w.acceptor.evWaits) (hready : 0 < w.acceptor.readyBytes) :
    ∃ o, os[w.told.length]? = some o ∧
      w.next .readable = some { w with
        acceptor := { w.acceptor with
          evWaits := w.acceptor.evWaits - 1
          readyBytes := w.acceptor.readyBytes - 1
          onDoneFuncOrEmpty := none }
        told := w.told ++ [noticeOf o] } := by
  have hlive := h.live hrunning
  rcases hreq : w.acceptor.onDoneFuncOrEmpty with _ | r
  · have hwaits := h.waits
    rw [hreq, Option.toList_none, List.length_nil] at hwaits
    omega
  · have hlt : w.told.length < os.length := by
      have hsignal := hlive.signal
      omega
    have ho : os[w.told.length]? = some os[w.told.length] := List.getElem?_eq_getElem hlt
    refine ⟨os[w.told.length], ho, ?_⟩
    have hr := h.request_eq ho hreq
    have hnotice := hlive.inPipe _ ho
    rw [hr] at hnotice
    unfold next
    simp only
    rw [if_pos ⟨hrunning, hwait, hready⟩]
    have hpos : w.acceptor.readyBytes ≠ 0 := Nat.ne_of_gt hready
    unfold SyncIoAcceptor.onActiveEv SyncIoAcceptor.pipeConsume
    simp only [hreq, hpos, decide_false, Bool.or_false, ← hnotice]
    rfl

/-- What the handler finds keeps the account. -/
theorem Related.told_one (h : Related is w listening js os) (hrunning : w.acceptor.asyncIo.phase = .running)
    (hwait : 0 < w.acceptor.evWaits) (hready : 0 < w.acceptor.readyBytes) {o : Invocation}
    (ho : os[w.told.length]? = some o) :
    Related (is ++ [.readable]) { w with
        acceptor := { w.acceptor with
          evWaits := w.acceptor.evWaits - 1
          readyBytes := w.acceptor.readyBytes - 1
          onDoneFuncOrEmpty := none }
        told := w.told ++ [noticeOf o] } listening js os := by
  have hlive := h.live hrunning
  have hlen := h.results_le
  have hwaits := h.waits
  have hsignal := hlive.signal
  rcases hreq : w.acceptor.onDoneFuncOrEmpty with _ | r
  · rw [hreq, Option.toList_none, List.length_nil] at hwaits
    omega
  have hr := h.request_eq ho hreq
  refine {
    run := h.run
    calls := h.calls
    connections := by rw [asyncIoInputs_of_none is rfl, h.connections]
    fatal := by rw [asyncIoInputs_of_none is rfl, h.fatal]
    genuine := h.genuine
    fine := h.fine
    told := ?_
    notAborted := ?_
    requests := ?_
    waits := ?_
    live := fun _ => ⟨?_, ?_⟩ }
  · have htake : os.take (w.told.length + 1) = os.take w.told.length ++ [o] := by
      rw [List.take_add_one, ho]
      rfl
    simp only [List.length_append, List.length_singleton]
    rw [htake, List.map_append, ← h.told]
    rfl
  · intro n hn
    rcases List.mem_append.mp hn with hn | hn
    · exact h.notAborted n hn
    · rw [List.mem_singleton.mp hn]
      exact errCode_noticeOf (h.not_aborted hrunning (List.mem_of_getElem? ho))
  · have hrequests := h.requests
    rw [hreq] at hrequests
    rw [← hrequests]
    simp [hr]
  · rw [hreq] at hwaits
    change w.acceptor.evWaits - 1 = 0
    rw [hwaits]
    rfl
  · simp only [List.length_append, List.length_singleton]
    omega
  · intro o' ho'
    have hlt := (List.getElem?_eq_some_iff.mp ho').1
    simp only [List.length_append, List.length_singleton] at hlt
    omega

/-- The core's step, as one of the core's run. -/
theorem Follows.asyncIo (h : Follows is w listening js os) {i : SyncIoInput} {j : Input}
    (hij : i.asyncIo = some j) (hcalls : j.calls = []) (hfatal : j.fatal ≠ some aborted)
    {a : NativeSocketStreamAcceptor} {invoked : List Invocation}
    (hstep : w.acceptor.asyncIo.step j = some (a, invoked)) {s : SyncIoAcceptor} (hs : s.asyncIo = a) :
    Follows (is ++ [i]) { w with acceptor := s } listening (js ++ [j]) (os ++ invoked) := by
  refine {
    run := h.run.snoc ?_
    calls := ?_
    connections := ?_
    fatal := ?_
    genuine := ?_ }
  · unfold NativeSocketStreamAcceptor.Step NativeSocketStreamAcceptor.next
    rw [hstep, hs]
    rfl
  · rw [calls_snoc, hcalls, List.append_nil]
    exact h.calls
  · rw [asyncIoInputs_of_some is hij, connections_snoc, connections_snoc, h.connections]
  · rw [asyncIoInputs_of_some is hij, fatal_snoc, fatal_snoc, h.fatal]
  · rw [fatal_snoc]
    rcases hf : Acceptor.fatal js with _ | e
    · rwa [Option.none_or]
    · rw [Option.some_or, ← hf]
      exact h.genuine

/-- The results told are there before the step. -/
theorem Related.told_le (h : Related is w listening js os) : w.told.length ≤ os.length := by
  have hlen := congrArg List.length h.told
  rw [List.length_map, List.length_take] at hlen
  omega

/-- While one request is going on, a step of thread W comes to one result at most, which is found. -/
theorem Live.asyncIo (h : w.Live os) (hone : w.accepted.length ≤ w.told.length + 1)
    {a : NativeSocketStreamAcceptor} {invoked : List Invocation}
    (hle : (os ++ invoked).length ≤ w.accepted.length)
    (hne : ∀ o ∈ invoked, o.result ≠ .errorCode aborted) :
    Live { w with
      acceptor := invoked.foldl SyncIoAcceptor.onAsyncIoDone { w.acceptor with asyncIo := a } }
      (os ++ invoked) := by
  have hsignal := h.signal
  rw [List.length_append] at hle
  refine ⟨?_, ?_⟩
  · rcases invoked with _ | ⟨o, _ | ⟨o', invoked⟩⟩
    · rw [List.append_nil]
      exact hsignal
    · obtain ⟨hready, -⟩ :=
        SyncIoAcceptor.onAsyncIoDone_of (s := { w.acceptor with asyncIo := a }) (hne o (by simp))
      rw [List.foldl_cons, List.foldl_nil, hready, List.length_append, hsignal]
      rfl
    · simp only [List.length_cons] at hle
      omega
  · rcases invoked with _ | ⟨o, _ | ⟨o', invoked⟩⟩
    · rw [List.append_nil]
      exact h.inPipe
    · obtain ⟨-, hnotice⟩ :=
        SyncIoAcceptor.onAsyncIoDone_of (s := { w.acceptor with asyncIo := a }) (hne o (by simp))
      intro o' ho'
      -- The pipe has been empty: the result is the first that has not been told.
      have hempty : os.length = w.told.length := by
        simp only [List.length_singleton] at hle
        omega
      rw [← hempty, List.getElem?_append_right (Nat.le_refl _), Nat.sub_self] at ho'
      cases ho'
      exact hnotice
    · simp only [List.length_cons] at hle
      omega

/-- Thread W, or the destructor of the core, takes a step. -/
theorem Related.asyncIo (h : Related is w listening js os) {i : SyncIoInput} {j : Input}
    (hij : i.asyncIo = some j) (hcalls : j.calls = []) (hfatal : j.fatal ≠ some aborted)
    {s : SyncIoAcceptor} (hstep : w.acceptor.asyncIoStep j = some s) :
    ∃ os', Related (is ++ [i]) { w with acceptor := s } listening (js ++ [j]) os' := by
  obtain ⟨⟨a, invoked⟩, hcore, rfl⟩ := Option.map_eq_some_iff.mp hstep
  obtain ⟨hasync, -, hreq, hwaits, hfailed⟩ :=
    SyncIoAcceptor.foldl_onAsyncIoDone { w.acceptor with asyncIo := a } invoked
  have hfollows := h.toFollows.asyncIo hij hcalls hfatal hcore hasync
  refine ⟨os ++ invoked, hfollows, hfailed.trans h.fine, ?_, h.notAborted, ?_, ?_, ?_⟩
  · rw [List.take_append_of_le_length h.told_le]
    exact h.told
  · rw [hreq]
    exact h.requests
  · rw [hwaits, hreq]
    exact h.waits
  · intro hrunning
    have hrunning' := hrunning
    rw [hasync] at hrunning'
    have hbefore := NativeSocketStreamAcceptor.running_of_step hcore hrunning'
    have hle := hfollows.results.length_le
    rw [List.length_map] at hle
    apply (h.live hbefore).asyncIo h.accepted_le hle
    intro o ho
    exact hfollows.not_aborted hrunning (List.mem_append_right _ ho)

/-- **A step keeps the account.** -/
theorem Inv.step {i : SyncIoInput} (h : Inv listening is w) (hstep : Restrict Step Proper w i w') :
    Inv listening (is ++ [i]) w' := by
  obtain ⟨js, os, h⟩ := h
  obtain ⟨hproper, hstep⟩ := hstep
  unfold Step next at hstep
  cases i with
  | startAcceptOps =>
      simp only [Option.ite_none_right_eq_some] at hstep
      obtain ⟨-, heq⟩ := hstep
      cases heq
      exact ⟨js, os, h.startAcceptOps⟩
  | asyncAccept r =>
      simp only [Option.ite_none_right_eq_some] at hstep
      obtain ⟨hrunning, heq⟩ := hstep
      rcases hnone : w.acceptor.onDoneFuncOrEmpty with _ | r'
      · have hok : (w.acceptor.asyncAccept r).1 = true := by
          unfold SyncIoAcceptor.asyncAccept
          simp [hnone]
        rw [hok] at heq
        cases heq
        exact ⟨_, os, h.taken hrunning hnone hproper r⟩
      · have hcall : w.acceptor.asyncAccept r = (false, w.acceptor) := by
          unfold SyncIoAcceptor.asyncAccept
          simp [hnone]
        rw [hcall] at heq
        simp only [Bool.false_eq_true, ↓reduceIte, List.append_nil] at heq
        cases heq
        exact ⟨js, os, h.refused r⟩
  | readable =>
      by_cases hready : w.acceptor.asyncIo.phase = .running ∧ 0 < w.acceptor.evWaits ∧
          0 < w.acceptor.readyBytes
      · obtain ⟨hrunning, hwait, hready⟩ := hready
        obtain ⟨o, ho, hnext⟩ := h.readable hrunning hwait hready
        cases hnext.symm.trans hstep
        exact ⟨js, os, h.told_one hrunning hwait hready ho⟩
      · simp only [if_neg hready] at hstep
        cases hstep
  | runTask =>
      obtain ⟨s, hs, rfl⟩ := Option.map_eq_some_iff.mp hstep
      obtain ⟨os', h'⟩ := h.asyncIo (i := .runTask) rfl rfl (by simp [Input.fatal]) hs
      exact ⟨_, os', h'⟩
  | completes c =>
      obtain ⟨s, hs, rfl⟩ := Option.map_eq_some_iff.mp hstep
      have hfatal : (Input.completes c []).fatal ≠ some aborted := by
        rcases c with peer | e
        · intro heq
          cases heq
        · unfold Input.fatal
          simp only
          split
          · intro heq
            cases heq
          · exact fun heq => hproper (Option.some.inj heq)
      obtain ⟨os', h'⟩ := h.asyncIo (i := .completes c) rfl rfl hfatal hs
      exact ⟨_, os', h'⟩
  | stop =>
      obtain ⟨s, hs, rfl⟩ := Option.map_eq_some_iff.mp hstep
      obtain ⟨os', h'⟩ := h.asyncIo (i := .stop) rfl rfl (by simp [Input.fatal]) hs
      exact ⟨_, os', h'⟩
  | finish =>
      obtain ⟨s, hs, rfl⟩ := Option.map_eq_some_iff.mp hstep
      obtain ⟨os', h'⟩ := h.asyncIo (i := .finish) rfl rfl (by simp [Input.fatal]) hs
      exact ⟨_, os', h'⟩

/-- The account is kept in every run in which requests come after the start of operations. -/
theorem inv_run (h : Run (Restrict Step Proper) (start listening) is w) : Inv listening is w :=
  h.history (fun _ _ _ _ hinv hstep => hinv.step hstep) inv_start

/-! ## What is promised -/

/-- What the handler of the `k`-th request, which is `r`, should be told. -/
def noticeAt (is : List SyncIoInput) (k : Nat) (r : UserRequest) : Notice :=
  noticeOf ⟨r, outcome (Acceptor.connections (asyncIoInputs is)) (Acceptor.fatal (asyncIoInputs is)) k⟩

/-- A result is what it should be. -/
theorem Follows.noticeOf_eq (h : Follows is w listening js os) {k : Nat} {o : Invocation}
    (ho : os[k]? = some o) : noticeOf o = noticeAt is k o.request := by
  obtain ⟨m, seen, answers, hgood⟩ := h.good
  obtain ⟨hresult, -⟩ := hgood.outcome ho
  rw [h.connections, h.fatal] at hresult
  unfold noticeAt
  rw [← hresult]

/-- What is told is what it should be. -/
theorem Related.told_eq (h : Related is w listening js os) {k : Nat} {n : Notice}
    (hn : w.told[k]? = some n) : n = noticeAt is k n.request := by
  rw [h.told, List.getElem?_map, Option.map_eq_some_iff] at hn
  obtain ⟨o, ho, rfl⟩ := hn
  rw [request_noticeOf]
  rw [List.getElem?_take] at ho
  split at ho
  · exact h.noticeOf_eq ho
  · cases ho

/-- The peers that the handlers have found, that of the result that is in the pipe, and the surplus make up
the connections. -/
theorem Related.peers (h : Related is w listening js os) :
    ∃ inPipe surplus, w.told.filterMap Notice.peer ++ inPipe ++ surplus =
      Acceptor.connections (asyncIoInputs is) ∧ inPipe.length ≤ 1 := by
  obtain ⟨m, seen, answers, hgood⟩ := h.good
  have hpeer : (fun o => (noticeOf o).peer) = fun o : Invocation => o.result.peer? := by
    funext o
    rcases o with ⟨r, _ | _⟩ <;> rfl
  have htold : w.told.filterMap Notice.peer =
      (os.take w.told.length).filterMap fun o => o.result.peer? := by
    rw [h.told, List.filterMap_map, List.length_map, List.length_take, Nat.min_eq_left h.told_le]
    exact congrArg (fun f => (os.take w.told.length).filterMap f) hpeer
  refine ⟨(os.drop w.told.length).filterMap fun o => o.result.peer?, m.ready, ?_, ?_⟩
  · rw [htold, ← List.filterMap_append, List.take_append_drop, ← h.connections]
    exact hgood.peers
  · have hdrop := List.length_filterMap_le (fun o : Invocation => o.result.peer?) (os.drop w.told.length)
    have hle := h.results_le
    rw [List.length_drop] at hdrop
    omega

/-- The request that is going on has been run, and its outcome is there: so it is in the pipe. -/
theorem Related.ready (h : Related is w listening js os) (hrunning : w.acceptor.asyncIo.phase = .running)
    {r : UserRequest} (hreq : w.acceptor.onDoneFuncOrEmpty = some r)
    (hposted : w.acceptor.asyncIo.posted = [])
    (hthere : w.told.length < (Acceptor.connections (asyncIoInputs is)).length ∨
      (Acceptor.fatal (asyncIoInputs is)).isSome) : 0 < w.acceptor.readyBytes := by
  by_contra hzero
  obtain ⟨m, seen, answers, hgood⟩ := h.good
  obtain ⟨hq, -⟩ := hgood.live (by rw [hrunning]; intro heq; cases heq)
  have hsignal := (h.live hrunning).signal
  have hlen := congrArg List.length hgood.requests
  rw [h.calls, ← h.requests, hreq, hposted] at hlen
  simp only [List.length_append, List.length_map, List.length_nil, Option.toList_some,
    List.length_singleton] at hlen
  -- It waits, so there is no connection left and no error.
  have hwaiting : m.waiting ≠ [] := by
    rw [← hq.requests]
    intro hnil
    rw [hnil, List.length_nil] at hlen
    omega
  obtain ⟨hready, hclosed⟩ := m.steady hwaiting
  have hpeers := congrArg List.length hgood.peers
  rw [hready, List.append_nil, h.connections] at hpeers
  have hle := List.length_filterMap_le (fun o : Invocation => o.result.peer?) os
  rcases hthere with hlt | hsome
  · omega
  · rw [← h.fatal, ← hgood.closed, hclosed] at hsome
    cases hsome

/-- Then the event loop finds the pipe readable, and the handler is told. -/
theorem Related.serve_ready (h : Related is w listening js os)
    (hrunning : w.acceptor.asyncIo.phase = .running) {r : UserRequest}
    (hreq : w.acceptor.onDoneFuncOrEmpty = some r) (hready : 0 < w.acceptor.readyBytes) :
    ∃ w', Restrict Step Proper w .readable w' ∧ w'.told = w.told ++ [noticeAt is w.told.length r] := by
  have hwait : 0 < w.acceptor.evWaits := by
    rw [h.waits, hreq]
    exact Nat.one_pos
  obtain ⟨o, ho, hnext⟩ := h.readable hrunning hwait hready
  refine ⟨_, ⟨trivial, hnext⟩, ?_⟩
  rw [h.noticeOf_eq ho, h.request_eq ho hreq]

/-- What runs in thread W while a request is going on, once it is at it. -/
theorem Related.runTask (h : Related is w listening js os) (hrunning : w.acceptor.asyncIo.phase = .running)
    (hposted : w.acceptor.asyncIo.posted ≠ []) :
    ∃ w' js' os', Restrict Step Proper w .runTask w' ∧ Related (is ++ [.runTask]) w' listening js' os' ∧
      w'.told = w.told ∧ w'.acceptor.asyncIo.phase = .running ∧
      w'.acceptor.onDoneFuncOrEmpty = w.acceptor.onDoneFuncOrEmpty ∧
      w'.acceptor.asyncIo.posted.length < w.acceptor.asyncIo.posted.length := by
  obtain ⟨p, ps, hcons⟩ := List.exists_cons_of_ne_nil hposted
  have hlive : w.acceptor.asyncIo.phase ≠ .gone := by
    rw [hrunning]
    intro heq
    cases heq
  have hcore : ∃ a invoked, w.acceptor.asyncIo.step (.runTask []) = some (a, invoked) ∧
      a.phase = w.acceptor.asyncIo.phase ∧ a.posted = ps := by
    unfold NativeSocketStreamAcceptor.step
    simp only [hcons]
    rw [if_pos hlive]
    exact ⟨_, _, rfl, rfl, List.append_nil _⟩
  obtain ⟨a, invoked, hcore, hphase, hps⟩ := hcore
  have hstep : w.acceptor.asyncIoStep (.runTask []) =
      some (invoked.foldl SyncIoAcceptor.onAsyncIoDone { w.acceptor with asyncIo := a }) :=
    Option.map_eq_some_iff.mpr ⟨(a, invoked), hcore, rfl⟩
  obtain ⟨hasync, -, hsame, -, -⟩ :=
    SyncIoAcceptor.foldl_onAsyncIoDone { w.acceptor with asyncIo := a } invoked
  obtain ⟨os', h'⟩ := h.asyncIo (i := .runTask) rfl rfl (by simp [Input.fatal]) hstep
  refine ⟨_, _, os', ⟨trivial, Option.map_eq_some_iff.mpr ⟨_, hstep, rfl⟩⟩, h', rfl, ?_, hsame, ?_⟩
  · rw [hasync, hphase]
    exact hrunning
  · rw [hasync, hps, hcons]
    exact Nat.lt_succ_self _

/-- Where the outcome of the request that is going on is there, thread W and the event loop bring it to the
user. -/
theorem Related.serve (n : Nat) (h : Related is w listening js os)
    (hrunning : w.acceptor.asyncIo.phase = .running) {r : UserRequest}
    (hreq : w.acceptor.onDoneFuncOrEmpty = some r) (hn : w.acceptor.asyncIo.posted.length = n)
    (hthere : w.told.length < (Acceptor.connections (asyncIoInputs is)).length ∨
      (Acceptor.fatal (asyncIoInputs is)).isSome) :
    ∃ is' w', (∀ i ∈ is', i = .runTask ∨ i = .readable) ∧ Run (Restrict Step Proper) w is' w' ∧
      w'.told = w.told ++ [noticeAt is w.told.length r] := by
  induction n using Nat.strongRecOn generalizing is w js os with
  | ind n ih =>
      by_cases hposted : w.acceptor.asyncIo.posted = []
      · obtain ⟨w', hstep, htold⟩ :=
          h.serve_ready hrunning hreq (h.ready hrunning hreq hposted hthere)
        exact ⟨[.readable], w', by simp, Run.single hstep, htold⟩
      · obtain ⟨w₁, js₁, os₁, hstep, h₁, htold₁, hrunning₁, hreq₁, hlt⟩ := h.runTask hrunning hposted
        have hconns : Acceptor.connections (asyncIoInputs (is ++ [.runTask])) =
            Acceptor.connections (asyncIoInputs is) := by
          rw [asyncIoInputs_of_some is rfl, connections_snoc]
          exact List.append_nil _
        have hfatal : Acceptor.fatal (asyncIoInputs (is ++ [.runTask])) =
            Acceptor.fatal (asyncIoInputs is) := by
          rw [asyncIoInputs_of_some is rfl, fatal_snoc]
          exact Option.or_none
        obtain ⟨is', w', hall, hrun, htold⟩ := ih _ (hn ▸ hlt) h₁ hrunning₁ (hreq₁.trans hreq) rfl
          (by rwa [hconns, hfatal, htold₁])
        refine ⟨.runTask :: is', w', ?_, run_cons_iff.mpr ⟨w₁, hstep, hrun⟩, ?_⟩
        · intro i hi
          rcases List.mem_cons.mp hi with rfl | hi
          · exact .inl rfl
          · exact hall i hi
        · rw [htold, htold₁]
          unfold noticeAt
          rw [hconns, hfatal]

/-- Once a destructor has been called, no handler is invoked. -/
theorem told_of_stopped {i : SyncIoInput} (hphase : w.acceptor.asyncIo.phase ≠ .running)
    (hstep : w.Step i w') : w'.told = w.told ∧ w'.acceptor.asyncIo.phase ≠ .running := by
  have hcore {j : Input} (h : (w.acceptor.asyncIoStep j).map (fun s => { w with acceptor := s }) = some w') :
      w'.told = w.told ∧ w'.acceptor.asyncIo.phase ≠ .running := by
    obtain ⟨s, hs, rfl⟩ := Option.map_eq_some_iff.mp h
    obtain ⟨⟨a, invoked⟩, hcore, rfl⟩ := Option.map_eq_some_iff.mp hs
    refine ⟨rfl, ?_⟩
    rw [(SyncIoAcceptor.foldl_onAsyncIoDone { w.acceptor with asyncIo := a } invoked).1]
    exact fun hrunning => hphase (NativeSocketStreamAcceptor.running_of_step hcore hrunning)
  unfold Step next at hstep
  cases i with
  | startAcceptOps => simp [hphase] at hstep
  | asyncAccept r => simp [hphase] at hstep
  | readable => simp [hphase] at hstep
  | runTask => exact hcore hstep
  | completes c => exact hcore hstep
  | stop => exact hcore hstep
  | finish => exact hcore hstep

/-- **The requests are served one by one.** In every run in which `async_accept()` is called after
`start_accept_ops()` no assertion fails, here or in the core, and no empty function is called. The requests
taken are those whose handlers have been invoked, in order, and the one that is going on, for which the event
loop has a wait. The `k`-th handler finds the `k`-th connection, and if there is none the fatal error, never
the code for what was aborted; of the connections at most one is on its way through the pipe, and the others
are left over. While thread W runs, the outcome of the request that is going on can be brought to its handler
as soon as it is there. Once the destructor has been called, no handler is invoked. -/
theorem acceptsOneByOne (h : Run (Restrict Step Proper) (start listening) is w) :
    w.acceptor.assertFailed = false ∧ w.acceptor.asyncIo.queues.assertFailed = false ∧
      w.told.map Notice.request ++ w.acceptor.onDoneFuncOrEmpty.toList = w.accepted ∧
      w.acceptor.evWaits = w.acceptor.onDoneFuncOrEmpty.toList.length ∧
      (∀ k n, w.told[k]? = some n → n = noticeAt is k n.request ∧ n.errCode ≠ some aborted) ∧
      (∃ inPipe surplus, w.told.filterMap Notice.peer ++ inPipe ++ surplus =
        Acceptor.connections (asyncIoInputs is) ∧ inPipe.length ≤ 1) ∧
      (w.acceptor.asyncIo.phase = .running → w.acceptor.readyBytes ≤ w.acceptor.evWaits ∧
        ∀ r, w.acceptor.onDoneFuncOrEmpty = some r →
          (w.told.length < (Acceptor.connections (asyncIoInputs is)).length ∨
            (Acceptor.fatal (asyncIoInputs is)).isSome) →
          ∃ is' w', (∀ i ∈ is', i = .runTask ∨ i = .readable) ∧ Run (Restrict Step Proper) w is' w' ∧
            w'.told = w.told ++ [noticeAt is w.told.length r]) ∧
      (w.acceptor.asyncIo.phase ≠ .running → ∀ is' w', Run Step w is' w' → w'.told = w.told) := by
  obtain ⟨js, os, h⟩ := inv_run h
  obtain ⟨m, seen, answers, hgood⟩ := h.good
  have hqueues : w.acceptor.asyncIo.queues.assertFailed = false := by
    by_cases hgone : w.acceptor.asyncIo.phase = .gone
    · exact (hgood.gone hgone).2.1.fine
    · exact (hgood.live hgone).1.fine
  refine ⟨h.fine, hqueues, h.requests, h.waits, ?_, h.peers, ?_, ?_⟩
  · intro k n hn
    exact ⟨h.told_eq hn, h.notAborted n (List.mem_of_getElem? hn)⟩
  · intro hrunning
    refine ⟨?_, fun r hreq hthere => h.serve _ hrunning hreq rfl hthere⟩
    have hsignal := (h.live hrunning).signal
    have hle := h.results.length_le
    rw [List.length_map, ← h.requests, List.length_append, List.length_map] at hle
    rw [h.waits]
    omega
  · intro hphase is' w' hrun
    have hkept : w'.told = w.told ∧ w'.acceptor.asyncIo.phase ≠ .running := by
      apply hrun.invariant (P := fun v => v.told = w.told ∧ v.acceptor.asyncIo.phase ≠ .running)
      · rintro u i v ⟨htold, hu⟩ hstep
        obtain ⟨hsame, hv⟩ := told_of_stopped hu hstep
        exact ⟨hsame.trans htold, hv⟩
      · exact ⟨rfl, hphase⟩
    exact hkept.1

instance (w : SyncIoWorld) : (i : SyncIoInput) → Decidable (w.Proper i)
  | .asyncAccept _ => inferInstanceAs (Decidable (w.acceptor.evWaitFunc = true))
  | .completes (.failure e) => inferInstanceAs (Decidable (e.val ≠ aborted))
  | .completes (.success _) => .isTrue trivial
  | .startAcceptOps => .isTrue trivial
  | .runTask => .isTrue trivial
  | .readable => .isTrue trivial
  | .stop => .isTrue trivial
  | .finish => .isTrue trivial

/-- A connection comes before its request; a second request is refused while one is going on; then a
background accept fails, and the destructor is called while a third request is going on. -/
def sampleSyncIoInputs : List SyncIoInput :=
  [.startAcceptOps, .completes (.success 7), .asyncAccept ⟨1, 10⟩, .asyncAccept ⟨2, 20⟩, .runTask,
    .readable, .asyncAccept ⟨2, 20⟩, .runTask, .completes (.failure ⟨.system 23, by decide⟩), .readable,
    .asyncAccept ⟨1, 30⟩, .stop, .runTask, .finish]

/-- Two requests, of which the first gets a connection and the second the error; a third, made after it, is told of
nothing yet. -/
theorem acceptsOneByOne_sampleSyncIoInputs :
    ∃ w, Run (Restrict Step Proper) (start true) sampleSyncIoInputs w ∧
      w.told = [⟨⟨1, 10⟩, none, some 7⟩, ⟨⟨2, 20⟩, some (.system 23), none⟩] ∧
      w.accepted = [⟨1, 10⟩, ⟨2, 20⟩, ⟨1, 30⟩] ∧ w.acceptor.assertFailed = false := by
  have hrun : ∃ w, sampleSyncIoInputs.foldlM
      (fun w i => if w.Proper i then w.next i else none) (start true) = some w ∧
      w.told = [⟨⟨1, 10⟩, none, some 7⟩, ⟨⟨2, 20⟩, some (.system 23), none⟩] ∧
      w.accepted = [⟨1, 10⟩, ⟨2, 20⟩, ⟨1, 30⟩] := ⟨_, rfl, rfl, rfl⟩
  obtain ⟨w, hfold, htold, haccepted⟩ := hrun
  have hrun : Run (Restrict Step Proper) (start true) sampleSyncIoInputs w := by
    apply (Run.of_foldlM hfold).mono
    intro u i v hstep
    simp only [Option.ite_none_right_eq_some] at hstep
    exact hstep
  exact ⟨w, hrun, htold, haccepted, (acceptsOneByOne hrun).1⟩

end SyncIoWorld

end FlowIpc.Acceptor
