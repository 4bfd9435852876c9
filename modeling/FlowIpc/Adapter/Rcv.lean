import FlowIpc.Adapter.RcvCore
import FlowIpc.Lib.Transition

/-!
# The asynchronous receiver

`Async_adapter_receiver` lets any number of requests be pending: the head of them is given to the
core, the others wait in a queue. Handlers are not invoked where a request is answered but posted to
the worker thread, which runs them in that order.

Everything the adapter does is done under its mutex, from one call or one event, so such a call or
event is a step; running one posted handler is another.

Source: `sync_io/detail/async_adapter_rcv.hpp`.
-/

namespace FlowIpc.Adapter

/-- `User_request`. Handlers are told apart by number.
Source: `async_adapter_rcv.hpp` `User_request` -/
structure UserRequest (Req : Type) where
  /-- `m_target_hndl_ptr` and `m_target_meta_blob` -/
  target : Req
  /-- `m_on_done_func` -/
  onDoneFunc : Nat

/-- An `Async_adapter_receiver`.
Source: `async_adapter_rcv.hpp` `Async_adapter_receiver` -/
structure AsyncAdapterReceiver (C : RcvCore) where
  /-- `m_sync_io` -/
  syncIo : C.State
  /-- `m_user_request` -/
  userRequest : Option (UserRequest C.Req)
  /-- `m_pending_user_requests_q` -/
  pendingUserRequestsQ : List (UserRequest C.Req)
  /-- The handlers posted to `m_worker` and not yet run, with what they are to be told. -/
  worker : List (UserRequest C.Req × Result C.Msg)
  /-- The results that the core has come to so far, oldest first; the code does not keep them. -/
  coreResults : List (Result C.Msg)
  /-- Some assertion has failed; execution goes on, as in a build without assertions. -/
  assertFailed : Bool

namespace AsyncAdapterReceiver

variable {C : RcvCore}

/-- `assert(p)` -/
def assert (a : AsyncAdapterReceiver C) (p : Prop) [Decidable p] : AsyncAdapterReceiver C :=
  { a with assertFailed := a.assertFailed || !decide p }

/-- An assertion that holds leaves no trace. -/
@[simp] theorem assert_of {a : AsyncAdapterReceiver C} {p : Prop} [Decidable p] (h : p) :
    a.assert p = a := by
  simp [assert, h]

/-- The constructor, around a core that has just entered the PEER state.
Source: `async_adapter_rcv.hpp` `Async_adapter_receiver()` -/
def ctor (s : C.State) : AsyncAdapterReceiver C :=
  let (ok, s) := C.startReceiveOps s
  let a : AsyncAdapterReceiver C := ⟨s, none, [], [], [], false⟩
  a.assert (ok = true)

/-- The pending requests: the head slot, then the queue. -/
def pending (a : AsyncAdapterReceiver C) : List (UserRequest C.Req) :=
  a.userRequest.toList ++ a.pendingUserRequestsQ

/-- `process_msg_or_error()`. The task it posts invokes one handler, and those of the queue after it
where the queue is flushed.
Source: `async_adapter_rcv.hpp` `process_msg_or_error` -/
def processMsgOrError (a : AsyncAdapterReceiver C) (res : Result C.Msg) :
    AsyncAdapterReceiver C :=
  let a := { a with coreResults := a.coreResults ++ [res] }
  let a := a.assert (res.1 ≠ operationAborted)
  let a := a.assert (res.1 ≠ wouldBlock)
  let a := a.assert (a.userRequest.isSome)
  match a.userRequest with
  | none => a
  | some exUserRequest =>
    if res.1.isSome then
      -- The posted task asserts this where it comes to the handlers of the queue.
      let a := a.assert (a.pendingUserRequestsQ = [] ∨ C.sz res.2 = 0)
      let flushed := a.pendingUserRequestsQ.map fun r => (r, res.1, C.noMsg)
      { a with
        userRequest := none
        pendingUserRequestsQ := []
        worker := a.worker ++ (exUserRequest, res) :: flushed }
    else
      match a.pendingUserRequestsQ with
      | [] => { a with userRequest := none, worker := a.worker ++ [(exUserRequest, res)] }
      | r :: q =>
        { a with
          userRequest := some r
          pendingUserRequestsQ := q
          worker := a.worker ++ [(exUserRequest, res)] }

/-- `async_receive_native_handle_impl()`
Source: `async_adapter_rcv.hpp` `async_receive_native_handle_impl` -/
def asyncReceiveNativeHandleImpl (a : AsyncAdapterReceiver C) (r : UserRequest C.Req)
    (ans : C.Ans) : AsyncAdapterReceiver C :=
  if a.userRequest.isSome then { a with pendingUserRequestsQ := a.pendingUserRequestsQ ++ [r] }
  else
    let a := { a with userRequest := some r }
    let (ok, res, s) := C.asyncReceive a.syncIo r.target ans
    let a := { a with syncIo := s }.assert (ok = true)
    if res.1 = wouldBlock then a else a.processMsgOrError res

/-- Each result uses up a pending request. -/
theorem processMsgOrError_pending {a : AsyncAdapterReceiver C} {res : Result C.Msg}
    (h : a.userRequest.isSome) : (a.processMsgOrError res).pending.length < a.pending.length := by
  obtain ⟨r, hr⟩ := Option.isSome_iff_exists.mp h
  unfold processMsgOrError
  simp only [assert, hr]
  split
  · simp [pending, hr]
  · cases hq : a.pendingUserRequestsQ with
    | nil => simp [pending, hr, hq]
    | cons r' q => simp [pending, hr, hq]

/-- The loop of `on_sync_io_rcv_done()`: `ans i` is what the transport answers in its `i`-th turn.
Source: `async_adapter_rcv.hpp` `on_sync_io_rcv_done`, the `while` -/
def serveQueue (a : AsyncAdapterReceiver C) (ans : Nat → C.Ans) (i : Nat) :
    AsyncAdapterReceiver C :=
  match _hr : a.userRequest with
  | none => a
  | some r =>
    let (ok, res, s) := C.asyncReceive a.syncIo r.target (ans i)
    let b := { a with syncIo := s }.assert (ok = true)
    if res.1 = wouldBlock then b else (b.processMsgOrError res).serveQueue ans (i + 1)
termination_by a.pending.length
decreasing_by
  exact processMsgOrError_pending (a := { a with syncIo := s }.assert (ok = true)) (by simp [assert, _hr])

/-- `on_sync_io_rcv_done()`
Source: `async_adapter_rcv.hpp` `on_sync_io_rcv_done` -/
def onSyncIoRcvDone (a : AsyncAdapterReceiver C) (res : Result C.Msg) (ans : Nat → C.Ans) :
    AsyncAdapterReceiver C :=
  (a.processMsgOrError res).serveQueue ans 0

/-- The destructor, once the posted handlers have run: the handlers invoked, in order.
Source: `async_adapter_rcv.hpp` `~Async_adapter_receiver()` -/
def dtor (a : AsyncAdapterReceiver C) :
    AsyncAdapterReceiver C × List (UserRequest C.Req × Result C.Msg) :=
  match a.userRequest with
  | some _ =>
    ({ a with userRequest := none, pendingUserRequestsQ := [] },
      a.pending.map fun r => (r, Code.objectShutdownAbortedCompletionHandler.toErrorCode, C.noMsg))
  | none => (a.assert (a.pendingUserRequestsQ = []), [])

end AsyncAdapterReceiver

/-! ## The system -/

/-- An adapter and what has been asked of it and answered. -/
structure RcvWorld (C : RcvCore) where
  /-- The adapter. -/
  adapter : AsyncAdapterReceiver C
  /-- The requests made so far, in call order. -/
  issued : List (UserRequest C.Req)
  /-- The handlers invoked so far, in order, with what they were told. -/
  invoked : List (UserRequest C.Req × Result C.Msg)
  /-- The adapter has been destroyed. -/
  destroyed : Bool

/-- What can happen to an adapter. -/
inductive RcvMove (C : RcvCore) where
  /-- `async_receive_native_handle()` or `async_receive_blob()` -/
  | asyncReceive (r : UserRequest C.Req) (ans : C.Ans)
  /-- Something happens to the core; `next i` is what the transport answers in the course of the
  `i`-th request given to the core thereafter. -/
  | event (ev : C.Ev) (ans : C.Ans) (next : Nat → C.Ans)
  /-- The worker thread runs the next handler. -/
  | runHandler
  /-- The worker is stopped, what was posted to it is run, and the adapter is destroyed. -/
  | destroy

namespace RcvWorld

variable {C : RcvCore}

/-- One step. -/
def next (w : RcvWorld C) (m : RcvMove C) : Option (RcvWorld C) :=
  if w.destroyed then none
  else
    match m with
    | .asyncReceive r ans =>
      some { w with
        adapter := w.adapter.asyncReceiveNativeHandleImpl r ans
        issued := w.issued ++ [r] }
    | .event ev ans nextAns =>
      match C.event w.adapter.syncIo ev ans with
      | none => none
      | some (s, none) => some { w with adapter := { w.adapter with syncIo := s } }
      | some (s, some res) =>
        some { w with adapter := { w.adapter with syncIo := s }.onSyncIoRcvDone res nextAns }
    | .runHandler =>
      match w.adapter.worker with
      | [] => none
      | h :: hs =>
        some { w with adapter := { w.adapter with worker := hs }, invoked := w.invoked ++ [h] }
    | .destroy =>
      let (a, aborted) := { w.adapter with worker := [] }.dtor
      some { w with
        adapter := a
        invoked := w.invoked ++ w.adapter.worker ++ aborted
        destroyed := true }

/-- The step relation. -/
def Step (w : RcvWorld C) (m : RcvMove C) (w' : RcvWorld C) : Prop :=
  w.next m = some w'

/-- An adapter just constructed. -/
def Init (w : RcvWorld C) : Prop :=
  ∃ s, C.Init s ∧ w = ⟨.ctor s, [], [], false⟩

/-- A state that an adapter can come to. -/
def Reached (w : RcvWorld C) : Prop :=
  Lts.Reachable Step Init w

/-- What the handlers have been told, or are about to be. -/
def completions (w : RcvWorld C) : List (UserRequest C.Req × Result C.Msg) :=
  w.invoked ++ w.adapter.worker

end RcvWorld

end FlowIpc.Adapter
