import FlowIpc.Found.ErrorCode
import FlowIpc.Lib.Transition

/-!
# `Native_socket_stream_acceptor`

The acceptor listens in a thread of its own, W. There it keeps two queues: of the requests of its user that
no connection has come for, and of the connections that no request has come for, which a fatal error may
cap. Two kinds of events fill them: a background accept on the listening socket completes, or a request
arrives, which `async_accept()` has posted on thread W. Either event puts one thing into one queue, and
brings the queues back to a steady state.

A handler that is invoked may call `async_accept()` again, and so may the user's thread at any time: what is
posted while W is busy is part of the event (`during`). The destructor stops W, runs in another thread what
has been posted (`Phase.deinit`), and then invokes the handlers that are left with the code for what was
aborted (`Input.finish`).

Source: `native_socket_stream_acceptor.hpp`, `native_socket_stream_acceptor.cpp`.
-/

namespace FlowIpc.Acceptor

/-! ## Data -/

/-- A request: where the peer goes, and the handler.
Source: `native_socket_stream_acceptor.hpp` `User_request` -/
structure UserRequest where
  /-- `m_target_peer` -/
  targetPeer : Nat
  /-- `m_on_done_func` -/
  onDoneFunc : Nat
  deriving DecidableEq

/-- `std::variant<Peer_ptr, Error_code>`; a peer is named by its native handle. -/
inductive Result where
  /-- `Peer_ptr` -/
  | peer (h : Nat)
  /-- `Error_code`, a truthy one. -/
  | errorCode (e : Err)
  deriving DecidableEq

/-- `holds_alternative<Error_code>()` -/
def Result.isError : Result → Bool
  | .peer _ => false
  | .errorCode _ => true

/-- A handler is invoked, and returns. On success `*m_target_peer` is the peer by then.
Source: `native_socket_stream_acceptor.hpp` `User_request` -/
structure Invocation where
  /-- The request that the handler is of. -/
  request : UserRequest
  /-- The peer, or the code that the handler is given. -/
  result : Result
  deriving DecidableEq

/-- The queues of thread W.
Source: `native_socket_stream_acceptor.hpp` `m_pending_user_requests_q`, `m_pending_results_q` -/
structure Queues where
  /-- `m_pending_user_requests_q` -/
  pendingUserRequestsQ : List UserRequest
  /-- `m_pending_results_q` -/
  pendingResultsQ : List Result
  /-- Some assertion has failed. -/
  assertFailed : Bool
  deriving DecidableEq

namespace Queues

/-- `assert(p)` -/
def assert (q : Queues) (p : Prop) [Decidable p] : Queues :=
  { q with assertFailed := q.assertFailed || !decide p }

/-- `feed_error_result_to_deficit()`
Source: `native_socket_stream_acceptor.cpp` `feed_error_result_to_deficit` -/
def feedErrorResultToDeficit (q : Queues) (e : Err) : Queues × List Invocation :=
  let q := q.assert (q.pendingUserRequestsQ ≠ [])
  ({ q with pendingUserRequestsQ := [] }, q.pendingUserRequestsQ.map fun r => ⟨r, .errorCode e⟩)

/-- `feed_success_result_to_deficit()`
Source: `native_socket_stream_acceptor.cpp` `feed_success_result_to_deficit` -/
def feedSuccessResultToDeficit (q : Queues) (peer : Nat) : Queues × List Invocation :=
  let q := q.assert (q.pendingUserRequestsQ ≠ [])
  match q.pendingUserRequestsQ with
  | [] => (q, [])
  | r :: rs => ({ q with pendingUserRequestsQ := rs }, [⟨r, .peer peer⟩])

/-- `finalize_q_surplus_on_error()`. To `get` what is not there counts as a failed assertion.
Source: `native_socket_stream_acceptor.cpp` `finalize_q_surplus_on_error` -/
def finalizeQSurplusOnError (q : Queues) : Queues × List Invocation :=
  let q := q.assert (q.pendingResultsQ.getLast?.any Result.isError)
  if q.pendingUserRequestsQ = [] then (q, [])
  else
    let q := q.assert (q.pendingResultsQ.length = 1)
    match q.pendingResultsQ with
    | .errorCode e :: _ => q.feedErrorResultToDeficit e
    | _ => (q.assert False, [])

/-- `finalize_q_surplus_on_success()`
Source: `native_socket_stream_acceptor.cpp` `finalize_q_surplus_on_success` -/
def finalizeQSurplusOnSuccess (q : Queues) : Queues × List Invocation :=
  let q := q.assert (q.pendingResultsQ.getLast?.any fun r => !r.isError)
  if q.pendingUserRequestsQ = [] then (q, [])
  else
    let q := q.assert (q.pendingResultsQ.length = 1)
    match q.pendingResultsQ with
    | .peer h :: rs => { q with pendingResultsQ := rs }.feedSuccessResultToDeficit h
    | _ => (q.assert False, [])

/-- A result is pushed, no error having been pushed before.
Source: `native_socket_stream_acceptor.cpp` `on_next_peer_socket_or_error` -/
def pushResult (q : Queues) (r : Result) : Queues :=
  let q := q.assert (!q.pendingResultsQ.getLast?.any Result.isError)
  { q with pendingResultsQ := q.pendingResultsQ ++ [r] }

/-- What `async_accept_impl()` posts on thread W.
Source: `native_socket_stream_acceptor.cpp` `async_accept_impl` -/
def asyncAcceptImpl (q : Queues) (newReq : UserRequest) : Queues × List Invocation :=
  let q := { q with pendingUserRequestsQ := q.pendingUserRequestsQ ++ [newReq] }
  match q.pendingResultsQ with
  | [] => (q, [])
  | r :: rs =>
    let q := q.assert (q.pendingUserRequestsQ.length = 1)
    match r with
    | .errorCode e => (q.assert (q.pendingResultsQ.length = 1)).feedErrorResultToDeficit e
    | .peer h => { q with pendingResultsQ := rs }.feedSuccessResultToDeficit h

end Queues

/-! ## The acceptor -/

/-- Where the acceptor is in its life. -/
inductive Phase where
  /-- Thread W runs. -/
  | running
  /-- The destructor has stopped it, and runs what has been posted. -/
  | deinit
  /-- The destructor has returned. -/
  | gone
  deriving DecidableEq

/-- A `Native_socket_stream_acceptor`.
Source: `native_socket_stream_acceptor.hpp` -/
structure NativeSocketStreamAcceptor where
  /-- The queues. -/
  queues : Queues
  /-- `m_next_peer_socket`, if it is open. -/
  nextPeerSocket : Option Nat
  /-- `m_acceptor` is listening. -/
  listening : Bool
  /-- A background accept is going on. -/
  accepting : Bool
  /-- The requests posted on `m_worker`, and not run yet. -/
  posted : List UserRequest
  /-- Where it is in its life. -/
  phase : Phase
  deriving DecidableEq

/-- `EAGAIN`, which is would-block. -/
def eagain : Nat := 11

/-- `boost::asio::error::connection_aborted` -/
def connectionAborted : Err := .system 103

/-- The code for handlers that are aborted. -/
def aborted : Err := .code .objectShutdownAbortedCompletionHandler

/-- How a background accept completes. Its code is never would-block. -/
inductive Completion where
  /-- With a connection. -/
  | success (h : Nat)
  /-- With an error. -/
  | failure (e : {e : Err // e ≠ .system eagain})
  deriving DecidableEq

namespace NativeSocketStreamAcceptor

/-- As the constructor leaves it, which listens or has failed to. -/
def ctor (listening : Bool) : NativeSocketStreamAcceptor where
  queues := ⟨[], [], false⟩
  nextPeerSocket := none
  listening := listening
  accepting := listening
  posted := []
  phase := .running

/-- The next background accept is started. -/
def asyncAccept (s : NativeSocketStreamAcceptor) : NativeSocketStreamAcceptor :=
  { s with accepting := true }

/-- The handler of a background accept.
Source: `native_socket_stream_acceptor.cpp` `on_next_peer_socket_or_error` -/
def onNextPeerSocketOrError (s : NativeSocketStreamAcceptor) :
    Completion → NativeSocketStreamAcceptor × List Invocation
  | .failure e =>
    if e.val = .operationAborted then (s, [])
    else
      let s := { s with nextPeerSocket := none }
      if e.val = connectionAborted then (s.asyncAccept, [])
      else
        let (q, invoked) := (s.queues.pushResult (.errorCode e)).finalizeQSurplusOnError
        ({ s with listening := false, queues := q }, invoked)
  | .success h =>
    let s := { s with nextPeerSocket := none }
    let (q, invoked) :=
      ((s.queues.assert (s.nextPeerSocket = none)).pushResult (.peer h)).finalizeQSurplusOnSuccess
    ({ s with queues := q }.asyncAccept, invoked)

/-- A background accept completes: asio has opened `m_next_peer_socket` if it has succeeded. -/
def complete (s : NativeSocketStreamAcceptor) (c : Completion) :
    NativeSocketStreamAcceptor × List Invocation :=
  let sock :=
    match c with
    | .success h => some h
    | .failure _ => s.nextPeerSocket
  { s with accepting := false, nextPeerSocket := sock }.onNextPeerSocketOrError c

end NativeSocketStreamAcceptor

/-- What happens next. `during` are the requests that are posted while thread W is at it. -/
inductive Input where
  /-- `async_accept()` in the user's thread. -/
  | asyncAccept (r : UserRequest)
  /-- What was posted first is run. -/
  | runTask (during : List UserRequest)
  /-- The background accept completes. -/
  | completes (c : Completion) (during : List UserRequest)
  /-- The destructor is called, and has stopped thread W. -/
  | stop
  /-- The destructor has found nothing more to run, aborts the requests that are left, and returns. -/
  | finish
  deriving DecidableEq

namespace NativeSocketStreamAcceptor

/-- What happens next, and which handlers it invokes; `none` if it cannot happen.
Source: `native_socket_stream_acceptor.cpp` `async_accept_impl`, `~Native_socket_stream_acceptor` -/
def step (s : NativeSocketStreamAcceptor) : Input → Option (NativeSocketStreamAcceptor × List Invocation)
  | .asyncAccept r =>
    if s.phase = .running then some ({ s with posted := s.posted ++ [r] }, []) else none
  | .runTask during =>
    match s.posted with
    | [] => none
    | r :: rs =>
      if s.phase ≠ .gone then
        let (q, invoked) := s.queues.asyncAcceptImpl r
        some ({ s with queues := q, posted := rs ++ during }, invoked)
      else none
  | .completes c during =>
    if s.phase ≠ .gone ∧ s.accepting then
      let (s, invoked) := s.complete c
      some ({ s with posted := s.posted ++ during }, invoked)
    else none
  | .stop =>
    if s.phase = .running then some ({ s with phase := .deinit }, []) else none
  | .finish =>
    if s.phase = .deinit ∧ s.posted = [] then
      some ({ s with
          phase := .gone
          accepting := false
          queues := { s.queues with pendingUserRequestsQ := [] } },
        s.queues.pendingUserRequestsQ.map fun r => ⟨r, .errorCode aborted⟩)
    else none

/-- The same, the handlers invoked so far being kept. -/
def next (x : NativeSocketStreamAcceptor × List Invocation) (i : Input) :
    Option (NativeSocketStreamAcceptor × List Invocation) :=
  (x.1.step i).map fun (s, invoked) => (s, x.2 ++ invoked)

/-- The steps. -/
def Step (x : NativeSocketStreamAcceptor × List Invocation) (i : Input)
    (y : NativeSocketStreamAcceptor × List Invocation) : Prop :=
  next x i = some y

end NativeSocketStreamAcceptor

end FlowIpc.Acceptor
