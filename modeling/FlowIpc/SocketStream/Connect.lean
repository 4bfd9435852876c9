import FlowIpc.Lib.Transition
import FlowIpc.Util.ProcessCredentials

/-!
# Connecting a socket stream

`sync_connect()` makes a peer of a `Native_socket_stream::Impl` in NULL state, by way of `async_connect()`:

* The endpoint is made of the name; if this throws, the attempt has failed.
* The socket, which has been open since the constructor, is switched to non-blocking mode, and connected.
* If `connect()` would block, a short-lived thread waits until the socket is writable, and the attempt has
  succeeded.
* Once there is a connection, the credentials of the process opposite are asked for. That this fails is held
  to be impossible: the process is aborted.

A failed attempt goes back to NULL state. What one attempt does in that state, the first or a later one, is
`syncConnect_idle`. The socket is not given up by a failed attempt, nor is its mode switched back, although every
attempt that gets to it asserts that it is in blocking mode (`modeAssertFailed_of_syncConnect`).
`syncConnect_retries` is about any number of attempts that do not come to that (`Unswitched`).

Source: `native_socket_stream_impl.cpp` (`sync_io`), `asio_local_stream_socket.cpp`,
`native_socket_stream_impl.hpp` `State`, `m_peer_socket`.
-/

namespace FlowIpc.SyncConnect

open Util

/-! ## The object -/

/-- Source: `native_socket_stream_impl.hpp` `State` -/
inductive State where
  /-- `S_NULL` -/
  | null
  /-- `S_CONNECTING` -/
  | connecting
  /-- `S_PEER` -/
  | peer
  deriving DecidableEq, Repr

/-- A path; `[]` is that of `Endpoint()`. -/
abbrev Endpoint := List UInt8

/-- A local stream socket that is open.
Source: `asio_local_stream_socket_fwd.hpp` `Peer_socket` -/
structure PeerSocket where
  /-- The native handle. -/
  fd : Nat
  /-- `non_blocking()` -/
  nonBlocking : Bool
  /-- What it is connected to, if it is. -/
  remote : Option Endpoint
  deriving DecidableEq, Repr

/-- What the connecting of a `Native_socket_stream::Impl` has to do with.
Source: `native_socket_stream_impl.hpp` `Impl` -/
structure Impl where
  /-- `m_state` -/
  state : State
  /-- `m_peer_socket` -/
  peerSocket : Option PeerSocket
  /-- `m_ev_wait_hndl_peer_socket` -/
  evWaitHndlPeerSocket : Option Nat
  /-- `m_peer_process_creds` -/
  peerProcessCreds : ProcessCredentials
  /-- `m_conn_async_worker`, and whether its thread has been started. -/
  connAsyncWorker : Option Bool
  /-- `m_conn_ev_wait_hndl_peer_socket` -/
  connEvWaitHndlPeerSocket : Option Nat
  /-- `m_conn_ev_wait_func` is not empty. -/
  connEvWaitFunc : Bool
  /-- The waits that `m_conn_async_worker` has been asked for. -/
  connEvWaits : Nat
  /-- The assertion that the socket starts in blocking mode has failed. -/
  modeAssertFailed : Bool
  /-- Another assertion has failed. -/
  assertFailed : Bool
  deriving DecidableEq, Repr

/-- What the system answers to one attempt. An attempt that does not get so far does not ask. -/
structure Attempt where
  /-- The name to connect to. -/
  absoluteName : List UInt8
  /-- What `endpoint::path()` throws. -/
  path : Option Nat
  /-- What `non_blocking(true)` fails with. -/
  nonBlocking : Option Nat
  /-- What `connect()` fails with. -/
  connect : Option Nat
  /-- Whether there is a connection when `connect()` has not failed: it reports success, too, if the backlog
  opposite is full; and a socket that is writable in the end need not be connected. -/
  connected : Bool
  /-- What `get_option()` comes to. -/
  creds : Except Nat ProcessCredentials

namespace Impl

/-- An `assert()`. -/
def assert (x : Impl) (b : Bool) : Impl :=
  { x with assertFailed := x.assertFailed || !b }

/-- The constructor that the others delegate to.
Source: `native_socket_stream_impl.cpp` `Impl(…, nullptr_t)` -/
def ctorDelegated : Impl where
  state := .null
  peerSocket := none
  evWaitHndlPeerSocket := none
  peerProcessCreds := .zero
  connAsyncWorker := none
  connEvWaitHndlPeerSocket := none
  connEvWaitFunc := false
  connEvWaits := 0
  modeAssertFailed := false
  assertFailed := false

/-- Source: `native_socket_stream_impl.hpp` `start_ops` -/
def startConnectOps (x : Impl) : Bool × Impl :=
  if x.connEvWaitFunc then (false, x)
  else if x.state = .peer then (false, x)
  else
    let x := x.assert (x.state = .null)
    (true, { x with connEvWaitFunc := true })

/-- The constructor that leaves it in NULL state; the new socket has this native handle.
Source: `native_socket_stream_impl.cpp` `Impl(Logger*, String_view)` -/
def ctor (fd : Nat) : Impl :=
  let x := { ctorDelegated with
    peerSocket := some ⟨fd, false, none⟩
    evWaitHndlPeerSocket := some fd
    connAsyncWorker := some false
    connEvWaitHndlPeerSocket := some fd }
  x.startConnectOps.2

end Impl

/-! ## An attempt -/

/-- `EWOULDBLOCK`, which is what `boost::asio::error::would_block` stands for. -/
def ewouldblock : Nat := 11

/-- The name is in the abstract namespace: it is led by a zero.
Source: `asio_local_stream_socket.cpp` `endpoint_at_shared_name` -/
def endpointAtSharedName (absoluteName : List UInt8) (path : Option Nat) : Endpoint × ErrorCode :=
  match path with
  | none => (0 :: absoluteName, none)
  | some e => ([], some (.system e))

namespace Impl

/-- The process may be aborted.
Source: `native_socket_stream_impl.cpp` `save_peer_process_creds` -/
def savePeerProcessCreds (x : Impl) (creds : Except Nat ProcessCredentials) : Option Impl :=
  let x := x.assert x.peerSocket.isSome
  match creds with
  | .error _ => none
  | .ok creds => some { x with peerProcessCreds := creds }

/-- `m_state`, when it is known how the attempt ends. -/
def concluded (x : Impl) (err : ErrorCode) : Impl :=
  { x with state := if err.isSome then .null else .peer }

/-- There is no result if the process is aborted, or would be for following a null pointer.
Source: `native_socket_stream_impl.cpp` `async_connect` -/
def asyncConnect (x : Impl) (a : Attempt) : Option (ErrorCode × Impl) :=
  let x := { x with state := .connecting }
  let (remoteEndpoint, err) := endpointAtSharedName a.absoluteName a.path
  let x := x.assert ((remoteEndpoint = []) = err.isSome)
  if err.isSome then some (err, x.concluded err)
  else
    match x.peerSocket with
    | none => none
    | some sock =>
      let x := { x with modeAssertFailed := x.modeAssertFailed || sock.nonBlocking }
      match a.nonBlocking with
      | some e => some (some (.system e), x.concluded (some (.system e)))
      | none =>
        let sock := { sock with nonBlocking := true }
        let reached := { sock with remote := if a.connected then some remoteEndpoint else none }
        match a.connect with
        | some e =>
          if e = ewouldblock then
            -- The wait is for the socket to be writable: by then it is connected, or never will be.
            match x.connEvWaitHndlPeerSocket with
            | none => none
            | some _ => some (wouldBlock, { x with peerSocket := some reached, connEvWaits := x.connEvWaits + 1 })
          else
            some (some (.system e), { x with peerSocket := some sock }.concluded (some (.system e)))
        | none =>
          let x := { x with peerSocket := some reached }
          (x.savePeerProcessCreds a.creds).map fun x => (none, x.concluded none)

/-- What is given to `on_done_func` is the first part.
Source: `native_socket_stream_impl.cpp` `conn_on_ev_peer_socket_writable` -/
def connOnEvPeerSocketWritable (x : Impl) (a : Attempt) : Option (ErrorCode × Impl) :=
  let x := x.assert (x.state = .connecting)
  let x := { x with state := .peer }
  (x.savePeerProcessCreds a.creds).map fun x => (none, x)

/-- The thread is started, runs the handler of the wait, and is stopped. Without a wait there would be no end
to this.
Source: `native_socket_stream_impl.cpp` `sync_connect` -/
def awaitConnect (x : Impl) (a : Attempt) : Option (ErrorCode × Impl) :=
  match x.connAsyncWorker, x.connEvWaits with
  | some _, waits + 1 =>
    let x := { x with connAsyncWorker := some true, connEvWaits := waits }
    (x.connOnEvPeerSocketWritable a).map fun (err, x) =>
      let x := x.assert (err ≠ wouldBlock)
      (err, { x with connAsyncWorker := some false })
  | _, _ => none

/-- The end of `sync_connect()`.
Source: `native_socket_stream_impl.cpp` `sync_connect` -/
def connectDone (x : Impl) (err : ErrorCode) : Impl :=
  if err.isSome then x.assert (x.state = .null)
  else
    let x := x.assert (x.state = .peer)
    { x with connEvWaitFunc := false, connEvWaitHndlPeerSocket := none, connAsyncWorker := none }

/-- `sync_connect()`, given where to put the error, which holds `err`.
Source: `native_socket_stream_impl.cpp` `sync_connect` -/
def syncConnectBody (x : Impl) (a : Attempt) (err : ErrorCode) : Option (Bool × ErrorCode × Impl) :=
  if x.state ≠ .null then some (false, err, x)
  else
    let x := x.assert x.connEvWaitFunc
    (x.asyncConnect a).bind fun (err, x) =>
      (if err = wouldBlock then x.awaitConnect a else some (err, x)).map fun (err, x) =>
        (true, err, x.connectDone err)

/-- Source: `native_socket_stream_impl.cpp` `sync_connect` -/
def syncConnect (x : Impl) (ptr : Option ErrorCode) (a : Attempt) : Option (Emit Bool × Impl) :=
  (x.syncConnectBody a (ptr.getD none)).map fun ran => execAndThrowOnError ptr fun _ => ran

/-- `remote_peer_process_credentials()`, given where to put the error, which holds `err`.
Source: `native_socket_stream_impl.cpp` `remote_peer_process_credentials` -/
def remotePeerProcessCredentialsBody (x : Impl) (err : ErrorCode) : ProcessCredentials × ErrorCode × Unit :=
  if x.state ≠ .peer then (.zero, none, ())
  else if x.peerSocket.isNone then (.zero, Code.lowLvlTransportHosed.toErrorCode, ())
  else (x.peerProcessCreds, err, ())

/-- Source: `native_socket_stream_impl.cpp` `remote_peer_process_credentials` -/
def remotePeerProcessCredentials (x : Impl) (ptr : Option ErrorCode) : Emit ProcessCredentials :=
  (execAndThrowOnError ptr x.remotePeerProcessCredentialsBody).1

/-- In PEER state, with a place for the error: a socket that is there leaves the place as it was. -/
theorem remotePeerProcessCredentials_of_peer {x : Impl} (h : x.state = .peer) (err : ErrorCode) :
    x.remotePeerProcessCredentials (some err) =
      if x.peerSocket = none then .ret .zero Code.lowLvlTransportHosed.toErrorCode
      else .ret x.peerProcessCreds err := by
  have hbody : x.remotePeerProcessCredentialsBody err =
      if x.peerSocket.isNone then (.zero, Code.lowLvlTransportHosed.toErrorCode, ())
      else (x.peerProcessCreds, err, ()) := if_neg fun hne => hne h
  unfold remotePeerProcessCredentials execAndThrowOnError
  dsimp only
  rw [hbody]
  rcases x.peerSocket with _ | sock
  · rfl
  · rfl

end Impl

/-- A call of `sync_connect()`, with what it has given to the caller. -/
structure Call where
  ptr : Option ErrorCode
  attempt : Attempt
  emit : Emit Bool

/-- One call. -/
def Step (x : Impl) (c : Call) (x' : Impl) : Prop :=
  x.syncConnect c.ptr c.attempt = some (c.emit, x')

/-! ## What an attempt does -/

namespace Impl

/-- In NULL state: the constructor has made it so, or an attempt that has failed, which may have switched the
socket's mode. -/
def idle (fd : Nat) (mode asserted : Bool) : Impl where
  state := .null
  peerSocket := some ⟨fd, mode, none⟩
  evWaitHndlPeerSocket := some fd
  peerProcessCreds := .zero
  connAsyncWorker := some false
  connEvWaitHndlPeerSocket := some fd
  connEvWaitFunc := true
  connEvWaits := 0
  modeAssertFailed := asserted
  assertFailed := false

/-- In PEER state. -/
def peer (fd : Nat) (remote : Option Endpoint) (creds : ProcessCredentials) (asserted : Bool) : Impl where
  state := .peer
  peerSocket := some ⟨fd, true, remote⟩
  evWaitHndlPeerSocket := some fd
  peerProcessCreds := creds
  connAsyncWorker := none
  connEvWaitHndlPeerSocket := none
  connEvWaitFunc := false
  connEvWaits := 0
  modeAssertFailed := asserted
  assertFailed := false

/-- A stream just constructed is idle. -/
theorem ctor_eq (fd : Nat) : ctor fd = idle fd false false :=
  rfl

end Impl

namespace Attempt

/-- The first thing to fail, short of the credentials. -/
def err (a : Attempt) : ErrorCode :=
  match a.path, a.nonBlocking, a.connect with
  | some e, _, _ => some (.system e)
  | none, some e, _ => some (.system e)
  | none, none, some e => if e = ewouldblock then none else some (.system e)
  | none, none, none => none

/-- The socket's mode is switched. -/
def switches (a : Attempt) : Bool :=
  a.path.isNone && a.nonBlocking.isNone

/-- What the socket is connected to, if the attempt succeeds. -/
def remote (a : Attempt) : Option Endpoint :=
  if a.connected then some (0 :: a.absoluteName) else none

end Attempt

namespace Impl

variable {fd : Nat} {mode asserted : Bool}

/-- What is left of `sync_connect()` once `async_connect()` has failed. -/
theorem syncConnectBody_of_failed {a : Attempt} {err : ErrorCode} {e : Nat} {asserted' mode' : Bool}
    (h : (idle fd mode asserted).asyncConnect a = some (some (.system e), idle fd mode' asserted')) :
    (idle fd mode asserted).syncConnectBody a err = some (true, some (.system e), idle fd mode' asserted') := by
  have hbody : (idle fd mode asserted).syncConnectBody a err = ((idle fd mode asserted).asyncConnect a).bind fun p =>
      (if p.1 = wouldBlock then p.2.awaitConnect a else some (p.1, p.2)).map fun p =>
        (true, p.1, p.2.connectDone p.1) := rfl
  rw [hbody, h]
  rfl

/-- **An attempt**, in NULL state: it comes to the first failure, and if there is none, to a connection, or
to the end of the process. -/
theorem syncConnectBody_idle (a : Attempt) (err : ErrorCode) :
    (idle fd mode asserted).syncConnectBody a err =
      if a.err.isSome then
        some (true, a.err, idle fd (mode || a.switches) (asserted || a.path.isNone && mode))
      else
        a.creds.toOption.map fun creds => (true, none, peer fd a.remote creds (asserted || mode)) := by
  obtain ⟨name, path, nonBlocking, connect, connected, creds⟩ := a
  rcases path with _ | e
  · rcases nonBlocking with _ | e
    · rcases connect with _ | e
      · -- There is a connection at once.
        rcases creds with e | creds
        · rfl
        · rfl
      · by_cases hwould : e = ewouldblock
        · -- It is waited for.
          subst hwould
          rcases creds with e | creds
          · rfl
          · rfl
        · have herr : Attempt.err ⟨name, none, none, some e, connected, creds⟩ = some (.system e) := if_neg hwould
          rw [herr]
          refine syncConnectBody_of_failed ?_
          simp only [Attempt.switches, Option.isNone_none, Bool.true_and, Bool.or_true]
          exact if_neg hwould
    · refine syncConnectBody_of_failed ?_
      rw [Attempt.switches, Option.isNone_some, Bool.and_false, Bool.or_false]
      rfl
  · refine syncConnectBody_of_failed ?_
    rw [Attempt.switches, Option.isNone_some, Bool.false_and, Bool.false_and, Bool.or_false, Bool.or_false]
    rfl

/-- In PEER state the body refuses. -/
theorem syncConnectBody_peer (remote : Option Endpoint) (creds : ProcessCredentials) (a : Attempt)
    (err : ErrorCode) : (peer fd remote creds asserted).syncConnectBody a err =
      some (false, err, peer fd remote creds asserted) :=
  rfl

/-- `sync_connect()` in NULL state, however the error gets to the caller. -/
theorem syncConnect_idle (ptr : Option ErrorCode) (a : Attempt) :
    (idle fd mode asserted).syncConnect ptr a =
      if a.err.isSome then
        some (report ptr a.err, idle fd (mode || a.switches) (asserted || a.path.isNone && mode))
      else
        a.creds.toOption.map fun creds => (.ret true none, peer fd a.remote creds (asserted || mode)) := by
  rw [syncConnect, syncConnectBody_idle]
  rcases herr : a.err with _ | e
  · rw [if_neg (by simp), if_neg (by simp), Option.map_map]
    congr 1
    funext creds
    cases ptr <;> rfl
  · cases ptr <;> rfl

/-- A stream in PEER state refuses to connect, and stays as it is. -/
theorem syncConnect_peer (remote : Option Endpoint) (creds : ProcessCredentials) (ptr : Option ErrorCode)
    (a : Attempt) : (peer fd remote creds asserted).syncConnect ptr a =
      some (.ret false (ptr.getD none), peer fd remote creds asserted) := by
  rw [syncConnect, syncConnectBody_peer]
  cases ptr <;> rfl

end Impl

/-! ## Any number of attempts -/

/-- Where any number of attempts may lead. -/
inductive Settled (fd : Nat) : Impl → Prop where
  /-- Each has failed. -/
  | idle (mode asserted : Bool) : Settled fd (.idle fd mode asserted)
  /-- The last has succeeded. -/
  | peer (remote : Option Endpoint) (creds : ProcessCredentials) (asserted : Bool) :
    Settled fd (.peer fd remote creds asserted)

variable {fd : Nat} {x x' : Impl}

/-- One call. -/
theorem Settled.step {c : Call} (h : Settled fd x) (hstep : Step x c x') : Settled fd x' := by
  cases h with
  | idle mode asserted =>
    rw [Step, Impl.syncConnect_idle] at hstep
    split at hstep
    · have heq : Impl.idle fd _ _ = x' := congrArg Prod.snd (Option.some.inj hstep)
      subst heq
      exact .idle _ _
    · obtain ⟨creds, -, hran⟩ := Option.map_eq_some_iff.1 hstep
      have heq : Impl.peer fd _ _ _ = x' := congrArg Prod.snd hran
      subst heq
      exact .peer _ _ _
  | peer remote creds asserted =>
    rw [Step, Impl.syncConnect_peer] at hstep
    have heq : Impl.peer fd _ _ _ = x' := congrArg Prod.snd (Option.some.inj hstep)
    subst heq
    exact .peer _ _ _

/-- Any number of calls. -/
theorem Settled.run {cs : List Call} (hrun : Lts.Run Step (.ctor fd) cs x) : Settled fd x :=
  hrun.invariant (fun _ _ _ h hstep => h.step hstep) (Impl.ctor_eq fd ▸ .idle _ _)

/-! ## What a failed attempt keeps -/

/-- Every attempt that makes its endpoint asserts that the socket is in blocking mode, which it is not once an
attempt that has failed has switched it. -/
theorem modeAssertFailed_of_syncConnect {mode asserted : Bool} {ptr : Option ErrorCode} {a : Attempt}
    {emit : Emit Bool} (h : (Impl.idle fd mode asserted).syncConnect ptr a = some (emit, x')) :
    x'.modeAssertFailed = (asserted || a.path.isNone && mode) ∧
      x'.peerSocket.map (·.nonBlocking) = some (mode || a.switches) := by
  rw [Impl.syncConnect_idle] at h
  split at h
  · cases h
    exact ⟨rfl, rfl⟩
  · rename_i herr
    obtain ⟨creds, -, hran⟩ := Option.map_eq_some_iff.1 h
    cases hran
    obtain ⟨name, path, nonBlocking, connect, connected, creds⟩ := a
    rcases path with _ | e
    · rcases nonBlocking with _ | e
      · exact ⟨rfl, congrArg some (Bool.or_true mode).symm⟩
      · exact absurd rfl herr
    · exact absurd rfl herr

/-- The attempt does not get to a socket that one before it has switched: it fails to make the endpoint, or the
socket is in blocking mode. -/
def Unswitched (x : Impl) (a : Attempt) : Prop :=
  a.path.isSome ∨ ∀ sock ∈ x.peerSocket, sock.nonBlocking = false

/-- A call that is no attempt, or one of these. -/
def Call.Unswitched (x : Impl) (c : Call) : Prop :=
  x.state = .null → SyncConnect.Unswitched x c.attempt

/-- The assertion on the mode holds. -/
theorem and_mode_eq_false {mode asserted : Bool} {a : Attempt} (h : Unswitched (.idle fd mode asserted) a) :
    (a.path.isNone && mode) = false := by
  rcases h with hpath | hmode
  · rw [Option.isNone_eq_false_iff.2 hpath, Bool.false_and]
  · rw [show mode = false from hmode _ rfl, Bool.and_false]

/-- An attempt that does not fail has made the endpoint. -/
theorem path_of_err {a : Attempt} (h : ¬ a.err.isSome) : a.path.isNone = true := by
  obtain ⟨name, path, nonBlocking, connect, connected, creds⟩ := a
  cases path with
  | none => rfl
  | some e => exact absurd rfl h

/-- One such call keeps it so. -/
theorem Settled.step_modeAssertFailed {c : Call} (h : Settled fd x) (hmode : x.modeAssertFailed = false)
    (hok : c.Unswitched x) (hstep : Step x c x') : x'.modeAssertFailed = false := by
  cases h with
  | idle mode asserted =>
    rw [(modeAssertFailed_of_syncConnect hstep).1, and_mode_eq_false (hok rfl), Bool.or_false]
    exact hmode
  | peer remote creds asserted =>
    rw [Step, Impl.syncConnect_peer] at hstep
    have heq : Impl.peer fd _ _ _ = x' := congrArg Prod.snd (Option.some.inj hstep)
    subst heq
    exact hmode

/-- And so does any number of them. -/
theorem Settled.run_unswitched {cs : List Call}
    (hrun : Lts.Run (Lts.Restrict Step fun x c => c.Unswitched x) (.ctor fd) cs x) :
    Settled fd x ∧ x.modeAssertFailed = false := by
  refine hrun.invariant (P := fun x => Settled fd x ∧ x.modeAssertFailed = false) ?_ ?_
  · rintro x c x' ⟨hsettled, hmode⟩ ⟨hok, hstep⟩
    exact ⟨hsettled.step hstep, hsettled.step_modeAssertFailed hmode hok hstep⟩
  · rw [Impl.ctor_eq]
    exact ⟨.idle _ _, rfl⟩

/-! ## Retrying -/

/-- An object, but for its socket's mode. -/
def Impl.butMode (x : Impl) : Impl :=
  { x with peerSocket := x.peerSocket.map fun sock => { sock with nonBlocking := false } }

/-- After an attempt that has failed: in NULL state, with the socket, still open and not connected. -/
def Failed (fd : Nat) (x : Impl) : Prop :=
  x.state = .null ∧ ∃ mode, x.peerSocket = some ⟨fd, mode, none⟩

/-- After an attempt that has succeeded: in PEER state, with that socket, connected as far as `connect()` has
done that, and with the credentials from the process opposite. -/
def Connected (fd : Nat) (a : Attempt) (x : Impl) : Prop :=
  x.state = .peer ∧ x.peerSocket = some ⟨fd, true, a.remote⟩ ∧ a.creds = .ok x.peerProcessCreds

/-- **Retrying is safe**, after any number of attempts. -/
structure RetriesSafely (fd : Nat) (x : Impl) : Prop where
  /-- No assertion has failed. -/
  assertions : x.assertFailed = false ∧ x.modeAssertFailed = false
  /-- Nothing is under way. -/
  settled : x.state ≠ .connecting
  /-- In NULL state the object is as the constructor has left it, unless an attempt has switched the socket. -/
  as_constructed : x.state = .null → (∀ sock ∈ x.peerSocket, sock.nonBlocking = false) → x = .ctor fd
  /-- The next attempt comes to what a first one would. -/
  as_first : x.state = .null → ∀ ptr a, Unswitched x a →
    (x.syncConnect ptr a).map (fun (emit, x') => (emit, x'.butMode)) =
      ((Impl.ctor fd).syncConnect ptr a).map fun (emit, x') => (emit, x'.butMode)
  /-- It fails or succeeds, and no assertion fails; or there is a connection, and the process is aborted. -/
  attempt : x.state = .null → ∀ ptr a, Unswitched x a →
    (∃ emit x', x.syncConnect ptr a = some (emit, x') ∧ emit.emitted = a.err ∧
      (x'.assertFailed = false ∧ x'.modeAssertFailed = false) ∧
      if a.err.isSome then Failed fd x' else Connected fd a x') ∨
    a.err = none ∧ (∃ e, a.creds = .error e) ∧ x.syncConnect ptr a = none
  /-- In PEER state there is no attempt. -/
  refused : x.state = .peer → ∀ ptr a, x.syncConnect ptr a = some (.ret false (ptr.getD none), x)

/-- However the error gets to the caller, it is that error. -/
theorem report_emitted (ptr : Option ErrorCode) (err : ErrorCode) : (report ptr err).emitted = err := by
  cases ptr <;> cases err <;> rfl

/-- What such attempts lead to. -/
theorem Settled.retriesSafely (h : Settled fd x) (hasserted : x.modeAssertFailed = false) : RetriesSafely fd x := by
  cases h with
  | idle mode asserted =>
    obtain rfl : asserted = false := hasserted
    refine ⟨⟨rfl, rfl⟩, State.noConfusion, fun _ hmode => ?_, fun _ ptr a hok => ?_, fun _ ptr a hok => ?_,
      State.noConfusion⟩
    · rw [show mode = false from hmode _ rfl]
      rfl
    · have hmode := and_mode_eq_false hok
      rw [Impl.ctor_eq, Impl.syncConnect_idle, Impl.syncConnect_idle]
      split
      · rw [hmode, Bool.and_false]
        rfl
      · rename_i herr
        rw [path_of_err herr, Bool.true_and] at hmode
        rw [hmode]
    · have hmode := and_mode_eq_false hok
      rw [Impl.syncConnect_idle]
      split
      · rw [hmode]
        exact .inl ⟨_, _, rfl, report_emitted _ _, ⟨rfl, rfl⟩, rfl, _, rfl⟩
      · rename_i herr
        have hnone : a.err = none := Option.not_isSome_iff_eq_none.1 herr
        rw [path_of_err herr, Bool.true_and] at hmode
        rw [hmode]
        rcases hcreds : a.creds with e | creds
        · exact .inr ⟨hnone, ⟨e, rfl⟩, rfl⟩
        · exact .inl ⟨_, _, rfl, hnone.symm, ⟨rfl, rfl⟩, rfl, rfl, hcreds⟩
  | peer remote creds asserted =>
    obtain rfl : asserted = false := hasserted
    exact ⟨⟨rfl, rfl⟩, State.noConfusion, State.noConfusion, State.noConfusion, State.noConfusion,
      fun _ ptr a => Impl.syncConnect_peer remote creds ptr a⟩

/-- **Any number of attempts**, each of which may fail at any of its steps, and none of which gets to a socket that
one before it has switched. -/
theorem syncConnect_retries {fd : Nat} {cs : List Call} {x : Impl}
    (hrun : Lts.Run (Lts.Restrict Step fun x c => c.Unswitched x) (.ctor fd) cs x) : RetriesSafely fd x := by
  obtain ⟨hsettled, hasserted⟩ := Settled.run_unswitched hrun
  exact hsettled.retriesSafely hasserted

/-- The name is too long for an endpoint. -/
def tooLong : Attempt := ⟨[97], some 36, none, none, false, .error 0⟩

/-- Nobody listens. -/
def refused : Attempt := ⟨[97], none, none, some 111, false, .error 0⟩

/-- Three attempts that fail, of which the second switches the socket; the third does not get to it. -/
def retries : List Call :=
  [⟨none, tooLong, .threw (.system 36)⟩, ⟨none, refused, .threw (.system 111)⟩,
    ⟨some none, tooLong, .ret true (some (.system 36))⟩]

/-- After these retrying is safe. -/
theorem syncConnect_retries_refused :
    Lts.Run (Lts.Restrict Step fun x c => c.Unswitched x) (.ctor 7) retries (.idle 7 true false) ∧
      RetriesSafely 7 (.idle 7 true false) := by
  have hrun : Lts.Run (Lts.Restrict Step fun x c => c.Unswitched x) (.ctor 7) retries (.idle 7 true false) := by
    refine Lts.run_cons_iff.2 ⟨.idle 7 false false, ⟨fun _ => .inl rfl, rfl⟩, ?_⟩
    refine Lts.run_cons_iff.2 ⟨.idle 7 true false, ⟨fun _ => .inr fun sock hsock => ?_, rfl⟩, ?_⟩
    · cases hsock
      rfl
    · exact .single ⟨fun _ => .inl rfl, rfl⟩
  exact ⟨hrun, syncConnect_retries hrun⟩

/-! ## What retrying is not -/

/-- Retrying, were the socket given up by a failed attempt, were it always connected by one that has not
failed, and were the process never aborted. -/
structure RetriesClean (x : Impl) (c : Call) (x' : Impl) : Prop where
  failed : c.emit.emitted.isSome → x'.state = .null ∧ x'.peerSocket = none
  connected : c.emit.emitted = none → x'.state = .peer ∧ ∃ sock ∈ x'.peerSocket, sock.remote.isSome
  goes_on : ∀ ptr a, (x.syncConnect ptr a).isSome
  assertions : x'.assertFailed = false ∧ x'.modeAssertFailed = false

/-- There is a connection, and no credentials are to be had. -/
def unidentified : Attempt := ⟨[97], none, none, none, true, .error 92⟩

/-- There is a listener with a full backlog: `connect()` reports success. -/
def backlogFull : Attempt := ⟨[97], none, none, none, false, .ok ⟨1, 2, 3⟩⟩

/-- A failed attempt keeps its socket; the process may be aborted; and a connection may not be one. -/
theorem syncConnect_retains :
    ¬ (∀ (cs : List Call) (x x' : Impl) (c : Call), Lts.Run Step (.ctor 7) cs x → x.state = .null →
      Step x c x' → RetriesClean x c x') ∧
    (Impl.ctor 7).syncConnect none refused = some (.threw (.system 111), .idle 7 true false) ∧
    (Impl.ctor 7).syncConnect none unidentified = none ∧
    (Impl.ctor 7).syncConnect none backlogFull = some (.ret true none, .peer 7 none ⟨1, 2, 3⟩ false) := by
  refine ⟨fun hclean => ?_, rfl, rfl, rfl⟩
  have hfailed := (hclean [] (.ctor 7) (.idle 7 true false) ⟨none, refused, .threw (.system 111)⟩
    (.nil _) rfl rfl).failed rfl
  cases hfailed.2

end FlowIpc.SyncConnect
