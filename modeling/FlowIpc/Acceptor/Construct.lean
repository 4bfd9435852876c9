import FlowIpc.SocketStream.Connect

/-!
# Making an acceptor

The constructor of a `Native_socket_stream_acceptor` begins to listen, in thread W, and to accept. The
`sync_io` acceptor has such an acceptor for its core, and makes a pipe through which the core wakes it up. For
each of the two: what has to be done for it, and what becomes of the place for the error.

* The core's constructor leaves the place as it was, unless it fails (`acceptorCtor_some`).
* That of the `sync_io` acceptor goes by what is in the place after its core has been made
  (`syncIoAcceptorCtor_some`). If there was an error in it before, the pipe is not made.

Source: `native_socket_stream_acceptor.cpp`, `sync_io/native_socket_stream_acceptor.cpp`, the constructors.
-/

namespace FlowIpc.AcceptorMake

open SyncConnect

/-! ## The constructors -/

/-- What the constructor of an acceptor sets up.
Source: `native_socket_stream_acceptor.hpp` `Native_socket_stream_acceptor` -/
structure Acceptor where
  /-- `m_absolute_name` -/
  absoluteName : List UInt8
  /-- `m_acceptor`: where it listens. -/
  acceptor : Option Endpoint
  /-- A background accept has been started. -/
  accepting : Bool
  /-- Some assertion has failed. -/
  assertFailed : Bool
  deriving DecidableEq

/-- `assert()` -/
def Acceptor.assert (x : Acceptor) (b : Bool) : Acceptor :=
  { x with assertFailed := x.assertFailed || !b }

/-- How it comes out: what making the endpoint throws, and opening, binding and listening. -/
structure Answers where
  /-- `endpoint::path()` -/
  path : Option Nat
  /-- `Acceptor()` -/
  listen : Option Nat

/-- What is done in thread W, while the constructor waits: the error is `sys_err_code`.
Source: `native_socket_stream_acceptor.cpp` `Native_socket_stream_acceptor()` -/
def startListening (absoluteName : List UInt8) (a : Answers) : Acceptor × ErrorCode :=
  let x : Acceptor := ⟨absoluteName, none, false, false⟩
  let (localEndpoint, sysErrCode) := endpointAtSharedName absoluteName a.path
  let x := x.assert ((localEndpoint = []) = sysErrCode.isSome)
  if sysErrCode.isSome then (x, sysErrCode)
  else
    match a.listen with
    | some errno => (x.assert x.acceptor.isNone, some (.system errno))
    | none => ({ x with acceptor := some localEndpoint, accepting := true }.assert sysErrCode.isNone, sysErrCode)

/-- Source: `native_socket_stream_acceptor.cpp` `Native_socket_stream_acceptor()` -/
def acceptorCtor (absoluteName : List UInt8) (a : Answers) (ptr : Option ErrorCode) : Emit Acceptor :=
  match startListening absoluteName a, ptr with
  | (x, some e), some _ => .ret x (some e)
  | (_, some e), none => .threw e
  | (x, none), ptr => .ret x (ptr.getD none)

/-- A `sync_io` acceptor.
Source: `sync_io/native_socket_stream_acceptor.hpp` `Native_socket_stream_acceptor` -/
structure SyncIoAcceptor where
  /-- `m_async_io` -/
  asyncIo : Acceptor
  /-- `m_ready_reader`, `m_ready_writer` are connected. -/
  readyPipe : Bool
  /-- `m_ev_wait_hndl` holds the handle of the reader. -/
  evWaitHndl : Bool
  deriving DecidableEq

/-- `pipe` is what `connect_pipe()` fails with, if it does.
Source: `sync_io/native_socket_stream_acceptor.cpp` `Native_socket_stream_acceptor()` -/
def syncIoAcceptorCtor (absoluteName : List UInt8) (a : Answers) (pipe : Option Nat) (ptr : Option ErrorCode) :
    Emit SyncIoAcceptor :=
  match acceptorCtor absoluteName a ptr with
  | .threw e => .threw e
  | .ret core err =>
    if ptr.isSome && err.isSome then .ret ⟨core, false, false⟩ err
    else
      match pipe, ptr with
      | some errno, some _ => .ret ⟨core, false, false⟩ (some (.system errno))
      | some errno, none => .threw (.system errno)
      | none, _ => .ret ⟨core, true, true⟩ err

/-! ## What they come to -/

/-- What listening fails with, if it does. -/
def Answers.failure (a : Answers) : Option Nat :=
  a.path.or a.listen

/-- The core as it is in the end. -/
def Acceptor.made (absoluteName : List UInt8) (a : Answers) : Acceptor :=
  ⟨absoluteName, if a.failure.isSome then none else some (0 :: absoluteName), a.failure.isNone, false⟩

/-- The constructor and the first listening come to what the system's answers make of them. -/
theorem startListening_eq (absoluteName : List UInt8) (a : Answers) :
    startListening absoluteName a = (.made absoluteName a, a.failure.map .system) := by
  obtain ⟨path, listen⟩ := a
  rcases path with _ | errno
  · rcases listen with _ | errno
    · rfl
    · rfl
  · rfl

/-- **The making of an acceptor**, with a place for the error. -/
theorem acceptorCtor_some (absoluteName : List UInt8) (a : Answers) (err : ErrorCode) :
    acceptorCtor absoluteName a (some err) =
      .ret (.made absoluteName a) ((a.failure.map .system).or err) := by
  unfold acceptorCtor
  rw [startListening_eq]
  rcases a.failure with _ | errno
  · rfl
  · rfl

/-- **The making of a `sync_io` acceptor**, with a place for the error: whether the pipe is made depends on
whether there is an error in that place before. -/
theorem syncIoAcceptorCtor_some (absoluteName : List UInt8) (a : Answers) (pipe : Option Nat) (err : ErrorCode) :
    syncIoAcceptorCtor absoluteName a pipe (some err) =
      match (a.failure.map Err.system).or err, pipe with
      | some e, _ => .ret ⟨.made absoluteName a, false, false⟩ (some e)
      | none, some errno => .ret ⟨.made absoluteName a, false, false⟩ (some (.system errno))
      | none, none => .ret ⟨.made absoluteName a, true, true⟩ none := by
  unfold syncIoAcceptorCtor
  rw [acceptorCtor_some]
  rcases (a.failure.map Err.system).or err with _ | e
  · rcases pipe with _ | errno
    · rfl
    · rfl
  · rfl

end FlowIpc.AcceptorMake
