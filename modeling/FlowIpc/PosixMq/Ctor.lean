import FlowIpc.MqHandle.PosixMqHandle

/-!
# Making a `Posix_mq_handle`, and ending one

A handle holds seven descriptors: that of the queue, and, for each direction, an epoll set and the two
ends of a pipe. This file is about who opens and closes them: the three constructors, with all that they
undo when a call of theirs fails, and the destructor. What a handle does with the descriptors is in
`MqHandle.PosixMqHandle`.

* A construction opens each of the seven at most once. So a descriptor is named by the construction that
  opened it and by what it is (`Fd`); of the number that the system gives the code knows only whether
  it is null.
* `Answers` is how the system's calls come out, each of which is made at most once; only `mq_open()` is
  tried again (`Opening`).
* `Log` is what a construction has done in the system, ghost state for the most part: which descriptors
  were opened and closed, in order, which are in which epoll set, which do not block, and which were
  given their permissions.

A constructor that fails with a null `err_code` throws. Then the handle has not come to be: its destructor
is not run, only those of its members, and a `Native_handle` closes nothing.

Source: `posix_mq_handle.hpp`, `posix_mq_handle.cpp`; `util.cpp` `set_resource_permissions`.
-/

namespace FlowIpc.PosixMq

open MqHandle

/-! ## Descriptors -/

/-- What a handle holds. -/
inductive Part where
  /-- `m_mq` -/
  | mq
  /-- `m_epoll_hndl_snd`, `m_epoll_hndl_rcv` -/
  | epollHndl (d : Dir)
  /-- `m_interrupter_snd`, `m_interrupter_rcv` -/
  | interrupter (d : Dir)
  /-- `m_interrupt_detector_snd`, `m_interrupt_detector_rcv` -/
  | interruptDetector (d : Dir)
  deriving DecidableEq

/-- A descriptor: the construction that opened it, and what it was opened as. -/
structure Fd where
  /-- The construction. -/
  ctor : Nat
  /-- What it is. -/
  part : Part
  deriving DecidableEq

/-- What there is for a direction in a handle. -/
structure Side where
  /-- `m_epoll_hndl_snd`, `m_epoll_hndl_rcv` -/
  epollHndl : Option Fd
  /-- `m_interrupting_snd`, `m_interrupting_rcv` -/
  interrupting : Bool
  /-- `m_interrupter_snd`, `m_interrupter_rcv` -/
  interrupter : Option Fd
  /-- `m_interrupt_detector_snd`, `m_interrupt_detector_rcv` -/
  interruptDetector : Option Fd
  deriving DecidableEq

/-- A `Posix_mq_handle`. `none` is a null handle, or a pipe end that is not open.
Source: `posix_mq_handle.hpp` `Posix_mq_handle` -/
structure PosixMqHandle where
  /-- `m_mq` -/
  mq : Option Fd
  /-- `m_absolute_name` -/
  absoluteName : String
  /-- The members of the outgoing direction. -/
  snd : Side
  /-- The members of the incoming direction. -/
  rcv : Side
  deriving DecidableEq

/-- A direction of a handle without descriptors. -/
def Side.null : Side := ⟨none, false, none, none⟩

/-- The default constructor.
Source: `posix_mq_handle.cpp` `Posix_mq_handle()` -/
def PosixMqHandle.null : PosixMqHandle := ⟨none, "", .null, .null⟩

/-- The members of a direction. -/
def PosixMqHandle.side (h : PosixMqHandle) : Dir → Side
  | .snd => h.snd
  | .rcv => h.rcv

/-- The handle with the members of a direction replaced. -/
def PosixMqHandle.setSide (h : PosixMqHandle) : Dir → Side → PosixMqHandle
  | .snd, s => { h with snd := s }
  | .rcv, s => { h with rcv := s }

/-- What the handle has as its `p`. -/
def PosixMqHandle.slot (h : PosixMqHandle) : Part → Option Fd
  | .mq => h.mq
  | .epollHndl d => (h.side d).epollHndl
  | .interrupter d => (h.side d).interrupter
  | .interruptDetector d => (h.side d).interruptDetector

/-- The handle has the descriptor `fd` as its `p` from now on, or has none. -/
def PosixMqHandle.put (h : PosixMqHandle) (fd : Option Fd) : Part → PosixMqHandle
  | .mq => { h with mq := fd }
  | .epollHndl d => h.setSide d { h.side d with epollHndl := fd }
  | .interrupter d => h.setSide d { h.side d with interrupter := fd }
  | .interruptDetector d => h.setSide d { h.side d with interruptDetector := fd }

/-- What has been done in the system. -/
structure Log where
  /-- The descriptors opened. -/
  opened : List Fd
  /-- The descriptors closed. -/
  closed : List Fd
  /-- The epoll sets, and what has been added to them. -/
  watches : List (Fd × Fd)
  /-- The queues that have been made non-blocking. -/
  nonBlocking : List Fd
  /-- The queues that have been given their permissions. -/
  permitted : List Fd
  deriving DecidableEq

/-- Nothing. -/
def Log.empty : Log := ⟨[], [], [], [], []⟩

/-! ## The system's answers -/

/-- The calls that a constructor makes at most once each. -/
inductive SysCall where
  /-- `connect_pipe()` -/
  | connectPipe (d : Dir)
  /-- `fchmod()` -/
  | fchmod
  /-- `mq_setattr()` -/
  | mqSetattr
  /-- `epoll_create1()` -/
  | epollCreate (d : Dir)
  /-- `epoll_ctl()`, for the queue -/
  | epollCtlMq (d : Dir)
  /-- `epoll_ctl()`, for the interrupt detector -/
  | epollCtlDetector (d : Dir)
  deriving DecidableEq

/-- How the calls for a direction come out: `none` is success, else it is `errno`. -/
structure SideAnswers where
  /-- `connect_pipe()` -/
  connectPipe : Option Nat
  /-- `epoll_create1()` -/
  epollCreate : Option Nat
  /-- `epoll_ctl()`, for the queue -/
  epollCtlMq : Option Nat
  /-- `epoll_ctl()`, for the interrupt detector -/
  epollCtlDetector : Option Nat
  deriving DecidableEq

/-- How the calls come out. -/
structure Answers where
  /-- `fchmod()` -/
  fchmod : Option Nat
  /-- `mq_setattr()` -/
  mqSetattr : Option Nat
  /-- The calls for the outgoing direction. -/
  snd : SideAnswers
  /-- The calls for the incoming direction. -/
  rcv : SideAnswers
  deriving DecidableEq

/-- The calls for a direction. -/
def Answers.side (a : Answers) : Dir → SideAnswers
  | .snd => a.snd
  | .rcv => a.rcv

/-- How a call comes out. -/
def Answers.to (a : Answers) : SysCall → Option Nat
  | .connectPipe d => (a.side d).connectPipe
  | .fchmod => a.fchmod
  | .mqSetattr => a.mqSetattr
  | .epollCreate d => (a.side d).epollCreate
  | .epollCtlMq d => (a.side d).epollCtlMq
  | .epollCtlDetector d => (a.side d).epollCtlDetector

/-- A turn of the loop of the constructor that opens or creates: how `mq_open()` comes out as it creates,
and then as it opens, if it gets there. -/
structure Round where
  /-- `mq_open()` with `O_CREAT | O_EXCL` -/
  create : Option Nat
  /-- `mq_open()` without -/
  plain : Option Nat
  deriving DecidableEq

/-- The three constructors, with how `mq_open()` comes out. -/
inductive Opening where
  /-- `Create_only` -/
  | createOnly (create : Option Nat)
  /-- `Open_or_create`: the turns of the loop so far -/
  | openOrCreate (rounds : List Round)
  /-- `Open_only` -/
  | openOnly (plain : Option Nat)
  deriving DecidableEq

/-- `EEXIST`: `boost::system::errc::file_exists` -/
def fileExists : Nat := 17

/-- `ENOENT`: `boost::system::errc::no_such_file_or_directory` -/
def noSuchFileOrDirectory : Nat := 2

/-- `Error_code(errno, system_category())`; success if the call did succeed. -/
def sysErrCode (answer : Option Nat) : ErrorCode := answer.map .system

@[simp] theorem sysErrCode_none : sysErrCode none = none := rfl

@[simp] theorem sysErrCode_some (e : Nat) : sysErrCode (some e) = some (.system e) := rfl

/-! ## The constructors -/

/-- A constructor as it runs: the handle as it is by now, and what it has done in the system. -/
structure Making where
  /-- `*this` -/
  obj : PosixMqHandle
  /-- What has been done. -/
  log : Log
  deriving DecidableEq

namespace Making

/-- Nothing has been done yet. -/
def start (absoluteName : String) : Making :=
  ⟨{ PosixMqHandle.null with absoluteName := absoluteName }, .empty⟩

/-- A descriptor is opened, by the construction `k`, and kept as `p`. -/
def opens (k : Nat) (p : Part) (m : Making) : Making :=
  ⟨m.obj.put (some ⟨k, p⟩) p, { m.log with opened := m.log.opened ++ [⟨k, p⟩] }⟩

/-- What there is as `p` is closed, if anything, and is null then. -/
def closes (p : Part) (m : Making) : Making :=
  match m.obj.slot p with
  | none => m
  | some fd => ⟨m.obj.put none p, { m.log with closed := m.log.closed ++ [fd] }⟩

/-- What there is as `p` is added to the epoll set of `d`. -/
def watch (d : Dir) (p : Part) (m : Making) : Making :=
  match m.obj.slot (.epollHndl d), m.obj.slot p with
  | some e, some fd => ⟨m.obj, { m.log with watches := m.log.watches ++ [(e, fd)] }⟩
  | _, _ => m

/-- The two ends of a pipe are opened.
Source: `boost::asio::connect_pipe()` -/
def connectPipe (k : Nat) (d : Dir) (m : Making) : Making :=
  (m.opens k (.interruptDetector d)).opens k (.interrupter d)

/-- Source: `posix_mq_handle.cpp` `pipe_setup` -/
def pipeSetup (k : Nat) (a : Answers) (m : Making) : Making × ErrorCode :=
  let (m, err) : Making × ErrorCode :=
    match a.to (.connectPipe .snd) with
    | some e => (m, sysErrCode (some e))
    | none =>
      let m := m.connectPipe k .snd
      match a.to (.connectPipe .rcv) with
      | some e => (m, sysErrCode (some e))
      | none => (m.connectPipe k .rcv, none)
  match err with
  | some e => ((m.closes (.interrupter .snd)).closes (.interruptDetector .snd), some e)
  | none => (m, none)

/-- `mq_open()`, and what is made of its answer.
Source: `posix_mq_handle.cpp` `Posix_mq_handle(Mode_tag)` `do_mq_open_func` -/
def doMqOpen (k : Nat) (answer : Option Nat) (m : Making) : Making × ErrorCode :=
  match answer with
  | none => (m.opens k .mq, none)
  | some e => (m, sysErrCode (some e))

/-- `set_resource_permissions()` for the queue.
Source: `util.cpp` `set_resource_permissions` -/
def setResourcePermissions (a : Answers) (m : Making) : Making × ErrorCode :=
  match a.to .fchmod, m.obj.mq with
  | some e, _ => (m, sysErrCode (some e))
  | none, some fd => (⟨m.obj, { m.log with permitted := m.log.permitted ++ [fd] }⟩, none)
  | none, none => (m, none)

/-- `mq_open()` to create, and then the permissions.
Source: `posix_mq_handle.cpp` `Posix_mq_handle(Mode_tag)` -/
def create (k : Nat) (a : Answers) (answer : Option Nat) (m : Making) : Making × ErrorCode :=
  match m.doMqOpen k answer with
  | (m, none) => m.setResourcePermissions a
  | (m, some e) => (m, some e)

/-- The loop that creates the queue or opens it; `none` if it is not over after these turns.
Source: `posix_mq_handle.cpp` `Posix_mq_handle(Mode_tag)` -/
def createOrOpen (k : Nat) (a : Answers) : List Round → Making → Option (Making × ErrorCode)
  | [], _ => none
  | r :: rounds, m =>
    match m.doMqOpen k r.create with
    | (m, none) => some (m.setResourcePermissions a)
    | (m, some e) =>
      if e ≠ .system fileExists then some (m, some e)
      else
        match m.doMqOpen k r.plain with
        | (m, none) => some (m, none)
        | (m, some e) =>
          if e ≠ .system noSuchFileOrDirectory then some (m, some e)
          -- The queue was there, and is gone: once more.
          else createOrOpen k a rounds m

/-- What a constructor does to get at its queue. -/
def openMq (k : Nat) (a : Answers) (o : Opening) (m : Making) : Option (Making × ErrorCode) :=
  match o with
  | .createOnly answer => some (m.create k a answer)
  | .openOrCreate rounds => m.createOrOpen k a rounds
  | .openOnly answer => some (m.doMqOpen k answer)

/-- Source: `posix_mq_handle.cpp` `set_non_blocking` -/
def setNonBlocking (a : Answers) (m : Making) : Making × ErrorCode :=
  match a.to .mqSetattr, m.obj.mq with
  | some e, _ => (m, some (MqHandle.PosixMqHandle.handleMqApiResult e))
  | none, some fd => (⟨m.obj, { m.log with nonBlocking := m.log.nonBlocking ++ [fd] }⟩, none)
  | none, none => (m, none)

/-- The epoll set of a direction.
Source: `posix_mq_handle.cpp` `epoll_setup` `setup` -/
def epollSetupDir (k : Nat) (a : Answers) (d : Dir) (m : Making) : Making × ErrorCode :=
  match a.to (.epollCreate d) with
  | some e =>
    let m := (m.closes (.interruptDetector .snd)).closes (.interrupter .snd)
    let m := (m.closes (.interruptDetector .rcv)).closes (.interrupter .rcv)
    (m.closes .mq, sysErrCode (some e))
  | none =>
    let m := m.opens k (.epollHndl d)
    match a.to (.epollCtlMq d) with
    | some e => ((m.closes (.epollHndl d)).closes .mq, sysErrCode (some e))
    | none =>
      let m := m.watch d .mq
      match a.to (.epollCtlDetector d) with
      | some e => ((m.closes (.epollHndl d)).closes .mq, sysErrCode (some e))
      | none => (m.watch d (.interruptDetector d), none)

/-- Source: `posix_mq_handle.cpp` `epoll_setup` -/
def epollSetup (k : Nat) (a : Answers) (m : Making) : Making × ErrorCode :=
  match m.epollSetupDir k a .snd with
  | (m, some e) => (m, some e)
  | (m, none) =>
    match m.epollSetupDir k a .rcv with
    | (m, some e) => (m.closes (.epollHndl .snd), some e)
    | (m, none) => (m, none)

/-- What is done with the queue when it is open.
Source: `posix_mq_handle.cpp` `Posix_mq_handle(Mode_tag)`, `Posix_mq_handle(Open_only)` -/
def setup (k : Nat) (a : Answers) (m : Making) : Making × ErrorCode :=
  match m.setNonBlocking a with
  | (m, some e) => (m.closes .mq, some e)
  | (m, none) => m.epollSetup k a

end Making

/-- The constructors, up to where the error is reported: the handle, what has been done, and
`sys_err_code`. `none` if the constructor is not over.
Source: `posix_mq_handle.cpp` `Posix_mq_handle(Mode_tag)`, `Posix_mq_handle(Open_only)` -/
def ctor (k : Nat) (absoluteName : String) (o : Opening) (a : Answers) : Option (Making × ErrorCode) :=
  match (Making.start absoluteName).pipeSetup k a with
  | (m, some e) => some (m, some e)
  | (m, none) =>
    match m.openMq k a o with
    | none => none
    | some (m, some e) => some (m, some e)
    | some (m, none) => some (m.setup k a)

/-! ## The destructor -/

/-- The members of a handle are destroyed: the pipe ends are closed, the others are not. -/
def Making.destroyMembers (m : Making) : Making :=
  let m := (m.closes (.interruptDetector .rcv)).closes (.interrupter .rcv)
  (m.closes (.interruptDetector .snd)).closes (.interrupter .snd)

/-- What the destructor asserts.
Source: `posix_mq_handle.cpp` `~Posix_mq_handle` -/
def PosixMqHandle.dtorAsserts (h : PosixMqHandle) : Prop :=
  if h.mq = none then h.snd.epollHndl = none ∧ h.rcv.epollHndl = none
  else h.snd.epollHndl ≠ none ∧ h.rcv.epollHndl ≠ none

instance (h : PosixMqHandle) : Decidable h.dtorAsserts := by
  unfold PosixMqHandle.dtorAsserts
  infer_instance

/-- The destructor.
Source: `posix_mq_handle.cpp` `~Posix_mq_handle` -/
def Making.dtor (m : Making) : Making :=
  let m := if m.obj.mq = none then m
    else ((m.closes .mq).closes (.epollHndl .snd)).closes (.epollHndl .rcv)
  m.destroyMembers

/-- What a constructor does to its caller, given `err_code = ptr`, and what has been done by then. Where
it succeeds it does not touch `*err_code`.
Source: the end of either constructor -/
def report (ptr : Option ErrorCode) (r : Making × ErrorCode) : Making × Emit PosixMqHandle :=
  match r, ptr with
  | (m, some e), none => (m.destroyMembers, .threw e)
  | (m, some e), some _ => (m, .ret m.obj (some e))
  | (m, none), ptr => (m, .ret m.obj (ptr.getD none))

end FlowIpc.PosixMq
