import FlowIpc.Lib.Custody
import FlowIpc.Lib.Transition
import FlowIpc.SocketStream.HndlTarget

/-!
# A receiver and its descriptors

The kernel installs a descriptor in the process when `recvmsg()` returns. From then on somebody has to close
it: the user, if he is given it in the handle of a receive that succeeds; else the receiver, which never does.
So each is to be held by the request being served, whose target it has been put in, or to have been delivered
by one receive that succeeded; and a receive that failed is to have left its target alone, or null.

* `Receiving` is a receiver in the midst of its operations, with all that may happen to it (`Event`): what
  `recvmsg()` returns, whatever control messages there are, what other reads come to, and the other direction
  that puts the socket away, at any time.
* `Receiving.Accounts` is the property; `Receiving.Ok` says of an event whether it is kept up. It is not where
  more than one descriptor comes, or one that has no place to go to, or where the request fails that holds one.
* `Tallied` is what is told of descriptors at any time. The entries that are made in the book keep it, and say
  what is lost: `Tallied.install`, `Tallied.record`, and `Tallied.goOn` for an operation that goes on.

Source: `asio_local_stream_socket.cpp` `nb_read_some_with_native_handle`;
`sync_io/detail/native_socket_stream_impl_rcv.cpp`.
-/

namespace FlowIpc.SocketStream

open Negotiation AsioSocket Custody Lts

/-! ## Reading without interest in a handle -/

/-- What comes of `Peer_socket::read_some()`, or of `non_blocking(true)` before it. No descriptor is installed:
those that there are the kernel drops. -/
inductive PlainRead where
  /-- Bytes were there: as many of these as there is room for have been read. -/
  | got (byte : UInt8) (bytes : Blob)
  /-- There is no more to come. -/
  | eof
  /-- It has failed, and this is `errno`. -/
  | failed (errno : {n : ℕ // n ≠ 0})
  deriving DecidableEq

/-- What that leaves, with room for `size` bytes. -/
def PlainRead.nbRead (size : ℕ) : PlainRead → NbRead
  | .got byte bytes => ⟨(byte :: bytes).take size, ((byte :: bytes).take size).length, none, none⟩
  | .eof => ⟨[], 0, none, some asioEof⟩
  | .failed errno => ⟨[], 0, none, some (.system errno)⟩

/-- The bytes that were there. -/
def PlainRead.bytes : PlainRead → Blob
  | .got byte bytes => byte :: bytes
  | _ => []

/-- It has failed, other than that it would block. -/
def PlainRead.Fails : PlainRead → Prop
  | .got _ _ => False
  | .eof => True
  | .failed errno => (errno : ℕ) ≠ eagain

/-- The bytes left of what is being read. -/
def RcvMsgState.size : RcvMsgState → ℕ
  | .msgStart => 2
  | .headPayload nLeft => nLeft
  | .metaBlobPayload nLeft => nLeft

/-! ## A receiver and its descriptors -/

/-- A request that is done with. -/
structure Done where
  /-- The target for the handle, if there is one, and what was in there. -/
  given : Option NativeHandle
  /-- The descriptors that have been installed while it was served. -/
  arrived : List ℕ
  /-- What the user has found. -/
  found : Received
  deriving DecidableEq

/-- The descriptor is delivered by it. -/
def Done.Delivers (d : Done) (fd : ℕ) : Prop := d.found.err = none ∧ d.found.hndl.join = some fd

/-- The receiving direction of a socket stream, in the midst of an operation or not, and what is to tell of the
descriptors. -/
structure Receiving where
  /-- The receiver. -/
  rcv : NativeSocketStreamRcv
  /-- What the operation being executed needs next, if there is one. -/
  next : Option Next
  /-- The target of the request being served, as given. -/
  given : Option NativeHandle
  /-- What has been put in there. -/
  held : NativeHandle
  /-- The descriptors that have been installed since the request. -/
  arrived : List ℕ
  /-- All descriptors that have been installed. -/
  installed : List ℕ
  /-- The requests that are done with. -/
  dones : List Done

/-- Who has a descriptor. -/
inductive Holder where
  /-- The request being served. -/
  | request
  /-- The user, from this receive. -/
  | receive (k : ℕ)
  deriving DecidableEq

/-- What may happen to a receiver. -/
inductive Event where
  /-- `sync_connect()` has succeeded. -/
  | connected
  /-- `start_receive_native_handle_ops()`, `start_receive_blob_ops()` -/
  | startReceiveNativeHandleOps
  /-- `async_receive_native_handle()`, or `async_receive_blob()`, given what is in the targets. -/
  | asyncReceive (targetHndlOrNull : Option NativeHandle) (targetMetaBlob : Blob) (onDoneFunc : ℕ)
  /-- `idle_timer_run()`; the contract asks for a positive timeout. -/
  | idleTimerRun (timeout : {n : ℕ // 0 < n})
  /-- The socket is reported readable to whoever waits for it with this captured. -/
  | socketReadable (msgState : RcvMsgState)
  /-- The idle timer fires in its worker thread. -/
  | timerFires
  /-- The signal pipe of the idle timer is reported readable. -/
  | timerReadable
  /-- The other direction puts the socket away. -/
  | hosed
  /-- The socket is there, and `recvmsg()` returns this. -/
  | recvmsg (k : RecvmsgResult)
  /-- The socket is there, and it is read from without interest in a handle. -/
  | readSome (k : PlainRead)
  /-- The socket is to be read from, and has been put away. -/
  | findsHosed
  /-- `m_peer_socket_mutex` is locked to ask for a wait for the socket. -/
  | locks
  deriving DecidableEq

namespace Receiving

/-- The constructors: in the PEER state around a connected socket, or in the NULL state.
Source: `native_socket_stream_impl.cpp` `Impl()` -/
def init (statePeer : Bool) : Receiving where
  rcv := .ctor statePeer ⟨true, [], 0, []⟩
  next := none
  given := none
  held := none
  arrived := []
  installed := []
  dones := []

/-- The parts of the receiver that reading touches have become these. -/
def withInp (s : Receiving) (r : In) : Receiving :=
  { s with rcv := { s.rcv with inp := r } }

/-- The request being served is done with, and its user has found this. -/
def record (s : Receiving) (found : Received) : Receiving :=
  { s with
    given := none
    held := none
    arrived := []
    dones := s.dones ++ [⟨s.given, s.arrived, found⟩] }

/-- The operation being executed goes on, to what it needs next or to its end. There the request is done with,
by its handler or at once, unless it would block.
Source: `native_socket_stream_impl_rcv.cpp` `async_receive_native_handle_impl`,
`rcv_on_ev_peer_socket_readable_or_error` -/
def goOn (s : Receiving) : Next × In → Receiving
  | (.done res, r) =>
    let s := { s.withInp r with next := none }
    if res.1 = wouldBlock then s else { s.record (s.rcv.received res) with rcv := s.rcv.resetRequest }
  | (next, r) => { s.withInp r with next := some next }

/-- `async_receive_native_handle_impl()`, up to where `rcv_read_msg()` reads.
Source: `native_socket_stream_impl_rcv.cpp` `async_receive_native_handle_impl` -/
def asyncReceiveNativeHandleImpl (s : Receiving) (targetHndlOrNull : Option NativeHandle) (targetMetaBlob : Blob)
    (onDoneFunc : ℕ) : Receiving :=
  if s.rcv.started = false ∨ s.rcv.statePeer = false then s
  else if s.rcv.inp.userRequest.isSome then s
  else if s.rcv.inp.pendingErrCode.isSome then
    { s with
      rcv := s.rcv.resetRequest
      dones := s.dones ++ [⟨targetHndlOrNull, [], ⟨s.rcv.inp.pendingErrCode, targetHndlOrNull, []⟩⟩] }
  else
    { s.withInp { s.rcv.inp with userRequest := some ⟨targetHndlOrNull, targetMetaBlob, onDoneFunc⟩ } with
      next := some (.reads .msgStart)
      given := targetHndlOrNull }

/-- `rcv_on_ev_peer_socket_readable_or_error()`, up to where something is read.
Source: `native_socket_stream_impl_rcv.cpp` `rcv_on_ev_peer_socket_readable_or_error` -/
def onEvPeerSocketReadableOrError (s : Receiving) (msgState : RcvMsgState) : Receiving :=
  if s.rcv.inp.pendingErrCode.isSome then { s with rcv := s.rcv.assert (s.rcv.inp.userRequest = none) }
  else { s with rcv := s.rcv.assert (s.rcv.inp.userRequest.isSome), next := some (.reads msgState) }

/-- `rcv_on_ev_idle_timer_fired()`
Source: `native_socket_stream_impl_rcv.cpp` `rcv_on_ev_idle_timer_fired` -/
def onEvIdleTimerFired (s : Receiving) : Receiving :=
  let (rcv, invoked) := s.rcv.onEvIdleTimerFired
  match invoked with
  | none => { s with rcv := rcv }
  | some (_, found) => { s.record found with rcv := rcv }

/-- A low-level read of this part of a message, at which descriptors are installed.
Source: `native_socket_stream_impl_rcv.cpp` `rcv_read_msg`, `rcv_read_blob` -/
def lowLvlRead (s : Receiving) (msgState : RcvMsgState) (installed : List ℕ) (read : NbRead) : Receiving :=
  let (read, r) := s.rcv.inp.nbReadLowLvlPayload read
  { s with
    held := if msgState = RcvMsgState.msgStart ∧ r.Takes read then read.hndl else s.held
    arrived := s.arrived ++ installed
    installed := s.installed ++ installed }
    |>.goOn (r.onRead msgState read)

/-- One step; `none` if it is not what can happen next. While an operation is executed no other begins. -/
def step (s : Receiving) (e : Event) : Option Receiving :=
  match e, s.next with
  | .connected, none => some { s with rcv := { s.rcv with statePeer := true } }
  | .startReceiveNativeHandleOps, none => some { s with rcv := s.rcv.startReceiveNativeHandleOps.2 }
  | .asyncReceive hndl blob f, none => some (s.asyncReceiveNativeHandleImpl hndl blob f)
  | .idleTimerRun timeout, none => some { s with rcv := (s.rcv.idleTimerRun timeout).2 }
  | .socketReadable msgState, none =>
    if msgState ∈ s.rcv.inp.evWaits then
      some (s.withInp { s.rcv.inp with evWaits := s.rcv.inp.evWaits.erase msgState }
        |>.onEvPeerSocketReadableOrError msgState)
    else none
  | .timerReadable, none =>
    s.rcv.inp.idleTimer.takeEvent.map fun timer =>
      s.withInp { s.rcv.inp with idleTimer := timer } |>.onEvIdleTimerFired
  | .timerFires, _ => s.rcv.inp.idleTimer.fire.map fun timer => s.withInp { s.rcv.inp with idleTimer := timer }
  | .hosed, _ => some (s.withInp { s.rcv.inp with peerSocket := { s.rcv.inp.peerSocket with alive := false } })
  | .recvmsg k, some (.reads .msgStart) =>
    if s.rcv.inp.peerSocket.alive ∧ k.installed.Nodup ∧ ∀ fd ∈ k.installed, fd ∉ s.installed then
      some (s.lowLvlRead .msgStart k.installed (nbReadSomeWithNativeHandle 2 k))
    else none
  | .readSome k, some (.reads msgState) =>
    if s.rcv.inp.peerSocket.alive ∧ msgState ≠ .msgStart then
      some (s.lowLvlRead msgState [] (k.nbRead msgState.size))
    else none
  | .findsHosed, some (.reads msgState) =>
    if s.rcv.inp.peerSocket.alive then none else some (s.lowLvlRead msgState [] ⟨[], 0, none, none⟩)
  | .locks, some (.locks msgState) => some (s.goOn (s.rcv.inp.onLock msgState))
  | _, _ => none

/-- Steps as a relation. -/
def Step (s : Receiving) (e : Event) (s' : Receiving) : Prop := s.step e = some s'

/-! ## The accounts -/

/-- The book of descriptors. No function of the receiver closes one. -/
def book (s : Receiving) : Book Holder ℕ where
  acquired := s.installed
  released := []
  holds
    | .request, fd => s.held = some fd
    | .receive k, fd => ∃ d, s.dones[k]? = some d ∧ d.Delivers fd

/-- **The descriptors are accounted for.** -/
structure Accounts (s : Receiving) : Prop where
  /-- Each that has been installed is held by the request being served, or has been delivered to the user in
  the handle of exactly one receive that succeeded, or has been closed, once. -/
  kept : s.book.Kept
  /-- When no request is being served it has been delivered or closed. -/
  delivered : s.rcv.inp.userRequest = none →
    ∀ fd ∈ s.installed, (∃! k, s.book.holds (.receive k) fd) ∨ s.book.released.count fd = 1
  /-- A receive that failed has left the target null, or has not touched it. -/
  failed : ∀ d ∈ s.dones, d.found.err ≠ none → d.found.hndl.join = none ∨ d.found.hndl = d.given
  /-- For a receive that succeeded no more than one descriptor came. -/
  succeeded : ∀ d ∈ s.dones, d.found.err = none → d.arrived.length ≤ 1

/-- The descriptors remain accounted for. -/
def Ok (s : Receiving) : Event → Prop
  | .recvmsg k =>
    k.Proper ∧ (k.WouldBlock ∨ s.held = none) ∧
      (k.installed ≠ [] → s.rcv.inp.TakesHndl ∧
        ((k.rcvd 2).length = 2 → (s.rcv.inp.store .msgStart (k.rcvd 2)).HeadFits))
  | .readSome k =>
    s.held = none ∨ (¬ k.Fails ∧ ∀ nLeft, s.next = some (.reads (.headPayload nLeft)) → nLeft ≤ k.bytes.length →
      (s.rcv.inp.store (.headPayload nLeft) (k.bytes.take nLeft)).HeadFits)
  | .findsHosed => s.held = none
  | .locks => s.rcv.inp.peerSocket.alive ∨ s.held = none
  | .timerReadable => s.held = none
  | _ => True

/-! ## Entries in the book -/

variable {s s' : Receiving} {found : Received} {fds : List ℕ} {fd : ℕ} {p : Next × In}

/-- The last request done with has delivered what it has, and the others what they had. -/
theorem delivers_append {ds : List Done} {d₀ : Done} {k : ℕ} :
    (∃ d, (ds ++ [d₀])[k]? = some d ∧ d.Delivers fd) ↔
      (∃ d, ds[k]? = some d ∧ d.Delivers fd) ∨ (k = ds.length ∧ d₀.Delivers fd) := by
  rcases Nat.lt_trichotomy k ds.length with hlt | heq | hgt
  · rw [List.getElem?_append_left hlt]
    exact (or_iff_left fun h => absurd h.1 (by omega)).symm
  · subst heq
    simp
  · rw [List.getElem?_append_right (by omega), List.getElem?_eq_none (by simp; omega),
      List.getElem?_eq_none (by omega)]
    simp
    omega

/-- What is held is held no more. -/
theorem forget_held (h : s.book.Accounted) : ({ s with held := none } : Receiving).book.Accounted ∧
    Book.LosesUnless s.book ({ s with held := none } : Receiving).book (s.held = none) := by
  obtain ⟨hacc, hlost⟩ := h.drop ({ s with held := none } : Receiving).book [] rfl (List.append_nil _).symm
    List.nodup_nil
    (by
      rintro (_ | k) fd hholds
      · cases hholds
      · exact hholds)
    (fun fd hfd => by cases hfd)
  refine ⟨hacc, (Book.LosesUnless.of_iff hlost ?_).congr ?_⟩
  · rintro fd ⟨⟨o, hholds, -⟩, -⟩ hfd
    exact hfd.2.2 o hholds
  · constructor
    · intro hnone
      cases hheld : s.held with
      | none => rfl
      | some fd => exact absurd ⟨⟨.request, hheld, nofun⟩, List.not_mem_nil⟩ (hnone fd)
    · rintro hnone fd ⟨⟨_ | k, hholds, hnot⟩, -⟩
      · rw [show s.held = some fd from hholds] at hnone
        cases hnone
      · exact hnot hholds

/-- Descriptors are installed, and one of them may be held from now on. -/
theorem install (h : s.book.Accounted) (hnodup : fds.Nodup) (hfresh : ∀ fd ∈ fds, fd ∉ s.installed)
    (new : NativeHandle) (hnew : ∀ fd, new = some fd → fd ∈ fds) (hheld : new = none ∨ s.held = none) :
    ({ s with held := new.or s.held, installed := s.installed ++ fds } : Receiving).book.Accounted ∧
      Book.LosesUnless s.book
        ({ s with held := new.or s.held, installed := s.installed ++ fds } : Receiving).book (fds = new.toList) := by
  have hfresh' (fd : ℕ) (hfd : fd ∈ fds) : s.book.Has fd .fresh := by
    obtain ⟨c, hc⟩ := h fd
    have hnot : fd ∉ s.book.acquired := hfresh fd hfd
    cases c with
    | fresh => exact hc
    | held o => exact absurd (Book.mem_of_count_eq_one hc.1) hnot
    | released => exact absurd (Book.mem_of_count_eq_one hc.1) hnot
    | lost => exact absurd (Book.mem_of_count_eq_one hc.1) hnot
  have hholds (o : Holder) (fd : ℕ) :
      ({ s with held := new.or s.held, installed := s.installed ++ fds } : Receiving).book.holds o fd ↔
        s.book.holds o fd ∨ (o = .request ∧ new = some fd) := by
    cases o with
    | request =>
        rcases hheld with rfl | hheld
        · simp [book]
        · simp [book, hheld]
    | receive k => exact (or_iff_left fun hno => by cases hno.1).symm
  obtain ⟨hacc, hlost⟩ := h.acquire
    ({ s with held := new.or s.held, installed := s.installed ++ fds } : Receiving).book fds [] rfl rfl hnodup
    List.nodup_nil hfresh' nofun hholds (fun o fd hfd => ⟨hnew fd hfd.2, List.not_mem_nil⟩)
    (fun o o' fd ho ho' => ho.1.trans ho'.1.symm)
  refine ⟨hacc, (Book.LosesUnless.of_iff hlost ?_).congr ?_⟩
  · rintro fd ⟨hfd, -, -⟩ hlost
    exact hfresh fd hfd (Book.mem_of_count_eq_one hlost.1)
  · constructor
    · intro hnone
      have hall : ∀ fd ∈ fds, new = some fd := by
        intro fd hfd
        by_contra hne
        exact hnone fd ⟨hfd, List.not_mem_nil, fun o ho => hne ho.2⟩
      cases hn : new with
      | none =>
          refine List.eq_nil_iff_forall_not_mem.mpr fun fd hfd => ?_
          cases hn.symm.trans (hall fd hfd)
      | some fd₀ =>
          have hone : ∀ fd ∈ fds, fd = fd₀ := fun fd hfd => (Option.some.inj (hn.symm.trans (hall fd hfd))).symm
          exact List.perm_singleton.mp ((List.perm_ext_iff_of_nodup hnodup (List.nodup_singleton fd₀)).mpr fun fd =>
            ⟨fun hfd => List.mem_singleton.mpr (hone fd hfd),
              fun hfd => List.mem_singleton.mp hfd ▸ hnew fd₀ hn⟩)
    · rintro rfl fd ⟨hfd, -, hno⟩
      exact hno .request ⟨rfl, Option.mem_toList.mp hfd⟩

/-- The request being served is done with. If it has succeeded what it held is delivered; and else it is lost. -/
theorem book_record (h : s.book.Accounted) (hsucc : found.err = none → found.hndl.join = s.held) :
    (s.record found).book.Accounted ∧
      Book.LosesUnless s.book (s.record found).book (found.err ≠ none → s.held = none) := by
  by_cases herr : found.err = none
  · have hnone (fd : ℕ) : ¬ ∃ d, s.dones[s.dones.length]? = some d ∧ d.Delivers fd := by simp
    obtain ⟨hacc, hlost⟩ := h.exchange (s.record found).book
      (Equiv.swap .request (.receive s.dones.length)) rfl rfl
      (by
        intro o fd
        by_cases hrequest : o = .request
        · subst hrequest
          rw [Equiv.swap_apply_left]
          exact ⟨nofun, fun hholds => absurd hholds (hnone fd)⟩
        by_cases hlast : o = .receive s.dones.length
        · subst hlast
          rw [Equiv.swap_apply_right]
          refine delivers_append.trans ((or_iff_right (hnone fd)).trans ?_)
          rw [and_iff_right rfl, Done.Delivers, and_iff_right herr, hsucc herr]
          rfl
        · rw [Equiv.swap_apply_of_ne_of_ne hrequest hlast]
          cases o with
          | request => exact absurd rfl hrequest
          | receive k => exact delivers_append.trans (or_iff_left fun hno => hlast (congrArg _ hno.1)))
    refine ⟨hacc, fun fd => (hlost fd).mpr, fun _ fd => (hlost fd).mp, fun _ hno => absurd herr hno⟩
  · have hholds (k fd : ℕ) : (s.record found).book.holds (.receive k) fd ↔ s.book.holds (.receive k) fd :=
      delivers_append.trans (or_iff_left fun hno => herr hno.2.1)
    obtain ⟨hacc, hloses⟩ := forget_held h
    have heq : (s.record found).book = ({ s with held := none } : Receiving).book := by
      refine congrArg (Book.mk s.installed []) (funext fun o => funext fun fd => propext ?_)
      cases o with
      | request => exact Iff.rfl
      | receive k => exact hholds k fd
    rw [heq]
    exact ⟨hacc, hloses.congr ⟨fun hnone _ => hnone, fun hnone => hnone herr⟩⟩

/-! ## What is true in every run -/

/-- A request that is done with is as it should be. -/
structure Fair (d : Done) : Prop where
  failed : d.found.err ≠ none → d.found.hndl.join = none ∨ d.found.hndl = d.given
  succeeded : d.found.err = none → d.arrived.length ≤ 1

/-- What is told of the descriptors is right: each is where it is said to be; and where a request is not as it
should be one has been lost. -/
structure Tallied (s : Receiving) : Prop where
  accounted : s.book.Accounted
  nodup : s.arrived.Nodup
  arrived : ∀ fd ∈ s.arrived, fd ∈ s.installed ∧ ∀ k, ¬ s.book.holds (.receive k) fd
  dones : ∀ d ∈ s.dones, Fair d ∨ ∃ fd, s.book.Has fd .lost

/-- How far a receiver has got with the request being served, if there is one. -/
inductive Phase (s : Receiving) : Prop where
  /-- An operation is being executed. -/
  | executing {msgState : RcvMsgState} (next : s.next = some (.reads msgState) ∨ s.next = some (.locks msgState))
      (waits : s.rcv.inp.evWaits = []) (serves : s.rcv.inp.Serves s.given s.held msgState)
  /-- There is a wait for the socket. -/
  | asleep {msgState : RcvMsgState} (next : s.next = none) (waits : s.rcv.inp.evWaits = [msgState])
      (serves : s.rcv.inp.Serves s.given s.held msgState)
  /-- There is no request. -/
  | free (next : s.next = none) (request : s.rcv.inp.userRequest = none) (held : s.held = none)
      (arrived : s.arrived = []) (waits : s.rcv.inp.pendingErrCode = none → s.rcv.inp.evWaits = [])

/-- What is true in every run. -/
structure Inv (s : Receiving) : Prop where
  tallied : s.Tallied
  phase : s.Phase

/-- It has nothing to do with the receiver itself. -/
theorem Tallied.of_rcv (h : s.Tallied) (rcv : NativeSocketStreamRcv) (next : Option Next)
    (given : Option NativeHandle) : ({ s with rcv := rcv, next := next, given := given } : Receiving).Tallied :=
  ⟨h.accounted, h.nodup, h.arrived, h.dones⟩

/-- A descriptor that has come in for the request being served is in its target, or lost. -/
theorem Tallied.held_or_lost (h : s.Tallied) (hfd : fd ∈ s.arrived) : s.held = some fd ∨ s.book.Has fd .lost := by
  obtain ⟨hmem, hnot⟩ := h.arrived fd hfd
  obtain ⟨c, hc⟩ := h.accounted fd
  cases c with
  | fresh => exact absurd hmem hc.1
  | released => exact absurd (Book.mem_of_count_eq_one hc.2.1) List.not_mem_nil
  | lost => exact .inr hc
  | held o =>
      cases o with
      | request => exact .inl ((hc.2.2 .request).mpr rfl)
      | receive k => exact absurd ((hc.2.2 (.receive k)).mpr rfl) (hnot k)

/-- If more than one has come in for it, one is lost. -/
theorem Tallied.length_arrived (h : s.Tallied) : s.arrived.length ≤ 1 ∨ ∃ fd, s.book.Has fd .lost := by
  rcases harrived : s.arrived with _ | ⟨fd, _ | ⟨fd', fds⟩⟩
  · exact .inl (Nat.zero_le _)
  · exact .inl (Nat.le_refl _)
  · have hnodup := h.nodup
    rw [harrived] at hnodup
    have hne : fd ≠ fd' := by
      rintro rfl
      exact (List.nodup_cons.mp hnodup).1 List.mem_cons_self
    have hmem : fd ∈ s.arrived := harrived ▸ List.mem_cons_self
    have hmem' : fd' ∈ s.arrived := harrived ▸ List.mem_cons_of_mem _ List.mem_cons_self
    rcases h.held_or_lost hmem with hheld | hlost
    · rcases h.held_or_lost hmem' with hheld' | hlost
      · exact absurd (Option.some.inj (hheld.symm.trans hheld')) hne
      · exact .inr ⟨fd', hlost⟩
    · exact .inr ⟨fd, hlost⟩

/-- A request is recorded as done with. -/
theorem Tallied.record (h : s.Tallied) (found : Received) (hsucc : found.err = none → found.hndl.join = s.held)
    (hfail : found.err ≠ none → s.held = none → found.hndl.join = none ∨ found.hndl = s.given) :
    (s.record found).Tallied ∧
      Book.LosesUnless s.book (s.record found).book (found.err ≠ none → s.held = none) := by
  obtain ⟨hacc, hloses⟩ := book_record h.accounted hsucc
  refine ⟨⟨hacc, List.nodup_nil, fun fd hfd => absurd hfd List.not_mem_nil, fun d hd => ?_⟩, hloses⟩
  rcases List.mem_append.mp hd with hd | hd
  · exact (h.dones d hd).imp_right fun ⟨fd, hfd⟩ => ⟨fd, hloses.lost fd hfd⟩
  cases List.mem_singleton.mp hd
  by_cases herr : found.err = none
  · rcases h.length_arrived with hle | ⟨fd, hfd⟩
    · exact .inl ⟨fun hno => absurd herr hno, fun _ => hle⟩
    · exact .inr ⟨fd, hloses.lost fd hfd⟩
  · by_cases hheld : s.held = none
    · exact .inl ⟨fun _ => hfail herr hheld, fun hno => absurd hno herr⟩
    · refine .inr (by_contra fun hnone => hheld (hloses.no_more.mpr (fun fd hfd => ?_) herr))
      exact absurd ⟨fd, hfd⟩ hnone

/-- Descriptors are installed; the handle is put in the target if it is taken. -/
theorem Tallied.install (h : s.Tallied) (hnodup : fds.Nodup) (hfresh : ∀ fd ∈ fds, fd ∉ s.installed)
    {hndl : NativeHandle} (hhndl : ∀ fd, hndl = some fd → fd ∈ fds) (takes : Prop) [Decidable takes]
    (s' : Receiving) (hheld : s'.held = if takes then hndl else s.held) (harrived : s'.arrived = s.arrived ++ fds)
    (hinstalled : s'.installed = s.installed ++ fds) (hdones : s'.dones = s.dones) :
    s'.Tallied ∧ Book.LosesUnless s.book s'.book
      (if takes then s.held = none ∧ fds = hndl.toList else fds = []) := by
  have hbook : s'.book.Accounted ∧ Book.LosesUnless s.book s'.book
      (if takes then s.held = none ∧ fds = hndl.toList else fds = []) := by
    by_cases htakes : takes
    · obtain ⟨hacc, hforget⟩ := forget_held h.accounted
      obtain ⟨hacc', hinstall⟩ := Receiving.install hacc hnodup hfresh hndl hhndl (.inr rfl)
      have heq : s'.book = ({ { s with held := none } with
          held := hndl.or none, installed := s.installed ++ fds } : Receiving).book := by
        rw [if_pos htakes] at hheld
        simp only [book, hheld, hinstalled, hdones, Option.or_none]
      rw [heq, if_pos htakes]
      exact ⟨hacc', hforget.trans hinstall⟩
    · obtain ⟨hacc, hinstall⟩ := Receiving.install h.accounted hnodup hfresh none nofun (.inl rfl)
      have heq : s'.book = ({ s with
          held := (none : NativeHandle).or s.held, installed := s.installed ++ fds } : Receiving).book := by
        rw [if_neg htakes] at hheld
        simp only [book, hheld, hinstalled, hdones, Option.none_or]
      rw [heq, if_neg htakes]
      exact ⟨hacc, hinstall⟩
  obtain ⟨hacc, hloses⟩ := hbook
  have hold (fd : ℕ) (hnot : fd ∉ s.installed) (k : ℕ) : ¬ s.book.holds (.receive k) fd :=
    fun hholds => hnot (Book.mem_of_count_eq_one (h.accounted.of_holds hholds).1)
  refine ⟨⟨hacc, ?_, fun fd hfd => ?_, fun d hd => ?_⟩, hloses⟩
  · rw [harrived, List.nodup_append]
    refine ⟨h.nodup, hnodup, ?_⟩
    rintro fd hfd _ hfd' rfl
    exact hfresh fd hfd' (h.arrived fd hfd).1
  · have hreceive (k : ℕ) : s'.book.holds (.receive k) fd ↔ s.book.holds (.receive k) fd := by
      simp only [book, hdones]
    rw [harrived] at hfd
    simp only [hreceive, hinstalled, List.mem_append]
    rcases List.mem_append.mp hfd with hfd | hfd
    · exact ⟨.inl (h.arrived fd hfd).1, (h.arrived fd hfd).2⟩
    · exact ⟨.inr hfd, hold fd (hfresh fd hfd)⟩
  · rw [hdones] at hd
    exact (h.dones d hd).imp_right fun ⟨fd, hfd⟩ => ⟨fd, hloses.lost fd hfd⟩

/-- Where it would block the receiver goes to sleep. -/
theorem goOn_wouldBlock {r : In} {n : ℕ} :
    s.goOn (.done (wouldBlock, n), r) = { s.withInp r with next := none } := by
  rw [Receiving.goOn]
  exact if_pos rfl

/-- Any other result is recorded. -/
theorem goOn_done {r : In} {res : Result} (hne : res.1 ≠ wouldBlock) :
    s.goOn (.done res, r) =
      { ({ s.withInp r with next := none } : Receiving).record ((s.withInp r).rcv.received res) with
        rcv := (s.withInp r).rcv.resetRequest } := by
  rw [Receiving.goOn]
  exact if_neg hne

/-- An operation goes on, and what it holds is lost if it fails. -/
theorem Tallied.goOn (h : s.Tallied) (hyields : In.Yields s.given s.held p) :
    (s.goOn p).Inv ∧ Book.LosesUnless s.book (s.goOn p).book (p.1.Fails → s.held = none) := by
  have hsame {u : Receiving} (hbook : u.book = s.book) (hno : ¬ p.1.Fails) :
      Book.LosesUnless s.book u.book (p.1.Fails → s.held = none) := by
    rw [hbook]
    exact (Book.LosesUnless.refl s.book).congr ⟨fun _ hfails => absurd hfails hno, fun _ => trivial⟩
  cases hyields with
  | reads hserves hwaits =>
      exact ⟨⟨h.of_rcv _ _ _, .executing (.inl rfl) hwaits hserves⟩, hsame rfl id⟩
  | locks hserves hwaits =>
      exact ⟨⟨h.of_rcv _ _ _, .executing (.inr rfl) hwaits hserves⟩, hsame rfl id⟩
  | @sleeps r msgState hserves hwaits =>
      rw [goOn_wouldBlock]
      exact ⟨⟨h.of_rcv _ _ _, .asleep rfl hwaits hserves⟩, hsame rfl fun hno => hno.2 rfl⟩
  | @fails r err hsome hne hpending htarget =>
      have herr : err ≠ none := Option.isSome_iff_ne_none.mp hsome
      rw [goOn_done hne]
      have hs : ({ s.withInp r with next := none } : Receiving).Tallied := h.of_rcv _ _ _
      obtain ⟨htallied, hloses⟩ := hs.record ((s.withInp r).rcv.received (err, 0))
        (fun hno => absurd hno herr) (fun _ => In.targetHndl_of_not_held htarget)
      refine ⟨⟨htallied.of_rcv _ _ _, .free rfl rfl rfl rfl ?_⟩,
        hloses.congr ⟨fun hnone hfails => hnone herr, fun hnone _ => hnone ⟨herr, hne⟩⟩⟩
      intro hno
      exact absurd (hpending.symm.trans hno) herr
  | @succeeds r n hpending hwaits hput =>
      have hne : (none : ErrorCode) ≠ wouldBlock := nofun
      have hsucc : r.targetHndl.join = s.held := by
        rw [hput.1]
        cases hgiven : s.given with
        | none => exact (hput.2 hgiven).symm
        | some g => rfl
      rw [goOn_done hne]
      have hs : ({ s.withInp r with next := none } : Receiving).Tallied := h.of_rcv _ _ _
      obtain ⟨htallied, hloses⟩ := hs.record ((s.withInp r).rcv.received (none, n)) (fun _ => hsucc)
        (fun hno => absurd rfl hno)
      refine ⟨⟨htallied.of_rcv _ _ _, .free rfl rfl rfl rfl fun _ => hwaits⟩, hloses.congr ?_⟩
      exact ⟨fun _ hfails => absurd rfl hfails.1, fun _ hno => absurd rfl hno⟩

end Receiving

end FlowIpc.SocketStream
