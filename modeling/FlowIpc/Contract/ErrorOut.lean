import FlowIpc.Acceptor.Construct
import FlowIpc.Channel.Construct
import FlowIpc.PosixMq.Made

/-!
# What `*err_code` held before

An operation that is given a place for its error is to write to it whether it fails or not. What the place
held before must not show: neither in what it holds after, nor in the object (`NoStale`, which compares two
calls). `noStale_iff` says where this is so, for each operation (`Op`).

* The constructors of the two channels and `sync_connect()` always write.
* The others write when they fail. When they succeed they leave in place what has been there.
* The constructor of a `sync_io` acceptor goes by what is there: with an error from before, and a core that is
  made, it stops half-way, even if what it has not come to would have failed.

Source: flow's `Error_code` emission convention, and the functions that `Op` names.
-/

namespace FlowIpc.ErrorOut

open AcceptorMake ChannelMake MqPeers SyncConnect Util

/-! ## A call, twice -/

/-- Two calls that differ in what `*err_code` held before come to the same, and the operation has succeeded
just if `*err_code` is falsy after. A call comes to nothing if it does not return. -/
structure NoStale {α σ : Type} (call : ErrorCode → Option (Emit α × σ)) (succeeds : Prop) : Prop where
  oblivious : ∀ err err', call err = call err'
  falsy : ∀ err emit s, call err = some (emit, s) → (emit.emitted = none ↔ succeeds)

section Calls

variable {α σ : Type} {call : ErrorCode → Option (Emit α × σ)} {succeeds : Prop}

/-- A call that does not return shows nothing. -/
theorem NoStale.of_none (h : ∀ err, call err = none) : NoStale call succeeds := by
  refine ⟨fun err err' => (h err).trans (h err').symm, fun err emit s hcall => ?_⟩
  rw [h err] at hcall
  cases hcall

/-- A call that always returns the same shows nothing, if it writes no error just where it succeeds. -/
theorem NoStale.of_eq {emit : Emit α} {s : σ} (h : ∀ err, call err = some (emit, s))
    (hiff : emit.emitted = none ↔ succeeds) : NoStale call succeeds := by
  refine ⟨fun err err' => (h err).trans (h err').symm, fun err emit' s' hcall => ?_⟩
  rw [h err] at hcall
  cases hcall
  exact hiff

/-- Of a call that always writes it is enough to know the one where there was no error. -/
theorem NoStale.of_same {emit : Emit α} (hsame : ∀ err, call err = call none)
    (h : (call none).map Prod.fst = some emit) (hiff : emit.emitted = none ↔ succeeds) : NoStale call succeeds := by
  obtain ⟨⟨emit', s⟩, hcall, heq⟩ := Option.map_eq_some_iff.1 h
  cases heq
  exact .of_eq (fun err => (hsame err).trans hcall) hiff

/-- A call that writes its error, if there is one. -/
theorem noStale_or_iff {val : α} {s : σ} {failure : ErrorCode}
    (h : ∀ err, call err = some (.ret val (failure.or err), s)) :
    NoStale call (failure = none) ↔ failure ≠ none := by
  constructor
  · rintro hfree rfl
    have heq := hfree.oblivious none (some (.system 0))
    rw [h, h] at heq
    cases heq
  · intro hne
    obtain ⟨e, rfl⟩ := Option.ne_none_iff_exists'.1 hne
    have hcall : ∀ err, call err = some (.ret val (some e), s) := h
    exact .of_eq hcall Iff.rfl

end Calls

/-! ## The operations -/

/-- An operation, with all that it is given but for `err_code`, and all that the calls it makes come to. Those
that would be refused in the state that the object is in are left out. -/
inductive Op where
  /-- `Posix_mq_handle(Create_only)`, `Posix_mq_handle(Open_or_create)`, `Posix_mq_handle(Open_only)` -/
  | posixMqHandle (k : Nat) (absoluteName : String) (o : PosixMq.Opening) (a : PosixMq.Answers)
  /-- `Blob_stream_mq_sender()`, `Blob_stream_mq_receiver()` -/
  | blobStreamMq (hasNativeHandle : Bool) (k : Kernel) (sndElseRcv : Bool) (mq : MqArg)
  /-- `Mqs_channel()` -/
  | mqsChannel (hasNativeHandle blobsOnly : Bool) (k : Kernel) (mqOut mqIn : MqArg)
  /-- `Mqs_socket_stream_channel()` -/
  | mqsSocketStreamChannel (hasNativeHandle : Bool) (k : Kernel) (mqOut mqIn : MqArg) (sockStm : Nat)
  /-- `Native_socket_stream_acceptor()` -/
  | acceptor (absoluteName : List UInt8) (a : AcceptorMake.Answers)
  /-- `sync_io::Native_socket_stream_acceptor()` -/
  | syncIoAcceptor (absoluteName : List UInt8) (a : AcceptorMake.Answers) (pipe : Option Nat)
  /-- `sync_connect()`, after any number of attempts, in NULL state. -/
  | syncConnect (fd : Nat) (cs : List Call) (x : Impl) (reached : Lts.Run Step (.ctor fd) cs x)
    (null : x.state = .null) (a : Attempt)
  /-- `remote_peer_process_credentials()`, in PEER state. -/
  | remotePeerProcessCredentials (x : Impl) (peer : x.state = .peer)
  /-- `process_invoked_as()` -/
  | processInvokedAs (c : ProcessCredentials) (proc : Nat → CmdLineFile)

/-- The operation does not let show what `*err_code` held before. -/
def Op.Oblivious : Op → Prop
  | .posixMqHandle k absoluteName o a =>
    NoStale (fun err => (PosixMq.ctor k absoluteName o a).map fun r => (PosixMq.report (some err) r).swap)
      (o.firstFailed a = some none)
  | .blobStreamMq hasNativeHandle k sndElseRcv mq =>
    let c := mq.construct hasNativeHandle k sndElseRcv
    NoStale (fun err => some (c.emit (some err), c)) (mq.failure hasNativeHandle k sndElseRcv = none)
  | .mqsChannel hasNativeHandle blobsOnly k mqOut mqIn =>
    NoStale (fun err => some (ChannelMake.mqsChannel hasNativeHandle blobsOnly k mqOut mqIn (some err)))
      (failure hasNativeHandle k mqOut mqIn = none)
  | .mqsSocketStreamChannel hasNativeHandle k mqOut mqIn sockStm =>
    NoStale (fun err => some (ChannelMake.mqsSocketStreamChannel hasNativeHandle k mqOut mqIn sockStm (some err)))
      (failure hasNativeHandle k mqOut mqIn = none)
  | .acceptor absoluteName a =>
    NoStale (fun err => some (acceptorCtor absoluteName a (some err), ())) (a.failure = none)
  | .syncIoAcceptor absoluteName a pipe =>
    NoStale (fun err => some (syncIoAcceptorCtor absoluteName a pipe (some err), ()))
      (a.failure = none ∧ pipe = none)
  | .syncConnect _ _ x _ _ a => NoStale (fun err => x.syncConnect (some err) a) (a.err = none)
  | .remotePeerProcessCredentials x _ =>
    NoStale (fun err => some (x.remotePeerProcessCredentials (some err), ())) (x.peerSocket ≠ none)
  | .processInvokedAs c proc =>
    NoStale (fun err => some (c.processInvokedAs proc (some err), ())) ((proc c.processId).failure = none)

/-- It is one of those that always write; or some call that it makes fails, and is not one made only where
`*err_code` holds no error; or the constructor does not return. -/
def Op.Writes : Op → Prop
  | .posixMqHandle _ _ o a => o.firstFailed a ≠ some none
  | .blobStreamMq hasNativeHandle k sndElseRcv mq => mq.failure hasNativeHandle k sndElseRcv ≠ none
  | .mqsChannel .. => True
  | .mqsSocketStreamChannel .. => True
  | .acceptor _ a => a.failure ≠ none
  | .syncIoAcceptor _ a _ => a.failure ≠ none
  | .syncConnect .. => True
  | .remotePeerProcessCredentials x _ => x.peerSocket = none
  | .processInvokedAs c proc => (proc c.processId).failure ≠ none

/-! ## Where it does not show -/

/-- The constructors of `Posix_mq_handle` are oblivious where they write. -/
theorem posixMqHandle_iff (k : Nat) (absoluteName : String) (o : PosixMq.Opening) (a : PosixMq.Answers) :
    (Op.posixMqHandle k absoluteName o a).Oblivious ↔ (Op.posixMqHandle k absoluteName o a).Writes := by
  rcases PosixMq.ctor_spec k absoluteName o a with ⟨hctor, hfirst⟩ | ⟨m, f, hctor, hfirst, -⟩
  · have hnone : (Op.posixMqHandle k absoluteName o a).Oblivious := .of_none fun err => by rw [hctor]; rfl
    have hwrites : (Op.posixMqHandle k absoluteName o a).Writes := by
      intro hsome
      rw [hfirst] at hsome
      cases hsome
    exact ⟨fun _ => hwrites, fun _ => hnone⟩
  · have hcall : ∀ err, ((PosixMq.ctor k absoluteName o a).map fun r => (PosixMq.report (some err) r).swap) =
        some (.ret m.obj ((f.map Prod.snd).or err), m) := by
      intro err
      rw [hctor]
      rcases f with _ | ⟨_, e⟩ <;> rfl
    have hfailure : o.firstFailed a = some none ↔ f.map Prod.snd = none := by
      rw [hfirst, Option.some_inj, Option.map_eq_none_iff]
    simp only [Op.Oblivious, Op.Writes, ne_eq, hfailure]
    exact noStale_or_iff hcall

/-- The constructor of the `sync_io` acceptor is oblivious where it writes. -/
theorem syncIoAcceptor_iff (absoluteName : List UInt8) (a : AcceptorMake.Answers) (pipe : Option Nat) :
    (Op.syncIoAcceptor absoluteName a pipe).Oblivious ↔ (Op.syncIoAcceptor absoluteName a pipe).Writes := by
  simp only [Op.Oblivious, Op.Writes, syncIoAcceptorCtor_some]
  rcases hfailure : a.failure with _ | errno
  · refine ⟨fun hfree => ?_, fun hne => absurd rfl hne⟩
    -- With an error from before the pipe is not made; without one, what its making comes to shows.
    have heq := hfree.oblivious none (some .operationAborted)
    rcases pipe with _ | errno
    · cases heq
    · cases heq
  · refine ⟨fun _ => Option.some_ne_none errno, fun _ => .of_eq (fun _ => rfl) ?_⟩
    exact iff_of_false (Option.some_ne_none _) fun h => Option.some_ne_none errno h.1

/-- `sync_connect()` in NULL state. -/
theorem syncConnect_noStale {fd : Nat} {cs : List Call} {x : Impl} (hrun : Lts.Run Step (.ctor fd) cs x)
    (hnull : x.state = .null) (a : Attempt) :
    NoStale (fun err => x.syncConnect (some err) a) (a.err = none) := by
  rcases Settled.run hrun with ⟨mode, asserted⟩ | _
  · simp only [Impl.syncConnect_idle]
    rcases a.err with _ | e
    · rcases a.creds with e | creds
      · exact .of_none fun _ => rfl
      · exact .of_eq (fun _ => rfl) Iff.rfl
    · exact .of_eq (fun _ => rfl) Iff.rfl
  · cases hnull

/-- `remote_peer_process_credentials()` is oblivious where it writes. -/
theorem remotePeerProcessCredentials_iff (x : Impl) (hpeer : x.state = .peer) :
    (Op.remotePeerProcessCredentials x hpeer).Oblivious ↔ (Op.remotePeerProcessCredentials x hpeer).Writes := by
  simp only [Op.Oblivious, Op.Writes, Impl.remotePeerProcessCredentials_of_peer hpeer]
  rcases x.peerSocket with _ | sock
  · exact ⟨fun _ => rfl, fun _ => .of_eq (fun _ => rfl) (iff_of_false (Option.some_ne_none _) fun h => h rfl)⟩
  · refine ⟨fun hfree => ?_, fun h => nomatch h⟩
    have heq := hfree.oblivious none (some .operationAborted)
    cases heq

/-- `process_invoked_as()` is oblivious where it writes. -/
theorem processInvokedAs_iff (c : ProcessCredentials) (proc : Nat → CmdLineFile) :
    (Op.processInvokedAs c proc).Oblivious ↔ (Op.processInvokedAs c proc).Writes := by
  simp only [Op.Oblivious, Op.Writes, ProcessCredentials.processInvokedAs_some]
  rcases (proc c.processId).failure with _ | errno
  · refine ⟨fun hfree => ?_, fun hne => absurd rfl hne⟩
    have heq := hfree.oblivious none (some .operationAborted)
    cases heq
  · refine ⟨fun _ => Option.some_ne_none errno, fun _ => .of_eq (fun _ => rfl) ?_⟩
    exact iff_of_false (Option.some_ne_none _) (Option.some_ne_none errno)

/-- The constructor of a channel over queues is oblivious. -/
theorem mqsChannel_noStale (hasNativeHandle blobsOnly : Bool) (k : Kernel) (mqOut mqIn : MqArg) :
    (Op.mqsChannel hasNativeHandle blobsOnly k mqOut mqIn).Oblivious := by
  refine .of_same (fun _ => rfl) (congrArg some (mqsChannel_eq hasNativeHandle blobsOnly k mqOut mqIn none)) ?_
  rcases ChannelMake.failure hasNativeHandle k mqOut mqIn with _ | e
  · exact iff_of_true rfl rfl
  · exact iff_of_false (Option.some_ne_none e) (Option.some_ne_none e)

/-- So is that of a channel over queues and a socket. -/
theorem mqsSocketStreamChannel_noStale (hasNativeHandle : Bool) (k : Kernel) (mqOut mqIn : MqArg) (sockStm : Nat) :
    (Op.mqsSocketStreamChannel hasNativeHandle k mqOut mqIn sockStm).Oblivious := by
  refine .of_same (fun _ => rfl)
    (congrArg some (mqsSocketStreamChannel_eq hasNativeHandle k mqOut mqIn sockStm none)) ?_
  rcases ChannelMake.failure hasNativeHandle k mqOut mqIn with _ | e
  · exact iff_of_true rfl rfl
  · exact iff_of_false (Option.some_ne_none e) (Option.some_ne_none e)

/-- The constructor of the acceptor is oblivious where it writes. -/
theorem acceptor_iff (absoluteName : List UInt8) (a : AcceptorMake.Answers) :
    (Op.acceptor absoluteName a).Oblivious ↔ (Op.acceptor absoluteName a).Writes := by
  simp only [Op.Oblivious, Op.Writes, acceptorCtor_some]
  have hfailure : a.failure = none ↔ a.failure.map Err.system = none := Option.map_eq_none_iff.symm
  rw [ne_eq, hfailure]
  exact noStale_or_iff fun _ => rfl

/-- **Where what `*err_code` held before does not show.** -/
theorem noStale_iff (op : Op) : op.Oblivious ↔ op.Writes := by
  cases op with
  | posixMqHandle k absoluteName o a => exact posixMqHandle_iff k absoluteName o a
  | blobStreamMq hasNativeHandle k sndElseRcv mq =>
    exact noStale_or_iff fun err => by rw [construct_emit]
  | mqsChannel hasNativeHandle blobsOnly k mqOut mqIn =>
    exact iff_of_true (mqsChannel_noStale hasNativeHandle blobsOnly k mqOut mqIn) trivial
  | mqsSocketStreamChannel hasNativeHandle k mqOut mqIn sockStm =>
    exact iff_of_true (mqsSocketStreamChannel_noStale hasNativeHandle k mqOut mqIn sockStm) trivial
  | acceptor absoluteName a => exact acceptor_iff absoluteName a
  | syncIoAcceptor absoluteName a pipe => exact syncIoAcceptor_iff absoluteName a pipe
  | syncConnect fd cs x hrun hnull a => exact iff_of_true (syncConnect_noStale hrun hnull a) trivial
  | remotePeerProcessCredentials x hpeer => exact remotePeerProcessCredentials_iff x hpeer
  | processInvokedAs c proc => exact processInvokedAs_iff c proc

/-- An acceptor of which all is made: with an error in `*err_code` before (`EINVAL`), the constructor says that
it has failed, and leaves it without its pipe. -/
theorem syncIoAcceptor_stale :
    ¬ (∀ op : Op, op.Oblivious) ∧
    syncIoAcceptorCtor [97] ⟨none, none⟩ none (some (some (.system 22))) =
      .ret ⟨.made [97] ⟨none, none⟩, false, false⟩ (some (.system 22)) ∧
    syncIoAcceptorCtor [97] ⟨none, none⟩ none (some none) = .ret ⟨.made [97] ⟨none, none⟩, true, true⟩ none := by
  refine ⟨fun hall => ?_, rfl, rfl⟩
  have hfree := hall (.syncIoAcceptor [97] ⟨none, none⟩ none)
  have heq := hfree.oblivious none (some (.system 22))
  cases heq

end FlowIpc.ErrorOut
