import FlowIpc.AsioSocket.Write
import Mathlib.Algebra.GroupWithZero.Nat

/-!
# Reading a handle and some bytes, without blocking

`nb_read_some_with_native_handle()` calls `recvmsg()`, and then looks at what it has left: the flags, and the
control messages. The descriptors that came along have been installed in the process by then, all that there
was room for; those that the function has no use for are open as well.

There is to be room for one (`nPayloadFds`). But `CMSG_SPACE()` is a multiple of eight on LP64, where a
descriptor takes four bytes, so that there is room for two, if they are in one message
(`Fits`). That `MSG_CTRUNC` is not set does not say that there was one only.

Each descriptor has a number of its own here, whatever the kernel has called it.

* `nbRead_cases` is what the caller is given.
* `proper_iff` is when that is all that has been installed.

Source: `asio_local_stream_socket.cpp` `nb_read_some_with_native_handle`.
-/

namespace FlowIpc.AsioSocket

open SocketStream

/-! ## `recvmsg()` -/

/-- A control message. -/
inductive ControlMsg where
  /-- `SOL_SOCKET`, `SCM_RIGHTS`: descriptors, the first of them and the others. -/
  | rights (fd : ℕ) (fds : List ℕ)
  /-- One of another level or type: some bytes, and perhaps descriptors. -/
  | other (size : ℕ) (fds : List ℕ)
  deriving DecidableEq

/-- The descriptors in it. -/
def ControlMsg.fds : ControlMsg → List ℕ
  | .rights fd fds => fd :: fds
  | .other _ fds => fds

/-- What `recvmsg()` returns, and what it leaves in its buffers and in `msg_flags`. -/
inductive RecvmsgResult where
  /-- Bytes were there: as many of these as there is room for have been received. -/
  | received (byte : UInt8) (bytes : Blob) (control : List ControlMsg) (msgFlags : BitVec 32)
  /-- 0: there is no more to come. -/
  | eof
  /-- -1, and this is `errno`. -/
  | failed (errno : {n : ℕ // n ≠ 0})
  deriving DecidableEq

/-- The descriptors that the kernel has installed. -/
def RecvmsgResult.installed : RecvmsgResult → List ℕ
  | .received _ _ control _ => control.flatMap ControlMsg.fds
  | _ => []

/-- The bytes received into a blob of this size. -/
def RecvmsgResult.rcvd (size : ℕ) : RecvmsgResult → Blob
  | .received byte bytes _ _ => (byte :: bytes).take size
  | _ => []

/-- Nothing was there. -/
def RecvmsgResult.WouldBlock : RecvmsgResult → Prop
  | .failed errno => errno = eagain
  | _ => False

/-! ## The control buffer -/

/-- `N_PAYLOAD_FDS` -/
def nPayloadFds : ℕ := 1

/-- `sizeof(Native_handle::handle_t)` -/
def sizeofHandle : ℕ := 4

/-- `CMSG_ALIGN()` on LP64 -/
def cmsgAlign (n : ℕ) : ℕ := (n + 7) / 8 * 8

/-- `CMSG_SPACE()` on LP64 -/
def cmsgSpace (n : ℕ) : ℕ := 16 + cmsgAlign n

/-- The room that a message takes. -/
def ControlMsg.space : ControlMsg → ℕ
  | .rights _ fds => cmsgSpace (sizeofHandle * (fds.length + 1))
  | .other size fds => cmsgSpace (size + sizeofHandle * fds.length)

/-- There is room for the control messages in `msg_control_as_union`. -/
def RecvmsgResult.Fits : RecvmsgResult → Prop
  | .received _ _ control _ => (control.map ControlMsg.space).sum ≤ cmsgSpace (sizeofHandle * nPayloadFds)
  | _ => True

instance : DecidablePred RecvmsgResult.Fits
  | .received _ _ _ _ => inferInstanceAs (Decidable (_ ≤ _))
  | .eof => isTrue trivial
  | .failed _ => isTrue trivial

/-! ## The function -/

/-- `MSG_CTRUNC` -/
def msgCtrunc : BitVec 32 := 0x8

/-- `boost::asio::error::eof`. There is no system error 0. -/
abbrev asioEof : Err := .system 0

/-- What a read leaves for its caller. -/
structure NbRead where
  /-- The bytes written to the target blob. -/
  written : Blob
  /-- What is returned. -/
  nRcvd : ℕ
  /-- `*target_payload_hndl_ptr` -/
  hndl : NativeHandle
  /-- `*err_code` -/
  errCode : ErrorCode
  deriving DecidableEq

/-- `nb_read_some_with_native_handle()`, into a target blob of `size` bytes.
Source: `asio_local_stream_socket.cpp` `nb_read_some_with_native_handle` -/
def nbReadSomeWithNativeHandle (size : ℕ) : RecvmsgResult → NbRead
  | .failed errno =>
    if errno = eagain then ⟨[], 0, none, some asioWouldBlock⟩ else ⟨[], 0, none, some (.system errno)⟩
  | .eof => ⟨[], 0, none, some asioEof⟩
  | .received byte bytes control msgFlags =>
    let rcvd := (byte :: bytes).take size
    if msgFlags &&& msgCtrunc ≠ 0 then
      ⟨rcvd, 0, none, Code.lowLvlUnexpectedStreamPayloadBeyondHndl.toErrorCode⟩
    else
      match control with
      | [] => ⟨rcvd, rcvd.length, none, none⟩
      -- How many descriptors are in the message is not looked at.
      | [.rights fd _] => ⟨rcvd, rcvd.length, some fd, none⟩
      | .rights _ _ :: _ :: _ => ⟨rcvd, 0, none, Code.lowLvlUnexpectedStreamPayloadBeyondHndl.toErrorCode⟩
      | .other _ _ :: _ => ⟨rcvd, 0, none, Code.lowLvlUnexpectedStreamPayloadBeyondHndl.toErrorCode⟩

/-- No descriptor came; or one, by itself in the only message, and nothing was cut off. -/
def RecvmsgResult.Proper : RecvmsgResult → Prop
  | .received _ _ control msgFlags =>
    control.flatMap ControlMsg.fds = [] ∨ (∃ fd, control = [.rights fd []]) ∧ msgFlags &&& msgCtrunc = 0
  | _ => True

/-- It would block; or there is an error, and what has been installed is given to nobody; or something has been
received, and the first descriptor that has been installed is given to the caller. -/
theorem nbRead_cases (size : ℕ) (k : RecvmsgResult) :
    (k.WouldBlock ∧ k.installed = [] ∧ nbReadSomeWithNativeHandle size k = ⟨[], 0, none, some asioWouldBlock⟩) ∨
      (∃ e, ¬ k.WouldBlock ∧ e ≠ asioWouldBlock ∧ e ≠ .code .syncIoWouldBlock ∧ (k.Proper ↔ k.installed = []) ∧
        nbReadSomeWithNativeHandle size k = ⟨k.rcvd size, 0, none, some e⟩) ∨
      (¬ k.WouldBlock ∧ (size ≠ 0 → k.rcvd size ≠ []) ∧ (k.Proper ↔ k.installed = k.installed.head?.toList) ∧
        nbReadSomeWithNativeHandle size k = ⟨k.rcvd size, (k.rcvd size).length, k.installed.head?, none⟩) := by
  rcases k with ⟨byte, bytes, control, msgFlags⟩ | _ | errno
  · have hsome (hsize : size ≠ 0) : (byte :: bytes).take size ≠ [] := by
      rw [ne_eq, List.take_eq_nil_iff]
      exact fun hnil => hnil.elim hsize nofun
    have herr : Err.code .lowLvlUnexpectedStreamPayloadBeyondHndl ≠ asioWouldBlock := nofun
    have herr' : Err.code .lowLvlUnexpectedStreamPayloadBeyondHndl ≠ .code .syncIoWouldBlock := nofun
    unfold nbReadSomeWithNativeHandle RecvmsgResult.Proper RecvmsgResult.installed RecvmsgResult.rcvd
    by_cases hflags : msgFlags &&& msgCtrunc ≠ 0
    · simp only [if_pos hflags]
      exact .inr (.inl ⟨_, id, herr, herr', or_iff_left fun hno => hflags hno.2, rfl⟩)
    · have hzero : msgFlags &&& msgCtrunc = 0 := not_not.mp hflags
      simp only [hzero, and_true]
      rcases control with _ | ⟨⟨fd, fds⟩ | ⟨n, fds⟩, _ | ⟨m, control⟩⟩
      · exact .inr (.inr ⟨id, hsome, by simp, rfl⟩)
      · exact .inr (.inr ⟨id, hsome, by simp [ControlMsg.fds], rfl⟩)
      · exact .inr (.inl ⟨_, id, herr, herr', by simp [ControlMsg.fds], rfl⟩)
      · exact .inr (.inl ⟨_, id, herr, herr', by simp [ControlMsg.fds], rfl⟩)
      · exact .inr (.inl ⟨_, id, herr, herr', by simp [ControlMsg.fds], rfl⟩)
  · exact .inr (.inl ⟨asioEof, id, by decide, nofun, ⟨fun _ => rfl, fun _ => trivial⟩, rfl⟩)
  · by_cases herrno : (errno : ℕ) = eagain
    · exact .inl ⟨herrno, rfl, if_pos herrno⟩
    · refine .inr (.inl ⟨.system errno, herrno, ?_, nofun, ⟨fun _ => rfl, fun _ => trivial⟩, if_neg herrno⟩)
      exact fun heq => herrno (Err.system.inj heq)

/-- **What has been installed is what the caller is given** iff it came properly. -/
theorem proper_iff {size : ℕ} {k : RecvmsgResult} :
    k.Proper ↔ k.installed = (nbReadSomeWithNativeHandle size k).hndl.toList := by
  rcases nbRead_cases size k with ⟨hblock, hnone, hread⟩ | ⟨e, -, -, -, hproper, hread⟩ | ⟨-, -, hproper, hread⟩
  · rw [hread, hnone]
    cases k with
    | received byte bytes control msgFlags => exact absurd hblock id
    | eof => exact absurd hblock id
    | failed errno => exact ⟨fun _ => rfl, fun _ => trivial⟩
  · rw [hread]
    exact hproper
  · rw [hread]
    exact hproper

end FlowIpc.AsioSocket
