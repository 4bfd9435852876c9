import FlowIpc.Found.ErrorCode

/-!
# A local stream socket

Bytes go through a local stream socket in order. A native handle is sent along with a write and
travels with the first byte of it, so the socket is taken to carry *cells*: bytes, each with the handle
that came with it, if any. A write takes some first part of what it is given, and a read gets some
first part of what there is.

What the socket answers to an operation is not for its users to foresee, so the answers are part of
the input. `Native_socket_stream::Impl` uses one socket in both directions, and whichever direction
finds out that the connection is hosed puts the socket away; so another answer, whenever one direction
comes to look, is that the other has done that by now.

Source: `sync_io/detail/native_socket_stream_impl.hpp` `m_peer_socket`;
`asio_local_stream_socket.cpp` `nb_write_some_with_native_handle`, `nb_read_some_with_native_handle`.
-/

namespace FlowIpc.SocketStream

/-- The bytes of a blob, or of a low-level payload. -/
abbrev Blob := List UInt8

/-- `Native_handle`: `none` is the null one. -/
abbrev NativeHandle := Option Nat

/-- A byte in the stream, and the handle that travels with it. -/
structure Cell where
  /-- The byte. -/
  byte : UInt8
  /-- The handle that came with the write whose first byte this is. -/
  hndl : NativeHandle
  deriving DecidableEq

/-- The cells that the write of a handle and some bytes puts on the socket. -/
def cells (hndl : NativeHandle) : Blob → List Cell
  | [] => []
  | b :: bs => ⟨b, hndl⟩ :: bs.map fun b => ⟨b, none⟩

/-- What a direction finds when it comes to use the socket. -/
inductive SockAnswer where
  /-- Up to this many bytes, and one more, can be moved. -/
  | moves (n : Nat)
  /-- The operation would block. -/
  | wouldBlock
  /-- The operation fails. -/
  | failed (n : Nat)
  /-- The other direction has put the socket away. -/
  | hosed
  deriving DecidableEq

/-- A socket as one direction has it, with all the cells ever put on it. -/
structure PeerSocket where
  /-- `bool(m_peer_socket)`; if not, the socket is `m_peer_socket_hosed`. -/
  alive : Bool
  /-- The cells put on the socket so far, oldest first. -/
  sent : List Cell
  /-- How many of these have been read off it. -/
  received : Nat
  /-- The answers to come. -/
  answers : List SockAnswer
  deriving DecidableEq

namespace PeerSocket

/-- `m_peer_socket_mutex` is locked: the other direction may have been there. -/
def lock (p : PeerSocket) : PeerSocket :=
  match p.answers with
  | .hosed :: ks => { p with alive := false, answers := ks }
  | _ => p

/-- `write_some()`, or `nb_write_some_with_native_handle()`: how much was written, and `*err_code`.
Here and below `would_block` is no error but no progress.
Source: `asio_local_stream_socket.cpp` `nb_write_some_with_native_handle` -/
def writeSome (p : PeerSocket) (hndl : NativeHandle) (blob : Blob) : Nat × ErrorCode × PeerSocket :=
  match p.answers with
  | .moves n :: ks =>
    (min (n + 1) blob.length, none,
      { p with sent := p.sent ++ (cells hndl blob).take (n + 1), answers := ks })
  | .failed n :: ks => (0, some (.system n), { p with answers := ks })
  | _ :: ks => (0, none, { p with answers := ks })
  | [] => (0, none, p)

/-- `read_some()`, or `nb_read_some_with_native_handle()`, into a buffer of `size` bytes: the cells
read, and `*err_code`.
Source: `asio_local_stream_socket.cpp` `nb_read_some_with_native_handle` -/
def readSome (p : PeerSocket) (size : Nat) : List Cell × ErrorCode × PeerSocket :=
  match p.answers with
  | .moves n :: ks =>
    let got := ((p.sent.drop p.received).take (n + 1)).take size
    (got, none, { p with received := p.received + got.length, answers := ks })
  | .failed n :: ks => ([], some (.system n), { p with answers := ks })
  | _ :: ks => ([], none, { p with answers := ks })
  | [] => ([], none, p)

/-- `snd_nb_write_low_lvl_payload()`: how much was written, and `*err_code`.
Source: `native_socket_stream_impl_snd.cpp` `snd_nb_write_low_lvl_payload` -/
def sndNbWriteLowLvlPayload (p : PeerSocket) (hndl : NativeHandle) (blob : Blob) :
    Nat × ErrorCode × PeerSocket :=
  let p := p.lock
  if p.alive then
    match p.writeSome hndl blob with
    | (n, none, p) => (n, none, p)
    | (_, some e, p) => (0, some e, { p with alive := false })
  else (0, Code.lowLvlTransportHosedCannotSend.toErrorCode, p)

/-- `rcv_nb_read_low_lvl_payload()` into a buffer of `size` bytes: the cells read, and `*err_code`.
Source: `native_socket_stream_impl_rcv.cpp` `rcv_nb_read_low_lvl_payload` -/
def rcvNbReadLowLvlPayload (p : PeerSocket) (size : Nat) : List Cell × ErrorCode × PeerSocket :=
  let p := p.lock
  if p.alive then
    match p.readSome size with
    | (got, none, p) => (got, none, p)
    | (_, some e, p) => ([], some e, { p with alive := false })
  else ([], Code.lowLvlTransportHosedCannotReceive.toErrorCode, p)

end PeerSocket

/-! ## Cells -/

/-- There is a cell for each byte. -/
@[simp] theorem length_cells (hndl : NativeHandle) (blob : Blob) :
    (cells hndl blob).length = blob.length := by
  cases blob with
  | nil => rfl
  | cons b bs => simp [cells]

/-- A write without a handle is so byte by byte. -/
theorem cells_none (blob : Blob) : cells none blob = blob.map fun b => ⟨b, none⟩ := by
  cases blob with
  | nil => rfl
  | cons b bs => rfl

/-- The handle has gone with the first byte. -/
theorem drop_cells (hndl : NativeHandle) {n : Nat} (hn : n ≠ 0) (blob : Blob) :
    (cells hndl blob).drop n = cells none (blob.drop n) := by
  obtain ⟨n, rfl⟩ := Nat.exists_eq_succ_of_ne_zero hn
  cases blob with
  | nil => simp [cells]
  | cons b bs => rw [cells, List.drop_succ_cons, List.drop_succ_cons, cells_none, List.map_drop]

/-- The bytes of what was put on the socket. -/
@[simp] theorem map_byte_cells (hndl : NativeHandle) (blob : Blob) :
    (cells hndl blob).map Cell.byte = blob := by
  cases blob with
  | nil => rfl
  | cons b bs => simp [cells, Function.comp_def]

/-- There are none for an empty blob. -/
theorem cells_eq_nil {hndl : NativeHandle} {blob : Blob} : cells hndl blob = [] ↔ blob = [] := by
  cases blob <;> simp [cells]

namespace PeerSocket

variable {p p' : PeerSocket} {hndl : NativeHandle} {blob : Blob} {n : Nat} {err : ErrorCode}

/-- To look whether the socket is there sends nothing. -/
@[simp] theorem lock_sent : p.lock.sent = p.sent := by
  unfold lock
  split <;> rfl

/-- To look whether the socket is there receives nothing. -/
@[simp] theorem lock_received : p.lock.received = p.received := by
  unfold lock
  split <;> rfl

/-- To look whether the socket is there takes an answer at most. -/
theorem length_answers_lock : p.lock.answers.length ≤ p.answers.length := by
  unfold lock
  split
  · rename_i ks hks
    simp [hks]
  · exact Nat.le_refl _

/-- What writing does to a socket: it takes some first part of the payload; on an error nothing. -/
theorem sndNbWrite_cases (h : p.sndNbWriteLowLvlPayload hndl blob = (n, err, p')) :
    p'.received = p.received ∧ n ≤ blob.length ∧ p'.sent = p.sent ++ (cells hndl blob).take n ∧
      Genuine err ∧ (err.isSome → n = 0 ∧ p'.alive = false) := by
  unfold sndNbWriteLowLvlPayload at h
  simp only at h
  split at h
  · unfold writeSome at h
    split at h
    · rename_i hw
      split at hw
      · cases hw
        cases h
        refine ⟨by simp, Nat.min_le_right _ _, ?_, by simp, by simp⟩
        simp only [lock_sent]
        congr 1
        rw [List.take_eq_take_iff]
        simp
      · cases hw
      · cases hw
        cases h
        exact ⟨by simp, Nat.zero_le _, by simp, by simp, by simp⟩
      · cases hw
        cases h
        exact ⟨by simp, Nat.zero_le _, by simp, by simp, by simp⟩
    · rename_i hw
      split at hw
      · cases hw
      · cases hw
        cases h
        exact ⟨by simp, Nat.zero_le _, by simp, by simp, by simp⟩
      · cases hw
      · cases hw
  · rename_i halive
    cases h
    exact ⟨by simp, Nat.zero_le _, by simp, by simp, by simpa using halive⟩

/-- The cells read off a socket so far. -/
def taken (p : PeerSocket) : List Cell :=
  p.sent.take p.received

/-- No more has been read than was sent. -/
def Ok (p : PeerSocket) : Prop :=
  p.received ≤ p.sent.length

/-- What has been taken has been sent. -/
theorem taken_prefix (p : PeerSocket) : p.taken <+: p.sent :=
  List.take_prefix _ _

/-- Cells read off a socket are the next ones. -/
theorem taken_append {got : List Cell} (hok : p.Ok) (hgot : got <+: p.sent.drop p.received)
    (ks : List SockAnswer) :
    ({ p with received := p.received + got.length, answers := ks } : PeerSocket).Ok ∧
      ({ p with received := p.received + got.length, answers := ks } : PeerSocket).taken =
        p.taken ++ got := by
  have hlen := hgot.length_le
  rw [List.length_drop] at hlen
  unfold Ok at hok ⊢
  refine ⟨by simp only; omega, ?_⟩
  rw [taken, taken, List.take_add, ← List.prefix_iff_eq_take.mp hgot]

/-- What reading does to a socket: some first part of what there is comes off it; on an error
nothing. -/
theorem readSome_cases {got : List Cell} {size : Nat} (hok : p.Ok)
    (h : p.readSome size = (got, err, p')) :
    p'.sent = p.sent ∧ p'.Ok ∧ p'.taken = p.taken ++ got ∧ got.length ≤ size ∧
      (∀ e, err = some e → got = [] ∧ ∃ n, e = .system n) := by
  unfold readSome at h
  split at h
  · rename_i n ks _
    cases h
    have hgot : ((p.sent.drop p.received).take (n + 1)).take size <+: p.sent.drop p.received :=
      (List.take_prefix _ _).trans (List.take_prefix _ _)
    obtain ⟨hok', htaken⟩ := taken_append hok hgot ks
    exact ⟨rfl, hok', htaken, List.length_take_le _ _, fun e he => by cases he⟩
  · cases h
    refine ⟨rfl, hok, (List.append_nil _).symm, Nat.zero_le _, ?_⟩
    intro e he
    cases he
    exact ⟨rfl, _, rfl⟩
  · cases h
    exact ⟨rfl, hok, (List.append_nil _).symm, Nat.zero_le _, fun e he => by cases he⟩
  · cases h
    exact ⟨rfl, hok, (List.append_nil _).symm, Nat.zero_le _, fun e he => by cases he⟩

/-- The same, of a socket that may have been put away. -/
theorem rcvNbRead_cases {got : List Cell} {size : Nat} (hok : p.Ok)
    (h : p.rcvNbReadLowLvlPayload size = (got, err, p')) :
    p'.sent = p.sent ∧ p'.Ok ∧ p'.taken = p.taken ++ got ∧ got.length ≤ size ∧
      (∀ e, err = some e →
        got = [] ∧ (e = .code .lowLvlTransportHosedCannotReceive ∨ ∃ n, e = .system n)) := by
  have hlock : p.lock.Ok := by
    unfold Ok
    rw [lock_received, lock_sent]
    exact hok
  have htaken : p.lock.taken = p.taken := by rw [taken, lock_received, lock_sent, taken]
  unfold rcvNbReadLowLvlPayload at h
  simp only at h
  split at h
  · rcases hread : p.lock.readSome size with ⟨got₁, err₁, p₁⟩
    obtain ⟨hsent, hok', htaken', hlen, herr⟩ := readSome_cases hlock hread
    rw [lock_sent] at hsent
    rw [htaken] at htaken'
    rw [hread] at h
    cases err₁ with
    | none =>
        cases h
        exact ⟨hsent, hok', htaken', hlen, fun e he => by cases he⟩
    | some e =>
        cases h
        obtain ⟨rfl, hsystem⟩ := herr e rfl
        refine ⟨hsent, hok', htaken', Nat.zero_le _, fun e' he' => ?_⟩
        cases he'
        exact ⟨rfl, .inr hsystem⟩
  · cases h
    refine ⟨lock_sent, hlock, by rw [htaken, List.append_nil], Nat.zero_le _, fun e he => ?_⟩
    cases he
    exact ⟨rfl, .inl rfl⟩

/-- Cells come off a socket only with an answer of its. -/
theorem rcvNbRead_answers {got : List Cell} {size : Nat}
    (h : p.rcvNbReadLowLvlPayload size = (got, err, p')) (hgot : got.length ≠ 0) :
    p'.answers.length < p.answers.length := by
  have hlen := p.length_answers_lock
  unfold rcvNbReadLowLvlPayload at h
  simp only at h
  split at h
  · rcases hread : p.lock.readSome size with ⟨got₁, err₁, p₁⟩
    rw [hread] at h
    unfold readSome at hread
    split at hread
    · rename_i hks
      rw [hks, List.length_cons] at hlen
      cases hread
      cases h
      exact hlen
    · cases hread
      cases h
      exact absurd rfl hgot
    · cases hread
      cases h
      exact absurd rfl hgot
    · cases hread
      cases h
      exact absurd rfl hgot
  · cases h
    exact absurd rfl hgot

end PeerSocket

end FlowIpc.SocketStream
