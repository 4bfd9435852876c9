import FlowIpc.AsioSocket.Write

/-!
# Reading into a target, stubbornly

`async_read_with_target_func()` waits for the socket to be readable, asks its user for the target, and reads
into it without blocking; as long as that is not full it waits and reads on, in the place after what has been
read. `async_read_interruptible()` is given the target, and begins with the second. Before each step the user
is asked whether to go on (`shouldInterrupt`).

The bytes that come in are those of `stream`, from where the operation found it on; nobody else reads.

* `ReadOp.Sound` is what holds at any time: the first so many places of the target have got the first so many
  bytes, and nothing else has been written.
* `ReadOp.Exact` is what the user is told of it (`Sound.exact`).
* `ReadOp.Responds` is what comes of each end of a wait (`Sound.responds`): as long as the operation goes on each
  has brought a byte, but for would-block (`Sound.run_reads`), and so it comes to an end.
* `transfers_exactly` is about both, the write and the read: in any run.

Source: `asio_local_stream_socket.hpp` `async_read_with_target_func`, `async_read_interruptible`;
`detail/asio_local_stream_socket.hpp` `on_wait_readable_or_error`.
-/

namespace FlowIpc.AsioSocket

open Lts

/-! ## Memory -/

/-- `util::Blob_mutable`: where it begins, and how many bytes it has. -/
structure BlobMutable where
  /-- `data()` -/
  data : ℕ
  /-- `size()` -/
  size : ℕ
  deriving DecidableEq

/-- `Blob_mutable + n` -/
def BlobMutable.shift (b : BlobMutable) (n : ℕ) : BlobMutable := ⟨b.data + min n b.size, b.size - min n b.size⟩

/-- The memory after `n` bytes have been written at `data`. -/
def fill (mem : ℕ → UInt8) (data n : ℕ) (bytes : ℕ → UInt8) : ℕ → UInt8 :=
  fun a => if data ≤ a ∧ a < data + n then bytes (a - data) else mem a

/-- To write no bytes changes nothing. -/
@[simp] theorem fill_zero {mem bytes : ℕ → UInt8} {data : ℕ} : fill mem data 0 bytes = mem := by
  funext a
  exact if_neg (by omega)

/-- Bytes that are written one after the other, after what has been written. -/
theorem fill_fill {mem bytes : ℕ → UInt8} {data m n : ℕ} :
    fill (fill mem data m bytes) (data + m) n (fun i => bytes (m + i)) = fill mem data (m + n) bytes := by
  funext a
  unfold fill
  by_cases hlate : data + m ≤ a ∧ a < data + m + n
  · have hplace : m + (a - (data + m)) = a - data := by omega
    rw [if_pos hlate, if_pos (by omega)]
    exact congrArg bytes hplace
  · rw [if_neg hlate]
    by_cases hearly : data ≤ a ∧ a < data + m
    · rw [if_pos hearly, if_pos (by omega)]
    · rw [if_neg hearly, if_neg (by omega)]

/-! ## One read -/

/-- What `read_some()` comes to. -/
inductive ReadSomeResult where
  /-- Up to this many bytes, and one more, are there. -/
  | got (n : ℕ)
  /-- It would block. -/
  | wouldBlock
  /-- It fails; or there is no more to come. -/
  | failed (e : FatalErr)
  deriving DecidableEq

/-- `Peer_socket::read_some()`: what it returns, and the error. -/
def readSome (blob : BlobMutable) : ReadSomeResult → ℕ × ErrorCode
  | .got n => (min (n + 1) blob.size, none)
  | .wouldBlock => (0, some asioWouldBlock)
  | .failed e => (0, some e)

/-! ## The operation -/

/-- What is to be done when the socket is readable. -/
inductive ReadCont where
  /-- `on_wait_readable_or_error<true>()` -/
  | targetTbd
  /-- `on_wait_readable_or_error<false>()` -/
  | target (targetPayloadBlob : BlobMutable) (nRcvdSoFar : ℕ)
  deriving DecidableEq

/-- An operation. -/
structure ReadOp where
  /-- What goes on. -/
  pending : Option ReadCont
  /-- The memory. -/
  mem : ℕ → UInt8
  /-- How many bytes of the stream have been read. -/
  taken : ℕ
  /-- `peer_socket.non_blocking()` -/
  nonBlocking : Bool
  /-- What `target_payload_blob_func()` has returned, each time. -/
  asked : List BlobMutable
  /-- `on_rcvd_or_error()` is told where the target is. -/
  tellsBlob : Bool
  /-- What it has been posted with, each time. -/
  posted : List (ErrorCode × Option BlobMutable)
  /-- It has been found that the operation is to be interrupted. -/
  interrupted : Bool
  /-- Some assertion has failed. -/
  assertFailed : Bool

/-- What there is when the wait is over. -/
structure Answers where
  /-- `should_interrupt_func()` -/
  shouldInterrupt : Bool
  /-- `async_err_code` -/
  asyncErrCode : Option FatalErr
  /-- `target_payload_blob_func()` -/
  targetPayloadBlob : BlobMutable
  /-- How `peer_socket.non_blocking(true)` fails, if it does. -/
  nonBlockingErr : Option FatalErr
  /-- `peer_socket.read_some()` -/
  readSome : ReadSomeResult

namespace ReadOp

/-- `assert(p)` -/
def assert (s : ReadOp) (p : Prop) [Decidable p] : ReadOp :=
  { s with assertFailed := s.assertFailed || !decide p }

/-- An assertion that holds leaves no trace. -/
@[simp] theorem assert_of {s : ReadOp} {p : Prop} [Decidable p] (h : p) : s.assert p = s := by
  simp [assert, h]

/-- `async_read_with_target_func()`
Source: `asio_local_stream_socket.hpp` `async_read_with_target_func` -/
def asyncReadWithTargetFunc (mem : ℕ → UInt8) (taken : ℕ) (nonBlocking : Bool) : ReadOp :=
  ⟨some .targetTbd, mem, taken, nonBlocking, [], true, [], false, false⟩

/-- `async_read_interruptible()`
Source: `asio_local_stream_socket.hpp` `async_read_interruptible` -/
def asyncReadInterruptible (targetPayloadBlob : BlobMutable) (mem : ℕ → UInt8) (taken : ℕ)
    (nonBlocking : Bool) : ReadOp :=
  ⟨some (.target targetPayloadBlob 0), mem, taken, nonBlocking, [], false, [], false, false⟩

/-- `finish()`
Source: `detail/asio_local_stream_socket.hpp` `on_wait_readable_or_error` -/
def finish (s : ReadOp) (errCode : ErrorCode) (blob : BlobMutable) : ReadOp :=
  { s with posted := s.posted ++ [(errCode, if s.tellsBlob then some blob else none)] }

/-- The end of `on_wait_readable_or_error()`, where the target is known: it is read.
Source: `detail/asio_local_stream_socket.hpp` `on_wait_readable_or_error` -/
def readInto (stream : ℕ → UInt8) (s : ReadOp) (targetPayloadBlob : BlobMutable) (nRcvdSoFar : ℕ)
    (res : ReadSomeResult) : ReadOp :=
  let s := s.assert (targetPayloadBlob.size ≠ 0)
  let remaining := targetPayloadBlob.shift nRcvdSoFar
  let s := s.assert (remaining.size ≠ 0)
  let (nRcvd, sysErrCode) := readSome remaining res
  let s :=
    { s with
      mem := fill s.mem remaining.data nRcvd fun i => stream (s.taken + i)
      taken := s.taken + nRcvd }
  if sysErrCode.isSome ∧ sysErrCode ≠ some asioWouldBlock then
    (s.assert (nRcvd = 0)).finish sysErrCode targetPayloadBlob
  else if nRcvd = remaining.size then (s.assert (sysErrCode = none)).finish none targetPayloadBlob
  else { s with pending := some (.target targetPayloadBlob (nRcvdSoFar + nRcvd)) }

/-- `on_wait_readable_or_error<TARGET_TBD>()`
Source: `detail/asio_local_stream_socket.hpp` `on_wait_readable_or_error` -/
def onWaitReadableOrError (stream : ℕ → UInt8) (targetTbd : Bool) (s : ReadOp) (targetPayloadBlob : BlobMutable)
    (nRcvdSoFar : ℕ) (a : Answers) : ReadOp :=
  let s := if targetTbd then s.assert (nRcvdSoFar = 0) else s
  if a.shouldInterrupt then { s with interrupted := true }
  else if a.asyncErrCode.isSome then s.finish (a.asyncErrCode.map Subtype.val) ⟨0, 0⟩
  else if targetTbd then
    let s := s.assert (targetPayloadBlob.size = 0)
    let targetPayloadBlob := a.targetPayloadBlob
    let s := { s with asked := s.asked ++ [targetPayloadBlob] }
    if targetPayloadBlob.size = 0 then s.finish none targetPayloadBlob
    else if s.nonBlocking = false then
      if a.nonBlockingErr.isSome then s.finish (a.nonBlockingErr.map Subtype.val) targetPayloadBlob
      else readInto stream { s with nonBlocking := true } targetPayloadBlob nRcvdSoFar a.readSome
    else readInto stream s targetPayloadBlob nRcvdSoFar a.readSome
  else readInto stream s targetPayloadBlob nRcvdSoFar a.readSome

/-- One step: the wait is over; `none` if there is no wait.
Source: `asio_local_stream_socket.hpp`, `detail/asio_local_stream_socket.hpp` -/
def step (stream : ℕ → UInt8) (s : ReadOp) (a : Answers) : Option ReadOp :=
  match s.pending with
  | none => none
  | some .targetTbd => some (onWaitReadableOrError stream true { s with pending := none } ⟨0, 0⟩ 0 a)
  | some (.target blob nRcvdSoFar) =>
    some (onWaitReadableOrError stream false { s with pending := none } blob nRcvdSoFar a)

/-! ## What holds of it at any time -/

/-- An operation that is given the target, or is to ask for it. -/
def start (given : Option BlobMutable) (mem : ℕ → UInt8) (taken : ℕ) (nonBlocking : Bool) : ReadOp :=
  match given with
  | none => asyncReadWithTargetFunc mem taken nonBlocking
  | some targetPayloadBlob => asyncReadInterruptible targetPayloadBlob mem taken nonBlocking

/-- The target, if it is known. -/
def target (given : Option BlobMutable) (s : ReadOp) : Option BlobMutable := given.or s.asked.head?

/-- The first `n` bytes that have come in are in the first `n` places of the target, and that is all. -/
structure Filled (stream : ℕ → UInt8) (start : ReadOp) (mem : ℕ → UInt8) (taken : ℕ) (blob : BlobMutable)
    (n : ℕ) : Prop where
  le : n ≤ blob.size
  mem_eq : mem = fill start.mem blob.data n fun i => stream (start.taken + i)
  taken_eq : taken = start.taken + n

/-- What the user is told, and what has been done. -/
structure Exact (stream : ℕ → UInt8) (given : Option BlobMutable) (start s : ReadOp) : Prop where
  /-- The user is asked for the target once at most, and not if it was given. -/
  asked : s.asked.length ≤ 1 ∧ (given.isSome → s.asked = [])
  /-- As long as the target is not known nothing is read. -/
  unread : target given s = none → s.mem = start.mem ∧ s.taken = start.taken
  /-- The places of the target are filled one after the other. -/
  filled : ∀ blob, target given s = some blob → ∃ n, Filled stream start s.mem s.taken blob n
  /-- While something goes on the handler has not been posted; and then it has, once, unless the operation was
  interrupted. -/
  once : (s.pending.isSome ∧ s.posted = [] ∧ s.interrupted = false) ∨
    (s.pending = none ∧ (∃ p, s.posted = [p]) ∧ s.interrupted = false) ∨
    (s.pending = none ∧ s.posted = [] ∧ s.interrupted = true)
  /-- It is told of success exactly if the target is full. -/
  success : ∀ p ∈ s.posted, p.1 = none ↔
    ∃ blob, target given s = some blob ∧ Filled stream start s.mem s.taken blob blob.size
  /-- It is told of the target then, if it is to be. -/
  told : ∀ p ∈ s.posted, p.1 = none → p.2 = if given.isSome then none else target given s
  /-- It is not told of would-block. -/
  no_wouldBlock : ∀ p ∈ s.posted, p.1 ≠ some asioWouldBlock
  /-- No assertion has failed. -/
  noFailure : s.assertFailed = false

/-- The handler has been posted, with this code. -/
def Ends (s : ReadOp) (err : ErrorCode) : Prop :=
  s.pending = none ∧ s.posted.map Prod.fst = [err]

/-- It waits. -/
def Waits (s : ReadOp) : Prop :=
  s.pending.isSome ∧ s.posted = []

/-- What comes of `read_some()`, where so many places of the target are left. -/
def AfterRead (s s' : ReadOp) (left : ℕ) : ReadSomeResult → Prop
  | .got k => s'.taken = s.taken + min (k + 1) left ∧ if left ≤ k + 1 then s'.Ends none else s'.Waits
  | .wouldBlock => s'.Waits ∧ s'.mem = s.mem ∧ s'.taken = s.taken
  | .failed e => s'.Ends (some e) ∧ s'.mem = s.mem ∧ s'.taken = s.taken

/-- The wait is over, and has not failed; and the operation is not to be interrupted. -/
def Ready (a : Answers) : Prop :=
  a.shouldInterrupt = false ∧ a.asyncErrCode = none

/-- When the wait is over `read_some()` is called. -/
structure Tries (s : ReadOp) (a : Answers) : Prop where
  ready : Ready a
  asked : s.pending = some .targetTbd →
    a.targetPayloadBlob.size ≠ 0 ∧ (s.nonBlocking = false → a.nonBlockingErr = none)

/-- What comes of the end of a wait. -/
structure Responds (stream : ℕ → UInt8) (given : Option BlobMutable) (start s : ReadOp) : Prop where
  /-- What goes on can, however the wait ends. -/
  goesOn : s.pending.isSome → ∀ a, (s.step stream a).isSome
  /-- After an interrupt nothing is read or posted. -/
  interrupts : ∀ a s', s.step stream a = some s' → a.shouldInterrupt = true →
    s' = { s with pending := none, interrupted := true }
  /-- The wait fails: that is posted. -/
  waitFails : ∀ a s' e, s.step stream a = some s' → a.shouldInterrupt = false → a.asyncErrCode = some e →
    s'.Ends (some e.val) ∧ s'.asked = s.asked ∧ s'.mem = s.mem ∧ s'.taken = s.taken
  /-- The user is asked for the target, if that is not known. -/
  asks : ∀ a s', s.step stream a = some s' → Ready a →
    s'.asked = if s.pending = some .targetTbd then [a.targetPayloadBlob] else s.asked
  /-- If it is empty that is all. -/
  empty : ∀ a s', s.step stream a = some s' → Ready a → s.pending = some .targetTbd →
    a.targetPayloadBlob.size = 0 → s'.Ends none ∧ s'.mem = s.mem ∧ s'.taken = s.taken
  /-- Switching the mode fails: that is posted. -/
  modeFails : ∀ a s' e, s.step stream a = some s' → Ready a → s.pending = some .targetTbd →
    a.targetPayloadBlob.size ≠ 0 → s.nonBlocking = false → a.nonBlockingErr = some e →
      s'.Ends (some e.val) ∧ s'.mem = s.mem ∧ s'.taken = s.taken
  /-- Else it is tried to fill what is left of the target. -/
  reads : ∀ a s', s.step stream a = some s' → Tries s a → ∃ blob, target given s' = some blob ∧
    AfterRead s s' (blob.size - (s.taken - start.taken)) a.readSome

/-! ## One step after the other -/

section

variable (stream : ℕ → UInt8) (given : Option BlobMutable) (start : ReadOp)

/-- What holds of the target and of what has been read. -/
structure Core (s : ReadOp) : Prop where
  noFailure : s.assertFailed = false
  tells : s.tellsBlob = given.isNone
  asked : s.asked = [] ∨ (given = none ∧ ∃ blob, s.asked = [blob])
  unread : target given s = none → s.mem = start.mem ∧ s.taken = start.taken
  filled : ∀ blob, target given s = some blob → ∃ n, Filled stream start s.mem s.taken blob n

/-- No function is being executed for the operation any more. -/
inductive Phase (s : ReadOp) : Prop where
  /-- It waits, and is to ask for the target. -/
  | asks (pending : s.pending = some .targetTbd) (unknown : target given s = none) (posted : s.posted = [])
      (goesOn : s.interrupted = false)
  /-- It waits, and is to read on. -/
  | reads {blob : BlobMutable} {n : ℕ} (pending : s.pending = some (.target blob n))
      (known : target given s = some blob) (filled : Filled stream start s.mem s.taken blob n) (lt : n < blob.size)
      (posted : s.posted = []) (goesOn : s.interrupted = false)
  /-- The handler has been posted. -/
  | done {p : ErrorCode × Option BlobMutable} (pending : s.pending = none) (posted : s.posted = [p])
      (success : p.1 = none ↔ ∃ blob, target given s = some blob ∧ Filled stream start s.mem s.taken blob blob.size)
      (told : p.1 = none → p.2 = if given.isSome then none else target given s)
      (fatal : p.1 ≠ some asioWouldBlock) (goesOn : s.interrupted = false)
  /-- It has been interrupted. -/
  | interrupted (pending : s.pending = none) (posted : s.posted = []) (stops : s.interrupted = true)

/-- Where an operation is, and what it has done. -/
structure Sound (s : ReadOp) : Prop extends Core stream given start s where
  phase : Phase stream given start s

/-- The operation goes on, in a function. -/
structure Goes (s : ReadOp) : Prop extends Core stream given start s where
  pending : s.pending = none
  posted : s.posted = []
  goesOn : s.interrupted = false

end

variable {stream : ℕ → UInt8} {given : Option BlobMutable} {start s s' : ReadOp} {blob : BlobMutable} {n : ℕ}
  {a : Answers} {as : List Answers}

/-- There is one number of bytes that have come in. -/
theorem Filled.unique {m : ℕ} (h : Filled stream start s.mem s.taken blob m)
    (h' : Filled stream start s.mem s.taken blob n) : m = n := by
  have heq := h.taken_eq.symm.trans h'.taken_eq
  omega

/-- At first nothing has come in. -/
theorem filled_zero (hmem : s.mem = start.mem) (htaken : s.taken = start.taken) :
    Filled stream start s.mem s.taken blob 0 :=
  ⟨Nat.zero_le _, hmem.trans fill_zero.symm, htaken⟩

/-- It ends with an error, when the target is not full. -/
theorem Goes.sound_error (h : Goes stream given start s) {e : Err} (fatal : e ≠ asioWouldBlock)
    (hleft : ∀ blob, target given s = some blob → ∃ n, Filled stream start s.mem s.taken blob n ∧ n < blob.size)
    (b : BlobMutable) : Sound stream given start (s.finish (some e) b) := by
  refine ⟨⟨h.noFailure, h.tells, h.asked, h.unread, h.filled⟩, ?_⟩
  refine .done h.pending (congrArg (· ++ _) h.posted) (iff_of_false nofun ?_) nofun ?_ h.goesOn
  · rintro ⟨blob, hknown, hfull⟩
    obtain ⟨n, hfilled, hlt⟩ := hleft blob hknown
    exact Nat.ne_of_lt hlt (hfilled.unique hfull)
  · exact fun h => fatal (Option.some.inj h)

/-- It ends with success, when the target is full. -/
theorem Goes.sound_full (h : Goes stream given start s) (hknown : target given s = some blob)
    (hfull : Filled stream start s.mem s.taken blob blob.size) : Sound stream given start (s.finish none blob) := by
  refine ⟨⟨h.noFailure, h.tells, h.asked, h.unread, h.filled⟩, ?_⟩
  refine .done h.pending (congrArg (· ++ _) h.posted) ?_ (fun _ => ?_) nofun h.goesOn
  · exact iff_of_true rfl ⟨blob, hknown, hfull⟩
  · change (if s.tellsBlob then some blob else none) = if given.isSome then none else target given s
    rw [h.tells, hknown]
    cases given <;> rfl

/-- What there is after `k` more bytes have come in. -/
def got (stream : ℕ → UInt8) (s : ReadOp) (blob : BlobMutable) (n k : ℕ) : ReadOp :=
  { s with
    mem := fill s.mem (blob.data + n) k fun i => stream (s.taken + i)
    taken := s.taken + k }

/-- What is received next is written behind what is there. -/
theorem Filled.got {k : ℕ} (h : Filled stream start s.mem s.taken blob n) (hk : n + k ≤ blob.size) :
    Filled stream start (s.got stream blob n k).mem (s.got stream blob n k).taken blob (n + k) := by
  refine ⟨hk, ?_, ?_⟩
  · rw [← fill_fill, ← h.mem_eq]
    simp only [ReadOp.got, h.taken_eq, Nat.add_assoc]
  · rw [ReadOp.got, h.taken_eq, Nat.add_assoc]

/-- What is left of the target, while something is. -/
theorem shift_of_lt (hlt : n < blob.size) : blob.shift n = ⟨blob.data + n, blob.size - n⟩ := by
  rw [BlobMutable.shift, Nat.min_eq_left (Nat.le_of_lt hlt)]

/-- Some bytes are read: all that the target has room for, or fewer. -/
theorem readInto_got (hlt : n < blob.size) (k : ℕ) :
    readInto stream s blob n (.got k) =
      if min (k + 1) (blob.size - n) = blob.size - n then
        (s.got stream blob n (min (k + 1) (blob.size - n))).finish none blob
      else
        { s.got stream blob n (min (k + 1) (blob.size - n)) with
          pending := some (.target blob (n + min (k + 1) (blob.size - n))) } := by
  have hne : blob.size ≠ 0 := by omega
  have hne' : blob.size - n ≠ 0 := by omega
  unfold readInto
  rw [shift_of_lt hlt, assert_of hne]
  dsimp only
  rw [assert_of hne']
  generalize hread : readSome _ (.got k) = p
  obtain ⟨nRcvd, sysErrCode⟩ := p
  cases hread
  dsimp only
  rw [if_neg (by simp), assert_of rfl]
  rfl

/-- It would block: the operation waits again, for the same. -/
theorem readInto_wouldBlock (hlt : n < blob.size) :
    readInto stream s blob n .wouldBlock = { s with pending := some (.target blob n) } := by
  have hne : blob.size ≠ 0 := by omega
  have hne' : blob.size - n ≠ 0 := by omega
  unfold readInto
  rw [shift_of_lt hlt, assert_of hne]
  dsimp only
  rw [assert_of hne']
  have hok : ¬ ((some asioWouldBlock : ErrorCode).isSome = true ∧ some asioWouldBlock ≠ some asioWouldBlock) :=
    fun h => h.2 rfl
  refine (if_neg hok).trans ((if_neg (Ne.symm hne')).trans ?_)
  simp only [readSome, fill_zero, Nat.add_zero]

/-- The read fails. -/
theorem readInto_failed (hlt : n < blob.size) (e : FatalErr) :
    readInto stream s blob n (.failed e) = s.finish (some e) blob := by
  have hne : blob.size ≠ 0 := by omega
  have hne' : blob.size - n ≠ 0 := by omega
  have hfatal : (some e.val : ErrorCode) ≠ some asioWouldBlock := fun h => e.property (Option.some.inj h)
  unfold readInto
  rw [shift_of_lt hlt, assert_of hne]
  dsimp only
  rw [assert_of hne']
  refine (if_pos ⟨rfl, hfatal⟩).trans ?_
  simp only [readSome, fill_zero, Nat.add_zero, assert_of]

/-- The target is read. -/
theorem Goes.sound_readInto (h : Goes stream given start s) (hknown : target given s = some blob)
    (hfilled : Filled stream start s.mem s.taken blob n) (hlt : n < blob.size) (res : ReadSomeResult) :
    Sound stream given start (readInto stream s blob n res) := by
  cases res with
  | got k =>
    rw [readInto_got hlt]
    let m := min (k + 1) (blob.size - n)
    have hle : n + m ≤ blob.size := by omega
    have hgot := hfilled.got hle
    have hcore : Core stream given start (s.got stream blob n m) := by
      refine ⟨h.noFailure, h.tells, h.asked, ?_, ?_⟩
      · intro hunknown
        exact nomatch hknown.symm.trans hunknown
      · intro b hb
        cases hknown.symm.trans hb
        exact ⟨_, hgot⟩
    split
    · rename_i hall
      refine Goes.sound_full ⟨hcore, h.pending, h.posted, h.goesOn⟩ hknown ?_
      have hfull : ∀ j, n + m = j → Filled stream start (s.got stream blob n m).mem (s.got stream blob n m).taken
          blob j := by
        rintro j rfl
        exact hgot
      exact hfull _ (by omega)
    · rename_i hpart
      refine ⟨⟨hcore.noFailure, hcore.tells, hcore.asked, hcore.unread, hcore.filled⟩, ?_⟩
      exact .reads rfl hknown hgot (by omega) h.posted h.goesOn
  | wouldBlock =>
    rw [readInto_wouldBlock hlt]
    exact ⟨⟨h.noFailure, h.tells, h.asked, h.unread, h.filled⟩, .reads rfl hknown hfilled hlt h.posted h.goesOn⟩
  | failed e =>
    rw [readInto_failed hlt]
    refine h.sound_error e.property ?_ blob
    intro b hb
    cases hknown.symm.trans hb
    exact ⟨n, hfilled, hlt⟩

/-- The user has been asked for the target. -/
theorem Goes.ask (h : Goes stream given start s) (hunknown : target given s = none) (b : BlobMutable) :
    Goes stream given start { s with asked := s.asked ++ [b] } ∧
      target given { s with asked := s.asked ++ [b] } = some b ∧
      Filled stream start s.mem s.taken b 0 := by
  obtain ⟨hmem, htaken⟩ := h.unread hunknown
  have hzero : Filled stream start s.mem s.taken b 0 := filled_zero hmem htaken
  obtain ⟨hnot, hasked⟩ := Option.or_eq_none_iff.1 hunknown
  have hnil : s.asked = [] := List.head?_eq_none_iff.1 hasked
  have hknown : target given { s with asked := s.asked ++ [b] } = some b := by
    rw [target, hnot, hnil]
    rfl
  refine ⟨⟨⟨h.noFailure, h.tells, .inr ⟨hnot, b, ?_⟩, ?_, ?_⟩, h.pending, h.posted, h.goesOn⟩, hknown, hzero⟩
  · rw [hnil]
    rfl
  · intro hnone
    exact nomatch hknown.symm.trans hnone
  · intro b' hb'
    cases hknown.symm.trans hb'
    exact ⟨0, hzero⟩

/-- The wait is over, and the target is still to be asked for. -/
theorem Goes.sound_targetTbd (h : Goes stream given start s) (hunknown : target given s = none) (a : Answers) :
    Sound stream given start (onWaitReadableOrError stream true s ⟨0, 0⟩ 0 a) := by
  obtain ⟨hgoes, hknown, hzero⟩ := h.ask hunknown a.targetPayloadBlob
  unfold onWaitReadableOrError
  rw [if_pos rfl, assert_of rfl]
  dsimp only
  rw [if_pos rfl, assert_of rfl]
  split
  · exact ⟨⟨h.noFailure, h.tells, h.asked, h.unread, h.filled⟩, .interrupted h.pending h.posted rfl⟩
  cases a.asyncErrCode with
  | some e =>
    refine h.sound_error e.property ?_ ⟨0, 0⟩
    intro b hb
    exact nomatch hunknown.symm.trans hb
  | none =>
    rw [if_neg (by simp)]
    by_cases hsize : a.targetPayloadBlob.size = 0
    · rw [if_pos hsize]
      refine hgoes.sound_full hknown ?_
      rw [hsize]
      exact hzero
    · have hlt : 0 < a.targetPayloadBlob.size := Nat.pos_of_ne_zero hsize
      rw [if_neg hsize]
      split
      · cases a.nonBlockingErr with
        | some e =>
          refine hgoes.sound_error e.property ?_ _
          intro b hb
          cases hknown.symm.trans hb
          exact ⟨0, hzero, hlt⟩
        | none =>
          have hgoes' : Goes stream given start
              { s with asked := s.asked ++ [a.targetPayloadBlob], nonBlocking := true } :=
            ⟨⟨hgoes.noFailure, hgoes.tells, hgoes.asked, hgoes.unread, hgoes.filled⟩, h.pending, h.posted, h.goesOn⟩
          exact hgoes'.sound_readInto hknown hzero hlt _
      · exact hgoes.sound_readInto hknown hzero hlt _

/-- The wait is over, and the target is known. -/
theorem Goes.sound_target (h : Goes stream given start s) (hknown : target given s = some blob)
    (hfilled : Filled stream start s.mem s.taken blob n) (hlt : n < blob.size) (a : Answers) :
    Sound stream given start (onWaitReadableOrError stream false s blob n a) := by
  unfold onWaitReadableOrError
  rw [if_neg Bool.false_ne_true]
  dsimp only
  split
  · exact ⟨⟨h.noFailure, h.tells, h.asked, h.unread, h.filled⟩, .interrupted h.pending h.posted rfl⟩
  cases a.asyncErrCode with
  | some e =>
    refine h.sound_error e.property ?_ ⟨0, 0⟩
    intro b hb
    cases hknown.symm.trans hb
    exact ⟨n, hfilled, hlt⟩
  | none => exact h.sound_readInto hknown hfilled hlt _

/-- One step. -/
theorem Sound.step (h : Sound stream given start s) (hstep : s.step stream a = some s') :
    Sound stream given start s' := by
  have hgoes : s.posted = [] → s.interrupted = false → Goes stream given start { s with pending := none } :=
    fun hposted hgoesOn => ⟨⟨h.noFailure, h.tells, h.asked, h.unread, h.filled⟩, rfl, hposted, hgoesOn⟩
  unfold ReadOp.step at hstep
  cases h.phase with
  | asks pending unknown posted goesOn =>
    rw [pending] at hstep
    cases hstep
    exact (hgoes posted goesOn).sound_targetTbd unknown a
  | reads pending known filled lt posted goesOn =>
    rw [pending] at hstep
    cases hstep
    exact (hgoes posted goesOn).sound_target known filled lt a
  | done pending => rw [pending] at hstep; cases hstep
  | interrupted pending => rw [pending] at hstep; cases hstep

/-- It begins so, if the target, when it is given, is not empty. -/
theorem sound_start {mem : ℕ → UInt8} {taken : ℕ} {nonBlocking : Bool}
    (hgiven : ∀ blob ∈ given, blob.size ≠ 0) :
    Sound stream given (ReadOp.start given mem taken nonBlocking) (ReadOp.start given mem taken nonBlocking) := by
  cases given with
  | none =>
    refine ⟨⟨rfl, rfl, .inl rfl, fun _ => ⟨rfl, rfl⟩, nofun⟩, ?_⟩
    exact .asks rfl rfl rfl rfl
  | some blob =>
    have hzero : ∀ b, Filled stream (ReadOp.start (some blob) mem taken nonBlocking) mem taken b 0 :=
      fun b => filled_zero rfl rfl
    refine ⟨⟨rfl, rfl, .inl rfl, nofun, fun b _ => ⟨0, hzero b⟩⟩, ?_⟩
    exact .reads rfl rfl (hzero blob) (Nat.pos_of_ne_zero (hgiven blob rfl)) rfl rfl

/-- What the user is told. -/
theorem Sound.exact (h : Sound stream given start s) : Exact stream given start s := by
  have hasked : s.asked.length ≤ 1 ∧ (given.isSome → s.asked = []) := by
    rcases h.asked with hnil | ⟨rfl, blob, hone⟩
    · rw [hnil]
      exact ⟨Nat.zero_le _, fun _ => rfl⟩
    · rw [hone]
      exact ⟨Nat.le_refl _, nofun⟩
  cases h.phase with
  | asks pending unknown posted goesOn =>
    refine ⟨hasked, h.unread, h.filled, .inl ⟨by rw [pending]; rfl, posted, goesOn⟩, ?_, ?_, ?_, h.noFailure⟩
    all_goals rw [posted]; nofun
  | reads pending known filled lt posted goesOn =>
    refine ⟨hasked, h.unread, h.filled, .inl ⟨by rw [pending]; rfl, posted, goesOn⟩, ?_, ?_, ?_, h.noFailure⟩
    all_goals rw [posted]; nofun
  | done pending posted success told fatal goesOn =>
    refine ⟨hasked, h.unread, h.filled, .inr (.inl ⟨pending, ⟨_, posted⟩, goesOn⟩), ?_, ?_, ?_, h.noFailure⟩
    all_goals
      intro p hp
      rw [posted] at hp
      cases List.mem_singleton.1 hp
    · exact success
    · exact told
    · exact fatal
  | interrupted pending posted stops =>
    refine ⟨hasked, h.unread, h.filled, .inr (.inr ⟨pending, posted, stops⟩), ?_, ?_, ?_, h.noFailure⟩
    all_goals rw [posted]; nofun

/-! ## What comes of each step -/

/-- Waits end of an operation that goes on. -/
theorem pending_isSome_of_step (hstep : s.step stream a = some s') : s.pending.isSome := by
  rcases hpending : s.pending with _ | cont
  · unfold ReadOp.step at hstep
    rw [hpending] at hstep
    cases hstep
  · rfl

/-- The wait is over, and the target is to be asked for. -/
theorem step_asks (pending : s.pending = some .targetTbd) :
    s.step stream a = some (onWaitReadableOrError stream true { s with pending := none } ⟨0, 0⟩ 0 a) := by
  unfold ReadOp.step
  rw [pending]

/-- The wait is over, and the target is known. -/
theorem step_reads (pending : s.pending = some (.target blob n)) :
    s.step stream a = some (onWaitReadableOrError stream false { s with pending := none } blob n a) := by
  unfold ReadOp.step
  rw [pending]

/-- The operation is to be interrupted. -/
theorem onWaitReadableOrError_interrupts {targetTbd : Bool} (hn : targetTbd = true → n = 0)
    (hint : a.shouldInterrupt = true) :
    onWaitReadableOrError stream targetTbd s blob n a = { s with interrupted := true } := by
  unfold onWaitReadableOrError
  cases targetTbd with
  | true => rw [if_pos rfl, assert_of (hn rfl), if_pos hint]
  | false => rw [if_neg Bool.false_ne_true, if_pos hint]

/-- The wait has failed. -/
theorem onWaitReadableOrError_waitFails {targetTbd : Bool} {e : FatalErr} (hn : targetTbd = true → n = 0)
    (hgo : a.shouldInterrupt = false) (herr : a.asyncErrCode = some e) :
    onWaitReadableOrError stream targetTbd s blob n a = s.finish (some e) ⟨0, 0⟩ := by
  have hno : ¬ a.shouldInterrupt = true := by rw [hgo]; exact Bool.false_ne_true
  unfold onWaitReadableOrError
  rw [herr]
  cases targetTbd with
  | true =>
    rw [if_pos rfl, assert_of (hn rfl), if_neg hno, if_pos Option.isSome_some]
    rfl
  | false =>
    rw [if_neg Bool.false_ne_true, if_neg hno, if_pos Option.isSome_some]
    rfl

/-- The target is asked for. -/
theorem onWaitReadableOrError_asks (hready : Ready a) :
    onWaitReadableOrError stream true s ⟨0, 0⟩ 0 a =
      let s := { s with asked := s.asked ++ [a.targetPayloadBlob] }
      if a.targetPayloadBlob.size = 0 then s.finish none a.targetPayloadBlob
      else if s.nonBlocking = false then
        if a.nonBlockingErr.isSome then s.finish (a.nonBlockingErr.map Subtype.val) a.targetPayloadBlob
        else readInto stream { s with nonBlocking := true } a.targetPayloadBlob 0 a.readSome
      else readInto stream s a.targetPayloadBlob 0 a.readSome := by
  obtain ⟨hgo, herr⟩ := hready
  have hno : ¬ a.shouldInterrupt = true := by rw [hgo]; exact Bool.false_ne_true
  have hnone : ¬ (none : Option FatalErr).isSome = true := Bool.false_ne_true
  unfold onWaitReadableOrError
  rw [herr, if_pos rfl, assert_of rfl, if_neg hno, if_neg hnone]
  dsimp only
  rw [if_pos rfl, assert_of rfl]

/-- The target is known. -/
theorem onWaitReadableOrError_reads (hready : Ready a) :
    onWaitReadableOrError stream false s blob n a = readInto stream s blob n a.readSome := by
  obtain ⟨hgo, herr⟩ := hready
  have hno : ¬ a.shouldInterrupt = true := by rw [hgo]; exact Bool.false_ne_true
  have hnone : ¬ (none : Option FatalErr).isSome = true := Bool.false_ne_true
  unfold onWaitReadableOrError
  rw [herr, if_neg Bool.false_ne_true, if_neg hno, if_neg hnone, if_neg Bool.false_ne_true]

/-- Posting is the end. -/
theorem ends_finish (hpending : s.pending = none) (hposted : s.posted = []) (err : ErrorCode) :
    (s.finish err blob).Ends err := by
  refine ⟨hpending, ?_⟩
  unfold finish
  dsimp only
  rw [hposted]
  rfl

/-- What comes of reading into the target. -/
theorem afterRead_readInto (hpending : s.pending = none) (hposted : s.posted = []) (hlt : n < blob.size)
    (res : ReadSomeResult) : AfterRead s (readInto stream s blob n res) (blob.size - n) res := by
  cases res with
  | got k =>
    rw [readInto_got hlt]
    by_cases hall : blob.size - n ≤ k + 1
    · rw [if_pos (Nat.min_eq_right hall)]
      refine ⟨rfl, ?_⟩
      rw [if_pos hall]
      exact ends_finish hpending hposted none
    · rw [if_neg (by omega)]
      refine ⟨rfl, ?_⟩
      rw [if_neg hall]
      exact ⟨rfl, hposted⟩
  | wouldBlock =>
    rw [readInto_wouldBlock hlt]
    exact ⟨⟨rfl, hposted⟩, rfl, rfl⟩
  | failed e =>
    rw [readInto_failed hlt]
    exact ⟨ends_finish hpending hposted _, rfl, rfl⟩

/-- Nor is the user asked again. -/
theorem readInto_asked (hlt : n < blob.size) (res : ReadSomeResult) :
    (readInto stream s blob n res).asked = s.asked := by
  cases res with
  | got k =>
    rw [readInto_got hlt]
    split <;> rfl
  | wouldBlock => rw [readInto_wouldBlock hlt]
  | failed e =>
    rw [readInto_failed hlt]
    rfl

/-- The target stays what it is. -/
theorem target_readInto (hlt : n < blob.size) (res : ReadSomeResult) :
    target given (readInto stream s blob n res) = target given s := by
  unfold target
  rw [readInto_asked hlt]

/-- What comes of the end of a wait for the target to be asked for. -/
theorem Goes.responds_targetTbd (h : Goes stream given start { s with pending := none })
    (pending : s.pending = some .targetTbd) (unknown : target given s = none) : Responds stream given start s where
  goesOn _ a := by
    rw [step_asks pending]
    rfl
  interrupts a s' hstep hint := by
    rw [step_asks pending, onWaitReadableOrError_interrupts (fun _ => rfl) hint] at hstep
    cases hstep
    rfl
  waitFails a s' e hstep hgo herr := by
    rw [step_asks pending, onWaitReadableOrError_waitFails (fun _ => rfl) hgo herr] at hstep
    cases hstep
    exact ⟨ends_finish rfl h.posted _, rfl, rfl, rfl⟩
  asks a s' hstep hready := by
    have hnil : s.asked = [] := List.head?_eq_none_iff.1 (Option.or_eq_none_iff.1 unknown).2
    rw [step_asks pending, onWaitReadableOrError_asks hready, hnil] at hstep
    cases hstep
    rw [if_pos pending]
    dsimp only
    split
    · rfl
    · rename_i hsize
      have hlt : 0 < a.targetPayloadBlob.size := Nat.pos_of_ne_zero hsize
      split
      · split
        · rfl
        · exact readInto_asked hlt _
      · exact readInto_asked hlt _
  empty a s' hstep hready _ hsize := by
    rw [step_asks pending, onWaitReadableOrError_asks hready] at hstep
    cases hstep
    dsimp only
    rw [if_pos hsize]
    exact ⟨ends_finish rfl h.posted _, rfl, rfl⟩
  modeFails a s' e hstep hready _ hsize hmode herr := by
    rw [step_asks pending, onWaitReadableOrError_asks hready] at hstep
    cases hstep
    dsimp only
    rw [if_neg hsize, if_pos hmode, herr, if_pos Option.isSome_some]
    exact ⟨ends_finish rfl h.posted _, rfl, rfl⟩
  reads a s' hstep htries := by
    obtain ⟨hsize, hmode⟩ := htries.asked pending
    have hlt : 0 < a.targetPayloadBlob.size := Nat.pos_of_ne_zero hsize
    obtain ⟨-, htaken⟩ := h.unread unknown
    have hzero : s.taken - start.taken = 0 := by
      rw [show s.taken = start.taken from htaken, Nat.sub_self]
    have hnone : ¬ (none : Option FatalErr).isSome = true := Bool.false_ne_true
    have hknown : given.or (s.asked ++ [a.targetPayloadBlob]).head? = some a.targetPayloadBlob :=
      (h.ask unknown a.targetPayloadBlob).2.1
    rw [step_asks pending, onWaitReadableOrError_asks htries.ready] at hstep
    cases hstep
    dsimp only
    refine ⟨a.targetPayloadBlob, ?_, ?_⟩
    · -- What is asked for is the target, whatever comes of reading into it.
      rw [if_neg hsize]
      split
      · rename_i hblocking
        rw [hmode hblocking, if_neg hnone]
        exact (target_readInto hlt _).trans hknown
      · exact (target_readInto hlt _).trans hknown
    · rw [if_neg hsize, hzero]
      split
      · rename_i hblocking
        rw [hmode hblocking, if_neg hnone]
        exact afterRead_readInto (s := { s with
          pending := none, asked := s.asked ++ [a.targetPayloadBlob], nonBlocking := true }) rfl h.posted hlt _
      · exact afterRead_readInto (s := { s with
          pending := none, asked := s.asked ++ [a.targetPayloadBlob] }) rfl h.posted hlt _

/-- What comes of the end of a wait for more to fill the target with. -/
theorem Goes.responds_target (h : Goes stream given start { s with pending := none })
    (pending : s.pending = some (.target blob n)) (known : target given s = some blob)
    (filled : Filled stream start s.mem s.taken blob n) (lt : n < blob.size) : Responds stream given start s where
  goesOn _ a := by
    rw [step_reads pending]
    rfl
  interrupts a s' hstep hint := by
    rw [step_reads pending, onWaitReadableOrError_interrupts (by simp) hint] at hstep
    cases hstep
    rfl
  waitFails a s' e hstep hgo herr := by
    rw [step_reads pending, onWaitReadableOrError_waitFails (by simp) hgo herr] at hstep
    cases hstep
    exact ⟨ends_finish rfl h.posted _, rfl, rfl, rfl⟩
  asks a s' hstep hready := by
    rw [step_reads pending, onWaitReadableOrError_reads hready] at hstep
    cases hstep
    rw [if_neg (by rw [pending]; simp), readInto_asked lt]
  empty a s' _ _ hpending := by
    rw [pending] at hpending
    cases hpending
  modeFails a s' e _ _ hpending := by
    rw [pending] at hpending
    cases hpending
  reads a s' hstep htries := by
    rw [step_reads pending, onWaitReadableOrError_reads htries.ready] at hstep
    cases hstep
    have hn : s.taken - start.taken = n := by
      rw [filled.taken_eq, Nat.add_sub_cancel_left]
    refine ⟨blob, (target_readInto lt _).trans known, ?_⟩
    rw [hn]
    exact afterRead_readInto (s := { s with pending := none }) rfl h.posted lt _

/-- What comes of each step, wherever the operation is. -/
theorem Sound.responds (h : Sound stream given start s) : Responds stream given start s := by
  have hgoes : s.posted = [] → s.interrupted = false → Goes stream given start { s with pending := none } :=
    fun hposted hgoesOn => ⟨⟨h.noFailure, h.tells, h.asked, h.unread, h.filled⟩, rfl, hposted, hgoesOn⟩
  have hover : s.pending = none → Responds stream given start s := by
    intro hpending
    have hnot : ¬ s.pending.isSome := by rw [hpending]; exact Bool.false_ne_true
    have hno : ∀ a s', s.step stream a ≠ some s' := fun a s' hstep => hnot (pending_isSome_of_step hstep)
    exact ⟨fun hsome => absurd hsome hnot, fun a s' hstep => absurd hstep (hno a s'),
      fun a s' _ hstep => absurd hstep (hno a s'), fun a s' hstep => absurd hstep (hno a s'),
      fun a s' hstep => absurd hstep (hno a s'), fun a s' _ hstep => absurd hstep (hno a s'),
      fun a s' hstep => absurd hstep (hno a s')⟩
  cases h.phase with
  | asks pending unknown posted goesOn => exact (hgoes posted goesOn).responds_targetTbd pending unknown
  | reads pending known filled lt posted goesOn =>
    exact (hgoes posted goesOn).responds_target pending known filled lt
  | done pending => exact hover pending
  | interrupted pending => exact hover pending

/-- Where an operation goes on it has tried to read. -/
theorem Sound.tries_of_goesOn (h : Sound stream given start s) (hstep : s.step stream a = some s')
    (hon : s'.pending.isSome) : Tries s a := by
  have hresponds := h.responds
  have hends : ∀ {err : ErrorCode}, ¬ s'.Ends err := by
    rintro err ⟨hpending, -⟩
    rw [hpending] at hon
    cases hon
  have hgo : a.shouldInterrupt = false := by
    by_contra hint
    rw [hresponds.interrupts a s' hstep (by simpa using hint)] at hon
    cases hon
  have hready : a.asyncErrCode = none := by
    rcases herr : a.asyncErrCode with _ | e
    · rfl
    · exact absurd (hresponds.waitFails a s' e hstep hgo herr).1 hends
  refine ⟨⟨hgo, hready⟩, fun hpending => ?_⟩
  have hsize : a.targetPayloadBlob.size ≠ 0 := fun hzero =>
    hends (hresponds.empty a s' hstep ⟨hgo, hready⟩ hpending hzero).1
  refine ⟨hsize, fun hmode => ?_⟩
  rcases herr : a.nonBlockingErr with _ | e
  · rfl
  · exact absurd (hresponds.modeFails a s' e hstep ⟨hgo, hready⟩ hpending hsize hmode herr).1 hends

/-- As long as it goes on, the end of a wait brings a byte, or it is would-block. -/
theorem Sound.step_reads_on (h : Sound stream given start s) (hstep : s.step stream a = some s')
    (hon : s'.pending.isSome) : s.taken ≤ s'.taken ∧ (a.readSome ≠ .wouldBlock → s.taken < s'.taken) := by
  obtain ⟨blob, -, hafter⟩ := h.responds.reads a s' hstep (h.tries_of_goesOn hstep hon)
  cases hres : a.readSome with
  | got k =>
    rw [hres] at hafter
    obtain ⟨htaken, hnext⟩ := hafter
    split at hnext
    · rw [hnext.1] at hon
      cases hon
    · exact ⟨by omega, fun _ => by omega⟩
  | wouldBlock =>
    rw [hres] at hafter
    exact ⟨Nat.le_of_eq hafter.2.2.symm, fun hno => absurd rfl hno⟩
  | failed e =>
    rw [hres] at hafter
    rw [hafter.1.1] at hon
    cases hon

/-- So as long as it goes on no more waits have ended otherwise than bytes have been read. -/
theorem Sound.run_reads {mem : ℕ → UInt8} {taken : ℕ} {nonBlocking : Bool}
    (hgiven : ∀ blob ∈ given, blob.size ≠ 0)
    (hrun : Run (fun s a t => ReadOp.step stream s a = some t) (.start given mem taken nonBlocking) as s) :
    Sound stream given (.start given mem taken nonBlocking) s ∧
      (s.pending.isSome → taken + as.countP (·.readSome ≠ .wouldBlock) ≤ s.taken) := by
  refine hrun.history (P := fun as s => Sound stream given (.start given mem taken nonBlocking) s ∧
    (s.pending.isSome → taken + as.countP (·.readSome ≠ .wouldBlock) ≤ s.taken)) ?_ ⟨sound_start hgiven, ?_⟩
  · rintro as s a s' ⟨hsound, hle⟩ hstep
    refine ⟨hsound.step hstep, fun hon => ?_⟩
    obtain ⟨hkept, hmore⟩ := hsound.step_reads_on hstep hon
    have hcount := hle (pending_isSome_of_step hstep)
    rw [List.countP_append, List.countP_singleton]
    split
    · rename_i hmoves
      have hlt := hmore (of_decide_eq_true hmoves)
      omega
    · omega
  · intro _
    cases given with
    | none => exact Nat.le_refl _
    | some blob => exact Nat.le_refl _

end ReadOp

/-! ## In every run -/

/-- **A write moves exactly the handle and the blob**; each event does what it should, and but for would-block
there are no more of them than bytes before the end. -/
def WritesExactly : Prop :=
  ∀ (payloadHndl : ℕ) (payloadBlob : SocketStream.Blob) (es : List WriteOp.Event) (s : WriteOp), payloadBlob ≠ [] →
    Run (fun s e t => WriteOp.step s e = some t) (.asyncWriteWithNativeHandle payloadHndl payloadBlob) es s →
    s.Exact payloadHndl payloadBlob ∧ s.Responds payloadHndl payloadBlob ∧
      (s.pending.isSome → es.countP (·.Moves) ≤ s.bytes.length)

/-- **A read fills exactly the target**; the end of each wait does what it should, and but for would-block no more
waits end than bytes are read, before the end. -/
def ReadsExactly : Prop :=
  ∀ (stream : ℕ → UInt8) (given : Option BlobMutable) (mem : ℕ → UInt8) (taken : ℕ) (nonBlocking : Bool)
    (as : List Answers) (s : ReadOp), (∀ blob ∈ given, blob.size ≠ 0) →
    Run (fun s a t => ReadOp.step stream s a = some t) (.start given mem taken nonBlocking) as s →
    ReadOp.Exact stream given (.start given mem taken nonBlocking) s ∧
      ReadOp.Responds stream given (.start given mem taken nonBlocking) s ∧
        (s.pending.isSome → taken + as.countP (·.readSome ≠ .wouldBlock) ≤ s.taken)

/-- **The stubborn transfers move exactly the target.** -/
theorem transfers_exactly : WritesExactly ∧ ReadsExactly := by
  constructor
  · intro payloadHndl payloadBlob es s hne hrun
    obtain ⟨hsound, hmoves⟩ := WriteOp.Sound.run_moves hne hrun
    exact ⟨hsound.exact, hsound.responds hne, hmoves⟩
  · intro stream given mem taken nonBlocking as s hgiven hrun
    obtain ⟨hsound, hreads⟩ := ReadOp.Sound.run_reads hgiven hrun
    exact ⟨hsound.exact, hsound.responds, hreads⟩

/-- Three bytes go out with a handle, after the socket would block once: one with the handle, then the rest. -/
def writeSample : List WriteOp.Event :=
  [.writable (.failed ⟨eagain, eagain_ne_zero⟩), .writable (.sent 0), .writes 0, .writes 4, .writeEnds none]

/-- Two bytes come in, for a target at 100 that is asked for; between them the socket would block. -/
def readSample : List Answers :=
  [⟨false, none, ⟨100, 2⟩, none, .got 0⟩, ⟨false, none, ⟨0, 0⟩, none, .wouldBlock⟩,
    ⟨false, none, ⟨0, 0⟩, none, .got 7⟩]

/-- Both are runs, which end with success. -/
theorem transfers_exactly_sample :
    (∃ s, Run (fun s e t => WriteOp.step s e = some t) (.asyncWriteWithNativeHandle 5 [1, 2, 3]) writeSample s ∧
      s.posted = [none] ∧ WriteOp.Exact 5 [1, 2, 3] s) ∧
      ∃ s, Run (fun s a t => ReadOp.step (fun _ => 9) s a = some t) (.start none (fun _ => 0) 0 false) readSample s ∧
        s.posted = [(none, some ⟨100, 2⟩)] ∧
          ReadOp.Exact (fun _ => 9) none (.start none (fun _ => 0) 0 false) s := by
  constructor
  · have hrun : Run (fun s e t => WriteOp.step s e = some t) (.asyncWriteWithNativeHandle 5 [1, 2, 3])
        writeSample _ := Run.of_foldlM rfl
    exact ⟨_, hrun, rfl, (transfers_exactly.1 5 [1, 2, 3] writeSample _ (by decide) hrun).1⟩
  · have hrun : Run (fun s a t => ReadOp.step (fun _ => 9) s a = some t) (.start none (fun _ => 0) 0 false)
        readSample _ := Run.of_foldlM rfl
    exact ⟨_, hrun, rfl, (transfers_exactly.2 (fun _ => 9) none (fun _ => 0) 0 false readSample _ nofun hrun).1⟩

end FlowIpc.AsioSocket
