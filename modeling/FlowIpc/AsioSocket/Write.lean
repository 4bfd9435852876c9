import FlowIpc.Lib.Transition
import FlowIpc.SocketStream.Socket

/-!
# Writing a handle and a blob, stubbornly

`async_write_with_native_handle()` waits for the socket to be writable, tries `sendmsg()`, and waits again if
that would block. What `sendmsg()` has not taken of the blob is left to boost.asio's `async_write()`, for the
handle is on its way by then. Each function that goes on later is given what it needs by value, so that what is
to be done next is all in `WriteCont`.

boost.asio's `async_write()` is taken to write all: it writes some first part of what is left, again and again,
and is done when nothing is left or a write has failed.

* `WriteOp.Sound` is what holds at any time: what the kernel has accepted and what is left make up the blob, the
  handle went with the first write, and the handler is posted when nothing goes on any more.
* `WriteOp.Exact` is what the user is told of it (`Sound.exact`).
* `WriteOp.Responds` is what comes of each event (`Sound.responds`): none is ignored but would-block, so that as
  long as the operation goes on each other event has sent a byte (`Sound.run_moves`), and it comes to an end.

Source: `asio_local_stream_socket.hpp` `async_write_with_native_handle`; `asio_local_stream_socket.cpp`
`nb_write_some_with_native_handle`; `detail/asio_local_stream_socket.hpp` `on_wait_writable_or_error`.
-/

namespace FlowIpc.AsioSocket

open Lts SocketStream

/-! ## Would-block -/

/-- `EAGAIN`; `EWOULDBLOCK` is the same in Linux. -/
def eagain : ℕ := 11

/-- It is an error. -/
theorem eagain_ne_zero : eagain ≠ 0 := by decide

/-- `boost::asio::error::would_block` -/
abbrev asioWouldBlock : Err := .system eagain

/-- An error that is not would-block: there are no others that a wait, or an operation that waits, may come to. -/
abbrev FatalErr := {e : Err // e ≠ asioWouldBlock}

/-! ## One write -/

/-- What `sendmsg()` returns. -/
inductive SendmsgResult where
  /-- Up to this many bytes, and one more, have been taken. -/
  | sent (n : ℕ)
  /-- -1, and this is `errno`. -/
  | failed (errno : {n : ℕ // n ≠ 0})
  deriving DecidableEq

/-- `nb_write_some_with_native_handle()`: what it returns, and `*err_code`.
Source: `asio_local_stream_socket.cpp` `nb_write_some_with_native_handle` -/
def nbWriteSomeWithNativeHandle (payloadBlob : Blob) : SendmsgResult → ℕ × ErrorCode
  | .sent n => (min (n + 1) payloadBlob.length, none)
  | .failed errno => if errno = eagain then (0, some asioWouldBlock) else (0, some (.system errno))

/-- What the kernel has taken then.
Source: `asio_local_stream_socket.cpp` `nb_write_some_with_native_handle` -/
def sendmsgTakes (payloadHndl : ℕ) (payloadBlob : Blob) : SendmsgResult → List (NativeHandle × Blob)
  | .sent n => [(some payloadHndl, payloadBlob.take (n + 1))]
  | .failed _ => []

/-! ## The operation -/

/-- What is to be done next. -/
inductive WriteCont where
  /-- `on_wait_writable_or_error()`, when the socket is writable. -/
  | waitWritable (payloadHndl : ℕ) (payloadBlob : Blob)
  /-- `async_write()`, with this left to write. -/
  | asyncWrite (payloadBlob : Blob)
  deriving DecidableEq

/-- An operation. -/
structure WriteOp where
  /-- What goes on. -/
  pending : Option WriteCont
  /-- The writes that the kernel has accepted, each with the handle that went with it. -/
  accepted : List (NativeHandle × Blob)
  /-- What `on_sent_or_error()` has been posted with, each time. -/
  posted : List ErrorCode
  /-- Some assertion has failed. -/
  assertFailed : Bool
  deriving DecidableEq

namespace WriteOp

/-- `assert(p)` -/
def assert (s : WriteOp) (p : Prop) [Decidable p] : WriteOp :=
  { s with assertFailed := s.assertFailed || !decide p }

/-- An assertion that holds leaves no trace. -/
@[simp] theorem assert_of {s : WriteOp} {p : Prop} [Decidable p] (h : p) : s.assert p = s := by
  simp [assert, h]

/-- `post()` with `on_sent_or_error()` -/
def post (s : WriteOp) (err : ErrorCode) : WriteOp :=
  { s with posted := s.posted ++ [err] }

/-- `async_write_with_native_handle()`; the handle is not null.
Source: `asio_local_stream_socket.hpp` `async_write_with_native_handle` -/
def asyncWriteWithNativeHandle (payloadHndl : ℕ) (payloadBlob : Blob) : WriteOp :=
  WriteOp.assert ⟨some (.waitWritable payloadHndl payloadBlob), [], [], false⟩ (payloadBlob.length ≠ 0)

/-- `on_wait_writable_or_error()`, where `sendmsg()`, if it is called, returns `res`.
Source: `detail/asio_local_stream_socket.hpp` `on_wait_writable_or_error` -/
def onWaitWritableOrError (s : WriteOp) (sysErrCode : ErrorCode) (payloadHndl : ℕ) (payloadBlob : Blob)
    (res : SendmsgResult) : WriteOp :=
  if sysErrCode.isSome then s.post sysErrCode
  else
    let (nSentOrZero, nbErrCode) := nbWriteSomeWithNativeHandle payloadBlob res
    let s := { s with accepted := s.accepted ++ sendmsgTakes payloadHndl payloadBlob res }
    if nSentOrZero = 0 then
      if nbErrCode = some asioWouldBlock then
        { s with pending := some (.waitWritable payloadHndl payloadBlob) }
      else (s.assert (nbErrCode.isSome)).post nbErrCode
    else
      let payloadBlob := payloadBlob.drop nSentOrZero
      if payloadBlob.length = 0 then s.post none
      else { s with pending := some (.asyncWrite payloadBlob) }

/-- What happens to the operation. -/
inductive Event where
  /-- The wait is over, with an error. -/
  | waitFails (e : FatalErr)
  /-- The socket is writable, it is said; and `sendmsg()` then returns this. -/
  | writable (res : SendmsgResult)
  /-- `async_write()` writes up to this many bytes, and one more. -/
  | writes (n : ℕ)
  /-- `async_write()` is done: nothing is left, or a write has failed. -/
  | writeEnds (err : Option FatalErr)
  deriving DecidableEq

/-- One step; `none` if it is not what can happen next.
Source: `asio_local_stream_socket.hpp`, `detail/asio_local_stream_socket.hpp` -/
def step (s : WriteOp) (e : Event) : Option WriteOp :=
  let s₀ := { s with pending := none }
  match s.pending, e with
  | some (.waitWritable hndl blob), .waitFails e => some (s₀.onWaitWritableOrError (some e) hndl blob (.sent 0))
  | some (.waitWritable hndl blob), .writable res => some (s₀.onWaitWritableOrError none hndl blob res)
  | some (.asyncWrite blob), .writes n =>
    if blob = [] then none
    else
      some { s with
        pending := some (.asyncWrite (blob.drop (n + 1)))
        accepted := s.accepted ++ [(none, blob.take (n + 1))] }
  | some (.asyncWrite blob), .writeEnds err =>
    if err = none ↔ blob = [] then some (s₀.post (err.map Subtype.val)) else none
  | _, _ => none

/-! ## What holds of it at any time -/

/-- The bytes that the kernel has accepted. -/
def bytes (s : WriteOp) : Blob := (s.accepted.map Prod.snd).flatten

/-- The handle went out with the first write, if there was any, and with the first byte, and with no other. -/
def HndlFirst (payloadHndl : ℕ) (l : List (NativeHandle × Blob)) : Prop :=
  ∃ b bs ws, l = (some payloadHndl, b :: bs) :: ws ∧ ∀ w ∈ ws, w.1 = none

/-- What the user is told, and what has been done. -/
structure Exact (payloadHndl : ℕ) (payloadBlob : Blob) (s : WriteOp) : Prop where
  /-- The handle is sent once, with the first byte. -/
  hndl : s.accepted = [] ∨ HndlFirst payloadHndl s.accepted
  /-- What has been sent is some first part of the blob. -/
  bytes_prefix : s.bytes <+: payloadBlob
  /-- While something goes on the handler has not been posted; and then it has, once. -/
  once : (s.pending.isSome ∧ s.posted = []) ∨ (s.pending = none ∧ ∃ err, s.posted = [err])
  /-- It is told of success exactly if all has been sent. -/
  success : ∀ err ∈ s.posted, err = none ↔ s.bytes = payloadBlob
  /-- It is not told of would-block. -/
  no_wouldBlock : some asioWouldBlock ∉ s.posted
  /-- No assertion has failed. -/
  noFailure : s.assertFailed = false

/-- What comes of each event. -/
structure Responds (payloadHndl : ℕ) (payloadBlob : Blob) (s : WriteOp) : Prop where
  /-- What goes on can: the wait may be over in any way; then what is left is written, or that fails; and when
  nothing is left that is said. -/
  goesOn : s.pending.isSome →
    if s.accepted = [] then (∀ e, (s.step (.waitFails e)).isSome) ∧ ∀ res, (s.step (.writable res)).isSome
    else if s.bytes = payloadBlob then (s.step (.writeEnds none)).isSome = true
    else (∀ n, (s.step (.writes n)).isSome) ∧ ∀ e, (s.step (.writeEnds (some e))).isSome
  /-- The wait fails: that is posted. -/
  waitFails : ∀ e s', s.step (.waitFails e) = some s' → s' = { s with pending := none, posted := [some e] }
  /-- Some bytes are taken: the handle goes with them. Success is posted if they are all, and else the rest is
  left to write. -/
  sent : ∀ n s', s.step (.writable (.sent n)) = some s' →
    s'.accepted = [(some payloadHndl, payloadBlob.take (n + 1))] ∧
      if payloadBlob.length ≤ n + 1 then s'.pending = none ∧ s'.posted = [none]
      else s'.pending.isSome ∧ s'.posted = []
  /-- `sendmsg()` fails, and not with would-block: that is posted. -/
  failed : ∀ errno s', errno.val ≠ eagain → s.step (.writable (.failed errno)) = some s' →
    s' = { s with pending := none, posted := [some (.system errno)] }
  /-- Would-block is neither progress nor failure: all is as before. -/
  wouldBlock : ∀ s', s.step (.writable (.failed ⟨eagain, eagain_ne_zero⟩)) = some s' → s' = s
  /-- Some of what is left is written. -/
  writes : ∀ n s', s.step (.writes n) = some s' → s'.pending.isSome ∧
    s'.accepted = s.accepted ++ [(none, (payloadBlob.drop s.bytes.length).take (n + 1))]
  /-- `async_write()` is done: that is posted. -/
  writeEnds : ∀ err s', s.step (.writeEnds err) = some s' →
    s' = { s with pending := none, posted := [err.map Subtype.val] }

/-- It is not that the socket would block after all. -/
def Event.Moves (e : Event) : Prop := e ≠ .writable (.failed ⟨eagain, eagain_ne_zero⟩)

instance : DecidablePred Event.Moves := fun _ => inferInstanceAs (Decidable (_ ≠ _))

/-- Where an operation is: to begin; with the handle sent; or done. -/
inductive Sound (payloadHndl : ℕ) (payloadBlob : Blob) : WriteOp → Prop where
  /-- Nothing has been sent. -/
  | waits : Sound payloadHndl payloadBlob ⟨some (.waitWritable payloadHndl payloadBlob), [], [], false⟩
  /-- The handle has been sent, and some of the blob. -/
  | writes {l : List (NativeHandle × Blob)} {left : Blob} (hndl : HndlFirst payloadHndl l)
      (sum : (l.map Prod.snd).flatten ++ left = payloadBlob) :
      Sound payloadHndl payloadBlob ⟨some (.asyncWrite left), l, [], false⟩
  /-- All has been sent. -/
  | succeeded {l : List (NativeHandle × Blob)} (hndl : HndlFirst payloadHndl l)
      (sum : (l.map Prod.snd).flatten = payloadBlob) : Sound payloadHndl payloadBlob ⟨none, l, [none], false⟩
  /-- Not all has been sent. -/
  | failed {l : List (NativeHandle × Blob)} {left : Blob} (hndl : l = [] ∨ HndlFirst payloadHndl l)
      (sum : (l.map Prod.snd).flatten ++ left = payloadBlob) (some_left : left ≠ []) {e : Err}
      (fatal : e ≠ asioWouldBlock) : Sound payloadHndl payloadBlob ⟨none, l, [some e], false⟩

variable {s s' : WriteOp} {payloadHndl : ℕ} {payloadBlob : Blob} {e : Event} {es : List Event}

/-- An operation is sound when it is started. -/
theorem sound_asyncWriteWithNativeHandle (hne : payloadBlob ≠ []) :
    Sound payloadHndl payloadBlob (asyncWriteWithNativeHandle payloadHndl payloadBlob) := by
  have hlen : payloadBlob.length ≠ 0 := fun h => hne (List.eq_nil_of_length_eq_zero h)
  rw [asyncWriteWithNativeHandle, assert_of hlen]
  exact .waits

/-- Later writes go without a handle. -/
theorem HndlFirst.append {l : List (NativeHandle × Blob)} (h : HndlFirst payloadHndl l) (bytes : Blob) :
    HndlFirst payloadHndl (l ++ [(none, bytes)]) := by
  obtain ⟨b, bs, ws, rfl, hws⟩ := h
  refine ⟨b, bs, ws ++ [(none, bytes)], rfl, fun w hw => ?_⟩
  rcases List.mem_append.1 hw with hw | hw
  · exact hws w hw
  · cases List.mem_singleton.1 hw
    rfl

/-- The first write that is accepted takes the handle. -/
theorem hndlFirst_take (hne : payloadBlob ≠ []) (n : ℕ) :
    HndlFirst payloadHndl [(some payloadHndl, payloadBlob.take (n + 1))] := by
  obtain ⟨b, bs, rfl⟩ := List.exists_cons_of_ne_nil hne
  exact ⟨b, bs.take n, [], rfl, nofun⟩

/-- `sendmsg()` takes some bytes, and the handle. -/
theorem onWaitWritableOrError_sent (hne : payloadBlob ≠ []) (n : ℕ) :
    onWaitWritableOrError ⟨none, [], [], false⟩ none payloadHndl payloadBlob (.sent n) =
      if payloadBlob.length ≤ n + 1 then ⟨none, [(some payloadHndl, payloadBlob.take (n + 1))], [none], false⟩
      else
        ⟨some (.asyncWrite (payloadBlob.drop (n + 1))), [(some payloadHndl, payloadBlob.take (n + 1))], [],
          false⟩ := by
  have hlen : payloadBlob.length ≠ 0 := fun h => hne (List.eq_nil_of_length_eq_zero h)
  have hpos : min (n + 1) payloadBlob.length ≠ 0 := by omega
  simp only [onWaitWritableOrError, nbWriteSomeWithNativeHandle, sendmsgTakes, Option.isSome_none,
    Bool.false_eq_true, if_false, if_neg hpos, List.nil_append, List.length_drop]
  by_cases hall : payloadBlob.length ≤ n + 1
  · rw [if_pos hall, if_pos (by omega)]
    rfl
  · rw [if_neg hall, if_neg (by omega), Nat.min_eq_left (by omega)]

/-- `sendmsg()` fails. -/
theorem onWaitWritableOrError_failed (errno : {n : ℕ // n ≠ 0}) :
    onWaitWritableOrError ⟨none, [], [], false⟩ none payloadHndl payloadBlob (.failed errno) =
      if errno = eagain then ⟨some (.waitWritable payloadHndl payloadBlob), [], [], false⟩
      else ⟨none, [], [some (.system errno)], false⟩ := by
  by_cases hblock : (errno : ℕ) = eagain
  · simp only [onWaitWritableOrError, nbWriteSomeWithNativeHandle, sendmsgTakes, Option.isSome_none,
      Bool.false_eq_true, if_false, if_pos hblock, if_true, List.nil_append]
  · have hfatal : Err.system errno ≠ asioWouldBlock := fun h => hblock (Err.system.inj h)
    have hsome : (some (Err.system errno)).isSome = true := rfl
    simp only [onWaitWritableOrError, nbWriteSomeWithNativeHandle, sendmsgTakes, Option.isSome_none,
      Bool.false_eq_true, if_false, if_neg hblock, if_true, Option.some.injEq, if_neg hfatal,
      List.nil_append, assert_of hsome]
    rfl

/-- What `sendmsg()` comes to: the handle and some of the blob are sent, would-block, or an error. -/
theorem sound_onWaitWritableOrError (hne : payloadBlob ≠ []) (res : SendmsgResult) :
    Sound payloadHndl payloadBlob
      (onWaitWritableOrError ⟨none, [], [], false⟩ none payloadHndl payloadBlob res) := by
  cases res with
  | sent n =>
    rw [onWaitWritableOrError_sent hne]
    split
    · rename_i hall
      refine .succeeded (hndlFirst_take hne n) ?_
      simpa using List.take_of_length_le hall
    · exact .writes (hndlFirst_take hne n) (by simp)
  | failed errno =>
    rw [onWaitWritableOrError_failed]
    split
    · exact .waits
    · rename_i hblock
      have hfatal : Err.system errno ≠ asioWouldBlock := fun h => hblock (Err.system.inj h)
      have hleft : (([] : List (NativeHandle × Blob)).map Prod.snd).flatten ++ payloadBlob = payloadBlob := rfl
      exact .failed (.inl rfl) hleft hne hfatal

/-- One step. -/
theorem Sound.step (h : s.Sound payloadHndl payloadBlob) (hne : payloadBlob ≠ [])
    (hstep : s.step e = some s') : s'.Sound payloadHndl payloadBlob := by
  cases h with
  | waits =>
    cases e with
    | waitFails e =>
      cases hstep
      have hleft : (([] : List (NativeHandle × Blob)).map Prod.snd).flatten ++ payloadBlob = payloadBlob := rfl
      exact .failed (.inl rfl) hleft hne e.property
    | writable res =>
      cases hstep
      exact sound_onWaitWritableOrError hne res
    | writes n => cases hstep
    | writeEnds err => cases hstep
  | @writes l left hndl sum =>
    cases e with
    | waitFails e => cases hstep
    | writable res => cases hstep
    | writes n =>
      simp only [WriteOp.step] at hstep
      split at hstep
      · cases hstep
      · cases hstep
        refine .writes (hndl.append _) ?_
        simpa using sum
    | writeEnds err =>
      simp only [WriteOp.step] at hstep
      split at hstep
      · rename_i hiff
        cases hstep
        cases err with
        | none =>
          cases hiff.1 rfl
          exact .succeeded hndl (by simpa using sum)
        | some e => exact .failed (.inr hndl) sum (fun hnil => nomatch hiff.2 hnil) e.property
      · cases hstep
  | succeeded hndl sum => cases hstep
  | failed hndl sum some_left fatal => cases hstep

/-- What the user is told. -/
theorem Sound.exact (h : s.Sound payloadHndl payloadBlob) : s.Exact payloadHndl payloadBlob := by
  cases h with
  | waits => exact ⟨.inl rfl, List.nil_prefix, .inl ⟨rfl, rfl⟩, nofun, nofun, rfl⟩
  | writes hndl sum => exact ⟨.inr hndl, ⟨_, sum⟩, .inl ⟨rfl, rfl⟩, nofun, nofun, rfl⟩
  | succeeded hndl sum =>
    refine ⟨.inr hndl, ⟨[], (List.append_nil _).trans sum⟩, .inr ⟨rfl, _, rfl⟩, fun err herr => ?_, ?_, rfl⟩
    · cases List.mem_singleton.1 herr
      exact iff_of_true rfl sum
    · simp
  | @failed l left hndl sum some_left e fatal =>
    refine ⟨hndl, ⟨left, sum⟩, .inr ⟨rfl, _, rfl⟩, fun err herr => ?_, ?_, rfl⟩
    · cases List.mem_singleton.1 herr
      refine iff_of_false nofun fun hall => some_left ?_
      rw [← hall, bytes] at sum
      exact List.append_right_eq_self.1 sum
    · simpa using Ne.symm fatal

/-- Would-block is neither progress nor failure: all is as before. -/
theorem step_wouldBlock (hstep : s.step (.writable (.failed ⟨eagain, eagain_ne_zero⟩)) = some s') : s' = s := by
  obtain ⟨pending, accepted, posted, assertFailed⟩ := s
  rcases pending with _ | ⟨hndl, blob⟩ | blob
  · cases hstep
  · cases hstep
    simp [onWaitWritableOrError, nbWriteSomeWithNativeHandle, sendmsgTakes]
  · cases hstep

/-- What is written first is not nothing. -/
theorem HndlFirst.ne_nil {l : List (NativeHandle × Blob)} (h : HndlFirst payloadHndl l) : l ≠ [] := by
  obtain ⟨b, bs, ws, rfl, -⟩ := h
  exact List.cons_ne_nil _ _

/-- What comes of an event that an operation waits for to begin. -/
theorem responds_waits (hne : payloadBlob ≠ []) :
    Responds payloadHndl payloadBlob ⟨some (.waitWritable payloadHndl payloadBlob), [], [], false⟩ where
  goesOn _ := by
    rw [if_pos rfl]
    exact ⟨fun _ => rfl, fun _ => rfl⟩
  waitFails e s' hstep := by
    cases hstep
    rfl
  sent n s' hstep := by
    cases hstep
    rw [onWaitWritableOrError_sent hne]
    split
    · exact ⟨rfl, rfl, rfl⟩
    · exact ⟨rfl, rfl, rfl⟩
  failed errno s' hfatal hstep := by
    cases hstep
    rw [onWaitWritableOrError_failed, if_neg hfatal]
  wouldBlock s' hstep := step_wouldBlock hstep
  writes n s' hstep := by cases hstep
  writeEnds err s' hstep := by cases hstep

/-- What comes of an event while the rest is being written. -/
theorem responds_writes {l : List (NativeHandle × Blob)} {left : Blob} (hndl : HndlFirst payloadHndl l)
    (sum : (l.map Prod.snd).flatten ++ left = payloadBlob) :
    Responds payloadHndl payloadBlob ⟨some (.asyncWrite left), l, [], false⟩ := by
  have hleft : left = payloadBlob.drop (l.map Prod.snd).flatten.length := by
    rw [← sum, List.drop_left]
  refine ⟨fun _ => ?_, fun e s' hstep => ?_, fun n s' hstep => ?_, fun errno s' _ hstep => ?_,
    fun s' hstep => step_wouldBlock hstep, fun n s' hstep => ?_, fun err s' hstep => ?_⟩
  · rw [if_neg hndl.ne_nil]
    split
    · rename_i hall
      have hnil : left = [] := by
        rw [← hall, bytes] at sum
        exact List.append_right_eq_self.1 sum
      rw [hnil]
      rfl
    · rename_i hmore
      have hne : left ≠ [] := by
        rintro rfl
        exact hmore ((List.append_nil _).symm.trans sum)
      refine ⟨fun n => ?_, fun e => ?_⟩
      · simp [WriteOp.step, hne]
      · simp [WriteOp.step, hne]
  · cases hstep
  · cases hstep
  · cases hstep
  · simp only [WriteOp.step] at hstep
    split at hstep
    · cases hstep
    · cases hstep
      rw [hleft]
      exact ⟨rfl, rfl⟩
  · simp only [WriteOp.step] at hstep
    split at hstep
    · cases hstep
      rfl
    · cases hstep

/-- When it is over there are no events. -/
theorem responds_done {l : List (NativeHandle × Blob)} {told : List ErrorCode} {failed : Bool} :
    Responds payloadHndl payloadBlob ⟨none, l, told, failed⟩ where
  goesOn hsome := by cases hsome
  waitFails e s' hstep := by cases hstep
  sent n s' hstep := by cases hstep
  failed errno s' _ hstep := by cases hstep
  wouldBlock s' hstep := by cases hstep
  writes n s' hstep := by cases hstep
  writeEnds err s' hstep := by cases hstep

/-- What comes of each event, wherever the operation is. -/
theorem Sound.responds (h : s.Sound payloadHndl payloadBlob) (hne : payloadBlob ≠ []) :
    s.Responds payloadHndl payloadBlob := by
  cases h with
  | waits => exact responds_waits hne
  | writes hndl sum => exact responds_writes hndl sum
  | succeeded => exact responds_done
  | failed => exact responds_done

/-- The bytes of one more write come after those before. -/
theorem bytes_of_accepted {hndl : NativeHandle} {b : Blob} (h : s'.accepted = s.accepted ++ [(hndl, b)]) :
    s'.bytes.length = s.bytes.length + b.length := by
  unfold bytes
  rw [h, List.map_append, List.flatten_append, List.length_append]
  simp

/-- Events are of an operation that goes on. -/
theorem pending_isSome_of_step (hstep : s.step e = some s') : s.pending.isSome := by
  obtain ⟨pending, accepted, posted, assertFailed⟩ := s
  cases pending with
  | none => cases hstep
  | some cont => rfl

/-- When the socket is to be writable nothing has been sent. -/
theorem Sound.accepted_eq_nil {res : SendmsgResult} (h : s.Sound payloadHndl payloadBlob)
    (hstep : s.step (.writable res) = some s') : s.accepted = [] := by
  cases h with
  | waits => rfl
  | writes => cases hstep
  | succeeded => cases hstep
  | failed => cases hstep

/-- When `async_write()` is to write there is something left. -/
theorem Sound.bytes_lt {n : ℕ} (h : s.Sound payloadHndl payloadBlob) (hstep : s.step (.writes n) = some s') :
    s.bytes.length < payloadBlob.length := by
  cases h with
  | waits => cases hstep
  | @writes l left hndl sum =>
    have hleft : left ≠ [] := by
      rintro rfl
      cases hstep
    have hpos := List.length_pos_iff.2 hleft
    have hsum := congrArg List.length sum
    rw [List.length_append] at hsum
    change (l.map Prod.snd).flatten.length < _
    omega
  | succeeded => cases hstep
  | failed => cases hstep

/-- As long as it goes on, an event sends a byte, or it is would-block. -/
theorem Sound.step_moves (h : s.Sound payloadHndl payloadBlob) (hne : payloadBlob ≠ [])
    (hstep : s.step e = some s') (hon : s'.pending.isSome) :
    s.bytes.length ≤ s'.bytes.length ∧ (e.Moves → s.bytes.length < s'.bytes.length) := by
  have hresponds := h.responds hne
  cases e with
  | waitFails e =>
    rw [hresponds.waitFails e s' hstep] at hon
    cases hon
  | writable res =>
    cases res with
    | sent n =>
      obtain ⟨haccepted, -⟩ := hresponds.sent n s' hstep
      have hadded : s'.accepted = s.accepted ++ [(some payloadHndl, payloadBlob.take (n + 1))] := by
        rw [haccepted, h.accepted_eq_nil hstep]
        rfl
      have hlen := bytes_of_accepted hadded
      have hpos := List.length_pos_iff.2 hne
      rw [List.length_take] at hlen
      exact ⟨by omega, fun _ => by omega⟩
    | failed errno =>
      by_cases hblock : errno.val = eagain
      · obtain rfl : errno = ⟨eagain, eagain_ne_zero⟩ := Subtype.ext hblock
        rw [hresponds.wouldBlock s' hstep]
        exact ⟨Nat.le_refl _, fun hmoves => absurd rfl hmoves⟩
      · rw [hresponds.failed errno s' hblock hstep] at hon
        cases hon
  | writes n =>
    obtain ⟨-, haccepted⟩ := hresponds.writes n s' hstep
    have hlen := bytes_of_accepted haccepted
    have hless := h.bytes_lt hstep
    rw [List.length_take, List.length_drop] at hlen
    exact ⟨by omega, fun _ => by omega⟩
  | writeEnds err =>
    rw [hresponds.writeEnds err s' hstep] at hon
    cases hon

/-- So as long as it goes on there have been no more such events than bytes sent. -/
theorem Sound.run_moves (hne : payloadBlob ≠ [])
    (hrun : Run (fun s e t => WriteOp.step s e = some t) (asyncWriteWithNativeHandle payloadHndl payloadBlob) es s) :
    s.Sound payloadHndl payloadBlob ∧ (s.pending.isSome → es.countP (·.Moves) ≤ s.bytes.length) := by
  refine hrun.history (P := fun es s => s.Sound payloadHndl payloadBlob ∧
    (s.pending.isSome → es.countP (·.Moves) ≤ s.bytes.length)) ?_ ⟨sound_asyncWriteWithNativeHandle hne, ?_⟩
  · rintro es s e s' ⟨hsound, hle⟩ hstep
    refine ⟨hsound.step hne hstep, fun hon => ?_⟩
    obtain ⟨hkept, hmore⟩ := hsound.step_moves hne hstep hon
    have hcount := hle (pending_isSome_of_step hstep)
    rw [List.countP_append, List.countP_singleton]
    split
    · rename_i hmoves
      have hlt := hmore (of_decide_eq_true hmoves)
      omega
    · omega
  · intro _
    exact Nat.zero_le _

end WriteOp

end FlowIpc.AsioSocket
