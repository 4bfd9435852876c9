import FlowIpc.SocketStream.Frames
import Mathlib.Tactic.SplitIfs

/-!
# What a stream of cells means to a receiver

Read from the start, whatever it is that comes in, a stream of cells gives each request its result, one
after the other (`serve`). The first two bytes, the handle that came with the first of them, and the
request decide it (`nextResult`); a ping decides nothing, and a message can be too short so far.

What comes in later does not change a result (`nextResult_append`, `serve_append_prefix`).

Source: `sync_io/detail/native_socket_stream_impl_rcv.cpp` `rcv_read_msg`, `rcv_on_handle_finalized`,
`rcv_on_head_payload`, `rcv_read_blob`.
-/

namespace FlowIpc.SocketStream

/-- What a request asks for. -/
structure Request where
  /-- A handle can be received, not only a blob. -/
  hndlWanted : Bool
  /-- The size of the target for the blob. -/
  size : Nat
  deriving DecidableEq

/-- The result of a request. -/
inductive Answer where
  /-- A message. -/
  | message (hndl : NativeHandle) (blob : Blob)
  /-- An error. -/
  | failed (e : Err)
  deriving DecidableEq

/-- The result of a request and, after a message, what is left of the stream. -/
inductive Decision where
  /-- A message. -/
  | message (hndl : NativeHandle) (blob : Blob) (left : List Cell)
  /-- An error. -/
  | failed (e : Err)
  deriving DecidableEq

/-- The two bytes of a first payload as a number. -/
def lengthOf (c d : Cell) : Nat :=
  LittleEndian.decode [c.byte, d.byte]

/-- The bytes that follow a first payload: those of a blob, unless it is a ping. -/
def blobLength (v : Nat) : Nat :=
  if v = metaBlobLengthPingSentinel then 0 else v

/-- The result that a stream gives a request, if it is decided. -/
def nextResult (q : Request) : List Cell → Option Decision
  | [] => none
  | [c] =>
    if c.hndl ≠ none ∧ q.hndlWanted = false then some (.failed (.code .blobReceiverGotNonBlob))
    else none
  | c :: d :: l =>
    if c.hndl ≠ none ∧ q.hndlWanted = false then some (.failed (.code .blobReceiverGotNonBlob))
    else if lengthOf c d = metaBlobLengthPingSentinel then nextResult q l
    else if lengthOf c d = 0 then
      if c.hndl ≠ none then some (.message c.hndl [] l)
      else some (.failed (.code .receivesFinishedCannotReceive))
    else if q.size < lengthOf c d then some (.failed (.code .messageSizeExceedsUserStorage))
    else if l.length < lengthOf c d then none
    else some (.message c.hndl ((l.take (lengthOf c d)).map Cell.byte) (l.drop (lengthOf c d)))

/-- The results that a stream gives some requests, as far as they are decided. An error is that of all
the requests from then on. -/
def serve : List Request → List Cell → List Answer
  | [], _ => []
  | q :: qs, l =>
    match nextResult q l with
    | none => []
    | some (.message hndl blob left) => .message hndl blob :: serve qs left
    | some (.failed e) => .failed e :: qs.map fun _ => .failed e

/-- Handles come with first bytes of first payloads only; of those with bytes of blobs no one takes
notice. -/
inductive HndlsFirst : List Cell → Prop where
  /-- Nothing has come in. -/
  | nil : HndlsFirst []
  /-- One byte has. -/
  | single (c : Cell) : HndlsFirst [c]
  /-- A first payload has, and more. -/
  | head (c d : Cell) (l : List Cell) (hndl : d.hndl = none)
      (rest : HndlsFirst (l.drop (blobLength (lengthOf c d)))) : HndlsFirst (c :: d :: l)

/-- A first payload with its blob, or what there is of it, and the rest. -/
theorem hndlsFirst_cons {c d : Cell} {l : List Cell} :
    HndlsFirst (c :: d :: l) ↔
      d.hndl = none ∧ HndlsFirst (l.drop (blobLength (lengthOf c d))) := by
  constructor
  · intro h
    cases h with
    | head _ _ _ hndl rest => exact ⟨hndl, rest⟩
  · rintro ⟨hndl, rest⟩
    exact .head c d l hndl rest

/-- What is left of a stream after the whole payloads and blobs at its start.
Nothing else of it says where a receiver is that has read it. -/
def unfinished : List Cell → List Cell
  | c :: d :: l =>
    if l.length < blobLength (lengthOf c d) then c :: d :: l
    else unfinished (l.drop (blobLength (lengthOf c d)))
  | l => l
termination_by l => l.length
decreasing_by
  rw [List.length_drop, List.length_cons, List.length_cons]
  omega

/-- What is left of all that has come in, the version included, which comes first. -/
def midst (taken : List Cell) : List Cell :=
  if taken.length < 2 then taken else unfinished (taken.drop 2)

/-! ## What comes in later -/

variable {q : Request} {c d : Cell} {l : List Cell} {r : Decision}

/-- A message whose blob has not come along is not finished. -/
theorem unfinished_of_lt (h : l.length < blobLength (lengthOf c d)) :
    unfinished (c :: d :: l) = c :: d :: l := by
  rw [unfinished, if_pos h]

/-- What comes after one that is finished is looked at next. -/
theorem unfinished_of_le (h : blobLength (lengthOf c d) ≤ l.length) :
    unfinished (c :: d :: l) = unfinished (l.drop (blobLength (lengthOf c d))) := by
  rw [unfinished, if_neg (Nat.not_lt.mpr h)]

@[simp] theorem unfinished_nil : unfinished [] = [] := by
  rw [unfinished]
  simp

@[simp] theorem unfinished_single : unfinished [c] = [c] := by
  rw [unfinished]
  simp

/-- What has been read whole does not matter for what is read then. -/
theorem unfinished_append (l more : List Cell) :
    unfinished (l ++ more) = unfinished (unfinished l ++ more) := by
  induction l using unfinished.induct with
  | case1 c d l hlt => rw [unfinished_of_lt hlt]
  | case2 c d l hle ih =>
      have hle := Nat.not_lt.mp hle
      rw [unfinished_of_le hle, ← ih, List.cons_append, List.cons_append, unfinished_of_le,
        List.drop_append_of_le_length hle]
      rw [List.length_append]
      omega
  | case3 l hne =>
      rw [unfinished.eq_2 _ hne]

/-- A first payload that can be accepted, and what it decides. -/
theorem nextResult_of_fits (h : ¬ (c.hndl ≠ none ∧ q.hndlWanted = false)) :
    nextResult q (c :: d :: l) =
      if lengthOf c d = metaBlobLengthPingSentinel then nextResult q l
      else if lengthOf c d = 0 then
        if c.hndl ≠ none then some (.message c.hndl [] l)
        else some (.failed (.code .receivesFinishedCannotReceive))
      else if q.size < lengthOf c d then some (.failed (.code .messageSizeExceedsUserStorage))
      else if l.length < lengthOf c d then none
      else some (.message c.hndl ((l.take (lengthOf c d)).map Cell.byte)
        (l.drop (lengthOf c d))) := by
  rw [nextResult, if_neg h]

/-- A handle that was not wanted is found with the first byte. -/
theorem nextResult_of_nonBlob (h : c.hndl ≠ none ∧ q.hndlWanted = false) :
    nextResult q (c :: l) = some (.failed (.code .blobReceiverGotNonBlob)) := by
  cases l with
  | nil => rw [nextResult, if_pos h]
  | cons d l => rw [nextResult, if_pos h]

/-- A result with more of a stream. -/
def Decision.append : Decision → List Cell → Decision
  | .message hndl blob left, more => .message hndl blob (left ++ more)
  | .failed e, _ => .failed e

/-- What is decided stays so. -/
theorem nextResult_append (h : nextResult q l = some r) (more : List Cell) :
    nextResult q (l ++ more) = some (r.append more) := by
  induction hn : l.length using Nat.strong_induction_on generalizing l with
  | _ n ih =>
    subst hn
    rcases l with _ | ⟨c, l⟩
    · cases h
    · by_cases hnon : c.hndl ≠ none ∧ q.hndlWanted = false
      · rw [nextResult_of_nonBlob hnon] at h
        cases h
        rw [List.cons_append, nextResult_of_nonBlob hnon]
        rfl
      · rcases l with _ | ⟨d, l⟩
        · rw [nextResult, if_neg hnon] at h
          cases h
        · rw [nextResult_of_fits hnon] at h
          rw [List.cons_append, List.cons_append, nextResult_of_fits hnon]
          have hlonger : l.length ≤ (l ++ more).length := by simp
          have hshorter : l.length < (c :: d :: l).length := Nat.lt_succ_of_lt (Nat.lt_succ_self _)
          split_ifs at h ⊢ with hping hzero hhndl hsize hmore hlen hlen
          · exact ih l.length hshorter h rfl
          · cases h
            rfl
          · cases h
            rfl
          · cases h
            rfl
          · omega
          · cases h
            have hle := Nat.not_lt.mp hlen
            rw [List.take_append_of_le_length hle, List.drop_append_of_le_length hle]
            rfl

/-- What comes in later leaves the results that have been decided. -/
theorem serve_append_prefix (qs : List Request) (l more : List Cell) :
    serve qs l <+: serve qs (l ++ more) := by
  induction qs generalizing l with
  | nil => exact List.prefix_rfl
  | cons q qs ih =>
      rw [serve, serve]
      cases h : nextResult q l with
      | none => exact List.nil_prefix
      | some r =>
          rw [nextResult_append h more]
          cases r with
          | message hndl blob left =>
              exact List.prefix_cons_inj _ |>.mpr (ih left)
          | failed e => exact List.prefix_rfl

end FlowIpc.SocketStream
