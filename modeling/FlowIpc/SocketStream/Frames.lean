import FlowIpc.Lib.PrefixCode
import FlowIpc.SocketStream.Snd

/-!
# What a sender puts on its socket

Seen from the socket, a sender sends its version and then *frames*: messages, pings and the graceful
close. A frame is some cells, and the frames form a prefix code (`isPrefixCode_enc`), so that cells
read off the socket say which frames they are of. (The version is told from a frame by its place only.)

`Out.Carries o told` says that the cells sent and those still queued are exactly those of the frames
told, or, after an error, that no more was sent than these and a proper part of the next one. Each
low-level function is inverted once (`syncWriteOrQPayload_cases`, `drain_cases`), and keeps `Carries`.
-/

namespace FlowIpc.SocketStream

open PrefixCode

/-! ## Frames -/

/-- A message: a handle, if any, and a blob, not both null and within the limit. -/
structure Msg where
  /-- The handle. -/
  hndl : NativeHandle
  /-- The blob. -/
  blob : Blob
  ne_nothing : hndl ≠ none ∨ blob ≠ []
  length_le : blob.length ≤ maxMetaBlobLength
  deriving DecidableEq

/-- What a sender can tell its receiver, the version apart. -/
inductive Frame where
  /-- A message of the user's. -/
  | msg (m : Msg)
  /-- A ping. -/
  | ping
  /-- The graceful close. -/
  | endSending
  deriving DecidableEq

namespace Frame

/-- The handle and the two bytes of the first payload. -/
def head : Frame → NativeHandle × Nat
  | msg m => (m.hndl, m.blob.length)
  | ping => (none, metaBlobLengthPingSentinel)
  | endSending => (none, 0)

/-- The second payload, if any. -/
def tail : Frame → Blob
  | msg m => m.blob
  | ping => []
  | endSending => []

/-- The cells of a frame. -/
def enc (f : Frame) : List Cell :=
  cells f.head.1 (lengthBytes f.head.2) ++ cells none f.tail

/-- The message of a frame, if it is one. -/
def msg? : Frame → Option Msg
  | msg m => some m
  | _ => none

/-- The head of a frame fits into two bytes. -/
theorem head_lt (f : Frame) : f.head.2 < 2 ^ 16 := by
  cases f with
  | msg m =>
      have := m.length_le
      simp only [head, maxMetaBlobLength, metaBlobLengthPingSentinel] at this ⊢
      omega
  | ping => simp [head, metaBlobLengthPingSentinel]
  | endSending => simp [head]

/-- The two bytes give the length back. -/
theorem decode_lengthBytes {n : Nat} (h : n < 2 ^ 16) : LittleEndian.decode (lengthBytes n) = n :=
  LittleEndian.decode_encode_of_lt (by simpa using h)

/-- A frame is told by its first payload and its blob. -/
theorem eq_of_head_tail {f g : Frame} (hhead : f.head = g.head) (htail : f.tail = g.tail) :
    f = g := by
  cases f with
  | msg m =>
      cases g with
      | msg m' =>
          obtain ⟨h, b, _, _⟩ := m
          obtain ⟨h', b', _, _⟩ := m'
          simp only [head, tail, Prod.mk.injEq] at hhead htail
          obtain ⟨rfl, -⟩ := hhead
          subst htail
          rfl
      | ping =>
          have := m.length_le
          simp [head, metaBlobLengthPingSentinel] at hhead
          simp only [maxMetaBlobLength, metaBlobLengthPingSentinel] at this
          omega
      | endSending =>
          simp only [head, Prod.mk.injEq, List.length_eq_zero_iff] at hhead
          rcases m.ne_nothing with hne | hne
          · exact absurd hhead.1 hne
          · exact absurd hhead.2 hne
  | ping =>
      cases g with
      | msg m' =>
          have := m'.length_le
          simp [head, metaBlobLengthPingSentinel] at hhead
          simp only [maxMetaBlobLength, metaBlobLengthPingSentinel] at this
          omega
      | ping => rfl
      | endSending => simp [head, metaBlobLengthPingSentinel] at hhead
  | endSending =>
      cases g with
      | msg m' =>
          simp only [head, Prod.mk.injEq] at hhead
          rcases m'.ne_nothing with hne | hne
          · exact absurd hhead.1.symm hne
          · exact absurd (List.length_eq_zero_iff.mp hhead.2.symm) hne
      | ping => simp [head, metaBlobLengthPingSentinel] at hhead
      | endSending => rfl

/-- The first payload says how long the second is. -/
theorem length_tail (f : Frame) :
    f.tail.length = if f.head.2 = metaBlobLengthPingSentinel then 0 else f.head.2 := by
  cases f with
  | msg m =>
      have hle := m.length_le
      have hne : m.blob.length ≠ metaBlobLengthPingSentinel := by
        simp only [maxMetaBlobLength, metaBlobLengthPingSentinel] at hle ⊢
        omega
      simp [tail, head, hne]
  | ping => simp [tail, head]
  | endSending => simp [tail, head, metaBlobLengthPingSentinel]

/-- First payloads can be told apart. -/
theorem head_eq_of_cells {f g : Frame}
    (h : cells f.head.1 (lengthBytes f.head.2) = cells g.head.1 (lengthBytes g.head.2)) :
    f.head = g.head := by
  have hbytes : lengthBytes f.head.2 = lengthBytes g.head.2 := by
    simpa using congrArg (List.map Cell.byte) h
  have hlen : f.head.2 = g.head.2 := by
    rw [← decode_lengthBytes f.head_lt, hbytes, decode_lengthBytes g.head_lt]
  have hhndl : f.head.1 = g.head.1 := by
    simpa [lengthBytes, LittleEndian.encode, cells] using congrArg (List.map Cell.hndl) h
  exact Prod.ext hhndl hlen

/-- Frames can be told apart by their cells. -/
theorem isPrefixCode_enc : IsPrefixCode enc where
  ne_nil f := by
    intro h
    have hhead := (List.append_eq_nil_iff.mp h).1
    exact lengthBytes_ne_nil _ (cells_eq_nil.mp hhead)
  eq_of_prefix f g h := by
    have hhead : f.head = g.head := by
      apply head_eq_of_cells
      have hboth := List.prefix_or_prefix_of_prefix ((List.prefix_append _ _).trans h)
        (List.prefix_append (cells g.head.1 (lengthBytes g.head.2)) (cells none g.tail))
      rcases hboth with hpre | hpre
      · exact hpre.eq_of_length (by simp)
      · exact (hpre.eq_of_length (by simp)).symm
    unfold enc at h
    rw [hhead, List.prefix_append_right_inj] at h
    have htail : cells none f.tail = cells none g.tail := by
      apply h.eq_of_length
      rw [length_cells, length_cells, length_tail, length_tail, hhead]
    exact eq_of_head_tail hhead (by simpa using congrArg (List.map Cell.byte) htail)

end Frame

/-- The messages among some frames. -/
def msgs (fs : List Frame) : List Msg :=
  fs.filterMap Frame.msg?

@[simp] theorem msgs_nil : msgs [] = [] := rfl

/-- The messages of two lists of frames are those of the one and then those of the other. -/
@[simp] theorem msgs_append (fs gs : List Frame) : msgs (fs ++ gs) = msgs fs ++ msgs gs :=
  List.filterMap_append

/-- First frames have the first messages. -/
theorem msgs_mono {fs gs : List Frame} (h : fs <+: gs) : msgs fs <+: msgs gs := by
  obtain ⟨rest, rfl⟩ := h
  rw [msgs_append]
  exact List.prefix_append _ _

/-! ## The wire -/

/-- The cells of the version. -/
def verCells : List Cell :=
  cells none (lengthBytes 1)

/-- The version is two bytes. -/
@[simp] theorem length_verCells : verCells.length = 2 := by
  simp [verCells]

/-- The cells of what has been told: nothing, or the version and then some frames. -/
def wire : Option (List Frame) → List Cell
  | none => []
  | some fs => verCells ++ stream Frame.enc fs

/-- Proper first parts of what may be told next. -/
def Short : Option (List Frame) → List Cell → Prop
  | none, l => l <+: verCells ∧ l ≠ verCells
  | some _, l => ∃ f : Frame, l <+: f.enc ∧ l ≠ f.enc

/-- No bytes are no frame. -/
theorem short_nil (told : Option (List Frame)) : Short told [] := by
  cases told with
  | none => exact ⟨List.nil_prefix, by decide⟩
  | some fs => exact ⟨.ping, List.nil_prefix, by decide⟩

/-- One more frame adds its cells. -/
theorem wire_snoc (fs : List Frame) (f : Frame) :
    wire (some (fs ++ [f])) = wire (some fs) ++ f.enc := by
  rw [wire, wire, stream_append, stream_singleton, List.append_assoc]

/-! ## Cells read -/

/-- The frames told, or read. -/
def frames (told : Option (List Frame)) : List Frame :=
  told.getD []

/-- What has been read is a first part of what has been told. -/
def Within : Option (List Frame) → Option (List Frame) → Prop
  | none, _ => True
  | some _, none => False
  | some ds, some fs => ds <+: fs

/-- What is within has a prefix of the frames. -/
theorem Within.frames_prefix {done told : Option (List Frame)} (h : Within done told) :
    frames done <+: frames told := by
  cases done with
  | none => exact List.nil_prefix
  | some ds =>
      cases told with
      | none => exact h.elim
      | some fs => exact h

/-- What a sender has put on its socket: what it has told, but for a last part that it has queued, or
that with a first part of the next frame. -/
structure OnWire where
  /-- What it has told. -/
  told : Option (List Frame)
  /-- The cells. -/
  sent : List Cell
  sent_le : ∃ l, Short told l ∧ sent <+: wire told ++ l

/-- A frame is its first payload and its blob. -/
theorem Frame.length_enc (f : Frame) : f.enc.length = 2 + f.tail.length := by
  simp [Frame.enc]

/-- The bytes behind the first payload are those of the blob. -/
theorem Frame.map_drop_enc (f : Frame) : (f.enc.drop 2).map Cell.byte = f.tail := by
  rw [Frame.enc, List.drop_left' (by simp), map_byte_cells]

/-- The first cells read are those of the version, which has been told if they are all of it. -/
theorem next_version {told : Option (List Frame)} {l p : List Cell} (hl : Short told l)
    (h : p <+: wire told ++ l) (hlen : p.length ≤ 2) :
    p <+: verCells ∧ (p = verCells → ∃ fs, told = some fs) := by
  cases told with
  | none =>
      obtain ⟨hver, hne⟩ := hl
      have hpl : p <+: l := h
      refine ⟨hpl.trans hver, fun heq => ?_⟩
      have hvl : verCells <+: l := heq ▸ hpl
      exact absurd (hver.eq_of_length_le hvl.length_le) hne
  | some fs =>
      rw [wire, List.append_assoc] at h
      exact ⟨List.prefix_of_prefix_length_le h (List.prefix_append _ _) (by simpa using hlen),
        fun _ => ⟨fs, rfl⟩⟩

/-- Cells read after some whole frames are of the next, which has been told if they are all of it. -/
theorem next_frame {ds fs : List Frame} {l p : List Cell} (hl : Short (some fs) l)
    (hds : ds <+: fs) (h : wire (some ds) ++ p <+: wire (some fs) ++ l) :
    ∃ f : Frame, (p <+: f.enc ∨ f.enc <+: p) ∧ (f.enc <+: p → ds ++ [f] <+: fs) := by
  obtain ⟨rest, rfl⟩ := hds
  rw [wire, wire, stream_append, List.append_assoc, List.append_assoc, List.append_assoc,
    List.prefix_append_right_inj, List.prefix_append_right_inj] at h
  cases rest with
  | nil =>
      obtain ⟨f, hlf, hne⟩ := hl
      have hpl : p <+: l := h
      refine ⟨f, .inl (hpl.trans hlf), fun hfp => ?_⟩
      exact absurd (hlf.eq_of_length_le (hfp.trans hpl).length_le) hne
  | cons f rest =>
      rw [stream_cons, List.append_assoc] at h
      refine ⟨f, List.prefix_or_prefix_of_prefix h (List.prefix_append _ _), fun _ => ?_⟩
      rw [List.prefix_append_right_inj]
      exact (List.prefix_cons_inj f).mpr List.nil_prefix

/-- Two cells of a frame are its first payload. -/
theorem Frame.take_two {f : Frame} {p : List Cell} (h : p <+: f.enc ∨ f.enc <+: p)
    (hp : 2 ≤ p.length) : p.take 2 = cells f.head.1 (lengthBytes f.head.2) := by
  have htake : f.enc.take 2 = cells f.head.1 (lengthBytes f.head.2) := by
    rw [Frame.enc, List.take_left' (by simp)]
  rw [← htake]
  rcases h with h | h
  · exact h.take 2 |>.eq_of_length (by simp [hp, f.length_enc])
  · exact (h.take 2 |>.eq_of_length (by simp [hp, f.length_enc])).symm

/-- They tell its handle and its length. -/
theorem Frame.head_of_prefix {f : Frame} {p : List Cell} {hndl : NativeHandle} {bytes : Blob}
    (h : p <+: f.enc ∨ f.enc <+: p) (hp : p.take 2 = cells hndl bytes) (hlen : bytes.length = 2) :
    f.head = (hndl, LittleEndian.decode bytes) := by
  have hp2 : 2 ≤ p.length := by
    have := congrArg List.length hp
    rw [List.length_take, length_cells, hlen] at this
    omega
  have heq : cells f.head.1 (lengthBytes f.head.2) = cells hndl bytes := by
    rw [← Frame.take_two h hp2, hp]
  have hbytes : lengthBytes f.head.2 = bytes := by
    simpa using congrArg (List.map Cell.byte) heq
  have hhndl : f.head.1 = hndl := by
    subst hbytes
    simpa [lengthBytes, LittleEndian.encode, cells] using congrArg (List.map Cell.hndl) heq
  refine Prod.ext hhndl ?_
  rw [← hbytes, decode_lengthBytes f.head_lt]

/-- Cells of a frame that are as many as the frame's are the frame's. -/
theorem Frame.eq_enc_of_length {f : Frame} {p : List Cell} (h : p <+: f.enc ∨ f.enc <+: p)
    (hlen : p.length = 2 + f.tail.length) : p = f.enc := by
  rw [← f.length_enc] at hlen
  rcases h with h | h
  · exact h.eq_of_length hlen
  · exact (h.eq_of_length hlen.symm).symm

/-- The length that is a ping's. -/
theorem Frame.eq_ping_of_head {f : Frame} (h : f.head.2 = metaBlobLengthPingSentinel) :
    f = .ping := by
  cases f with
  | msg m =>
      have := m.length_le
      simp only [head, maxMetaBlobLength, metaBlobLengthPingSentinel] at h this
      omega
  | ping => rfl
  | endSending => simp [head, metaBlobLengthPingSentinel] at h

/-- Length 0 is that of a handle alone, or the graceful close, which has no handle. -/
theorem Frame.of_head_zero {f : Frame} (h : f.head.2 = 0) :
    (∃ m, f = .msg m ∧ m.blob = [] ∧ f.head.1 ≠ none) ∨ (f = .endSending ∧ f.head.1 = none) := by
  cases f with
  | msg m =>
      have hnil : m.blob = [] := List.length_eq_zero_iff.mp h
      exact .inl ⟨m, rfl, hnil, m.ne_nothing.resolve_right (not_not.mpr hnil)⟩
  | ping => simp [head, metaBlobLengthPingSentinel] at h
  | endSending => exact .inr ⟨rfl, rfl⟩

/-- A length that is neither 0 nor that of a ping is a message's. -/
theorem Frame.eq_msg_of_head {f : Frame} (h₀ : f.head.2 ≠ 0)
    (h₁ : f.head.2 ≠ metaBlobLengthPingSentinel) : ∃ m, f = .msg m := by
  cases f with
  | msg m => exact ⟨m, rfl⟩
  | ping => exact absurd rfl h₁
  | endSending => exact absurd rfl h₀

/-! ## Single writes -/

/-- The cells of the payloads queued. -/
def queued (q : List SndLowLvlPayload) : List Cell :=
  q.flatMap fun payload => cells payload.hndlOrNull payload.blob

@[simp] theorem queued_nil : queued [] = [] := rfl

@[simp] theorem queued_cons (payload : SndLowLvlPayload) (q : List SndLowLvlPayload) :
    queued (payload :: q) = cells payload.hndlOrNull payload.blob ++ queued q := rfl

namespace Out

/-- No assertion has failed, the error if any is one to report, and the socket is being waited for
exactly while payloads are queued and no error is known. -/
structure Ok (o : Out) : Prop where
  noFailure : o.assertFailed = false
  genuine : Genuine o.pendingErrCode
  evWaits_eq : o.evWaits = if o.pendingErrCode = none ∧ o.pendingPayloadsQ ≠ [] then 1 else 0

/-- The cells sent, and after them those queued. -/
def handed (o : Out) : List Cell :=
  o.peerSocket.sent ++ queued o.pendingPayloadsQ

variable {o o' : Out} {hndl : NativeHandle} {blob : Blob} {n : Nat} {avoid flushed : Bool}

/-- If nothing is held back nothing is waited for. -/
theorem Ok.evWaits_of_nil (h : o.Ok) (hq : o.pendingPayloadsQ = []) : o.evWaits = 0 := by
  rw [h.evWaits_eq, if_neg]
  rintro ⟨-, hne⟩
  exact hne hq

/-- What low-level writing does to a sender, whatever else: it stays sound, and only adds cells to the
socket. -/
structure Extends (o o' : Out) : Prop where
  ok : o'.Ok
  received_eq : o'.peerSocket.received = o.peerSocket.received
  sent_le : o.peerSocket.sent <+: o'.peerSocket.sent

/-- What is put out by one step after the other is put out by both. -/
theorem Extends.trans {o'' : Out} (h : o.Extends o') (h' : o'.Extends o'') : o.Extends o'' where
  ok := h'.ok
  received_eq := h'.received_eq.trans h.received_eq
  sent_le := h.sent_le.trans h'.sent_le

/-- To do nothing puts nothing out. -/
theorem Ok.extends_refl (h : o.Ok) : o.Extends o :=
  ⟨h, rfl, List.prefix_rfl⟩

/-- Asking for the wait, where it was not yet asked for: the socket may turn out to have been put
away. -/
theorem asyncWriteQHeadPayload_cases (hfail : o.assertFailed = false)
    (hq : o.pendingPayloadsQ ≠ []) (herr : o.pendingErrCode = none) (hw : o.evWaits = 0) :
    o.Extends o.asyncWriteQHeadPayload ∧
      o.asyncWriteQHeadPayload.pendingPayloadsQ = o.pendingPayloadsQ ∧
      o.asyncWriteQHeadPayload.peerSocket.sent = o.peerSocket.sent := by
  unfold asyncWriteQHeadPayload
  rw [assert_of hq]
  simp only
  rw [assert_of herr]
  split
  · refine ⟨⟨⟨hfail, by simp [herr], by simp [herr, hq, hw]⟩, by simp, by simp⟩, rfl, by simp⟩
  · refine ⟨⟨⟨hfail, by simp, by simp [hw]⟩, by simp, by simp⟩, rfl, by simp⟩

/-- The part of a payload that could not be written at once, as queued. -/
theorem queued_rest (hndl : NativeHandle) (blob : Blob) (n : Nat) :
    cells (if n = 0 then hndl else none) (blob.drop n) = (cells hndl blob).drop n := by
  split
  · rename_i hn
    rw [hn]
    rfl
  · rename_i hn
    exact (drop_cells hndl hn blob).symm

/-- Queuing what is left of a payload. -/
theorem queuePayload_cases (hok : o.Ok) (herr : o.pendingErrCode = none)
    (hhndl : avoid = true → hndl = none)
    (h : o.queuePayload hndl blob n avoid = (flushed, o')) :
    o.Extends o' ∧ o'.peerSocket.sent = o.peerSocket.sent ∧
      ((avoid = true ∧ n = 0 ∧ flushed = decide (o.pendingPayloadsQ = []) ∧ o' = o) ∨
        (o'.pendingPayloadsQ ≠ [] ∧
          queued o'.pendingPayloadsQ = queued o.pendingPayloadsQ ++ (cells hndl blob).drop n ∧
          (o'.pendingErrCode = none ∧ flushed = false ∨
            o'.pendingErrCode.isSome ∧ flushed = true ∧ o.pendingPayloadsQ = []))) := by
  unfold queuePayload at h
  have hassert : (if avoid = true then o.assert (hndl = none) else o) = o := by
    split
    · rename_i havoid
      rw [assert_of (hhndl havoid)]
    · rfl
  simp only [hassert] at h
  split at h
  · rename_i hdrop
    cases h
    exact ⟨hok.extends_refl, rfl, .inl ⟨hdrop.1, hdrop.2, rfl, rfl⟩⟩
  · let new : SndLowLvlPayload := ⟨if n = 0 then hndl else none, blob.drop n⟩
    have hnew : ∀ q : List SndLowLvlPayload,
        queued (q ++ [new]) = queued q ++ (cells hndl blob).drop n := by
      intro q
      rw [queued, List.flatMap_append, ← queued_rest]
      simp [new, queued]
    cases hq : o.pendingPayloadsQ with
    | nil =>
        have hw := hok.evWaits_of_nil hq
        simp only [hq, List.nil_append, List.length_singleton, if_true] at h
        cases h
        obtain ⟨hext, hq', hsent⟩ := asyncWriteQHeadPayload_cases
          (o := { o with pendingPayloadsQ := [new] }) hok.noFailure (by simp) herr hw
        refine ⟨⟨hext.ok, hext.received_eq, hext.sent_le⟩, hsent, .inr ⟨?_, ?_, ?_⟩⟩
        · rw [hq']
          simp
        · rw [hq']
          exact hnew []
        · cases herr' : (asyncWriteQHeadPayload { o with pendingPayloadsQ := [new] }).pendingErrCode with
          | none => exact .inl ⟨rfl, rfl⟩
          | some e => exact .inr ⟨rfl, rfl, rfl⟩
    | cons payload q =>
        have hw := hok.evWaits_eq
        rw [herr, hq] at hw
        simp only [hq, List.cons_append, List.length_cons, List.length_append] at h
        rw [if_neg (by simp), assert_of herr] at h
        cases h
        refine ⟨⟨⟨hok.noFailure, hok.genuine, ?_⟩, rfl, List.prefix_rfl⟩, rfl, .inr ⟨?_, ?_, .inl ?_⟩⟩
        · simpa [herr] using hw
        · simp
        · exact hnew (payload :: q)
        · exact ⟨herr, rfl⟩

/-- The three things that writing or queuing a payload can come to; `flushed` is what the caller is
told. -/
inductive PayloadOutcome (o : Out) (hndl : NativeHandle) (blob : Blob) (avoid flushed : Bool)
    (o' : Out) : Prop where
  /-- Not all of it could be written, and the rest never will. -/
  | failed (err : o'.pendingErrCode.isSome) (flushed : flushed = true)
      (before : o.pendingPayloadsQ = [])
      (sent : ∃ l, l <+: cells hndl blob ∧ l ≠ cells hndl blob ∧
        o'.peerSocket.sent = o.peerSocket.sent ++ l)
  /-- It was written, or queued behind the others if there are any. -/
  | written (err : o'.pendingErrCode = none)
      (flushed : flushed = decide (o'.pendingPayloadsQ = []))
      (handed : o'.handed = o.handed ++ cells hndl blob)
      (before : o'.pendingPayloadsQ = [] → o.pendingPayloadsQ = [])
  /-- It was dropped, as the caller allows. -/
  | dropped (avoid : avoid = true) (err : o'.pendingErrCode = none)
      (queue : o'.pendingPayloadsQ = o.pendingPayloadsQ)
      (sent : o'.peerSocket.sent = o.peerSocket.sent)

/-- A part of a payload that leaves something over is a proper one. -/
theorem take_ne_cells (hn : n ≠ blob.length) (hle : n ≤ blob.length) :
    (cells hndl blob).take n ≠ cells hndl blob := by
  intro heq
  have hlen := congrArg List.length heq
  rw [List.length_take, length_cells, Nat.min_eq_left hle] at hlen
  exact hn hlen

/-- `queuePayload_cases`, as seen from before the attempt to write. -/
theorem payloadOutcome_of_queuePayload {p : Out} (hext : o.Extends p)
    (herr : p.pendingErrCode = none) (hq : p.pendingPayloadsQ = o.pendingPayloadsQ)
    (hsent : p.peerSocket.sent = o.peerSocket.sent ++ (cells hndl blob).take n)
    (hn : n ≤ blob.length) (hn' : n ≠ blob.length) (hnq : o.pendingPayloadsQ = [] ∨ n = 0)
    (hhndl : avoid = true → hndl = none)
    (h : p.queuePayload hndl blob n avoid = (flushed, o')) :
    o.Extends o' ∧ PayloadOutcome o hndl blob avoid flushed o' := by
  obtain ⟨hext', hsent', hcases⟩ := queuePayload_cases hext.ok herr hhndl h
  refine ⟨hext.trans hext', ?_⟩
  rcases hcases with ⟨havoid, rfl, -, rfl⟩ | ⟨hne, hqueued, ⟨herr', hfl⟩ | ⟨herr', hfl, hnil⟩⟩
  · exact .dropped havoid herr hq (by simpa using hsent)
  · refine .written herr' ?_ ?_ fun hnil => absurd hnil hne
    · rw [hfl]
      simpa using hne
    · rw [handed, handed, hqueued, hsent', hsent, hq]
      rcases hnq with hnil | rfl
      · rw [hnil]
        simp [queued]
      · simp
  · refine .failed herr' hfl (hq ▸ hnil) ⟨_, List.take_prefix n _, take_ne_cells hn' hn, ?_⟩
    rw [hsent', hsent]

/-- What writing or queuing a payload does to a sound sender. -/
theorem syncWriteOrQPayload_cases (hok : o.Ok) (herr : o.pendingErrCode = none) (hblob : blob ≠ [])
    (hhndl : avoid = true → hndl = none)
    (h : o.syncWriteOrQPayload hndl blob avoid = (flushed, o')) :
    o.Extends o' ∧ PayloadOutcome o hndl blob avoid flushed o' := by
  have hzero : 0 ≠ blob.length := by
    intro hlen
    exact hblob (List.length_eq_zero_iff.mp hlen.symm)
  unfold syncWriteOrQPayload at h
  rw [assert_of herr] at h
  simp only at h
  split at h
  · rename_i hq
    rcases hwrite : o.peerSocket.sndNbWriteLowLvlPayload hndl blob with ⟨n, err, p⟩
    rw [hwrite] at h
    obtain ⟨hrcvd, hle, hsent, hgen, hzero'⟩ := PeerSocket.sndNbWrite_cases hwrite
    have hw := hok.evWaits_of_nil hq
    have hok' : ({ o with peerSocket := p, pendingErrCode := err } : Out).Ok :=
      ⟨hok.noFailure, hgen, by simp [hw, hq]⟩
    have hext : o.Extends { o with peerSocket := p, pendingErrCode := err } := by
      refine ⟨hok', hrcvd, ?_⟩
      rw [hsent]
      exact List.prefix_append _ _
    simp only at h
    split at h
    · rename_i hsome
      obtain ⟨rfl, -⟩ := hzero' hsome
      rw [assert_of rfl] at h
      cases h
      refine ⟨hext, .failed hsome rfl hq ⟨[], List.nil_prefix, ?_, by simpa using hsent⟩⟩
      intro heq
      exact hblob (cells_eq_nil.mp heq.symm)
    · rename_i hnone
      have hnone : err = none := by simpa using hnone
      split at h
      · rename_i hfull
        cases h
        refine ⟨hext, .written hnone (by simp [hq]) ?_ fun _ => hq⟩
        rw [hfull, List.take_of_length_le (by simp)] at hsent
        simp [handed, hq, queued, hsent]
      · rename_i hpart
        exact payloadOutcome_of_queuePayload hext hnone rfl hsent hle hpart (.inl hq) hhndl h
  · exact payloadOutcome_of_queuePayload hok.extends_refl herr rfl (by simp) (Nat.zero_le _) hzero
      (.inr rfl) hhndl h

/-! ## The writable event -/

/-- What the writable event's loop does: it moves cells from the head of the queue to the end of what
was sent, and a failure leaves some. -/
theorem drain_cases {p p' : PeerSocket} {q q' : List SndLowLvlPayload} {err : ErrorCode}
    (h : drain p q = (p', q', err)) :
    p'.received = p.received ∧ p.sent <+: p'.sent ∧ p'.sent ++ queued q' = p.sent ++ queued q ∧
      (err.isSome → q' ≠ []) ∧ Genuine err := by
  induction q generalizing p with
  | nil =>
      cases h
      exact ⟨rfl, List.prefix_rfl, rfl, by simp, by simp⟩
  | cons payload q ih =>
      rw [drain] at h
      rcases hwrite : p.sndNbWriteLowLvlPayload payload.hndlOrNull payload.blob with ⟨n, err₁, p₁⟩
      rw [hwrite] at h
      obtain ⟨hrcvd, hle, hsent, hgen, hzero⟩ := PeerSocket.sndNbWrite_cases hwrite
      have hpre : p.sent <+: p₁.sent := by
        rw [hsent]
        exact List.prefix_append _ _
      cases err₁ with
      | some e =>
          obtain ⟨rfl, -⟩ := hzero rfl
          cases h
          exact ⟨hrcvd, hpre, by simp [hsent], by simp, hgen⟩
      | none =>
          simp only at h
          split at h
          · rename_i hfull
            obtain ⟨hrcvd', hpre', hhanded, herr⟩ := ih h
            refine ⟨hrcvd'.trans hrcvd, hpre.trans hpre', ?_, herr⟩
            rw [hfull, List.take_of_length_le (by simp)] at hsent
            rw [hhanded, hsent, List.append_assoc]
            rfl
          · split at h
            · rename_i hpart
              cases h
              refine ⟨hrcvd, hpre, ?_, by simp, by simp⟩
              rw [queued_cons, queued_cons, hsent, ← drop_cells payload.hndlOrNull hpart,
                List.append_assoc, ← List.append_assoc (List.take _ _), List.take_append_drop]
            · rename_i hnot
              have hn : n = 0 := by simpa using hnot
              cases h
              exact ⟨hrcvd, hpre, by simp [hsent, hn], by simp, by simp⟩

/-! ## Frames over cells -/

/-- The sender has put on its socket, or holds back, the cells of what was told and no others. -/
structure Carries (o : Out) (told : Option (List Frame)) : Prop where
  ok : o.Ok
  /-- Also after an error nothing but first cells were sent, and the next frame not whole. -/
  sent_le : ∃ l, Short told l ∧ o.peerSocket.sent <+: wire told ++ l
  /-- Without an error every cell was sent or is queued. -/
  handed_eq : o.pendingErrCode = none → o.handed = wire told

variable {told : Option (List Frame)} {fs : List Frame}

/-- Sent cells are the first of those handed over. -/
theorem carries_of_handed (hok : o.Ok) (h : o.handed = wire told) : o.Carries told where
  ok := hok
  sent_le := by
    refine ⟨[], short_nil told, ?_⟩
    rw [List.append_nil, ← h]
    exact List.prefix_append _ _
  handed_eq _ := h

/-- After a write that failed before the next frame was whole. -/
theorem carries_of_short (hok : o.Ok) (herr : o.pendingErrCode.isSome) {l : List Cell}
    (hl : Short told l) (h : o.peerSocket.sent <+: wire told ++ l) : o.Carries told where
  ok := hok
  sent_le := ⟨l, hl, h⟩
  handed_eq hnone := by simp [hnone] at herr

/-- With an empty queue everything was sent. -/
theorem Carries.sent_eq (hc : o.Carries told) (herr : o.pendingErrCode = none)
    (hq : o.pendingPayloadsQ = []) : o.peerSocket.sent = wire told := by
  rw [← hc.handed_eq herr, handed, hq, queued_nil, List.append_nil]

/-- The version is written, or its write fails. -/
theorem Carries.version (hc : o.Carries none) (herr : o.pendingErrCode = none)
    (h : o.syncWriteOrQPayload none (lengthBytes 1) false = (flushed, o')) :
    o.Extends o' ∧ ((o'.pendingErrCode.isSome ∧ o'.Carries none) ∨
      (o'.pendingErrCode = none ∧ o'.Carries (some []))) := by
  obtain ⟨hext, hout⟩ :=
    syncWriteOrQPayload_cases hc.ok herr (lengthBytes_ne_nil 1) (fun _ => rfl) h
  refine ⟨hext, ?_⟩
  cases hout with
  | failed herr' _ hq hsent =>
      obtain ⟨l, hpre, hne, hsent⟩ := hsent
      refine .inl ⟨herr', carries_of_short hext.ok herr' (l := l) ⟨hpre, hne⟩ ?_⟩
      rw [hsent, hc.sent_eq herr hq]
  | written herr' _ hhanded _ =>
      refine .inr ⟨herr', carries_of_handed hext.ok ?_⟩
      rw [hhanded, hc.handed_eq herr, wire, wire, stream_nil, List.append_nil]
      rfl
  | dropped havoid => cases havoid

/-- A frame of one payload is written, or its write fails; a ping may be dropped. -/
theorem Carries.single (hc : o.Carries (some fs)) (herr : o.pendingErrCode = none) {f : Frame}
    (hhead : f.head.1 = none) (htail : f.tail = [])
    (h : o.syncWriteOrQPayload none (lengthBytes f.head.2) avoid = (flushed, o')) :
    o.Extends o' ∧
      ((o'.pendingErrCode.isSome ∧ flushed = true ∧ o'.Carries (some fs)) ∨
        (o'.pendingErrCode = none ∧ flushed = decide (o'.pendingPayloadsQ = []) ∧
          o'.Carries (some (fs ++ [f]))) ∨
        (avoid = true ∧ o'.pendingErrCode = none ∧ o'.Carries (some fs))) := by
  have henc : f.enc = cells none (lengthBytes f.head.2) := by
    rw [Frame.enc, hhead, htail]
    exact List.append_nil _
  obtain ⟨hext, hout⟩ :=
    syncWriteOrQPayload_cases hc.ok herr (lengthBytes_ne_nil _) (fun _ => rfl) h
  refine ⟨hext, ?_⟩
  cases hout with
  | failed herr' hfl hq hsent =>
      obtain ⟨l, hpre, hne, hsent⟩ := hsent
      rw [← henc] at hpre hne
      refine .inl ⟨herr', hfl, carries_of_short hext.ok herr' (l := l) ⟨f, hpre, hne⟩ ?_⟩
      rw [hsent, hc.sent_eq herr hq]
  | written herr' hfl hhanded _ =>
      refine .inr (.inl ⟨herr', hfl, carries_of_handed hext.ok ?_⟩)
      rw [hhanded, hc.handed_eq herr, ← henc, wire_snoc]
  | dropped havoid herr' hq hsent =>
      refine .inr (.inr ⟨havoid, herr', carries_of_handed hext.ok ?_⟩)
      rw [handed, hq, hsent]
      exact hc.handed_eq herr

/-- A message is written, in its two payloads if it has a blob, or its write fails. -/
theorem Carries.msg (hc : o.Carries (some fs)) (herr : o.pendingErrCode = none) (m : Msg)
    (h : o.sendLowLvlPayloads m.hndl m.blob = o') :
    o.Extends o' ∧ ((o'.pendingErrCode.isSome ∧ o'.Carries (some fs)) ∨
      (o'.pendingErrCode = none ∧ o'.Carries (some (fs ++ [.msg m])))) := by
  have henc : (Frame.msg m).enc = cells m.hndl (lengthBytes m.blob.length) ++ cells none m.blob :=
    rfl
  unfold sendLowLvlPayloads at h
  rcases h₁ : o.syncWriteOrQPayload m.hndl (lengthBytes m.blob.length) false with ⟨fl, p⟩
  simp only [h₁] at h
  obtain ⟨hext, hout⟩ :=
    syncWriteOrQPayload_cases hc.ok herr (lengthBytes_ne_nil _) (by simp) h₁
  cases hout with
  | dropped havoid => cases havoid
  | failed herr₁ _ hq hsent =>
      obtain ⟨l, hpre, hne, hsent⟩ := hsent
      rw [if_neg (by simp [Option.ne_none_iff_isSome.mpr herr₁])] at h
      subst h
      refine ⟨hext, .inl ⟨herr₁, carries_of_short hext.ok herr₁ (l := l) ⟨.msg m, ?_, ?_⟩ ?_⟩⟩
      · rw [henc]
        exact hpre.trans (List.prefix_append _ _)
      · intro heq
        rw [henc] at heq
        have hle := hpre.length_le
        have hlen := congrArg List.length heq
        rw [List.length_append] at hlen
        exact hne (hpre.eq_of_length (by omega))
      · rw [hsent, hc.sent_eq herr hq]
  | written herr₁ _ hhanded hbefore =>
      rw [hc.handed_eq herr] at hhanded
      split at h
      · rename_i hblob
        have hne : m.blob ≠ [] := by
          intro hnil
          exact hblob.1 (List.length_eq_zero_iff.mpr hnil)
        rcases h₂ : p.syncWriteOrQPayload none m.blob false with ⟨fl₂, p₂⟩
        simp only [h₂] at h
        subst h
        obtain ⟨hext₂, hout₂⟩ :=
          syncWriteOrQPayload_cases hext.ok herr₁ hne (fun _ => rfl) h₂
        refine ⟨hext.trans hext₂, ?_⟩
        cases hout₂ with
        | dropped havoid => cases havoid
        | failed herr₂ _ hq hsent =>
            obtain ⟨l, hpre, hne', hsent⟩ := hsent
            -- The queue was empty after the first payload, so that payload has been sent.
            have hsent₁ : p.peerSocket.sent =
                wire (some fs) ++ cells m.hndl (lengthBytes m.blob.length) := by
              rw [← hhanded, handed, hq, queued_nil, List.append_nil]
            refine .inl ⟨herr₂, carries_of_short hext₂.ok herr₂
              (l := cells m.hndl (lengthBytes m.blob.length) ++ l) ⟨.msg m, ?_, ?_⟩ ?_⟩
            · rw [henc, List.prefix_append_right_inj]
              exact hpre
            · rw [henc, Ne, List.append_cancel_left_eq]
              exact hne'
            · rw [hsent, hsent₁, List.append_assoc]
        | written herr₂ _ hhanded₂ _ =>
            refine .inr ⟨herr₂, carries_of_handed hext₂.ok ?_⟩
            rw [hhanded₂, hhanded, wire_snoc, henc, List.append_assoc]
      · rename_i hnone
        have hnil : m.blob = [] := by
          by_contra hne
          exact hnone ⟨by simpa using hne, herr₁⟩
        subst h
        refine ⟨hext, .inr ⟨herr₁, carries_of_handed hext.ok ?_⟩⟩
        rw [hhanded, wire_snoc, henc, cells_eq_nil.mpr hnil, List.append_nil]

end Out

end FlowIpc.SocketStream
