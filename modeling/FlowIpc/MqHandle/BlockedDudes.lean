import FlowIpc.MqHandle.BipcMqHandle
import Mathlib.Data.BitVec

/-!
# The blocked dudes of a `bipc::message_queue`

Each process that waits for a `bipc::message_queue` is counted in the header of the queue, which is in shared
memory: in `m_blocked_senders` or `m_blocked_receivers`. Whoever sends or receives notifies only if the counter
is not 0. `wait_impl()` counts itself as the queue's own blocking calls do, by hand, around a loop that is left
in several places.

* `checkThenWait` and `afterWait` are the two stretches of `wait_impl()` in which it has the mutex: before it
  waits, and each time it has woken up. In between, and before and after, others may have it (`OthersAct`), and
  do to the header what they do; they add to the counters and take from them, whatever is in these.
* `withoutCall` is what the header would be if only the others had been there.
* `waitImpl_balanced`: at any time that others may see it the header is just that; with one more dude, and
  nothing else, exactly while the call is inside the wait.

`BipcMqHandle` counts only the dudes of one handle; its `waitImpl` takes these stretches too
(`waitImpl_checkThenWait`, `waitImpl_afterWait`).

Source: `bipc_mq_handle.cpp` `wait_impl`.
-/

namespace FlowIpc.MqHandle

open Lts

variable {ρ : Type}

/-! ## The header -/

/-- The header of a queue. Its numbers are `size_t`.
Source: `bipc_mq_handle.cpp` `wait_impl`, `Bipc_mq_hdr` -/
structure BipcMqHdr (ρ : Type) where
  /-- `m_max_num_msg` -/
  maxNumMsg : BitVec 64
  /-- `m_cur_num_msg` -/
  curNumMsg : BitVec 64
  /-- `m_blocked_senders` -/
  blockedSenders : BitVec 64
  /-- `m_blocked_receivers` -/
  blockedReceivers : BitVec 64
  /-- What else there is in it. -/
  rest : ρ
  deriving DecidableEq

namespace BipcMqHdr

/-- So many blocked dudes are added; `-1` takes one off.
Source: `bipc_mq_handle.cpp` `wait_impl`, `blocked_dudes` -/
def add (d : Dir) (n : BitVec 64) (hdr : BipcMqHdr ρ) : BipcMqHdr ρ :=
  match d with
  | .snd => { hdr with blockedSenders := hdr.blockedSenders + n }
  | .rcv => { hdr with blockedReceivers := hdr.blockedReceivers + n }

/-- `is_starved_func()` -/
def isStarved (d : Dir) (hdr : BipcMqHdr ρ) : Bool :=
  match d with
  | .snd => hdr.curNumMsg == hdr.maxNumMsg
  | .rcv => hdr.curNumMsg == 0

variable {d : Dir} {hdr : BipcMqHdr ρ}

/-- To add nothing changes nothing. -/
@[simp] theorem add_zero : hdr.add d 0 = hdr := by
  cases d with
  | snd => simp [add]
  | rcv => simp [add]

/-- Two additions come to one of the sum. -/
@[simp] theorem add_add {m n : BitVec 64} : (hdr.add d m).add d n = hdr.add d (m + n) := by
  cases d with
  | snd => simp only [add, BitVec.add_assoc]
  | rcv => simp only [add, BitVec.add_assoc]

end BipcMqHdr

/-! ## The stretches with the mutex -/

/-- What a stretch of `wait_impl()` with the mutex ends in. -/
inductive Stretch where
  /-- It waits on the condition variable, and the mutex is let go. -/
  | waits
  /-- `interrupted = true`, and the lambda has returned. -/
  | interrupted
  /-- `not_starved` has been set, and the lambda has returned. -/
  | done (notStarved : Bool)
  /-- An exception has left the lambda: one of the library's, or else another. -/
  | threw (e : Option BipcException)
  deriving DecidableEq

/-- `wait_impl<WAIT_TYPE, SND_ELSE_RCV>()` when it has taken the mutex.
Source: `bipc_mq_handle.cpp` `wait_impl` -/
def checkThenWait (w : WaitType) (d : Dir) (interrupting : Bool) (hdr : BipcMqHdr ρ) : Stretch × BipcMqHdr ρ :=
  if interrupting then (.interrupted, hdr)
  else if hdr.isStarved d then
    if w = .poll then (.done false, hdr)
    else (.waits, hdr.add d 1)
  else (.done true, hdr)

/-- `wait_impl<WAIT_TYPE, SND_ELSE_RCV>()` when `cond.wait()` or `cond.timed_wait()` has returned; the latter
returns `!timedOut`.
Source: `bipc_mq_handle.cpp` `wait_impl` -/
def afterWait (w : WaitType) (d : Dir) (interrupting timedOut : Bool) (hdr : BipcMqHdr ρ) :
    Stretch × BipcMqHdr ρ :=
  if interrupting then (.interrupted, hdr.add d (-1))
  else if w = .timedWait ∧ timedOut then
    if hdr.isStarved d then (.done false, hdr.add d (-1))
    -- The loop is left, and what comes after it is done.
    else (.done true, hdr.add d (-1))
  else if hdr.isStarved d then (.waits, hdr)
  else (.done true, hdr.add d (-1))

/-- The same when it has thrown.
Source: `bipc_mq_handle.cpp` `wait_impl`, `catch (...)` -/
def afterThrow (d : Dir) (e : Option BipcException) (hdr : BipcMqHdr ρ) : Stretch × BipcMqHdr ρ :=
  (.threw e, hdr.add d (-1))

/-! ## A call, and the others -/

/-- Where a call is, when others may have the mutex. -/
inductive CallPos where
  /-- It has not taken the mutex yet. -/
  | begins
  /-- It is inside the wait. -/
  | waits
  /-- It has returned this, and this is `*err_code`. -/
  | returned (notStarved : Bool) (err : ErrorCode)
  /-- An exception has left it. -/
  | threw
  deriving DecidableEq

/-- Where a stretch leads to.
Source: `bipc_mq_handle.cpp` `wait_impl`, `op_with_possible_bipc_mq_exception` -/
def Stretch.toPos : Stretch → CallPos
  | .waits => .waits
  | .interrupted => .returned false MqHandle.interrupted
  | .done notStarved => .returned notStarved none
  | .threw (some e) => .returned false (some e.toErr)
  | .threw none => .threw

/-- What another does to the header in one go, with the mutex: a process that sends, receives or waits, or
another thread of this one. What is done does not depend on how many are blocked: that is added to, or taken
from, and read only to notify. -/
structure OthersAct (ρ : Type) where
  /-- What is done. -/
  run : BipcMqHdr ρ → BipcMqHdr ρ
  run_add : ∀ d n hdr, run (hdr.add d n) = (run hdr).add d n

/-- A call of `wait_impl()`, and what it looks at. -/
structure WaitCall (ρ : Type) where
  /-- `*mq_hdr` -/
  hdr : BipcMqHdr ρ
  /-- `m_interrupting_snd`, `m_interrupting_rcv` -/
  interrupting : Bool
  /-- Where it is. -/
  pos : CallPos

/-- What happens next. -/
inductive WaitEvent (ρ : Type) where
  /-- Another has the mutex. -/
  | others (act : OthersAct ρ)
  /-- The mode is switched, by another thread. -/
  | switched (onElseOff : Bool)
  /-- The call takes the mutex. -/
  | locks
  /-- Taking it throws. -/
  | lockThrows (e : Option BipcException)
  /-- The call wakes up, for whatever reason, and has the mutex again. -/
  | wakes (timedOut : Bool)
  /-- The wait throws. -/
  | waitThrows (e : Option BipcException)

namespace WaitCall

/-- After a stretch. -/
def after (s : WaitCall ρ) (p : Stretch × BipcMqHdr ρ) : WaitCall ρ :=
  { s with hdr := p.2, pos := p.1.toPos }

/-- One step.
Source: `bipc_mq_handle.cpp` `wait_impl` -/
inductive Step (w : WaitType) (d : Dir) : WaitCall ρ → WaitEvent ρ → WaitCall ρ → Prop where
  | others {s : WaitCall ρ} (act : OthersAct ρ) : Step w d s (.others act) { s with hdr := act.run s.hdr }
  | switched {s : WaitCall ρ} (onElseOff : Bool) :
      Step w d s (.switched onElseOff) { s with interrupting := onElseOff }
  | locks {s : WaitCall ρ} (begins : s.pos = .begins) :
      Step w d s .locks (s.after (checkThenWait w d s.interrupting s.hdr))
  | lockThrows {s : WaitCall ρ} (e : Option BipcException) (begins : s.pos = .begins) :
      Step w d s (.lockThrows e) (s.after (.threw e, s.hdr))
  | wakes {s : WaitCall ρ} (timedOut : Bool) (waits : s.pos = .waits) :
      Step w d s (.wakes timedOut) (s.after (afterWait w d s.interrupting timedOut s.hdr))
  | waitThrows {s : WaitCall ρ} (e : Option BipcException) (waits : s.pos = .waits) :
      Step w d s (.waitThrows e) (s.after (afterThrow d e s.hdr))

end WaitCall

/-- What the others do to the header in an event. -/
def WaitEvent.byOthers : WaitEvent ρ → BipcMqHdr ρ → BipcMqHdr ρ
  | .others act, hdr => act.run hdr
  | _, hdr => hdr

/-- What the header would be without the call. -/
def withoutCall (hdr : BipcMqHdr ρ) (es : List (WaitEvent ρ)) : BipcMqHdr ρ :=
  es.foldl (fun hdr e => e.byOthers hdr) hdr

/-- What the others do last is done last. -/
theorem withoutCall_snoc {hdr : BipcMqHdr ρ} {es : List (WaitEvent ρ)} {e : WaitEvent ρ} :
    withoutCall hdr (es ++ [e]) = e.byOthers (withoutCall hdr es) := by
  rw [withoutCall, List.foldl_append]
  rfl

/-! ## Keeping the count -/

variable {w : WaitType} {d : Dir} {interrupting timedOut : Bool} {hdr without : BipcMqHdr ρ}

/-- The dudes that a call is, where it is. -/
def CallPos.dudes (pos : CallPos) : BitVec 64 := if pos = .waits then 1 else 0

/-- The call is counted only while it waits. -/
theorem CallPos.dudes_toPos {p : Stretch} (h : p ≠ .waits) : p.toPos.dudes = 0 := by
  have hne : p.toPos ≠ .waits := by
    rcases p with _ | _ | b | _ | e
    · exact absurd rfl h
    · exact CallPos.noConfusion
    · exact CallPos.noConfusion
    · exact CallPos.noConfusion
    · exact CallPos.noConfusion
  exact if_neg hne

/-- The first stretch counts the call exactly if it then waits. -/
theorem checkThenWait_counts :
    (checkThenWait w d interrupting hdr).2 = hdr.add d (checkThenWait w d interrupting hdr).1.toPos.dudes := by
  have hout : ∀ p : Stretch, p ≠ .waits → hdr = hdr.add d p.toPos.dudes := by
    intro p hp
    rw [CallPos.dudes_toPos hp, BipcMqHdr.add_zero]
  unfold checkThenWait
  split_ifs
  · exact hout .interrupted nofun
  · exact hout (.done false) nofun
  · rfl
  · exact hout (.done true) nofun

/-- What the call took on when it began to wait it takes off where it leaves. -/
theorem add_neg_dudes {p : Stretch} (h : p ≠ .waits) : (hdr.add d 1).add d (-1) = hdr.add d p.toPos.dudes := by
  rw [BipcMqHdr.add_add, CallPos.dudes_toPos h]
  rfl

/-- A later stretch takes off what the first has counted, exactly if the call does not wait again. -/
theorem afterWait_counts :
    (afterWait w d interrupting timedOut (hdr.add d 1)).2 =
      hdr.add d (afterWait w d interrupting timedOut (hdr.add d 1)).1.toPos.dudes := by
  unfold afterWait
  split_ifs
  · exact add_neg_dudes nofun
  · exact add_neg_dudes nofun
  · exact add_neg_dudes nofun
  · rfl
  · exact add_neg_dudes nofun

/-- An exception takes it off too. -/
theorem afterThrow_counts {e : Option BipcException} :
    (afterThrow d e (hdr.add d 1)).2 = hdr.add d (Stretch.threw e).toPos.dudes :=
  add_neg_dudes nofun

namespace WaitCall

variable {s s' : WaitCall ρ} {e : WaitEvent ρ} {es : List (WaitEvent ρ)}

/-- Beside what the header would be, there is one more dude in it while the call waits. -/
def Counted (d : Dir) (without : BipcMqHdr ρ) (s : WaitCall ρ) : Prop :=
  s.hdr = without.add d s.pos.dudes

/-- The header is that of the others, and what the call has added where it is. -/
theorem Counted.of_pos (h : s.Counted d without) {pos : CallPos} (hpos : s.pos = pos) :
    s.hdr = without.add d pos.dudes := by
  rw [← hpos]
  exact h

/-- One step keeps the count. -/
theorem Counted.step (h : s.Counted d without) (hstep : Step w d s e s') : s'.Counted d (e.byOthers without) := by
  cases hstep with
  | others act =>
    have hrun : act.run s.hdr = act.run (without.add d s.pos.dudes) := congrArg act.run h
    exact hrun.trans (act.run_add _ _ _)
  | switched onElseOff => exact h
  | locks begins =>
    have hhdr : s.hdr = without := (h.of_pos begins).trans BipcMqHdr.add_zero
    rw [hhdr]
    exact checkThenWait_counts
  | lockThrows e begins =>
    have hhdr : s.hdr = without := (h.of_pos begins).trans BipcMqHdr.add_zero
    rw [hhdr, Counted]
    change without = without.add d (Stretch.threw e).toPos.dudes
    rw [CallPos.dudes_toPos (p := .threw e) nofun, BipcMqHdr.add_zero]
  | wakes timedOut waits =>
    have hhdr : s.hdr = without.add d 1 := h.of_pos waits
    rw [hhdr]
    exact afterWait_counts
  | waitThrows e waits =>
    have hhdr : s.hdr = without.add d 1 := h.of_pos waits
    rw [hhdr]
    exact afterThrow_counts

/-- **Blocked dudes are counted right**: at any time that others may see it, the header is what it would be
without the call, but for one more dude exactly while the call is inside the wait. -/
theorem waitImpl_balanced (hbegins : s.pos = .begins) (hrun : Run (Step w d) s es s') :
    (s'.pos = .waits → s'.hdr = (withoutCall s.hdr es).add d 1) ∧
      (s'.pos ≠ .waits → s'.hdr = withoutCall s.hdr es) := by
  have hcounted : s'.Counted d (withoutCall s.hdr es) := by
    refine hrun.history (P := fun es t => t.Counted d (withoutCall s.hdr es)) ?_ ?_
    · intro es t e t' ht hstep
      rw [withoutCall_snoc]
      exact ht.step hstep
    · rw [Counted, hbegins]
      exact BipcMqHdr.add_zero.symm
  refine ⟨fun hwaits => hcounted.of_pos hwaits, fun hne => ?_⟩
  rw [Counted, CallPos.dudes, if_neg hne, BipcMqHdr.add_zero] at hcounted
  exact hcounted

/-- Another waits for the queue too, or does not any more, and a message more or fewer is in it. -/
def othersSample (dudes msgs : BitVec 64) : OthersAct Unit where
  run hdr := { hdr.add .snd dudes with curNumMsg := hdr.curNumMsg + msgs }
  run_add d n hdr := by
    cases d with
    | snd => simp [BipcMqHdr.add, BitVec.add_assoc, BitVec.add_comm n]
    | rcv => simp [BipcMqHdr.add]

/-- A queue of one message, which is full; a sender is to wait for a second. -/
def fullSample : WaitCall Unit := ⟨⟨1, 1, 0, 0, ()⟩, false, .begins⟩

/-- While the sender waits, so does another; it is woken up for nothing; then a message is received, and it is
woken up again, and returns. -/
def eventsSample : List (WaitEvent Unit) :=
  [.locks, .others (othersSample 1 0), .wakes false, .others (othersSample 0 (-1)), .wakes false]

/-- The call returns, and the header is that of the others, one of whom still waits. -/
theorem waitImpl_balanced_sample :
    ∃ s' : WaitCall Unit, s'.pos = .returned true none ∧ s'.hdr = withoutCall fullSample.hdr eventsSample ∧
      s'.hdr.blockedSenders = 1 := by
  have hrun : Run (Step .wait .snd) fullSample eventsSample
      ⟨⟨1, 0, 1, 0, ()⟩, false, .returned true none⟩ := by
    refine run_cons_iff.2 ⟨_, .locks rfl, ?_⟩
    refine run_cons_iff.2 ⟨_, .others _, ?_⟩
    refine run_cons_iff.2 ⟨_, .wakes false rfl, ?_⟩
    refine run_cons_iff.2 ⟨_, .others _, ?_⟩
    exact Run.single (.wakes false rfl)
  exact ⟨_, rfl, (waitImpl_balanced rfl hrun).2 nofun, rfl⟩

end WaitCall

/-! ## The dudes of a handle -/

/-- What the stretch is to `BipcMqHandle`, which knows no other exceptions than the library's. -/
def Stretch.toTurn : Stretch → Option BipcMqHandle.Turn
  | .waits => some (.at .asleep)
  | .interrupted => some (.returns false MqHandle.interrupted)
  | .done notStarved => some (.returns notStarved none)
  | .threw e => e.map fun e => .returns false (some e.toErr)

/-- How many of the dudes are those of a handle with this call. -/
def CallPos.ofHandle (pos : CallPos) : ℕ := if pos = .waits then 1 else 0

/-- The first turn of a wait is the first stretch. -/
theorem waitImpl_checkThenWait :
    BipcMqHandle.waitImpl w ⟨interrupting, 0⟩ .check (.locked (hdr.isStarved d) timedOut) =
      (checkThenWait w d interrupting hdr).1.toTurn.map
        (⟨interrupting, (checkThenWait w d interrupting hdr).1.toPos.ofHandle⟩, ·) := by
  unfold BipcMqHandle.waitImpl checkThenWait
  dsimp only
  split_ifs <;> rfl

/-- A later turn is a later stretch. -/
theorem waitImpl_afterWait :
    BipcMqHandle.waitImpl w ⟨interrupting, 1⟩ .woken (.locked (hdr.isStarved d) timedOut) =
      (afterWait w d interrupting timedOut hdr).1.toTurn.map
        (⟨interrupting, (afterWait w d interrupting timedOut hdr).1.toPos.ofHandle⟩, ·) := by
  unfold BipcMqHandle.waitImpl afterWait
  dsimp only
  -- When the time is up, one says what the other looks at.
  cases hstarved : hdr.isStarved d with
  | true => split_ifs <;> first | rfl | contradiction
  | false => split_ifs <;> first | rfl | contradiction

/-- Where the library throws, the handle leaves the dudes too. -/
theorem waitImpl_afterThrow {e : BipcException} :
    BipcMqHandle.waitImpl w ⟨interrupting, 1⟩ .woken (.threw e) =
      (afterThrow d (some e) hdr).1.toTurn.map
        (⟨interrupting, (afterThrow d (some e) hdr).1.toPos.ofHandle⟩, ·) :=
  rfl

end FlowIpc.MqHandle
