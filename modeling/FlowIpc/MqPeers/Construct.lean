import FlowIpc.MqPeers.Protocol
import FlowIpc.MqStream.Failed

/-!
# A constructor that fails

The constructors of `Blob_stream_mq_sender_impl` and `Blob_stream_mq_receiver_impl` are one but for the
direction. They claim the sentinel of their direction, and with it take over the caller's queue handle,
under a deleter that removes three names when it goes away. A queue without a native handle is then
watched through a pipe; where that cannot be made the constructor drops what it has taken over.

The documentation promises that the handle is the caller's still if there was an error, and a comment at
the end of either constructor says that it "is untouched". `construct_harmless_iff` says when that is so:
unless what fails is the pipe. Then the caller's handle is gone, and the deleter has removed the name of
the queue, and both sentinels, that of a live opposing peer among them.

Source: `sync_io/detail/blob_stream_mq_snd_impl.hpp`, `sync_io/detail/blob_stream_mq_rcv_impl.hpp`, the
constructors; `detail/blob_stream_mq_impl.hpp` `ensure_unique_peer`.
-/

namespace FlowIpc.MqPeers

open Lts MqStream

/-! ## The constructor -/

/-- What a constructor leaves behind. -/
structure Construction where
  /-- The queue object that the caller's handle is to now, if any. -/
  callerMq : Option Nat
  /-- `m_mq` -/
  mq : Option Nat
  /-- `m_pending_err_code` -/
  pendingErrCode : ErrorCode
  /-- The persistent names. -/
  kernel : Kernel

/-- The constructor of a sender (`sndElseRcv`) or receiver, given a handle to the queue object `m`, for a
kind of queue with or without a native handle. `fault` and `pipeFault` are the system's reasons to refuse
the sentinel, if it does, and the pipe.
Source: `blob_stream_mq_snd_impl.hpp` `Blob_stream_mq_sender_impl()`,
`blob_stream_mq_rcv_impl.hpp` `Blob_stream_mq_receiver_impl()` -/
def construct (hasNativeHandle : Bool) (k : Kernel) (q : MqName) (sndElseRcv : Bool) (m : Nat)
    (fault pipeFault : Option Nat) : Construction :=
  match ensureUniquePeer k q sndElseRcv fault with
  | (some e, k) => ⟨some m, none, some e, k⟩
  | (none, k) =>
    if hasNativeHandle then ⟨none, some m, none, k⟩
    else
      match pipeFault with
      | none => ⟨none, some m, none, k⟩
      -- `m_mq.reset()` runs the deleter.
      | some errno =>
        ⟨none, none, some (.system errno), (runRemovals q (deleterRemovals sndElseRcv) k).2⟩

/-- What the constructor does to its caller, given `err_code = ptr`; where it succeeds it does not touch
`*err_code`.
Source: the end of either constructor -/
def Construction.emit (c : Construction) (ptr : Option ErrorCode) : Emit Unit :=
  match c.mq, ptr, c.pendingErrCode with
  | some _, _, _ => .ret () (ptr.getD none)
  | none, some _, err => .ret () err
  | none, none, some e => .threw e
  | none, none, none => .ret () none

/-! ## What is promised -/

/-- What is promised of a constructor in the direction `d`, given a handle to the queue object `m` of
the queue `q`, where the names are `k`. -/
structure Harmless (k : Kernel) (q : MqName) (d : Bool) (m : Nat) (c : Construction) : Prop where
  /-- On an error the handle is the caller's still, the names are as they were, the caller is told, and
  whatever is then done to the object, it reports that error and has no queue. -/
  failed : ∀ e, c.pendingErrCode = some e →
    c.callerMq = some m ∧ c.kernel = k ∧ (∀ ptr, (c.emit ptr).emitted = some e) ∧
      c.mq = none ∧ ∀ mq n,
        (d = true → ∀ is s, Run BlobStreamMqSender.Moves (.ctorFailed mq n e) is s → s.Reports e) ∧
        (d = false → ∀ is r, Run BlobStreamMqReceiver.Moves (.ctorFailed mq n e) is r → r.Reports e)
  /-- On success the object has the queue and the caller has not, and the sentinel of the direction, which
  was not there, has been added. -/
  succeeded : c.pendingErrCode = none →
    c.callerMq = none ∧ c.mq = some m ∧ k.sentinel q d = false ∧ c.kernel = k.setSentinel q d true

/-- The pipe is what fails: it is needed, the sentinel has been claimed, and it cannot be made. -/
def PipeFails (hasNativeHandle : Bool) (k : Kernel) (q : MqName) (d : Bool)
    (fault pipeFault : Option Nat) : Prop :=
  hasNativeHandle = false ∧ fault = none ∧ k.sentinel q d = false ∧ pipeFault ≠ none

variable {hasNativeHandle : Bool} {k : Kernel} {q : MqName} {d : Bool} {m : Nat}
  {fault pipeFault : Option Nat} {e : Err}

/-- Objects whose constructor failed report the error. -/
theorem reports (mq : Mq) (n : Nat) (e : Err) :
    (d = true → ∀ is s, Run BlobStreamMqSender.Moves (.ctorFailed mq n e) is s → s.Reports e) ∧
      (d = false →
        ∀ is r, Run BlobStreamMqReceiver.Moves (.ctorFailed mq n e) is r → r.Reports e) :=
  ⟨fun _ _ _ h => (BlobStreamMqSender.reports_of_run h).1,
    fun _ _ _ h => (BlobStreamMqReceiver.reports_of_run h).1⟩

/-- A peer that is not admitted leaves everything as it was. -/
theorem harmless_refused (h : (ensureUniquePeer k q d fault).1 = some e) :
    Harmless k q d m (construct hasNativeHandle k q d m fault pipeFault) := by
  rcases hu : ensureUniquePeer k q d fault with ⟨err, k'⟩
  rw [hu] at h
  obtain rfl : err = some e := h
  obtain rfl := ensureUniquePeer_of_some hu
  have hc : construct hasNativeHandle k' q d m fault pipeFault = ⟨some m, none, some e, k'⟩ := by
    unfold construct
    rw [hu]
  rw [hc]
  refine ⟨?_, fun hnone => by cases hnone⟩
  intro e' he'
  cases he'
  refine ⟨rfl, rfl, ?_, rfl, fun mq n => reports mq n e⟩
  intro ptr
  cases ptr <;> rfl

/-- A peer that is admitted, and can be watched, has the handle, and its sentinel. -/
theorem harmless_admitted (hfault : fault = none) (hs : k.sentinel q d = false)
    (hwatch : hasNativeHandle = true ∨ pipeFault = none) :
    Harmless k q d m (construct hasNativeHandle k q d m fault pipeFault) := by
  have hu := ensureUniquePeer_eq_none_iff.mpr ⟨hfault, hs, rfl⟩
  have hc : construct hasNativeHandle k q d m fault pipeFault =
      ⟨none, some m, none, k.setSentinel q d true⟩ := by
    unfold construct
    rw [hu]
    rcases hwatch with rfl | rfl
    · rfl
    · cases hasNativeHandle <;> rfl
  rw [hc]
  exact ⟨fun e he => (by cases he), fun _ => ⟨rfl, rfl, hs, rfl⟩⟩

/-- Where the pipe fails the caller has lost the queue, and nothing is left of its names. -/
theorem construct_of_pipeFails (h : PipeFails hasNativeHandle k q d fault pipeFault) :
    ∃ errno, pipeFault = some errno ∧
      (construct hasNativeHandle k q d m fault pipeFault).pendingErrCode = some (.system errno) ∧
      (construct hasNativeHandle k q d m fault pipeFault).callerMq = none ∧
      ¬ Leaked (construct hasNativeHandle k q d m fault pipeFault).kernel q := by
  obtain ⟨rfl, hfault, hs, hpipe⟩ := h
  obtain ⟨errno, rfl⟩ := Option.ne_none_iff_exists'.mp hpipe
  have hu := ensureUniquePeer_eq_none_iff.mpr ⟨hfault, hs, rfl⟩
  have hc : construct false k q d m fault (some errno) = ⟨none, none, some (.system errno),
      (runRemovals q (deleterRemovals d) (k.setSentinel q d true)).2⟩ := by
    unfold construct
    rw [hu]
    rfl
  rw [hc]
  exact ⟨errno, rfl, rfl, rfl, deleterRemovals_clean _ q d⟩

/-- **A constructor keeps its promise unless the pipe is what fails.** -/
theorem construct_harmless_iff (hasNativeHandle : Bool) (k : Kernel) (q : MqName) (d : Bool) (m : Nat)
    (fault pipeFault : Option Nat) :
    Harmless k q d m (construct hasNativeHandle k q d m fault pipeFault) ↔
      ¬ PipeFails hasNativeHandle k q d fault pipeFault := by
  constructor
  · intro h hpipe
    obtain ⟨errno, -, herr, hcaller, -⟩ := construct_of_pipeFails (m := m) hpipe
    obtain ⟨hkept, -⟩ := h.failed _ herr
    rw [hcaller] at hkept
    cases hkept
  · intro hpipe
    cases hu : (ensureUniquePeer k q d fault).1 with
    | some e => exact harmless_refused hu
    | none =>
        obtain ⟨hfault, hs, -⟩ := ensureUniquePeer_eq_none_iff.mp
          (show ensureUniquePeer k q d fault = (none, (ensureUniquePeer k q d fault).2) from
            Prod.ext hu rfl)
        refine harmless_admitted hfault hs ?_
        by_contra hno
        rw [not_or] at hno
        exact hpipe ⟨by simpa using hno.1, hfault, hs, hno.2⟩

/-- The name of a `Bipc_mq_handle`, of which there is no native handle. -/
def receivedName : MqName where
  resourceTypeId := "bipcQ".toList
  absoluteName := "_q".toList

/-- A queue that a receiver is attached to. -/
def received : Kernel where
  mqs q := if q = receivedName then some 0 else none
  shmPools name := decide (name = mqSentinelName receivedName false)
  nextMq := 1

/-- A sender is constructed on a queue without a native handle that has a live receiver, and there is
no descriptor left for the pipe (`EMFILE`): the caller's handle is gone, and so are the name of the queue
and the sentinel of the receiver. -/
theorem not_harmless_received :
    let c := construct false received receivedName true 0 none (some 24)
    receivedName.absoluteName.absolute = true ∧ ¬ Harmless received receivedName true 0 c ∧
      c.pendingErrCode = some (.system 24) ∧ c.callerMq = none ∧
      received.sentinel receivedName false = true ∧ c.kernel.sentinel receivedName false = false ∧
      c.kernel.mqs receivedName = none := by
  intro c
  have hcaller : c.callerMq = none := by decide
  have herr : c.pendingErrCode = some (.system 24) := by decide
  refine ⟨rfl, ?_, herr, hcaller, by decide, by decide, by decide⟩
  intro h
  obtain ⟨hkept, -⟩ := h.failed _ herr
  rw [hcaller] at hkept
  cases hkept

/-! ## As steps of an agent -/

/-- A constructor whose pipe fails is, among agents, one that is admitted, fails, and runs its deleter to
the end: the names it leaves are those of that run. -/
theorem exists_run_construct {s : Sys} {a : Nat} (hold : s.agents a = .holding m)
    (h : PipeFails hasNativeHandle s.kernel q d fault pipeFault) :
    ∃ t, Run (Step q) s [.ensureUniquePeer a d fault, .constructFail a, .removeNext a, .removeNext a,
        .removeNext a, .finish a] t ∧
      t.agents a = .idle ∧
      t.kernel = (construct hasNativeHandle s.kernel q d m fault pipeFault).kernel := by
  obtain ⟨rfl, hfault, hs, hpipe⟩ := h
  obtain ⟨errno, rfl⟩ := Option.ne_none_iff_exists'.mp hpipe
  have hu := ensureUniquePeer_eq_none_iff.mpr ⟨hfault, hs, rfl⟩
  let s₁ := s.grant a d m (s.kernel.setSentinel q d true)
  let s₂ := s₁.set a (.deleting d m (deleterRemovals d))
  let s₃ := (s₂.remove q (.sentinel d)).set a (.deleting d m [.sentinel !d, .mq])
  let s₄ := (s₃.remove q (.sentinel !d)).set a (.deleting d m [.mq])
  let s₅ := (s₄.remove q .mq).set a (.deleting d m [])
  have h₁ : Step q s (.ensureUniquePeer a d fault) s₁ := .grant s a m d fault _ hold hu
  have h₂ : Step q s₁ (.constructFail a) s₂ := .constructFail s₁ a m d (agents_grant_self _ _ _ _ _)
  have h₃ : Step q s₂ (.removeNext a) s₃ := .deleterNext s₂ a m d _ _ (agents_set_self _ _ _)
  have h₄ : Step q s₃ (.removeNext a) s₄ := .deleterNext s₃ a m d _ _ (agents_set_self _ _ _)
  have h₅ : Step q s₄ (.removeNext a) s₅ := .deleterNext s₄ a m d _ _ (agents_set_self _ _ _)
  have h₆ : Step q s₅ (.finish a) (s₅.set a .idle) := .deleterDone s₅ a m d (agents_set_self _ _ _)
  refine ⟨s₅.set a .idle, (((((Run.single h₁).snoc h₂).snoc h₃).snoc h₄).snoc h₅).snoc h₆,
    agents_set_self _ _ _, ?_⟩
  unfold construct
  rw [hu]
  rfl

end FlowIpc.MqPeers
