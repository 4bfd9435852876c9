import FlowIpc.Found.ErrorCode
import Mathlib.Logic.Function.Basic
import Mathlib.Data.Bool.Basic

/-!
# The persistent names of a message queue

A `Blob_stream_mq` sender or receiver is attached to a message queue that has a name in the system,
and marks its presence by a tiny shared-memory pool, the *sentinel* of its direction, whose name is
built from that of the queue. This file holds the three kinds of operations on those names: claiming
a sentinel (`ensureUniquePeer`), the removals that a peer's deleter makes, and the removals of
`remove_persistent()`; the two differ in their order.

* The two sentinels of a queue have different names (`sentinelName_injective`), so that the
  operations on one leave the other alone.
* `remove_persistent()` run through leaves none of the three names (`removePersistent_clean`).

Source: `blob_stream_mq_impl.hpp` `Blob_stream_mq_base_impl`, `shared_name.hpp`, `shared_name.cpp`.
-/

namespace FlowIpc.MqPeers

/-! ## Names -/

/-- The characters of a `Shared_name`. -/
abbrev SharedName := List Char

/-- `S_SEPARATOR` -/
def separator : Char := '_'

/-- `operator/=`
Source: `shared_name.hpp` `Shared_name::operator/=` -/
def SharedName.div (name : SharedName) (src : List Char) : SharedName :=
  name ++ [separator] ++ src

/-- `absolute()`
Source: `shared_name.cpp` `Shared_name::absolute` -/
def SharedName.absolute (name : SharedName) : Bool :=
  name.head? = some separator

/-- The common prefix of the names of the resources of type `resourceType` that belong to no session.
Source: `shared_name.cpp` `build_conventional_non_session_based_shared_name` -/
def buildConventionalNonSessionBasedSharedName (resourceType : SharedName) : SharedName :=
  SharedName.div (SharedName.div (SharedName.div (SharedName.div (SharedName.div []
    "libipc".toList) resourceType) "0".toList) "0".toList) "0".toList

/-- A queue name: the type of the queue and its absolute name. -/
structure MqName where
  /-- `Mq::S_RESOURCE_TYPE_ID` -/
  resourceTypeId : SharedName
  /-- `mq.absolute_name()` -/
  absoluteName : SharedName
  deriving DecidableEq

/-- The suffix that tells the two sentinels apart. -/
def sentinelSuffix (sndElseRcv : Bool) : List Char :=
  if sndElseRcv then ['S', 'n', 'd'] else ['R', 'c', 'v']

/-- The name of the sentinel of direction `sndElseRcv` for the queue `q`; it is asserted that the name of the queue
is absolute, which is left to the callers that may have another.
Source: `blob_stream_mq_impl.hpp` `mq_sentinel_name` -/
def mqSentinelName (q : MqName) (sndElseRcv : Bool) : SharedName :=
  let sentinelName := buildConventionalNonSessionBasedSharedName "shm".toList
  let sentinelName := sentinelName.div q.resourceTypeId
  let sentinelName := sentinelName.div "sentinel".toList
  let sentinelName := sentinelName ++ sentinelSuffix sndElseRcv
  sentinelName ++ q.absoluteName

/-- The sentinels of the two directions have different names. -/
theorem mqSentinelName_injective (q : MqName) : Function.Injective (mqSentinelName q) := by
  intro d d' h
  unfold mqSentinelName at h
  have hsuf := List.append_cancel_left (List.append_cancel_right h)
  cases d <;> cases d' <;> simp_all [sentinelSuffix]

/-! ## The names the system holds -/

/-- What the system keeps that outlives processes: queue names, each standing for a queue object, and
shared-memory pools. -/
structure Kernel where
  /-- The queue objects, by the names that stand for them. -/
  mqs : MqName → Option Nat
  /-- Whether a pool of this name exists. -/
  shmPools : SharedName → Bool
  /-- The next queue object. -/
  nextMq : Nat

namespace Kernel

/-- The sentinel of direction `d` for `q` exists. -/
def sentinel (k : Kernel) (q : MqName) (d : Bool) : Bool :=
  k.shmPools (mqSentinelName q d)

/-- Creates or removes the sentinel of direction `d` for `q`. -/
def setSentinel (k : Kernel) (q : MqName) (d : Bool) (b : Bool) : Kernel :=
  { k with shmPools := Function.update k.shmPools (mqSentinelName q d) b }

/-- Takes the name of `q` away; open handles stay valid. -/
def unlinkMq (k : Kernel) (q : MqName) : Kernel :=
  { k with mqs := Function.update k.mqs q none }

/-- Makes a new queue object under the name `q`. -/
def createMq (k : Kernel) (q : MqName) : Kernel :=
  { k with mqs := Function.update k.mqs q (some k.nextMq), nextMq := k.nextMq + 1 }

variable (k : Kernel) (q : MqName) (d d' b : Bool)

/-- A sentinel is as it was set, and the other as before. -/
@[simp] theorem sentinel_setSentinel :
    (k.setSentinel q d b).sentinel q d' = if d' = d then b else k.sentinel q d' := by
  unfold sentinel setSentinel
  by_cases h : d' = d
  · simp [h]
  · simp [h, (mqSentinelName_injective q).ne h]

@[simp] theorem mqs_setSentinel : (k.setSentinel q d b).mqs = k.mqs := rfl

@[simp] theorem sentinel_unlinkMq : (k.unlinkMq q).sentinel q d = k.sentinel q d := rfl

/-- A name that has been taken away stands for nothing. -/
@[simp] theorem mqs_unlinkMq : (k.unlinkMq q).mqs q = none := by
  simp [unlinkMq]

@[simp] theorem sentinel_createMq : (k.createMq q).sentinel q d = k.sentinel q d := rfl

/-- A name that has been made stands for the new queue. -/
@[simp] theorem mqs_createMq : (k.createMq q).mqs q = some k.nextMq := by
  simp [createMq]

end Kernel

/-! ## Claiming a sentinel -/

/-- The code for a peer that exists already. -/
def peerExists (sndElseRcv : Bool) : ErrorCode :=
  if sndElseRcv then Code.blobStreamMqSenderExists.toErrorCode
  else Code.blobStreamMqReceiverExists.toErrorCode

/-- `ensure_unique_peer()`, up to the result in `*err_code`: on success the caller owns the queue
handle together with its deleter. The create-only opening of the pool is one atomic operation of the
system; it fails with `fault` if the system has a reason of its own to refuse.
Source: `blob_stream_mq_impl.hpp` `ensure_unique_peer` -/
def ensureUniquePeer (k : Kernel) (q : MqName) (sndElseRcv : Bool) (fault : Option Nat) :
    ErrorCode × Kernel :=
  match fault with
  | some errno => (some (.system errno), k)
  | none =>
    if k.sentinel q sndElseRcv then (peerExists sndElseRcv, k)
    else (none, k.setSentinel q sndElseRcv true)

/-- A peer is admitted exactly when nothing is amiss and the sentinel of its direction was not there;
then it is there. -/
theorem ensureUniquePeer_eq_none_iff {k k' : Kernel} {q : MqName} {d : Bool} {fault : Option Nat} :
    ensureUniquePeer k q d fault = (none, k') ↔
      fault = none ∧ k.sentinel q d = false ∧ k' = k.setSentinel q d true := by
  unfold ensureUniquePeer
  rcases fault with _ | errno
  · cases hs : k.sentinel q d
    · simp [eq_comm]
    · cases d <;> simp [peerExists]
  · simp

/-- A peer that is not admitted changes nothing. -/
theorem ensureUniquePeer_of_some {k k' : Kernel} {q : MqName} {d : Bool} {fault : Option Nat}
    {e : Err} (h : ensureUniquePeer k q d fault = (some e, k')) : k' = k := by
  unfold ensureUniquePeer at h
  rcases fault with _ | errno
  · cases hs : k.sentinel q d
    · simp [hs] at h
    · simp only [hs, if_true] at h
      exact (congrArg Prod.snd h).symm
  · exact (congrArg Prod.snd h).symm

/-! ## Removals -/

/-- One removal of a persistent name. -/
inductive Removal where
  /-- `remove_persistent_shm_pool()` of the sentinel of the given direction. -/
  | sentinel (sndElseRcv : Bool)
  /-- `Mq::remove_persistent()` -/
  | mq
  deriving DecidableEq

/-- `ENOENT` -/
def enoent : Nat := 2

/-- Makes the removal; a name that is not there is reported and otherwise ignored.
Source: `util.cpp` `remove_persistent_shm_pool`, `Mq::remove_persistent` -/
def Removal.run (k : Kernel) (q : MqName) : Removal → ErrorCode × Kernel
  | .sentinel d =>
    (if k.sentinel q d then none else some (.system enoent), k.setSentinel q d false)
  | .mq => (if (k.mqs q).isSome then none else some (.system enoent), k.unlinkMq q)

/-- The removals of the deleter of a peer of direction `sndElseRcv`, in order.
Source: `blob_stream_mq_impl.hpp` `ensure_unique_peer`, the deleter -/
def deleterRemovals (sndElseRcv : Bool) : List Removal :=
  [.sentinel sndElseRcv, .sentinel !sndElseRcv, .mq]

/-- The removals of `remove_persistent()`, in order.
Source: `blob_stream_mq_impl.hpp` `remove_persistent` -/
def removePersistentRemovals : List Removal :=
  [.mq, .sentinel true, .sentinel false]

/-- The code `remove_persistent()` emits: the first truthy one of those of its removals.
Source: `blob_stream_mq_impl.hpp` `remove_persistent` -/
def firstTruthy (errs : List ErrorCode) : ErrorCode :=
  errs.findSome? id

/-- Makes the removals one after the other. -/
def runRemovals (q : MqName) : List Removal → Kernel → List ErrorCode × Kernel
  | [], k => ([], k)
  | r :: rs, k =>
    let (err, k) := r.run k q
    let (errs, k) := runRemovals q rs k
    (err :: errs, k)

/-- `remove_persistent()`, run through without interruption.
Source: `blob_stream_mq_impl.hpp` `remove_persistent` -/
def removePersistent (k : Kernel) (q : MqName) : ErrorCode × Kernel :=
  let (errs, k) := runRemovals q removePersistentRemovals k
  (firstTruthy errs, k)

/-- `for_each_persistent()` lists the names of queues, and nothing else.
Source: `blob_stream_mq_impl.hpp` `for_each_persistent` -/
def ForEachPersistent (k : Kernel) (q : MqName) : Prop :=
  (k.mqs q).isSome

/-- Something persistent is left of `q`. -/
def Leaked (k : Kernel) (q : MqName) : Prop :=
  (k.mqs q).isSome ∨ ∃ d, k.sentinel q d = true

/-- `remove_persistent()` leaves nothing behind. -/
theorem removePersistent_clean (k : Kernel) (q : MqName) :
    ¬ Leaked (removePersistent k q).2 q := by
  simp [removePersistent, runRemovals, removePersistentRemovals, Removal.run, Leaked]

/-- The deleter, run through, leaves nothing behind either. -/
theorem deleterRemovals_clean (k : Kernel) (q : MqName) (d : Bool) :
    ¬ Leaked (runRemovals q (deleterRemovals d) k).2 q := by
  cases d <;> simp [runRemovals, deleterRemovals, Removal.run, Leaked]

/-- `remove_persistent()` succeeds exactly when all three names were there. -/
theorem removePersistent_eq_none_iff (k : Kernel) (q : MqName) :
    (removePersistent k q).1 = none ↔
      (k.mqs q).isSome ∧ k.sentinel q true = true ∧ k.sentinel q false = true := by
  cases h₁ : (k.mqs q).isSome <;> cases h₂ : k.sentinel q true <;>
    cases h₃ : k.sentinel q false <;>
    simp [removePersistent, runRemovals, removePersistentRemovals, Removal.run, firstTruthy,
      h₁, h₂, h₃]

end FlowIpc.MqPeers
