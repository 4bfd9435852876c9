import FlowIpc.Adapter.CoreOps

/-!
# Two ends of one transport

A `Link` is a sender core and a receiver core on one transport, each with its view of what is in it. Two
systems are made of them: in `CoreWorld` the cores are used directly, by the `sync_io` pattern; in
`AsyncWorld` each has an asynchronous adapter around it, as in the async-I/O pattern, with requests queued
and handlers run by worker threads at any time.

**Result.** The first simulates the second (`AsyncWorld.Reached.coreWorld`): whatever state the adapters can
come to, their cores could have come to by themselves, with the same messages accepted and the same results.
With it goes that the requests of the receiving adapter are served in order, though the sender changes
under it what its core will find.

Source: `sync_io/detail/async_adapter_rcv.hpp`, `async_adapter_snd.hpp`, `blob_stream_mq_snd.hpp`,
`blob_stream_mq_rcv.hpp`, `native_socket_stream.hpp` (which put the adapters around their cores).
-/

namespace FlowIpc.Adapter

open Lts

/-- A sender core and a receiver core at the two ends of one transport. -/
structure Link where
  /-- The sender's core. -/
  Snd : SndCore
  /-- The receiver's core. -/
  Rcv : RcvCore
  /-- What the transport holds. -/
  Transport : Type
  /-- The transport as the sender sees it. -/
  sndEnd : Snd.State → Transport
  /-- The transport as the receiver sees it. -/
  rcvEnd : Rcv.State → Transport
  /-- The sender, once the receiver has been at the transport. -/
  setSndEnd : Snd.State → Transport → Snd.State
  /-- The receiver, once the sender has been at the transport. -/
  setRcvEnd : Rcv.State → Transport → Rcv.State
  /-- Both have just entered the PEER state, at the ends of an empty transport. -/
  Init : Snd.State → Rcv.State → Prop
  init_rcv : ∀ s r, Init s r → Rcv.Init r
  setSndEnd_sndEnd : ∀ s, setSndEnd s (sndEnd s) = s
  setRcvEnd_rcvEnd : ∀ r, setRcvEnd r (rcvEnd r) = r
  sndEnd_setSndEnd : ∀ s t, sndEnd (setSndEnd s t) = t
  rcvEnd_setRcvEnd : ∀ r t, rcvEnd (setRcvEnd r t) = t
  setSndEnd_setSndEnd : ∀ s t t', setSndEnd (setSndEnd s t) t' = setSndEnd s t'
  setRcvEnd_setRcvEnd : ∀ r t t', setRcvEnd (setRcvEnd r t) t' = setRcvEnd r t'
  outstanding_setRcvEnd : ∀ r t, Rcv.outstanding (setRcvEnd r t) = Rcv.outstanding r
  hosed_setRcvEnd : ∀ r t, Rcv.hosed (setRcvEnd r t) = Rcv.hosed r

/-! ## The cores by themselves -/

/-- Two cores on one transport, and what has been seen of them. -/
structure CoreWorld (L : Link) where
  /-- The sender. -/
  snd : SndRecord L.Snd
  /-- The receiver. -/
  rcv : RcvRecord L.Rcv

/-- Whose turn it is, and what is done. -/
inductive CoreMove (L : Link) where
  /-- An operation on the sender. -/
  | snd (op : SndOp L.Snd)
  /-- An operation on the receiver. -/
  | rcv (op : RcvOp L.Rcv)

namespace CoreWorld

variable {L : Link}

/-- The sender has come to this, and the receiver finds what it has left in the transport. -/
def sndTo (w : CoreWorld L) (snd : SndRecord L.Snd) : CoreWorld L :=
  ⟨snd, { w.rcv with core := L.setRcvEnd w.rcv.core (L.sndEnd snd.core) }⟩

/-- The receiver has come to this, and the sender finds what it has left in the transport. -/
def rcvTo (w : CoreWorld L) (rcv : RcvRecord L.Rcv) : CoreWorld L :=
  ⟨{ w.snd with core := L.setSndEnd w.snd.core (L.rcvEnd rcv.core) }, rcv⟩

/-- One step. -/
def next (w : CoreWorld L) : CoreMove L → Option (CoreWorld L)
  | .snd op => (w.snd.next op).map w.sndTo
  | .rcv op => (w.rcv.next op).map w.rcvTo

/-- The step relation. -/
def Step (w : CoreWorld L) (m : CoreMove L) (w' : CoreWorld L) : Prop :=
  w.next m = some w'

/-- Both have been started. -/
def start (s : L.Snd.State) (r : L.Rcv.State) (ans : L.Snd.Ans) : CoreWorld L :=
  let s := (L.Snd.startSendOps s ans).2
  ⟨⟨s, [], false⟩, ⟨L.setRcvEnd (L.Rcv.startReceiveOps r).2 (L.sndEnd s), []⟩⟩

/-- A state that two cores on one transport can come to. -/
def Reached (w : CoreWorld L) : Prop :=
  Reachable Step (fun w => ∃ s r ans, L.Init s r ∧ w = start s r ans) w

/-- Both see the same in the transport. -/
def InSync (w : CoreWorld L) : Prop :=
  L.sndEnd w.snd.core = L.rcvEnd w.rcv.core

variable {w w' : CoreWorld L}

/-- A step of the sender leaves the two ends with one transport. -/
theorem inSync_sndTo {snd : SndRecord L.Snd} : (w.sndTo snd).InSync :=
  (L.rcvEnd_setRcvEnd _ _).symm

/-- So does a step of the receiver. -/
theorem inSync_rcvTo {rcv : RcvRecord L.Rcv} : (w.rcvTo rcv).InSync :=
  L.sndEnd_setSndEnd _ _

/-- Where nothing was done nothing changes. -/
theorem InSync.sndTo_snd (h : w.InSync) : w.sndTo w.snd = w := by
  unfold sndTo
  rw [show L.sndEnd w.snd.core = L.rcvEnd w.rcv.core from h, L.setRcvEnd_rcvEnd]

/-- In step, the receiver is what it is. -/
theorem InSync.rcvTo_rcv (h : w.InSync) : w.rcvTo w.rcv = w := by
  unfold rcvTo
  rw [← show L.sndEnd w.snd.core = L.rcvEnd w.rcv.core from h, L.setSndEnd_sndEnd]

/-- Whatever was found in between, what counts is what was left. -/
theorem sndTo_sndTo {snd snd' : SndRecord L.Snd} : (w.sndTo snd).sndTo snd' = w.sndTo snd' := by
  unfold sndTo
  simp only
  rw [L.setRcvEnd_setRcvEnd]

/-- Of two changes of the receiver the later one counts. -/
theorem rcvTo_rcvTo {rcv rcv' : RcvRecord L.Rcv} : (w.rcvTo rcv).rcvTo rcv' = w.rcvTo rcv' := by
  unfold rcvTo
  simp only
  rw [L.setSndEnd_setSndEnd]

/-- Two ends just started have one transport. -/
theorem start_inSync {s : L.Snd.State} {r : L.Rcv.State} {ans : L.Snd.Ans} :
    (start s r ans : CoreWorld L).InSync := by
  unfold InSync start
  exact (L.rcvEnd_setRcvEnd _ _).symm

/-- Any two ends that are reached do. -/
theorem Reached.inSync (h : w.Reached) : w.InSync := by
  apply Reachable.invariant (P := InSync) _ _ h
  · rintro w ⟨s, r, ans, -, rfl⟩
    exact start_inSync
  · rintro w (op | op) w' - hstep
    · obtain ⟨snd, -, rfl⟩ := Option.map_eq_some_iff.mp hstep
      exact inSync_sndTo
    · obtain ⟨rcv, -, rfl⟩ := Option.map_eq_some_iff.mp hstep
      exact inSync_rcvTo

/-- What is done to the sender alone is a run of the two. -/
theorem InSync.run_snd {ops : List (SndOp L.Snd)} {snd : SndRecord L.Snd} (h : w.InSync)
    (hrun : Run SndRecord.Step w.snd ops snd) :
    ∃ ms, Run Step w ms (w.sndTo snd) := by
  have hlift : True ∧ Run Step (w.sndTo w.snd) (ops.map .snd) (w.sndTo snd) :=
    hrun.lift (P := fun _ => True)
      (fun s op t _ hop => ⟨trivial, Option.map_eq_some_iff.mpr ⟨t, hop, sndTo_sndTo⟩⟩) trivial
  rw [h.sndTo_snd] at hlift
  exact ⟨_, hlift.2⟩

/-- And so is what is done to the receiver alone. -/
theorem InSync.run_rcv {ops : List (RcvOp L.Rcv)} {rcv : RcvRecord L.Rcv} (h : w.InSync)
    (hrun : Run RcvRecord.Step w.rcv ops rcv) :
    ∃ ms, Run Step w ms (w.rcvTo rcv) := by
  have hlift : True ∧ Run Step (w.rcvTo w.rcv) (ops.map .rcv) (w.rcvTo rcv) :=
    hrun.lift (P := fun _ => True)
      (fun r op t _ hop => ⟨trivial, Option.map_eq_some_iff.mpr ⟨t, hop, rcvTo_rcvTo⟩⟩) trivial
  rw [h.rcvTo_rcv] at hlift
  exact ⟨_, hlift.2⟩

end CoreWorld

/-! ## The cores in their adapters -/

/-- Two adapters around the two cores. -/
structure AsyncWorld (L : Link) where
  /-- The sending adapter. -/
  snd : SndWorld L.Snd
  /-- The receiving adapter. -/
  rcv : RcvWorld L.Rcv

/-- Whose turn it is, and what happens to it. -/
inductive AsyncMove (L : Link) where
  /-- Something happens to the sending adapter. -/
  | snd (m : SndMove L.Snd)
  /-- Something happens to the receiving adapter. -/
  | rcv (m : RcvMove L.Rcv)

/-- An adapter whose core has become this. -/
def SndWorld.setCore {C : SndCore} (w : SndWorld C) (s : C.State) : SndWorld C :=
  { w with adapter := { w.adapter with syncIo := s } }

/-- An adapter whose core has become this. -/
def RcvWorld.setCore {C : RcvCore} (w : RcvWorld C) (s : C.State) : RcvWorld C :=
  { w with adapter := { w.adapter with syncIo := s } }

namespace AsyncWorld

variable {L : Link}

/-- One step; what one core leaves in the transport the other finds there. -/
def next (w : AsyncWorld L) : AsyncMove L → Option (AsyncWorld L)
  | .snd m => (w.snd.next m).map fun snd =>
    ⟨snd, w.rcv.setCore (L.setRcvEnd w.rcv.adapter.syncIo (L.sndEnd snd.adapter.syncIo))⟩
  | .rcv m => (w.rcv.next m).map fun rcv =>
    ⟨w.snd.setCore (L.setSndEnd w.snd.adapter.syncIo (L.rcvEnd rcv.adapter.syncIo)), rcv⟩

/-- The step relation. -/
def Step (w : AsyncWorld L) (m : AsyncMove L) (w' : AsyncWorld L) : Prop :=
  w.next m = some w'

/-- Both adapters have been constructed. The receiver's does not touch the transport, so it is no matter
which was first. -/
def start (s : L.Snd.State) (r : L.Rcv.State) (ans : L.Snd.Ans) : AsyncWorld L :=
  let snd : SndWorld L.Snd := ⟨.ctor s ans, [], [], [], false⟩
  let rcv : RcvWorld L.Rcv := ⟨.ctor r, [], [], false⟩
  ⟨snd, rcv.setCore (L.setRcvEnd rcv.adapter.syncIo (L.sndEnd snd.adapter.syncIo))⟩

/-- A state that two adapters on one transport can come to. -/
def Reached (w : AsyncWorld L) : Prop :=
  Reachable Step (fun w => ∃ s r ans, L.Init s r ∧ w = start s r ans) w

/-- The cores are those of the adapters, and what has been seen of them is what the adapters know. -/
structure Cores (w : AsyncWorld L) (c : CoreWorld L) : Prop where
  snd : w.snd.Records c.snd
  rcv : c.rcv = w.rcv.adapter.record

variable {w w' : AsyncWorld L} {c : CoreWorld L}

/-- The asynchronous ends start with the cores of the others. -/
theorem cores_start {s : L.Snd.State} {r : L.Rcv.State} {ans : L.Snd.Ans} :
    (start s r ans).Cores (CoreWorld.start s r ans) where
  snd := ⟨rfl, rfl, fun h => by cases h⟩
  rcv := rfl

/-- Each step of the adapters comes to a run of the cores. -/
theorem Cores.step {m : AsyncMove L} (h : w.Cores c) (hsync : c.InSync) (hrcv : w.rcv.Inv)
    (hstep : w.Step m w') : ∃ ms c', Run CoreWorld.Step c ms c' ∧ w'.Cores c' := by
  cases m with
  | snd m =>
      obtain ⟨snd, hnext, rfl⟩ := Option.map_eq_some_iff.mp hstep
      obtain ⟨ops, c', hrun, hrec⟩ := h.snd.ops_of_step hnext
      obtain ⟨ms, hrun'⟩ := hsync.run_snd hrun
      refine ⟨ms, _, hrun', hrec, ?_⟩
      unfold CoreWorld.sndTo
      rw [h.rcv, hrec.core]
      rfl
  | rcv m =>
      obtain ⟨rcv, hnext, rfl⟩ := Option.map_eq_some_iff.mp hstep
      obtain ⟨ops, hrun⟩ := hrcv.ops_of_step hnext
      rw [← h.rcv] at hrun
      obtain ⟨ms, hrun'⟩ := hsync.run_rcv hrun
      refine ⟨ms, _, hrun', ⟨?_, h.snd.accepted, h.snd.endCalled⟩, rfl⟩
      unfold CoreWorld.rcvTo SndWorld.setCore
      rw [h.snd.core]
      rfl

/-- The receiving adapter's requests are served in order while its core stays in use. -/
theorem rcv_step {m : AsyncMove L} (hrcv : w.rcv.Inv) (hstep : w.Step m w')
    (hcore : L.Rcv.Inv w'.rcv.adapter.syncIo) : w'.rcv.Inv := by
  cases m with
  | snd m =>
      obtain ⟨snd, hnext, rfl⟩ := Option.map_eq_some_iff.mp hstep
      exact hrcv.setCore hcore (L.hosed_setRcvEnd _ _) (L.outstanding_setRcvEnd _ _)
  | rcv m =>
      obtain ⟨rcv, hnext, rfl⟩ := Option.map_eq_some_iff.mp hstep
      exact hrcv.step hnext

/-- The receiver's bookkeeping is in order at the start. -/
theorem rcv_start {s : L.Snd.State} {r : L.Rcv.State} {ans : L.Snd.Ans} (h : L.Init s r)
    (hcore : L.Rcv.Inv (start s r ans).rcv.adapter.syncIo) : (start s r ans).rcv.Inv := by
  have hlive := RcvWorld.live_init (L.init_rcv s r h)
  have hinv : RcvWorld.Inv (⟨.ctor r, [], [], false⟩ : RcvWorld L.Rcv) := by
    rw [RcvWorld.Inv, if_neg (by simp)]
    exact hlive
  exact hinv.setCore hcore (L.hosed_setRcvEnd _ _) (L.outstanding_setRcvEnd _ _)

/-- What the adapters can come to the cores could have come to by themselves, and the requests have been
served in order, provided that what the sender does to the transport leaves the receiver in use. -/
theorem Reached.coreWorld (hcore : ∀ c : CoreWorld L, c.Reached → L.Rcv.Inv c.rcv.core)
    (h : w.Reached) : w.rcv.Inv ∧ ∃ c, w.Cores c ∧ c.Reached := by
  have hinv : ∃ c : CoreWorld L, (w.Cores c ∧ w.rcv.Inv) ∧ c.Reached := by
    apply Reachable.simulate (R := fun (w : AsyncWorld L) c => w.Cores c ∧ w.rcv.Inv) _ _ h
    · rintro w ⟨s, r, ans, hinit, rfl⟩
      have hc : (CoreWorld.start s r ans).Reached := .of_init ⟨s, r, ans, hinit, rfl⟩
      exact ⟨_, ⟨cores_start, rcv_start hinit (hcore _ hc)⟩, hc⟩
    · rintro w m w' c ⟨hcores, hrcv⟩ hc hstep
      obtain ⟨ms, c', hrun, hcores'⟩ := hcores.step (CoreWorld.Reached.inSync hc) hrcv hstep
      have hinv := hcore c' (hc.run hrun)
      rw [hcores'.rcv] at hinv
      exact ⟨ms, c', hrun, hcores', rcv_step hrcv hstep hinv⟩
  obtain ⟨c, ⟨hcores, hrcv⟩, hc⟩ := hinv
  exact ⟨hrcv, c, hcores, hc⟩

/-- What is computed can be reached. -/
theorem reached_of_foldlM {s : L.Snd.State} {r : L.Rcv.State} {ans : L.Snd.Ans} (hinit : L.Init s r)
    {ms : List (AsyncMove L)} (h : ms.foldlM next (start s r ans) = some w) : w.Reached :=
  ⟨_, ms, ⟨s, r, ans, hinit, rfl⟩, .of_foldlM h⟩

/-- The messages that handlers have been told of, or are about to be, oldest first. -/
def told (w : AsyncWorld L) : List L.Rcv.Msg :=
  w.rcv.completions.filterMap (AsyncAdapterReceiver.message? ·.2)

/-- They are those that the receiver's core has come to. -/
theorem Cores.told_eq (h : w.Cores c) (hrcv : w.rcv.Inv) :
    w.told = c.rcv.results.filterMap AsyncAdapterReceiver.message? := by
  rw [h.rcv]
  exact hrcv.result.messages

end AsyncWorld

end FlowIpc.Adapter
