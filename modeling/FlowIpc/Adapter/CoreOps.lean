import FlowIpc.Adapter.RcvOrder
import FlowIpc.Adapter.Snd
import FlowIpc.Lib.Simulation

/-!
# An adapter does to its core what a user would

What a `sync_io` core has been through is a run of operations and events: `RcvRecord` and `SndRecord` are
a core with what has come of it so far, and their steps are the operations a user of the core has. Each
step of an adapter comes to a run of those (`RcvWorld.ops_of_step`, `SndWorld.ops_of_step`); for a
receiver, whose queue may have many requests served in one go, to a run of any length.

Source: `sync_io/detail/async_adapter_rcv.hpp`, `async_adapter_snd.hpp`.
-/

namespace FlowIpc.Adapter

open Lts

/-! ## The receiver -/

/-- A receiver core, and the results that it has come to. -/
structure RcvRecord (C : RcvCore) where
  /-- The core. -/
  core : C.State
  /-- What its requests came to, oldest first. -/
  results : List (Result C.Msg)

/-- What can be done to a receiver core. -/
inductive RcvOp (C : RcvCore) where
  /-- `async_receive_*()` -/
  | asyncReceive (req : C.Req) (ans : C.Ans)
  /-- An event, or `idle_timer_run()`. -/
  | event (ev : C.Ev) (ans : C.Ans)

namespace RcvRecord

variable {C : RcvCore}

/-- One operation. A request is made only while none is outstanding. -/
def next (c : RcvRecord C) : RcvOp C → Option (RcvRecord C)
  | .asyncReceive req ans =>
    let (ok, res, s) := C.asyncReceive c.core req ans
    if ok then some ⟨s, if res.1 = wouldBlock then c.results else c.results ++ [res]⟩ else none
  | .event ev ans => (C.event c.core ev ans).map fun (s, res) => ⟨s, c.results ++ res.toList⟩

/-- The step relation. -/
def Step (c : RcvRecord C) (op : RcvOp C) (c' : RcvRecord C) : Prop :=
  c.next op = some c'

variable {c : RcvRecord C} {s : C.State} {res : Result C.Msg}

/-- A request that is accepted comes to its result, or is left outstanding. -/
theorem next_asyncReceive {req : C.Req} {ans : C.Ans}
    (h : C.asyncReceive c.core req ans = (true, res, s)) :
    c.next (.asyncReceive req ans) =
      some ⟨s, if res.1 = wouldBlock then c.results else c.results ++ [res]⟩ := by
  unfold next
  simp [h]

/-- One that is not accepted is no operation. -/
theorem next_asyncReceive_refused {req : C.Req} {ans : C.Ans}
    (h : C.asyncReceive c.core req ans = (false, res, s)) : c.next (.asyncReceive req ans) = none := by
  unfold next
  simp [h]

end RcvRecord

namespace AsyncAdapterReceiver

variable {C : RcvCore} {a : AsyncAdapterReceiver C} {issued : List (UserRequest C.Req)}
  {invoked : List (UserRequest C.Req × Result C.Msg)}

/-- The core of an adapter, and what it has come to. -/
def record (a : AsyncAdapterReceiver C) : RcvRecord C :=
  ⟨a.syncIo, a.coreResults⟩

@[simp] theorem assert_record {p : Prop} [Decidable p] : (a.assert p).record = a.record := rfl

/-- A result is recorded, and the core is left alone. -/
@[simp] theorem processMsgOrError_record {res : Result C.Msg} :
    (a.processMsgOrError res).record = ⟨a.syncIo, a.coreResults ++ [res]⟩ := by
  unfold processMsgOrError
  simp only
  split
  · rfl
  · split
    · rfl
    · split
      · rfl
      · rfl

/-- The destructor leaves the core alone. -/
theorem dtor_record : a.dtor.1.record = a.record := by
  unfold dtor
  split
  · rfl
  · rfl

/-- The requests of the queue are given to the core one after the other. -/
theorem Served.serveQueue_ops (h : a.Served issued invoked) (hflushed : a.Flushed)
    (hidle : C.outstanding a.syncIo = false) (ans : Nat → C.Ans) (i : Nat) :
    ∃ ops, Run RcvRecord.Step a.record ops (a.serveQueue ans i).record := by
  induction hn : a.pending.length using Nat.strongRecOn generalizing a i with
  | ind n ih =>
    rw [AsyncAdapterReceiver.serveQueue]
    split
    · exact ⟨[], Run.nil _⟩
    · rename_i r hr
      rcases hcall : C.asyncReceive a.syncIo r.target (ans i) with ⟨ok, res, s⟩
      obtain ⟨rfl, hs, hcases⟩ := C.receive_spec _ _ _ _ _ _ h.core hidle hcall
      simp only
      rw [assert_of trivial]
      have hop : RcvRecord.Step a.record (.asyncReceive r.target (ans i))
          ⟨s, if res.1 = wouldBlock then a.coreResults else a.coreResults ++ [res]⟩ :=
        RcvRecord.next_asyncReceive hcall
      rcases hcases with ⟨rfl, -, -, -⟩ | ⟨hne, hcompl⟩
      · rw [if_pos rfl] at hop ⊢
        exact ⟨_, Run.single hop⟩
      · rw [if_neg hne] at hop ⊢
        have hisSome : a.userRequest.isSome := by rw [hr]; rfl
        obtain ⟨hserved, hfl, hcore⟩ := h.processMsgOrError hisSome hs hcompl
        have hless :
            ({ a with syncIo := s }.processMsgOrError res).pending.length < a.pending.length :=
          processMsgOrError_pending hisSome
        have hidle' : C.outstanding ({ a with syncIo := s }.processMsgOrError res).syncIo = false := by
          rw [hcore]
          exact hcompl.idle hidle
        obtain ⟨ops, hrun⟩ := ih _ (hn ▸ hless) hserved hfl hidle' (i + 1) rfl
        rw [processMsgOrError_record] at hrun
        exact ⟨_, (Run.single hop).append hrun⟩

/-- A request is given to the core at once, or waits. -/
theorem Served.asyncReceive_ops (h : a.Served issued invoked) (hsteady : a.Steady)
    (r : UserRequest C.Req) (ans : C.Ans) :
    ∃ ops, Run RcvRecord.Step a.record ops (a.asyncReceiveNativeHandleImpl r ans).record := by
  unfold asyncReceiveNativeHandleImpl
  split
  · exact ⟨[], Run.nil _⟩
  · rename_i hnone
    have hidle : C.outstanding a.syncIo = false := by
      rw [← hsteady]
      simpa using hnone
    rcases hcall : C.asyncReceive a.syncIo r.target ans with ⟨ok, res, s⟩
    obtain ⟨rfl, -, -⟩ := C.receive_spec _ _ _ _ _ _ h.core hidle hcall
    simp only [hcall]
    have hop : RcvRecord.Step a.record (.asyncReceive r.target ans)
        ⟨s, if res.1 = wouldBlock then a.coreResults else a.coreResults ++ [res]⟩ :=
      RcvRecord.next_asyncReceive hcall
    refine ⟨_, Run.single (i := .asyncReceive r.target ans) ?_⟩
    rw [assert_of trivial]
    split
    · rename_i hblock
      rw [if_pos hblock] at hop
      exact hop
    · rename_i hne
      rw [if_neg hne] at hop
      rw [processMsgOrError_record]
      exact hop

end AsyncAdapterReceiver

namespace RcvWorld

open AsyncAdapterReceiver

variable {C : RcvCore} {w w' : RcvWorld C}

/-- Each step of an adapter's comes to a run of operations on its core. -/
theorem Inv.ops_of_step {m : RcvMove C} (h : w.Inv) (hstep : w.Step m w') :
    ∃ ops, Run RcvRecord.Step w.adapter.record ops w'.adapter.record := by
  unfold Step next at hstep
  split at hstep
  · cases hstep
  · rename_i hd
    rw [Inv, if_neg hd] at h
    cases m with
    | asyncReceive r ans =>
        cases hstep
        exact h.served.asyncReceive_ops h.steady r ans
    | event ev ans nextAns =>
        have hop {s : C.State} {res : Option (Result C.Msg)}
            (hev : C.event w.adapter.syncIo ev ans = some (s, res)) :
            RcvRecord.Step w.adapter.record (.event ev ans)
              ⟨s, w.adapter.coreResults ++ res.toList⟩ := by
          unfold RcvRecord.Step RcvRecord.next record
          simp [hev]
        simp only at hstep
        split at hstep
        · cases hstep
        · rename_i s hev
          cases hstep
          have hop := hop hev
          rw [Option.toList_none, List.append_nil] at hop
          exact ⟨_, Run.single hop⟩
        · rename_i s res hev
          cases hstep
          obtain ⟨hs, heffect⟩ := C.event_spec _ _ _ _ _ h.served.core hev
          cases heffect with
          | answered _ hout hne hcompl =>
              have hr : w.adapter.userRequest.isSome := by rw [h.steady, hout]
              obtain ⟨hserved, hfl, hcore⟩ := h.served.processMsgOrError hr hs hcompl
              have hidle :
                  C.outstanding ({ w.adapter with syncIo := s }.processMsgOrError res).syncIo = false := by
                rw [hcore]
                exact hcompl.idle_of_ne hne
              obtain ⟨ops, hrun⟩ := hserved.serveQueue_ops hfl hidle nextAns 0
              rw [processMsgOrError_record] at hrun
              exact ⟨_, (Run.single (hop hev)).append hrun⟩
    | runHandler =>
        simp only at hstep
        split at hstep
        · cases hstep
        · cases hstep
          exact ⟨[], Run.nil _⟩
    | destroy =>
        cases hstep
        exact ⟨[], run_nil_iff.mpr (dtor_record (a := { w.adapter with worker := [] })).symm⟩

/-- A step of an adapter's keeps the invariant, in whatever system the adapter is. -/
theorem Inv.step {m : RcvMove C} (h : w.Inv) (hstep : w.Step m w') : w'.Inv := by
  cases hd : w.destroyed with
  | true =>
      unfold Step next at hstep
      rw [if_pos hd] at hstep
      cases hstep
  | false =>
      rw [Inv, if_neg (by simp [hd])] at h
      exact h.step hd hstep

/-- The core may change by itself, if it is in use after and no request is answered. -/
theorem Inv.setCore {s : C.State} (h : w.Inv) (hs : C.Inv s)
    (hhosed : C.hosed s = C.hosed w.adapter.syncIo)
    (hout : C.outstanding s = C.outstanding w.adapter.syncIo) :
    ({ w with adapter := { w.adapter with syncIo := s } } : RcvWorld C).Inv := by
  unfold Inv at h ⊢
  by_cases hd : w.destroyed = true
  · rw [if_pos hd] at h
    rw [if_pos (by exact hd)]
    obtain ⟨told, aborted, hlog, horder, hmsgs, herrors, hnone, haborted⟩ := h.answered
    refine { h with core := hs, answered := ⟨told, aborted, hlog, horder, hmsgs, ?_, ?_, haborted⟩ }
    · simp only [hhosed]
      exact herrors
    · simp only [hhosed]
      exact hnone
  · rw [if_neg hd] at h
    rw [if_neg (by exact hd)]
    refine ⟨h.served.setCore hs (.inr hhosed), ?_, ?_⟩
    · intro hne
      rw [hhosed] at hne
      exact h.flushed hne
    · rw [Steady, hout]
      exact h.steady

/-- A handler is told an error other than of its own request, or of its adapter's end, only if that error
has ended the pipe. -/
theorem Inv.hosed_of_told {c : UserRequest C.Req × Result C.Msg} {e : Err} (h : w.Inv)
    (hmem : c ∈ w.completions) (hcode : c.2.1 = some e) (hinvalid : e ≠ .code .invalidArgument)
    (hshutdown : e ≠ .code .objectShutdownAbortedCompletionHandler) :
    C.hosed w.adapter.syncIo = some e := by
  rcases h.told hmem with hharmless | ⟨e', he, hres⟩ | ⟨-, hres⟩
  · rw [Harmless, hcode] at hharmless
    rcases hharmless with hnone | hinv
    · cases hnone
    · exact absurd (Option.some.inj hinv) hinvalid
  · rw [hres] at hcode
    rw [he]
    exact hcode
  · rw [hres] at hcode
    exact absurd (Option.some.inj hcode).symm hshutdown

end RcvWorld

/-! ## The sender -/

/-- A sender core, and what it has accepted. -/
structure SndRecord (C : SndCore) where
  /-- The core. -/
  core : C.State
  /-- The messages accepted, oldest first. -/
  accepted : List C.Msg
  /-- `end_sending()` or `async_end_sending()` has been called. -/
  endCalled : Bool

/-- What can be done to a sender core. -/
inductive SndOp (C : SndCore) where
  /-- `send_*()` -/
  | send (m : C.Msg) (ans : C.Ans)
  /-- `auto_ping()` -/
  | autoPing (period : {n : Nat // 0 < n}) (ans : C.Ans)
  /-- `end_sending()` -/
  | endSending (ans : C.Ans)
  /-- `async_end_sending()` -/
  | asyncEndSending (ans : C.Ans)
  /-- An event. -/
  | event (ev : C.Ev) (ans : C.Ans)

namespace SndRecord

variable {C : SndCore}

/-- One operation. -/
def next (c : SndRecord C) : SndOp C → Option (SndRecord C)
  | .send m ans =>
    let (_, err, s) := C.send c.core m ans
    some { c with core := s, accepted := if err = none then c.accepted ++ [m] else c.accepted }
  | .autoPing period ans => some { c with core := (C.autoPing c.core period ans).2 }
  | .endSending ans => some { c with core := (C.endSending c.core ans).2, endCalled := true }
  | .asyncEndSending ans =>
    some { c with core := (C.asyncEndSending c.core ans).2.2, endCalled := true }
  | .event ev ans => (C.event c.core ev ans).map fun (s, _) => { c with core := s }

/-- The step relation. -/
def Step (c : SndRecord C) (op : SndOp C) (c' : SndRecord C) : Prop :=
  c.next op = some c'

/-- A message is accepted if there is no error. -/
theorem next_send {c : SndRecord C} {m : C.Msg} {ans : C.Ans} {ok : Bool} {err : ErrorCode}
    {s : C.State} (h : C.send c.core m ans = (ok, err, s)) :
    c.next (.send m ans) =
      some ⟨s, if err = none then c.accepted ++ [m] else c.accepted, c.endCalled⟩ := by
  unfold next
  simp [h]

end SndRecord

namespace SndWorld

variable {C : SndCore} {w w' : SndWorld C}

/-- What an adapter and its core have in common. -/
structure Records (w : SndWorld C) (c : SndRecord C) : Prop where
  core : c.core = w.adapter.syncIo
  accepted : c.accepted = w.accepted
  endCalled : c.endCalled = true → w.ends ≠ []

/-- A task invokes a handler, and leaves the core alone. -/
@[simp] theorem runTask_syncIo {task : Option Nat × ErrorCode} :
    (w.runTask task).adapter.syncIo = w.adapter.syncIo := by
  unfold runTask
  split
  · rfl
  · rfl

@[simp] theorem runTask_accepted {task : Option Nat × ErrorCode} :
    (w.runTask task).accepted = w.accepted := by
  unfold runTask
  split
  · rfl
  · rfl

@[simp] theorem runTask_ends {task : Option Nat × ErrorCode} : (w.runTask task).ends = w.ends := by
  unfold runTask
  split
  · rfl
  · rfl

/-- What has been recorded stays true when a task is run. -/
theorem Records.runTask {c : SndRecord C} {task : Option Nat × ErrorCode} (h : w.Records c) :
    (w.runTask task).Records c where
  core := h.core.trans runTask_syncIo.symm
  accepted := h.accepted.trans runTask_accepted.symm
  endCalled hcalled := by
    rw [runTask_ends]
    exact h.endCalled hcalled

/-- Running what is posted is no matter to the core. -/
theorem Records.runTasks {c : SndRecord C} (tasks : List (Option Nat × ErrorCode))
    (h : w.Records c) : (tasks.foldl SndWorld.runTask w).Records c := by
  induction tasks generalizing w with
  | nil => exact h
  | cons task tasks ih => exact ih h.runTask

/-- The destructor leaves the core alone. -/
theorem dtor_syncIo (a : AsyncAdapterSender C) : a.dtor.1.syncIo = a.syncIo := by
  unfold AsyncAdapterSender.dtor
  split
  · rfl
  · rfl

/-- What a call of `async_end_sending()` comes to for the core. -/
theorem Records.asyncEndSending {c : SndRecord C} (h : w.Records c) (f : Option Nat) (ans : C.Ans)
    {ok : Bool} {a : AsyncAdapterSender C} (hcall : w.adapter.asyncEndSending f ans = (ok, a)) :
    ∃ ops c', Run SndRecord.Step c ops c' ∧ c'.core = a.syncIo ∧ c'.accepted = w.accepted := by
  unfold AsyncAdapterSender.asyncEndSending at hcall
  split at hcall
  · cases hcall
    refine ⟨[.endSending ans], _, Run.single rfl, ?_, h.accepted⟩
    rw [h.core]
  · split at hcall
    · cases hcall
      exact ⟨[], c, Run.nil _, h.core, h.accepted⟩
    · have hop : Run SndRecord.Step c [.asyncEndSending ans]
          ⟨(C.asyncEndSending w.adapter.syncIo ans).2.2, c.accepted, true⟩ := by
        apply Run.single
        unfold SndRecord.Step SndRecord.next
        rw [h.core]
      refine ⟨_, _, hop, ?_, h.accepted⟩
      rcases hsync : C.asyncEndSending w.adapter.syncIo ans with ⟨ok', err, s⟩
      simp only [hsync] at hcall
      split at hcall
      · cases hcall
        rfl
      · split at hcall
        · cases hcall
          rfl
        · cases hcall
          rfl

/-- Each step of an adapter's comes to a run of operations on its core. -/
theorem Records.ops_of_step {c : SndRecord C} {m : SndMove C} (h : w.Records c)
    (hstep : w.Step m w') : ∃ ops c', Run SndRecord.Step c ops c' ∧ w'.Records c' := by
  unfold Step next at hstep
  split at hstep
  · cases hstep
  · cases m with
    | send m ans =>
        rcases hcall : C.send w.adapter.syncIo m ans with ⟨ok, err, s⟩
        unfold AsyncAdapterSender.send at hstep
        simp only [hcall] at hstep
        cases hstep
        rw [← h.core] at hcall
        refine ⟨[.send m ans], _, Run.single (SndRecord.next_send hcall), rfl, ?_, h.endCalled⟩
        simp only [h.accepted]
    | autoPing period ans =>
        cases hstep
        refine ⟨[.autoPing period ans], _, Run.single rfl, ?_, h.accepted, h.endCalled⟩
        rw [h.core]
        rfl
    | asyncEndSending f ans =>
        rcases hcall : w.adapter.asyncEndSending f ans with ⟨ok, a⟩
        simp only [hcall] at hstep
        cases hstep
        obtain ⟨ops, c', hrun, hcore, hacc⟩ := h.asyncEndSending f ans hcall
        exact ⟨ops, c', hrun, hcore, hacc, by simp⟩
    | event ev ans =>
        have hop {s : C.State} {r : Option ErrorCode}
            (hev : C.event w.adapter.syncIo ev ans = some (s, r)) :
            Run SndRecord.Step c [.event ev ans] { c with core := s } := by
          apply Run.single
          unfold SndRecord.Step SndRecord.next
          rw [h.core]
          simp [hev]
        simp only at hstep
        split at hstep
        · cases hstep
        · rename_i s hev
          cases hstep
          exact ⟨_, _, hop hev, rfl, h.accepted, h.endCalled⟩
        · rename_i s err hev
          cases hstep
          exact ⟨_, _, hop hev, rfl, h.accepted, h.endCalled⟩
    | runTask =>
        simp only at hstep
        split at hstep
        · cases hstep
        · rename_i task tasks hworker
          cases hstep
          have hrest : ({ w with adapter := { w.adapter with worker := tasks } } : SndWorld C).Records c :=
            ⟨h.core, h.accepted, h.endCalled⟩
          exact ⟨[], c, Run.nil _, hrest.runTask⟩
    | destroy =>
        cases hstep
        have hnone : ({ w with adapter := { w.adapter with worker := [] } } : SndWorld C).Records c :=
          ⟨h.core, h.accepted, h.endCalled⟩
        have hrun := hnone.runTasks w.adapter.worker
        exact ⟨[], c, Run.nil _, ⟨hrun.core.trans (dtor_syncIo _).symm, hrun.accepted, hrun.endCalled⟩⟩

end SndWorld

end FlowIpc.Adapter
