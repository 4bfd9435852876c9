import FlowIpc.Lib.Transition
import FlowIpc.Found.ErrorCode

/-!
# Ending the sending of a two-pipe channel

A `Channel` with a blobs pipe and a handles pipe forwards `async_end_sending()` to both, and joins
the two completions into the one its user awaits. This file models both overloads, over any pair of
pipes that keep the contract of the concept: a pipe's first `async_end_sending()` completes at once
with a result, or answers would-block and runs its handler once, later; a further one is refused.

* **The join** (`Channel.combinedOnDone`): a record shared by the two handlers counts completions
  and keeps the first result. `JoinInv` ties the record, the pipes and what the user was given to
  the completions so far, in order of time; every input keeps it (`joinInv_step`).
* **`sync_io` overload** (`combines_iff`): all is as documented but for one thing. With a
  completion still to come the call returns without writing would-block to `*sync_err_code_ptr`, and
  without throwing if the pointer is null. So the caller is told right exactly when both pipes
  completed at once, or `*sync_err_code_ptr` happened to hold would-block already.
* **async-I/O overload** (`combinesIo`): the handler runs exactly once, as documented.

Source: `channel.hpp` `Channel::async_end_sending` (both overloads), `Channel::end_sending`.
-/

namespace FlowIpc.ChannelEnd

open Lts

/-! ## Pipes -/

/-- A result an operation can complete with on the spot: anything but would-block. -/
abbrev SyncResult := {e : ErrorCode // e ≠ wouldBlock}

/-- How a pipe will answer its first `async_end_sending()`. -/
inductive Answer where
  /-- It completes at once. -/
  | sync (r : SyncResult)
  /-- It runs its handler later. -/
  | pending
  deriving DecidableEq

/-- A sender pipe, as far as the concept of `async_end_sending()` goes. A waiting pipe holds a copy
of the joining handler, which is to say a reference to the record `k` it shares. -/
inductive Pipe where
  /-- Not ended yet. -/
  | open (answer : Answer)
  /-- Ended; the handler over the record `k` is yet to run. -/
  | waiting (k : Nat)
  /-- Ended and completed. -/
  | finished
  deriving DecidableEq

/-- `peer->async_end_sending(&err, handler)`, `k` standing for the handler: whether the call was
accepted, and what it leaves in `err`, which holds success before the call. -/
def Pipe.asyncEndSending (p : Pipe) (k : Nat) : Bool × ErrorCode × Pipe :=
  match p with
  | .open (.sync r) => (true, r, .finished)
  | .open .pending => (true, wouldBlock, .waiting k)
  | .waiting k' => (false, none, .waiting k')
  | .finished => (false, none, .finished)

/-- `peer->end_sending()`. -/
def Pipe.endSending (p : Pipe) : Bool × Pipe :=
  match p with
  | .open _ => (true, .finished)
  | .waiting k => (false, .waiting k)
  | .finished => (false, .finished)

/-- The pipe has been ended. -/
def Pipe.Ended (p : Pipe) : Prop :=
  ∀ a, p ≠ .open a

/-- A pipe refuses to be ended again. -/
theorem Pipe.asyncEndSending_of_ended {p : Pipe} (h : p.Ended) (k : Nat) :
    p.asyncEndSending k = (false, none, p) := by
  cases p with
  | «open» a => exact absurd rfl (h a)
  | waiting k' => rfl
  | finished => rfl

/-- Either way of asking is refused. -/
theorem Pipe.endSending_of_ended {p : Pipe} (h : p.Ended) : p.endSending = (false, p) := by
  cases p with
  | «open» a => exact absurd rfl (h a)
  | waiting k' => rfl
  | finished => rfl

/-- A pipe that waits has been ended. -/
@[simp] theorem Pipe.ended_waiting (k : Nat) : (Pipe.waiting k).Ended := by
  simp [Pipe.Ended]

/-- So has one that has finished. -/
@[simp] theorem Pipe.ended_finished : Pipe.finished.Ended := by
  simp [Pipe.Ended]

/-! ## The channel -/

/-- The record shared by the two handlers of one call, and by nothing else.
Source: `channel.hpp` `Channel::async_end_sending`, local `struct State` -/
structure State where
  /-- `m_n_done` -/
  nDone : Nat := 0
  /-- `m_err_code1` -/
  errCode1 : ErrorCode := none
  /-- `m_on_done_func`; user handlers are told apart by number. -/
  onDoneFunc : Nat
  deriving DecidableEq

/-- A channel with two pipes, the records made so far for its calls, the handler invocations made so
far, and whether an assertion has failed. -/
structure Channel where
  /-- `blob_snd()` -/
  blobSnd : Pipe
  /-- `hndl_snd()` -/
  hndlSnd : Pipe
  /-- Every record made, in order; a handler refers to one by its position. -/
  states : List State := []
  /-- User handlers invoked, and with what. -/
  invoked : List (Nat × ErrorCode) := []
  /-- Some assertion has failed; execution goes on, as in a build without assertions. -/
  assertFailed : Bool := false
  deriving DecidableEq

namespace Channel

/-- `assert(p)` -/
def assert (c : Channel) (p : Prop) [Decidable p] : Channel :=
  { c with assertFailed := c.assertFailed || !decide p }

/-- An assertion that holds leaves no trace. -/
@[simp] theorem assert_of {c : Channel} {p : Prop} [Decidable p] (h : p) : c.assert p = c := by
  simp [assert, h]

/-- Replaces the record `k`. -/
def setState (c : Channel) (k : Nat) (state : State) : Channel :=
  { c with states := c.states.set k state }

/-- The joining handler over record `k`, run by a pipe with result `asyncErrCode`. The two overloads
write it differently and mean the same: the async-I/O one holds a mutex up to the user handler.
Source: `channel.hpp` `Channel::async_end_sending`, local `combined_on_done` -/
def combinedOnDone (c : Channel) (k : Nat) (asyncErrCode : ErrorCode) : Channel :=
  match c.states[k]? with
  | none => c
  | some state =>
    let postNDone := state.nDone + 1
    let c := c.assert (postNDone = 1 ∨ postNDone = 2)
    if postNDone = 2 then
      let err := if state.errCode1.isSome then state.errCode1 else asyncErrCode
      let c := c.setState k { state with nDone := postNDone }
      { c with invoked := c.invoked ++ [(state.onDoneFunc, err)] }
    else
      c.setState k { state with nDone := postNDone, errCode1 := asyncErrCode }

/-- The `sync_io` overload, of a channel with two pipes; `ptr` is what `sync_err_code_ptr` points to,
if it is not null.
Source: `channel.hpp` `Channel::async_end_sending(Error_code*, Task_err&&)` -/
def asyncEndSending (c : Channel) (ptr : Option ErrorCode) (onDoneFunc : Nat) :
    Emit Bool × Channel :=
  let k := c.states.length
  let state : State := { onDoneFunc := onDoneFunc }
  let c := { c with states := c.states ++ [state] }
  match c.blobSnd.asyncEndSending k with
  | (false, _, _) => (.ret false (ptr.getD none), c)
  | (true, syncErrCode1, peer1) =>
    let (ok, syncErrCode2, peer2) := c.hndlSnd.asyncEndSending k
    let c := { c with blobSnd := peer1, hndlSnd := peer2 }
    let c := c.assert (ok = true)
    if syncErrCode1 ≠ wouldBlock ∧ syncErrCode2 ≠ wouldBlock then
      let syncErrCode := if syncErrCode1.isSome then syncErrCode1 else syncErrCode2
      match ptr, syncErrCode with
      | none, some e => (.threw e, c)
      | none, none => (.ret true none, c)
      | some _, err => (.ret true err, c)
    else
      -- `*sync_err_code_ptr` is not written on the way out of either branch.
      let c :=
        if syncErrCode1 ≠ wouldBlock then
          c.setState k { state with nDone := state.nDone + 1, errCode1 := syncErrCode1 }
        else if syncErrCode2 ≠ wouldBlock then
          c.setState k { state with nDone := state.nDone + 1, errCode1 := syncErrCode2 }
        else c
      (.ret true (ptr.getD none), c)

/-- The async-I/O overload, of a channel with two pipes.
Source: `channel.hpp` `Channel::async_end_sending(Task_err&&)` -/
def asyncEndSendingIo (c : Channel) (onDoneFunc : Nat) : Bool × Channel :=
  let k := c.states.length
  let state : State := { onDoneFunc := onDoneFunc }
  let c := { c with states := c.states ++ [state] }
  match c.blobSnd.asyncEndSending k with
  | (false, _, _) => (false, c)
  | (true, _, peer1) =>
    let (ok, _, peer2) := c.hndlSnd.asyncEndSending k
    let c := { c with blobSnd := peer1, hndlSnd := peer2 }
    (true, c.assert (ok = true))

/-- `end_sending()` of a channel with two pipes.
Source: `channel.hpp` `Channel::end_sending` -/
def endSending (c : Channel) : Bool × Channel :=
  match c.blobSnd.endSending with
  | (false, _) => (false, c)
  | (true, peer1) =>
    let (ok, peer2) := c.hndlSnd.endSending
    let c := { c with blobSnd := peer1, hndlSnd := peer2 }
    (true, c.assert (ok = true))

end Channel

/-! ## Runs -/

/-- What can happen to a channel: a call of the overload under study, an `end_sending()`, or the
completion of a pipe that was left waiting. -/
inductive Input (κ : Type) where
  /-- `async_end_sending()` with the arguments `a`. -/
  | call (a : κ)
  /-- `end_sending()` -/
  | endSending
  /-- The blobs pipe runs its handler. -/
  | blobDone (e : ErrorCode)
  /-- The handles pipe runs its handler. -/
  | hndlDone (e : ErrorCode)

/-- The steps of a channel whose `async_end_sending()` is `call`. -/
inductive Step {κ : Type} (call : Channel → κ → Channel) : Channel → Input κ → Channel → Prop where
  /-- A call may come at any time. -/
  | call (c : Channel) (a : κ) : Step call c (.call a) (call c a)
  /-- So may `end_sending()`. -/
  | endSending (c : Channel) : Step call c .endSending c.endSending.2
  /-- A pipe runs its handler once. -/
  | blobDone (c : Channel) (k : Nat) (e : ErrorCode) : c.blobSnd = .waiting k →
      Step call c (.blobDone e) ({ c with blobSnd := .finished }.combinedOnDone k e)
  /-- A pipe runs its handler once. -/
  | hndlDone (c : Channel) (k : Nat) (e : ErrorCode) : c.hndlSnd = .waiting k →
      Step call c (.hndlDone e) ({ c with hndlSnd := .finished }.combinedOnDone k e)

/-- The completions among the inputs, in order. -/
def completions {κ : Type} (is : List (Input κ)) : List ErrorCode :=
  is.filterMap fun
    | .blobDone e => some e
    | .hndlDone e => some e
    | .call _ => none
    | .endSending => none

/-- The chronologically first error, if there is one. -/
def firstError (done : List ErrorCode) : ErrorCode :=
  done.findSome? id

/-- Of two results the first counts if it is an error, and else the second. -/
@[simp] theorem firstError_pair (e e' : ErrorCode) :
    firstError [e, e'] = if e.isSome then e else e' := by
  cases e <;> cases e' <;> rfl

/-- What is to become of the user handler once the pipes have completed with `done`. -/
def dueInvocations (f : Nat) (done : List ErrorCode) : List (Nat × ErrorCode) :=
  if done.length = 2 then [(f, firstError done)] else []

/-! ## The join -/

/-- The pipes and the record `k` after the completions `done`, for a call with user handler `f` at
least one of whose completions is asynchronous. -/
inductive JoinInv (k f : Nat) : List ErrorCode → Channel → Prop where
  /-- Both pipes wait. -/
  | both {c : Channel} : c.blobSnd = .waiting k → c.hndlSnd = .waiting k →
      c.states[k]? = some { onDoneFunc := f } → c.invoked = [] → c.assertFailed = false →
      JoinInv k f [] c
  /-- The blobs pipe waits; the other has completed with `e`. -/
  | blob {c : Channel} (e : ErrorCode) : c.blobSnd = .waiting k → c.hndlSnd = .finished →
      c.states[k]? = some { nDone := 1, errCode1 := e, onDoneFunc := f } → c.invoked = [] →
      c.assertFailed = false → JoinInv k f [e] c
  /-- The handles pipe waits; the other has completed with `e`. -/
  | hndl {c : Channel} (e : ErrorCode) : c.blobSnd = .finished → c.hndlSnd = .waiting k →
      c.states[k]? = some { nDone := 1, errCode1 := e, onDoneFunc := f } → c.invoked = [] →
      c.assertFailed = false → JoinInv k f [e] c
  /-- Both pipes have completed. -/
  | none {c : Channel} (e e' : ErrorCode) : c.blobSnd = .finished → c.hndlSnd = .finished →
      c.invoked = [(f, firstError [e, e'])] → c.assertFailed = false → JoinInv k f [e, e'] c

variable {k f : Nat} {done : List ErrorCode} {c c' : Channel}

/-- A channel that differs only in records added after `k` is as good. -/
theorem JoinInv.of_states_append (h : JoinInv k f done c) (extra : List State) :
    JoinInv k f done { c with states := c.states ++ extra } := by
  have hget : ∀ st, c.states[k]? = some st → (c.states ++ extra)[k]? = some st := by
    intro st hst
    have hlt : k < c.states.length := by
      by_contra hge
      rw [List.getElem?_eq_none (by omega)] at hst
      cases hst
    rw [List.getElem?_append_left hlt, hst]
  cases h with
  | both h₁ h₂ hst hinv has => exact .both h₁ h₂ (hget _ hst) hinv has
  | blob e h₁ h₂ hst hinv has => exact .blob e h₁ h₂ (hget _ hst) hinv has
  | hndl e h₁ h₂ hst hinv has => exact .hndl e h₁ h₂ (hget _ hst) hinv has
  | none e e' h₁ h₂ hinv has => exact .none e e' h₁ h₂ hinv has

/-- Both pipes have been ended. -/
def Channel.Ended (c : Channel) : Prop :=
  c.blobSnd.Ended ∧ c.hndlSnd.Ended

/-- Both pipes have been ended. -/
theorem JoinInv.ended (h : JoinInv k f done c) : c.Ended := by
  unfold Channel.Ended
  cases h with
  | both h₁ h₂ => simp [h₁, h₂]
  | blob e h₁ h₂ => simp [h₁, h₂]
  | hndl e h₁ h₂ => simp [h₁, h₂]
  | none e e' h₁ h₂ => simp [h₁, h₂]

/-- The user has been told exactly what is due. -/
theorem JoinInv.invoked_eq (h : JoinInv k f done c) : c.invoked = dueInvocations f done := by
  cases h with
  | both _ _ _ hinv => exact hinv
  | blob e _ _ _ hinv => exact hinv
  | hndl e _ _ _ hinv => exact hinv
  | none e e' _ _ hinv => exact hinv

/-- No assertion has failed. -/
theorem JoinInv.assertFailed_eq (h : JoinInv k f done c) : c.assertFailed = false := by
  cases h <;> assumption

/-- There are two completions at most. -/
theorem JoinInv.length_le (h : JoinInv k f done c) : done.length ≤ 2 := by
  cases h <;> simp

/-- The first completion marks down its result. -/
theorem combinedOnDone_first {e : ErrorCode} (hst : c.states[k]? = some { onDoneFunc := f })
    (has : c.assertFailed = false) :
    (c.combinedOnDone k e).states[k]? = some { nDone := 1, errCode1 := e, onDoneFunc := f } ∧
      (c.combinedOnDone k e).invoked = c.invoked ∧
      (c.combinedOnDone k e).assertFailed = false := by
  obtain ⟨hlt, hget⟩ := List.getElem?_eq_some_iff.mp hst
  simp [Channel.combinedOnDone, has, Channel.assert, Channel.setState, hlt, hget]

/-- The second completion invokes the user handler with the first error. -/
theorem combinedOnDone_second {e e' : ErrorCode}
    (hst : c.states[k]? = some { nDone := 1, errCode1 := e, onDoneFunc := f })
    (has : c.assertFailed = false) :
    (c.combinedOnDone k e').invoked = c.invoked ++ [(f, firstError [e, e'])] ∧
      (c.combinedOnDone k e').assertFailed = false := by
  simp [Channel.combinedOnDone, hst, has, Channel.assert, Channel.setState]

/-- The joining handler touches neither pipe. -/
theorem combinedOnDone_pipes (c : Channel) (k : Nat) (e : ErrorCode) :
    (c.combinedOnDone k e).blobSnd = c.blobSnd ∧ (c.combinedOnDone k e).hndlSnd = c.hndlSnd := by
  unfold Channel.combinedOnDone
  split
  · exact ⟨rfl, rfl⟩
  · dsimp only
    split <;> exact ⟨rfl, rfl⟩

/-- A call that adds a record to an ended channel and does nothing else. -/
def Refuses {κ : Type} (call : Channel → κ → Channel) : Prop :=
  ∀ c a, c.Ended → ∃ extra, call c a = { c with states := c.states ++ extra }

variable {κ : Type} {call : Channel → κ → Channel} {i : Input κ} {is : List (Input κ)}

/-- Every input keeps the join invariant, adding its completion if it is one. -/
theorem joinInv_step (hcall : Refuses call) (h : JoinInv k f done c) (hstep : Step call c i c') :
    JoinInv k f (done ++ completions [i]) c' := by
  cases hstep with
  | call a =>
      obtain ⟨extra, heq⟩ := hcall c a h.ended
      simpa [completions, heq] using h.of_states_append extra
  | endSending =>
      simpa [completions, Channel.endSending, Pipe.endSending_of_ended h.ended.1] using h
  | blobDone k' e hk' =>
      cases h with
      | both h₁ h₂ hst hinv has =>
          obtain rfl : k = k' := Pipe.waiting.inj (h₁.symm.trans hk')
          obtain ⟨hst', hinv', has'⟩ := combinedOnDone_first (c := { c with blobSnd := .finished })
            (e := e) hst has
          obtain ⟨hp₁, hp₂⟩ := combinedOnDone_pipes { c with blobSnd := .finished } k e
          exact .hndl e hp₁ (hp₂.trans h₂) hst' (hinv'.trans hinv) has'
      | blob e₀ h₁ h₂ hst hinv has =>
          obtain rfl : k = k' := Pipe.waiting.inj (h₁.symm.trans hk')
          obtain ⟨hinv', has'⟩ :=
            @combinedOnDone_second k f { c with blobSnd := .finished } e₀ e hst has
          obtain ⟨hp₁, hp₂⟩ := combinedOnDone_pipes { c with blobSnd := .finished } k e
          exact .none e₀ e hp₁ (hp₂.trans h₂) (by rw [hinv']; simp [hinv]) has'
      | hndl e₀ h₁ => rw [h₁] at hk'; cases hk'
      | none e₀ e₁ h₁ => rw [h₁] at hk'; cases hk'
  | hndlDone k' e hk' =>
      cases h with
      | both h₁ h₂ hst hinv has =>
          obtain rfl : k = k' := Pipe.waiting.inj (h₂.symm.trans hk')
          obtain ⟨hst', hinv', has'⟩ := combinedOnDone_first (c := { c with hndlSnd := .finished })
            (e := e) hst has
          obtain ⟨hp₁, hp₂⟩ := combinedOnDone_pipes { c with hndlSnd := .finished } k e
          exact .blob e (hp₁.trans h₁) hp₂ hst' (hinv'.trans hinv) has'
      | blob e₀ _ h₂ => rw [h₂] at hk'; cases hk'
      | hndl e₀ h₁ h₂ hst hinv has =>
          obtain rfl : k = k' := Pipe.waiting.inj (h₂.symm.trans hk')
          obtain ⟨hinv', has'⟩ :=
            @combinedOnDone_second k f { c with hndlSnd := .finished } e₀ e hst has
          obtain ⟨hp₁, hp₂⟩ := combinedOnDone_pipes { c with hndlSnd := .finished } k e
          exact .none e₀ e (hp₁.trans h₁) hp₂ (by rw [hinv']; simp [hinv]) has'
      | none e₀ e₁ _ h₂ => rw [h₂] at hk'; cases hk'

/-- Every run keeps the join invariant, the completions of the run added in order. -/
theorem joinInv_run (hcall : Refuses call) (h : JoinInv k f done c)
    (hrun : Run (Step call) c is c') : JoinInv k f (done ++ completions is) c' := by
  induction hrun with
  | nil => simpa [completions] using h
  | snoc _ hstep ih =>
      have := joinInv_step hcall ih hstep
      simpa [completions, List.filterMap_append, List.append_assoc] using this

/-- Nothing becomes of an ended channel whose pipes have completed. -/
theorem finished_run (hcall : Refuses call) (h₁ : c.blobSnd = .finished) (h₂ : c.hndlSnd = .finished)
    (hrun : Run (Step call) c is c') :
    c'.blobSnd = .finished ∧ c'.hndlSnd = .finished ∧ c'.invoked = c.invoked ∧
      c'.assertFailed = c.assertFailed ∧ completions is = [] := by
  induction hrun with
  | nil => exact ⟨h₁, h₂, rfl, rfl, rfl⟩
  | @snoc t u is i _ hstep ih =>
      obtain ⟨h₁', h₂', hinv, has, hnil⟩ := ih
      have hended : t.Ended := ⟨h₁' ▸ Pipe.ended_finished, h₂' ▸ Pipe.ended_finished⟩
      cases hstep with
      | call a =>
          obtain ⟨extra, heq⟩ := hcall t a hended
          rw [heq]
          exact ⟨h₁', h₂', hinv, has, by simpa [completions] using hnil⟩
      | endSending =>
          have heq : t.endSending.2 = t := by
            simp [Channel.endSending, Pipe.endSending_of_ended hended.1]
          rw [heq]
          exact ⟨h₁', h₂', hinv, has, by simpa [completions] using hnil⟩
      | blobDone k' e hk' => rw [h₁'] at hk'; cases hk'
      | hndlDone k' e hk' => rw [h₂'] at hk'; cases hk'

/-! ## The two overloads -/

/-- A channel before any call, its pipes about to answer `a₁` and `a₂`. -/
def Channel.fresh (a₁ a₂ : Answer) : Channel where
  blobSnd := .open a₁
  hndlSnd := .open a₂

/-- The results the pipes complete with on the spot, in the order in which they are called. -/
def syncResults (a₁ a₂ : Answer) : List ErrorCode :=
  [a₁, a₂].filterMap fun
    | .sync r => some r.1
    | .pending => none

/-- A pending pipe has no result on the spot. -/
theorem syncResults_length_ne {a₁ a₂ : Answer} (h : a₁ = .pending ∨ a₂ = .pending) :
    (syncResults a₁ a₂).length ≠ 2 := by
  rcases h with rfl | rfl
  · rcases a₂ with _ | _ <;> simp [syncResults]
  · rcases a₁ with _ | _ <;> simp [syncResults]

/-- The `sync_io` overload as a step. -/
def callSync (c : Channel) (a : Option ErrorCode × Nat) : Channel :=
  (c.asyncEndSending a.1 a.2).2

/-- The async-I/O overload as a step. -/
def callIo (c : Channel) (f : Nat) : Channel :=
  (c.asyncEndSendingIo f).2

/-- An ended channel refuses the `sync_io` call, and invokes nothing. -/
theorem asyncEndSending_of_ended (h : c.Ended) (ptr : Option ErrorCode) (f : Nat) :
    c.asyncEndSending ptr f
      = (.ret false (ptr.getD none), { c with states := c.states ++ [{ onDoneFunc := f }] }) := by
  simp [Channel.asyncEndSending, Pipe.asyncEndSending_of_ended h.1]

/-- An ended channel refuses the async-I/O call, and invokes nothing. -/
theorem asyncEndSendingIo_of_ended (h : c.Ended) (f : Nat) :
    c.asyncEndSendingIo f
      = (false, { c with states := c.states ++ [{ onDoneFunc := f }] }) := by
  simp [Channel.asyncEndSendingIo, Pipe.asyncEndSending_of_ended h.1]

/-- The `sync_io` call refuses, on an ended channel. -/
theorem refuses_callSync : Refuses callSync := fun c a h =>
  ⟨[{ onDoneFunc := a.2 }], by simp [callSync, asyncEndSending_of_ended h]⟩

/-- So does the async-I/O call. -/
theorem refuses_callIo : Refuses callIo := fun c f h =>
  ⟨[{ onDoneFunc := f }], by simp [callIo, asyncEndSendingIo_of_ended h]⟩

/-- The first `sync_io` call on a channel one of whose pipes is to complete later is accepted, leaves
`*sync_err_code_ptr` as it was, and sets up the join. -/
theorem asyncEndSending_pending {a₁ a₂ : Answer} (h : a₁ = .pending ∨ a₂ = .pending)
    (ptr : Option ErrorCode) (f : Nat) :
    ((Channel.fresh a₁ a₂).asyncEndSending ptr f).1 = .ret true (ptr.getD none) ∧
      JoinInv 0 f (syncResults a₁ a₂) ((Channel.fresh a₁ a₂).asyncEndSending ptr f).2 := by
  rcases a₁ with ⟨r₁, hr₁⟩ | _
  · rcases a₂ with r₂ | _
    · simp at h
    · simp only [Channel.asyncEndSending, Channel.fresh, Pipe.asyncEndSending, Channel.assert_of,
        ne_eq, hr₁, not_true, and_false, if_false, not_false_eq_true, if_true]
      exact ⟨trivial, .hndl r₁ rfl rfl rfl rfl rfl⟩
  · rcases a₂ with ⟨r₂, hr₂⟩ | _
    · simp only [Channel.asyncEndSending, Channel.fresh, Pipe.asyncEndSending, Channel.assert_of,
        ne_eq, hr₂, not_true, false_and, if_false, not_false_eq_true, if_true]
      exact ⟨trivial, .blob r₂ rfl rfl rfl rfl rfl⟩
    · exact ⟨rfl, .both rfl rfl rfl rfl rfl⟩

/-- The first `sync_io` call on a channel both of whose pipes complete on the spot reports the first
error, and invokes nothing. -/
theorem asyncEndSending_sync (r₁ r₂ : SyncResult) (ptr : Option ErrorCode) (f : Nat) :
    ((Channel.fresh (.sync r₁) (.sync r₂)).asyncEndSending ptr f).1
        = report ptr (firstError [r₁.1, r₂.1]) ∧
      ∃ c, ((Channel.fresh (.sync r₁) (.sync r₂)).asyncEndSending ptr f).2 = c ∧
        c.blobSnd = .finished ∧ c.hndlSnd = .finished ∧ c.invoked = [] ∧
        c.assertFailed = false := by
  obtain ⟨e₁, h₁⟩ := r₁
  obtain ⟨e₂, h₂⟩ := r₂
  simp only [Channel.asyncEndSending, Channel.fresh, Pipe.asyncEndSending, firstError_pair,
    Channel.assert_of, ne_eq, h₁, h₂, not_false_eq_true, and_self, if_true]
  rcases ptr with _ | p
  · rcases e₁ with _ | e₁ <;> rcases e₂ with _ | e₂ <;> exact ⟨rfl, _, rfl, rfl, rfl, rfl, rfl⟩
  · exact ⟨rfl, _, rfl, rfl, rfl, rfl, rfl⟩

/-- The first async-I/O call is accepted and sets up the join; the handler of an async-I/O pipe
always runs later. -/
theorem asyncEndSendingIo_fresh (f : Nat) :
    ((Channel.fresh .pending .pending).asyncEndSendingIo f).1 = true ∧
      JoinInv 0 f [] ((Channel.fresh .pending .pending).asyncEndSendingIo f).2 :=
  ⟨rfl, .both rfl rfl rfl rfl rfl⟩

/-- What the user of the `sync_io` overload is promised of the first call, made with the pointer
`ptr` and the handler `f`, and of all that follows it. -/
structure CombinesSync (a₁ a₂ : Answer) (ptr : Option ErrorCode) (f : Nat) : Prop where
  /-- The call reports the first error if both pipes completed on the spot, and would-block
  otherwise. -/
  told : ((Channel.fresh a₁ a₂).asyncEndSending ptr f).1 =
    report ptr (if (syncResults a₁ a₂).length = 2 then firstError (syncResults a₁ a₂) else wouldBlock)
  /-- After any further inputs, the handler has been invoked exactly if a completion was left to
  come and both pipes have completed; then once, with the first error in order of time. -/
  invoked : ∀ is c, Run (Step callSync) ((Channel.fresh a₁ a₂).asyncEndSending ptr f).2 is c →
    (syncResults a₁ a₂ ++ completions is).length ≤ 2 ∧
    c.invoked = (if (syncResults a₁ a₂).length = 2 then []
      else dueInvocations f (syncResults a₁ a₂ ++ completions is)) ∧ c.assertFailed = false
  /-- A further call returns `false`, writes nothing and invokes nothing. -/
  refused : ∀ is c, Run (Step callSync) ((Channel.fresh a₁ a₂).asyncEndSending ptr f).2 is c →
    ∀ ptr' f', (c.asyncEndSending ptr' f').1 = .ret false (ptr'.getD none) ∧
      (c.asyncEndSending ptr' f').2.invoked = c.invoked

/-- The `sync_io` overload keeps its promise but for what it tells the caller of a pending pipe. -/
theorem combinesSync_of_told {a₁ a₂ : Answer} {ptr : Option ErrorCode} {f : Nat}
    (h : (syncResults a₁ a₂).length = 2 ∨ ptr = some wouldBlock) : CombinesSync a₁ a₂ ptr f := by
  by_cases hp : a₁ = .pending ∨ a₂ = .pending
  · have hlen := syncResults_length_ne hp
    obtain ⟨htold, hjoin⟩ := asyncEndSending_pending hp ptr f
    refine ⟨?_, fun is c hrun => ?_, fun is c hrun ptr' f' => ?_⟩
    · rw [htold, if_neg hlen, h.resolve_left hlen]
      rfl
    · have h := joinInv_run refuses_callSync hjoin hrun
      rw [if_neg hlen]
      exact ⟨h.length_le, h.invoked_eq, h.assertFailed_eq⟩
    · have h := joinInv_run refuses_callSync hjoin hrun
      rw [asyncEndSending_of_ended h.ended]
      exact ⟨rfl, rfl⟩
  · rcases a₁ with r₁ | _
    · rcases a₂ with r₂ | _
      · obtain ⟨htold, c₀, hc₀, h₁, h₂, hinv, has⟩ := asyncEndSending_sync r₁ r₂ ptr f
        refine ⟨htold, fun is c hrun => ?_, fun is c hrun ptr' f' => ?_⟩
        · obtain ⟨_, _, hinv', has', hnil⟩ := finished_run refuses_callSync (hc₀ ▸ h₁) (hc₀ ▸ h₂) hrun
          rw [hinv', has', hnil, hc₀]
          exact ⟨Nat.le_refl _, hinv, has⟩
        · obtain ⟨h₁', h₂', _⟩ := finished_run refuses_callSync (hc₀ ▸ h₁) (hc₀ ▸ h₂) hrun
          have hended : c.Ended := ⟨h₁' ▸ Pipe.ended_finished, h₂' ▸ Pipe.ended_finished⟩
          rw [asyncEndSending_of_ended hended]
          exact ⟨rfl, rfl⟩
      · simp at hp
    · simp at hp

/-- What the user of the async-I/O overload is promised of the first call, made with the handler
`f`, and of all that follows it. -/
structure CombinesIo (f : Nat) : Prop where
  /-- The call is accepted. -/
  told : ((Channel.fresh .pending .pending).asyncEndSendingIo f).1 = true
  /-- The handler is invoked exactly once, when both pipes have completed, with the first error in
  order of time. -/
  invoked : ∀ is c, Run (Step callIo) ((Channel.fresh .pending .pending).asyncEndSendingIo f).2 is c →
    (completions is).length ≤ 2 ∧ c.invoked = dueInvocations f (completions is) ∧
      c.assertFailed = false
  /-- A further call returns `false` and invokes nothing. -/
  refused : ∀ is c, Run (Step callIo) ((Channel.fresh .pending .pending).asyncEndSendingIo f).2 is c →
    ∀ f', (c.asyncEndSendingIo f').1 = false ∧ (c.asyncEndSendingIo f').2.invoked = c.invoked

/-- The async-I/O overload keeps its promise. -/
theorem combinesIo (f : Nat) : CombinesIo f := by
  obtain ⟨htold, hjoin⟩ := asyncEndSendingIo_fresh f
  refine ⟨htold, fun is c hrun => ?_, fun is c hrun f' => ?_⟩
  · have h := joinInv_run refuses_callIo hjoin hrun
    exact ⟨h.length_le, h.invoked_eq, h.assertFailed_eq⟩
  · have h := joinInv_run refuses_callIo hjoin hrun
    rw [asyncEndSendingIo_of_ended h.ended]
    exact ⟨rfl, rfl⟩

/-- **The two-pipe close.** The async-I/O overload always keeps its promise. The `sync_io` overload
keeps it exactly when both pipes complete on the spot or `*sync_err_code_ptr` held would-block
before the call. -/
theorem combines_iff (a₁ a₂ : Answer) (ptr : Option ErrorCode) (f : Nat) :
    (CombinesSync a₁ a₂ ptr f ↔
      ((a₁ ≠ .pending ∧ a₂ ≠ .pending) ∨ ptr = some wouldBlock)) ∧ CombinesIo f := by
  refine ⟨⟨fun h => ?_, fun h => combinesSync_of_told ?_⟩, combinesIo f⟩
  · by_cases hp : a₁ = .pending ∨ a₂ = .pending
    · right
      have hlen := syncResults_length_ne hp
      have htold := h.told
      rw [(asyncEndSending_pending hp ptr f).1, if_neg hlen] at htold
      rcases ptr with _ | p
      · cases htold
      · cases htold
        rfl
    · exact .inl (not_or.mp hp)
  · rcases h with ⟨h₁, h₂⟩ | h
    · rcases a₁ with r₁ | _
      · rcases a₂ with r₂ | _
        · exact .inl rfl
        · exact absurd rfl h₂
      · exact absurd rfl h₁
    · exact .inr h

/-- A blobs pipe that is to complete later, a handles pipe that completes at once, and a caller who
passes a cleared `Error_code`: the call returns `true` and leaves it clear. -/
theorem not_combines_pending :
    ¬ ∀ a₁ a₂ ptr f, CombinesSync a₁ a₂ ptr f ∧ CombinesIo f := by
  intro h
  have htold := (h .pending (.sync ⟨none, by decide⟩) (some none) 0).1.told
  exact absurd htold (by decide)

end FlowIpc.ChannelEnd
