import FlowIpc.Adapter.SndCore
import FlowIpc.Lib.Transition

/-!
# The asynchronous sender

`Async_adapter_sender` passes everything on to its core but one: the handler of `async_end_sending()` it
keeps in a slot of its own and gives the core a handler that only looks there. So the handler is still
at hand if the adapter is destroyed before the core has an answer. Handlers are not invoked where the
answer is known but posted to the worker thread.

Everything the adapter does is done under its mutex, from one call or one event, so such a call or
event is a step; running one posted handler is another.

Source: `sync_io/detail/async_adapter_snd.hpp`.
-/

namespace FlowIpc.Adapter

/-- An `Async_adapter_sender`. Handlers are told apart by number.
Source: `async_adapter_snd.hpp` `Async_adapter_sender` -/
structure AsyncAdapterSender (C : SndCore) where
  /-- `m_sync_io` -/
  syncIo : C.State
  /-- `m_end_sending_on_done_func_or_empty` -/
  endSendingOnDoneFunc : Option Nat
  /-- The tasks posted to `m_worker` and not yet run: the handler to invoke, which might be empty, and
  what it is to be told. -/
  worker : List (Option Nat × ErrorCode)
  /-- Some assertion has failed, or an empty handler was invoked; execution goes on, as in a build
  without assertions. -/
  assertFailed : Bool

namespace AsyncAdapterSender

variable {C : SndCore}

/-- `assert(p)` -/
def assert (a : AsyncAdapterSender C) (p : Prop) [Decidable p] : AsyncAdapterSender C :=
  { a with assertFailed := a.assertFailed || !decide p }

/-- An assertion that holds leaves no trace. -/
@[simp] theorem assert_of {a : AsyncAdapterSender C} {p : Prop} [Decidable p] (h : p) :
    a.assert p = a := by
  simp [assert, h]

/-- The constructor, around a core that has just entered the PEER state.
Source: `async_adapter_snd.hpp` `Async_adapter_sender()` -/
def ctor (s : C.State) (ans : C.Ans) : AsyncAdapterSender C :=
  let (ok, s) := C.startSendOps s ans
  let a : AsyncAdapterSender C := ⟨s, none, [], false⟩
  a.assert (ok = true)

/-- `send_native_handle()`, `send_blob()`: `*err_code`.
Source: `async_adapter_snd.hpp` `send_native_handle`, `send_blob` -/
def send (a : AsyncAdapterSender C) (m : C.Msg) (ans : C.Ans) : ErrorCode × AsyncAdapterSender C :=
  let (ok, err, s) := C.send a.syncIo m ans
  (err, { a with syncIo := s }.assert (ok = true))

/-- `auto_ping()`
Source: `async_adapter_snd.hpp` `auto_ping` -/
def autoPing (a : AsyncAdapterSender C) (period : {n : Nat // 0 < n}) (ans : C.Ans) :
    Bool × AsyncAdapterSender C :=
  let (ok, s) := C.autoPing a.syncIo period ans
  (ok, { a with syncIo := s })

/-- `on_sync_io_end_sending_done()`
Source: `async_adapter_snd.hpp` `on_sync_io_end_sending_done` -/
def onSyncIoEndSendingDone (a : AsyncAdapterSender C) (err : ErrorCode) : AsyncAdapterSender C :=
  let a := a.assert (err ≠ operationAborted)
  { a with
    worker := a.worker ++ [(a.endSendingOnDoneFunc, err)]
    endSendingOnDoneFunc := none }

/-- `async_end_sending()`, and with no handler `end_sending()`.
Source: `async_adapter_snd.hpp` `async_end_sending` -/
def asyncEndSending (a : AsyncAdapterSender C) (onDoneFuncOrEmpty : Option Nat) (ans : C.Ans) :
    Bool × AsyncAdapterSender C :=
  match onDoneFuncOrEmpty with
  | none =>
    let (ok, s) := C.endSending a.syncIo ans
    (ok, { a with syncIo := s })
  | some f =>
    if a.endSendingOnDoneFunc.isSome then (false, a)
    else
      let a := { a with endSendingOnDoneFunc := some f }
      let (ok, syncErrCode, s) := C.asyncEndSending a.syncIo ans
      let a := { a with syncIo := s }
      if ok = false then (false, { a with endSendingOnDoneFunc := none })
      else if syncErrCode = wouldBlock then (true, a)
      else (true, a.onSyncIoEndSendingDone syncErrCode)

/-- The destructor, once the posted tasks have run: the handler invoked, if any.
Source: `async_adapter_snd.hpp` `~Async_adapter_sender()` -/
def dtor (a : AsyncAdapterSender C) : AsyncAdapterSender C × List (Nat × ErrorCode) :=
  match a.endSendingOnDoneFunc with
  | some f => (a, [(f, Code.objectShutdownAbortedCompletionHandler.toErrorCode)])
  | none => (a, [])

end AsyncAdapterSender

/-! ## The system -/

/-- An adapter and what has been asked of it and answered. -/
structure SndWorld (C : SndCore) where
  /-- The adapter. -/
  adapter : AsyncAdapterSender C
  /-- The messages accepted, oldest first. -/
  accepted : List C.Msg
  /-- The calls of `end_sending()` and `async_end_sending()`, oldest first, with what they returned. -/
  ends : List (Option Nat × Bool)
  /-- The handlers invoked, in order, with what they were told. -/
  invoked : List (Nat × ErrorCode)
  /-- The adapter has been destroyed. -/
  destroyed : Bool

/-- What can happen to an adapter. -/
inductive SndMove (C : SndCore) where
  /-- `send_native_handle()` or `send_blob()` -/
  | send (m : C.Msg) (ans : C.Ans)
  /-- `auto_ping()` -/
  | autoPing (period : {n : Nat // 0 < n}) (ans : C.Ans)
  /-- `async_end_sending()`, or with no handler `end_sending()`. -/
  | asyncEndSending (onDoneFuncOrEmpty : Option Nat) (ans : C.Ans)
  /-- Something happens to the core. -/
  | event (ev : C.Ev) (ans : C.Ans)
  /-- The worker thread runs the next task. -/
  | runTask
  /-- The worker is stopped, what was posted to it is run, and the adapter is destroyed. -/
  | destroy

namespace SndWorld

variable {C : SndCore}

/-- Runs a posted task. -/
def runTask (w : SndWorld C) (task : Option Nat × ErrorCode) : SndWorld C :=
  match task.1 with
  | some f => { w with invoked := w.invoked ++ [(f, task.2)] }
  | none => { w with adapter := w.adapter.assert False }

/-- One step. -/
def next (w : SndWorld C) (m : SndMove C) : Option (SndWorld C) :=
  if w.destroyed then none
  else
    match m with
    | .send m ans =>
      let (err, a) := w.adapter.send m ans
      some { w with
        adapter := a
        accepted := if err = none then w.accepted ++ [m] else w.accepted }
    | .autoPing period ans => some { w with adapter := (w.adapter.autoPing period ans).2 }
    | .asyncEndSending f ans =>
      let (ok, a) := w.adapter.asyncEndSending f ans
      some { w with
        adapter := a
        ends := w.ends ++ [(f, ok)] }
    | .event ev ans =>
      match C.event w.adapter.syncIo ev ans with
      | none => none
      | some (s, none) => some { w with adapter := { w.adapter with syncIo := s } }
      | some (s, some err) =>
        some { w with adapter := { w.adapter with syncIo := s }.onSyncIoEndSendingDone err }
    | .runTask =>
      match w.adapter.worker with
      | [] => none
      | task :: tasks => some ({ w with adapter := { w.adapter with worker := tasks } }.runTask task)
    | .destroy =>
      let w' := w.adapter.worker.foldl runTask { w with adapter := { w.adapter with worker := [] } }
      let (a, aborted) := w'.adapter.dtor
      some { w' with
        adapter := a
        invoked := w'.invoked ++ aborted
        destroyed := true }

/-- The step relation. -/
def Step (w : SndWorld C) (m : SndMove C) (w' : SndWorld C) : Prop :=
  w.next m = some w'

/-- An adapter just constructed. -/
def Init (w : SndWorld C) : Prop :=
  ∃ s ans, C.Init s ∧ w = ⟨.ctor s ans, [], [], [], false⟩

/-- The core will not lose a handler that it is given in this step. -/
def Keeps (w : SndWorld C) : SndMove C → Prop
  | .asyncEndSending (some _) ans => C.Keeps w.adapter.syncIo ans
  | _ => True

/-- A state that an adapter comes to. -/
def Reached (w : SndWorld C) : Prop :=
  Lts.Reachable Step Init w

/-- A state that an adapter comes to by steps in which its core loses no handler. -/
def ReachedKeeping (w : SndWorld C) : Prop :=
  Lts.Reachable (Lts.Restrict Step Keeps) Init w

end SndWorld

end FlowIpc.Adapter
