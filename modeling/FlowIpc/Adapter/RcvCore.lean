import FlowIpc.Found.ErrorCode

/-!
# What the asynchronous receiver needs of its core

An `Async_adapter_receiver` is a template over the `sync_io` core it wraps. `RcvCore` is what the
adapter calls of a core and what it relies on: one request at a time, which the core answers at once
or is left outstanding; an event may answer it later; an error that hoses the pipe answers every
later request too, and the one error that does not is `S_INVALID_ARGUMENT`.

Source: `sync_io/blob_receiver.hpp`, `sync_io/native_handle_receiver.hpp` (the concepts).
-/

namespace FlowIpc.Adapter

/-- The outcome of a receive: the code, and the message if it is falsy. -/
abbrev Result (Msg : Type) := ErrorCode × Msg

/-- What one call or event did to a core: `s` before, `s'` after, and the result it came to.
`outstanding` says whether a request is being worked on, `hosed` which error has ended the pipe. -/
inductive Completes {State Msg : Type} (outstanding : State → Bool) (hosed : State → ErrorCode)
    (noMsg : Msg) (s s' : State) : Result Msg → Prop where
  /-- A message arrived. -/
  | message (m : Msg) (before : hosed s = none) (after : hosed s' = none)
      (idle : outstanding s' = false) : Completes outstanding hosed noMsg s s' (none, m)
  /-- The pipe is hosed, by now or by an earlier error. -/
  | hosed (e : Err) (genuine : Genuine (some e)) (ne : e ≠ .code .invalidArgument)
      (before : hosed s = none ∨ hosed s = some e) (after : hosed s' = some e)
      (idle : outstanding s' = false) : Completes outstanding hosed noMsg s s' (some e, noMsg)
  /-- The request itself is at fault. -/
  | invalid (before : hosed s = none) (same : s' = s) :
      Completes outstanding hosed noMsg s s' (Code.invalidArgument.toErrorCode, noMsg)

/-- What has been answered is no more outstanding. -/
theorem Completes.idle {State Msg : Type} {outstanding : State → Bool} {hosed : State → ErrorCode}
    {noMsg : Msg} {s s' : State} {res : Result Msg}
    (h : Completes outstanding hosed noMsg s s' res) (hs : outstanding s = false) :
    outstanding s' = false := by
  cases h with
  | message _ _ _ idle => exact idle
  | hosed _ _ _ _ _ idle => exact idle
  | invalid _ same => rw [same, hs]

/-- No result is a code for those who wait. -/
theorem Completes.genuine {State Msg : Type} {outstanding : State → Bool}
    {hosed : State → ErrorCode} {noMsg : Msg} {s s' : State} {res : Result Msg}
    (h : Completes outstanding hosed noMsg s s' res) : Genuine res.1 := by
  cases h with
  | message _ _ _ _ => exact genuine_none
  | hosed _ genuine _ _ _ _ => exact genuine
  | invalid _ _ => simp

/-- A result that is not the request's own fault ends the request on the core. -/
theorem Completes.idle_of_ne {State Msg : Type} {outstanding : State → Bool}
    {hosed : State → ErrorCode} {noMsg : Msg} {s s' : State} {res : Result Msg}
    (h : Completes outstanding hosed noMsg s s' res)
    (hne : res.1 ≠ Code.invalidArgument.toErrorCode) : outstanding s' = false := by
  cases h with
  | message _ _ _ idle => exact idle
  | hosed _ _ _ _ _ idle => exact idle
  | invalid _ _ => exact absurd rfl hne

/-- What an event did to a core, and to the request outstanding if any. -/
inductive EventEffect {State Msg : Type} (outstanding : State → Bool) (hosed : State → ErrorCode)
    (noMsg : Msg) (s s' : State) : Option (Result Msg) → Prop where
  /-- No request is answered. -/
  | silent (same : outstanding s' = outstanding s) (keeps : hosed s = none ∨ hosed s' = hosed s) :
      EventEffect outstanding hosed noMsg s s' none
  /-- The request outstanding is answered. -/
  | answered (res : Result Msg) (before : outstanding s = true)
      (ne : res.1 ≠ Code.invalidArgument.toErrorCode)
      (completes : Completes outstanding hosed noMsg s s' res) :
      EventEffect outstanding hosed noMsg s s' (some res)

/-- A `sync_io` receiver core, as far as the adapter is concerned. -/
structure RcvCore where
  /-- The core's state. -/
  State : Type
  /-- What a request asks for: the target buffer, and the target handle if any. -/
  Req : Type
  /-- What it gets. -/
  Msg : Type
  /-- `sz` -/
  sz : Msg → Nat
  /-- What it gets with an error. -/
  noMsg : Msg
  /-- What else happens to the core: the event loop's events, `idle_timer_run()`. -/
  Ev : Type
  /-- What the transport answers in the course of one call. -/
  Ans : Type
  /-- The core has just entered the PEER state. -/
  Init : State → Prop
  /-- `start_receive_*_ops()` -/
  startReceiveOps : State → Bool × State
  /-- `async_receive_*()`: what it returns, and what it leaves for the caller. -/
  asyncReceive : State → Req → Ans → Bool × Result Msg × State
  /-- An event, and the result for the outstanding request if it is answered. -/
  event : State → Ev → Ans → Option (State × Option (Result Msg))
  /-- A request is outstanding. -/
  outstanding : State → Bool
  /-- The error that has ended the pipe. -/
  hosed : State → ErrorCode
  /-- What holds of a core in use. -/
  Inv : State → Prop
  sz_noMsg : sz noMsg = 0
  inv_start : ∀ s, Init s → (startReceiveOps s).1 = true ∧ Inv (startReceiveOps s).2 ∧
    outstanding (startReceiveOps s).2 = false ∧ hosed (startReceiveOps s).2 = none
  /-- A hosed core has answered what was asked of it. -/
  idle_of_hosed : ∀ s, Inv s → hosed s ≠ none → outstanding s = false
  /-- A request is accepted while none is outstanding, and is then outstanding or answered. -/
  receive_spec : ∀ s req ans ok res s', Inv s → outstanding s = false →
    asyncReceive s req ans = (ok, res, s') → ok = true ∧ Inv s' ∧
      ((res = (wouldBlock, noMsg) ∧ outstanding s' = true ∧ hosed s' = none ∧ hosed s = none) ∨
        (res.1 ≠ wouldBlock ∧ Completes outstanding hosed noMsg s s' res))
  /-- An event answers an outstanding request or leaves it be. -/
  event_spec : ∀ s ev ans s' res, Inv s → event s ev ans = some (s', res) →
    Inv s' ∧ EventEffect outstanding hosed noMsg s s' res

/-- The check that a core makes of a request before it reads anything. A request that does not pass it
fails by itself, and the core is as it was. -/
structure RequestCheck (C : RcvCore) where
  /-- The request passes. -/
  fits : C.State → C.Req → Bool
  fits_receive : ∀ s req ans, fits (C.asyncReceive s req ans).2.2 = fits s
  fits_event : ∀ s ev ans s' res, C.event s ev ans = some (s', res) → fits s' = fits s
  /-- A hosed core says so to any request. -/
  receive_hosed : ∀ s req ans e, C.Inv s → C.hosed s = some e →
    C.asyncReceive s req ans = (true, (some e, C.noMsg), s)
  receive_unfit : ∀ s req ans, C.Inv s → C.outstanding s = false → C.hosed s = none →
    fits s req = false →
      C.asyncReceive s req ans = (true, (Code.invalidArgument.toErrorCode, C.noMsg), s)
  receive_fit : ∀ s req ans, C.Inv s → C.outstanding s = false → fits s req = true →
    (C.asyncReceive s req ans).2.1.1 ≠ Code.invalidArgument.toErrorCode
  hosed_ne : ∀ s, C.Inv s → C.hosed s ≠ Code.invalidArgument.toErrorCode

end FlowIpc.Adapter
