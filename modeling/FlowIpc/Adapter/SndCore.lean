import FlowIpc.Found.ErrorCode

/-!
# What the asynchronous sender needs of its core

An `Async_adapter_sender` is a template over the `sync_io` core it wraps. `SndCore` is what the adapter
calls of a core and what it relies on: messages are accepted until the sending is ended, that can be
done once, and a handler given for it is answered at once or kept, and if it is kept it is invoked by
the event that finds an error or hands the last of it to the transport.

A core may lose the handler instead of keeping it. `Keeps` says of a call, before it is made, that this
core will not, and what is relied on is relied on for such calls only.

Source: `sync_io/blob_sender.hpp`, `sync_io/native_handle_sender.hpp` (the concepts).
-/

namespace FlowIpc.Adapter

/-- How far a core is with the end of the sending. -/
inductive Phase where
  /-- It has not been asked for. -/
  | opened
  /-- It was asked for without a handler. -/
  | silent
  /-- The handler is kept: something is still to be handed to the transport. -/
  | waiting
  /-- The handler was answered with this. -/
  | done (err : ErrorCode)
  deriving DecidableEq

section Effects

variable {State Msg : Type} (Inv : State → Phase → List Msg → Prop)

/-- What a call of `end_sending()` did, `s'` being the core after it, and what it returned. -/
inductive EndEffect (ph : Phase) (acc : List Msg) (s' : State) : Bool → Prop where
  /-- The sending had been ended before. -/
  | refused (before : ph ≠ .opened) (after : Inv s' ph acc) : EndEffect ph acc s' false
  /-- It is ended now. -/
  | ended (before : ph = .opened) (after : Inv s' .silent acc) : EndEffect ph acc s' true

/-- What a call of `async_end_sending()` did: what it returned, and the code it left. -/
inductive AsyncEndEffect (ph : Phase) (acc : List Msg) (s' : State) : Bool → ErrorCode → Prop where
  /-- The sending had been ended before. -/
  | refused (err : ErrorCode) (before : ph ≠ .opened) (after : Inv s' ph acc) :
      AsyncEndEffect ph acc s' false err
  /-- The handler is kept. -/
  | kept (before : ph = .opened) (after : Inv s' .waiting acc) :
      AsyncEndEffect ph acc s' true wouldBlock
  /-- The result is known. -/
  | answered (err : ErrorCode) (before : ph = .opened) (ne : err ≠ wouldBlock)
      (after : Inv s' (.done err) acc) : AsyncEndEffect ph acc s' true err

/-- What an event did, and what it invoked the handler with, if it did. -/
inductive SndEventEffect (ph : Phase) (acc : List Msg) (s' : State) : Option ErrorCode → Prop where
  /-- It did not. -/
  | nothing (after : Inv s' ph acc) : SndEventEffect ph acc s' none
  /-- The handler was kept, and is invoked. -/
  | invoked (err : ErrorCode) (before : ph = .waiting) (after : Inv s' (.done err) acc) :
      SndEventEffect ph acc s' (some err)

end Effects

/-- A `sync_io` sender core, as far as the adapter is concerned. -/
structure SndCore where
  /-- The core's state. -/
  State : Type
  /-- What is sent. -/
  Msg : Type
  /-- What else happens to the core: the event loop's events. -/
  Ev : Type
  /-- What the transport answers in the course of one call. -/
  Ans : Type
  /-- The core has just entered the PEER state. -/
  Init : State → Prop
  /-- `start_send_*_ops()` -/
  startSendOps : State → Ans → Bool × State
  /-- `send_*()`: what it returns, and `*err_code`. -/
  send : State → Msg → Ans → Bool × ErrorCode × State
  /-- `auto_ping()`; the contract asks for a positive period. -/
  autoPing : State → {n : Nat // 0 < n} → Ans → Bool × State
  /-- `end_sending()` -/
  endSending : State → Ans → Bool × State
  /-- `async_end_sending()`, with the adapter's handler: what it returns, and the code it leaves. -/
  asyncEndSending : State → Ans → Bool × ErrorCode × State
  /-- An event, and what it invokes the handler with, if it does. -/
  event : State → Ev → Ans → Option (State × Option ErrorCode)
  /-- The error that has ended the pipe. -/
  hosed : State → ErrorCode
  /-- Some assertion of the core has failed. -/
  assertFailed : State → Bool
  /-- These messages, and the graceful close behind them, are what the transport was handed. -/
  Handed : State → List Msg → Prop
  /-- A call of `async_end_sending()` will not lose its handler. -/
  Keeps : State → Ans → Prop
  /-- What holds of a core in use that has accepted these messages. -/
  Inv : State → Phase → List Msg → Prop
  noFailure : ∀ s ph acc, Inv s ph acc → assertFailed s = false
  genuine : ∀ s ph acc, Inv s ph acc → Genuine (hosed s)
  /-- While the handler is kept there is something for it to wait for. -/
  waiting_spec : ∀ s acc, Inv s .waiting acc → hosed s = none ∧ ¬ Handed s acc
  /-- It is answered with the error, or once there is nothing left to wait for. -/
  done_spec : ∀ s err acc, Inv s (.done err) acc → hosed s = err ∧ (err = none → Handed s acc)
  start_spec : ∀ s ans, Init s →
    (startSendOps s ans).1 = true ∧ Inv (startSendOps s ans).2 .opened []
  /-- A message is accepted if and only if there is no error. -/
  send_spec : ∀ s ph acc m ans ok err s', Inv s ph acc → send s m ans = (ok, err, s') →
    ok = true ∧ Inv s' ph (if err = none then acc ++ [m] else acc)
  autoPing_spec : ∀ s ph acc period ans, Inv s ph acc → Inv (autoPing s period ans).2 ph acc
  endSending_spec : ∀ s ph acc ans ok s', Inv s ph acc → endSending s ans = (ok, s') →
    EndEffect Inv ph acc s' ok
  asyncEndSending_spec : ∀ s ph acc ans ok err s', Inv s ph acc → Keeps s ans →
    asyncEndSending s ans = (ok, err, s') → AsyncEndEffect Inv ph acc s' ok err
  event_spec : ∀ s ph acc ev ans s' r, Inv s ph acc → event s ev ans = some (s', r) →
    SndEventEffect Inv ph acc s' r

end FlowIpc.Adapter
