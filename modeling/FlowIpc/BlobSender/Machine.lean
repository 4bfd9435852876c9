import FlowIpc.Found.ErrorCode
import FlowIpc.Found.Timer
import FlowIpc.Lib.Transition

/-!
# A sender of blobs

What a `Blob_sender` is for its user, whatever carries the blobs: a machine that has been started or
not, finished or not, that keeps the first error of its transport, may be pinging, and hands *items*
(the version, blobs, pings, the graceful close) over to a *medium*. A medium takes an item whole or
fails; what it cannot pass on at once it holds back, and passes on when it can be written.

`Step M n` is the machine over a medium `M`, where a blob may have up to `n` bytes. It is given
over any medium, since the same machine is met twice: over items, where the medium is two lists of
them (`itemMedium`), and over the cells that the code's own transports carry. What follows of the
machine alone is proved here, over any medium: a call that is refused, and a send that is answered
without sending, change nothing (`Step.idle`); an error is kept, and nothing is handed over after it
(`Step.latched`); the end and the pings are asked for once (`counts`).

Source: `blob_transport.hpp` (concept `Blob_sender`).
-/

namespace FlowIpc.BlobSender

/-- The bytes of a blob. -/
abbrev Blob := List UInt8

/-! ## Calls and what they return -/

/-- What a sender hands over to its medium. -/
inductive Item where
  /-- The protocol version. -/
  | version
  /-- A blob of the user's. -/
  | blob (b : {b : Blob // b ≠ []})
  /-- A ping. -/
  | ping
  /-- The graceful close. -/
  | endSending
  deriving DecidableEq

/-- What can be done to a sender. -/
inductive Op where
  /-- `start_send_blob_ops()` -/
  | startSendBlobOps
  /-- `send_blob()`; the contract asks for a blob that is not empty. -/
  | sendBlob (b : {b : Blob // b ≠ []})
  /-- `end_sending()` -/
  | endSending
  /-- `auto_ping()`; the contract asks for a positive period. -/
  | autoPing (period : {n : Nat // 0 < n})
  /-- The transport is reported writable. -/
  | writable
  /-- The ping timer fires in its worker thread. -/
  | timerFires
  /-- The signal pipe of the ping timer is reported readable. -/
  | timerReadable
  deriving DecidableEq

/-- What is seen of it. -/
inductive Reply where
  /-- The call returned `ok`; `*err_code` holds `err`, if the call has one. -/
  | returned (ok : Bool) (err : ErrorCode)
  /-- An event, which returns nothing. -/
  | event
  deriving DecidableEq

/-- The two codes for a send that the sender itself declines. -/
def declines : ErrorCode → Bool
  | some (.code .sendsFinishedCannotSend) => true
  | some (.code .invalidArgument) => true
  | _ => false

/-- The call was refused, or the send declined. -/
def Reply.idle : Reply → Bool
  | .returned ok err => !ok || declines err
  | .event => false

/-! ## Media -/

/-- What takes items from a sender. -/
structure Medium where
  /-- What it has passed on, and what it holds back. -/
  Store : Type
  /-- Nothing is held back. -/
  Idle : Store → Prop
  /-- An item is handed over; the code is that of the transport. -/
  Put : Store → Item → Store → ErrorCode → Prop
  /-- What is held back is passed on as far as possible. -/
  Flush : Store → Store → ErrorCode → Prop
  /-- The codes that the sender has for itself do not come from a transport. -/
  put_err : ∀ {c f c' err}, Put c f c' err → declines err = false

/-- A ping is handed over or dropped; if something is held back it is dropped. -/
inductive Medium.Ping (M : Medium) (c : M.Store) : M.Store → ErrorCode → Prop where
  /-- It is dropped. -/
  | dropped : Ping M c c none
  /-- It is handed over. -/
  | put {c' : M.Store} {err : ErrorCode} (idle : M.Idle c) (put : M.Put c .ping c' err) :
      Ping M c c' err

/-- A sender over a store. -/
structure Sender (σ : Type) where
  /-- Sending has been started. -/
  started : Bool
  /-- The end of sending has been asked for. -/
  finished : Bool
  /-- Pings have been asked for. -/
  pinging : Bool
  /-- The first error of the transport. -/
  latched : ErrorCode
  /-- The timer of the next ping. -/
  timer : Timer
  /-- What has been passed on, and what is held back. -/
  store : σ

namespace Sender

variable {σ τ : Type}

/-- A sender that has just been constructed. -/
def init (c : σ) : Sender σ := ⟨false, false, false, none, .inactive, c⟩

/-- A sender that has just been constructed; if the constructor failed, the error is kept from the first. -/
def made (c : σ) (err : ErrorCode) : Sender σ := { init c with latched := err }

/-- The same sender over another store. -/
def withStore (m : Sender σ) (c : τ) : Sender τ :=
  ⟨m.started, m.finished, m.pinging, m.latched, m.timer, c⟩

/-- What the medium did, and the code it came to. -/
def took (m : Sender σ) (c : σ) (err : ErrorCode) : Sender σ :=
  { m with store := c, latched := err }

/-- The next ping is scheduled, unless there is an error. -/
def schedule (m : Sender σ) : Sender σ :=
  { m with timer := if m.latched = none then m.timer.schedule else m.timer }

/-- After a blob the next ping is put off, if there are pings, unless there is an error. -/
def putOff (m : Sender σ) : Sender σ :=
  { m with
    timer :=
      if m.latched = none ∧ m.pinging = true then
        if m.timer.expiresAfter.1 = 1 then m.timer.expiresAfter.2.asyncWait
        else m.timer.expiresAfter.2
      else m.timer }

/-- Without an error the next ping is scheduled. -/
theorem schedule_of_none {m : Sender σ} (h : m.latched = none) :
    m.schedule = { m with timer := m.timer.schedule } := by
  rw [schedule, if_pos h]

/-- After one it is not. -/
theorem schedule_of_isSome {m : Sender σ} (h : m.latched.isSome) : m.schedule = m := by
  rw [schedule, if_neg (Option.ne_none_iff_isSome.mpr h)]

/-- After an error, or without pings, nothing is put off. -/
theorem putOff_of_not {m : Sender σ} (h : ¬ (m.latched = none ∧ m.pinging = true)) :
    m.putOff = m := by
  rw [putOff, if_neg h]

/-- The ping has been waited for, and is once more. -/
theorem putOff_of_one {m : Sender σ} (h : m.latched = none) (hping : m.pinging = true)
    (hone : m.timer.expiresAfter.1 = 1) :
    m.putOff = { m with timer := m.timer.expiresAfter.2.asyncWait } := by
  rw [putOff, if_pos ⟨h, hping⟩, if_pos hone]

/-- The ping is due already. -/
theorem putOff_of_not_one {m : Sender σ} (h : m.latched = none) (hping : m.pinging = true)
    (hne : m.timer.expiresAfter.1 ≠ 1) : m.putOff = { m with timer := m.timer.expiresAfter.2 } := by
  rw [putOff, if_pos ⟨h, hping⟩, if_neg hne]

/-- What `send_blob()` returns where it sends nothing. The order of the checks is that in which the
sender makes them. -/
def declined (m : Sender σ) (max : Nat) (b : Blob) : Option Reply :=
  if m.started = false then some (.returned false none)
  else if m.finished = true then some (.returned true Code.sendsFinishedCannotSend.toErrorCode)
  else if max < b.length then some (.returned true Code.invalidArgument.toErrorCode)
  else if m.latched.isSome then some (.returned true m.latched)
  else none

end Sender

/-! ## The machine -/

/-- The machine over a medium. -/
inductive Step (M : Medium) (n : Nat) (m : Sender M.Store) :
    Op × Reply → Sender M.Store → Prop where
  /-- Sending has been started before. -/
  | startRefused (started : m.started = true) :
      Step M n m (.startSendBlobOps, .returned false none) m
  /-- Sending is started, and the version handed over. -/
  | start {c : M.Store} {err : ErrorCode} (started : m.started = false) (latched : m.latched = none)
      (put : M.Put m.store .version c err) :
      Step M n m (.startSendBlobOps, .returned true none) { m.took c err with started := true }
  /-- Sending is started, but an error keeps the version from being sent: the constructor failed. -/
  | startLatched (started : m.started = false) (latched : m.latched.isSome) :
      Step M n m (.startSendBlobOps, .returned true none) { m with started := true }
  /-- A blob is declined. -/
  | sendDeclined {b : {b : Blob // b ≠ []}} {r : Reply} (declined : m.declined n b = some r) :
      Step M n m (.sendBlob b, r) m
  /-- A blob is handed over. -/
  | send {b : {b : Blob // b ≠ []}} {c : M.Store} {err : ErrorCode}
      (declined : m.declined n b = none) (put : M.Put m.store (.blob b) c err) :
      Step M n m (.sendBlob b, .returned true err) (m.took c err).putOff
  /-- There is nothing to end, or it has been ended before. -/
  | endRefused (shut : m.started = false ∨ m.finished = true) :
      Step M n m (.endSending, .returned false none) m
  /-- Sending is ended, but an error keeps the graceful close from being sent. -/
  | endLatched (started : m.started = true) (finished : m.finished = false)
      (latched : m.latched.isSome) :
      Step M n m (.endSending, .returned true none) { m with finished := true }
  /-- Sending is ended, and the graceful close handed over. -/
  | endSending {c : M.Store} {err : ErrorCode} (started : m.started = true)
      (finished : m.finished = false) (latched : m.latched = none)
      (put : M.Put m.store .endSending c err) :
      Step M n m (.endSending, .returned true none) { m.took c err with finished := true }
  /-- There is nothing to ping about, or pings have been asked for before. -/
  | pingRefused {p : {n : Nat // 0 < n}}
      (shut : m.started = false ∨ m.finished = true ∨ m.pinging = true) :
      Step M n m (.autoPing p, .returned false none) m
  /-- Pings are asked for, but an error keeps them from being sent. -/
  | pingLatched {p : {n : Nat // 0 < n}} (started : m.started = true)
      (finished : m.finished = false) (pinging : m.pinging = false) (latched : m.latched.isSome) :
      Step M n m (.autoPing p, .returned true none) { m with pinging := true }
  /-- Pings are asked for, and the first is tried. -/
  | ping {p : {n : Nat // 0 < n}} {c : M.Store} {err : ErrorCode} (started : m.started = true)
      (finished : m.finished = false) (pinging : m.pinging = false) (latched : m.latched = none)
      (ping : M.Ping m.store c err) :
      Step M n m (.autoPing p, .returned true none)
        { m.took c err with pinging := true }.schedule
  /-- Something is held back, and the transport can be written. -/
  | flush {c : M.Store} {err : ErrorCode} (held : ¬ M.Idle m.store) (latched : m.latched = none)
      (flush : M.Flush m.store c err) : Step M n m (.writable, .event) (m.took c err)
  /-- A ping is due. -/
  | timerFires {t : Timer} (fire : m.timer.fire = some t) :
      Step M n m (.timerFires, .event) { m with timer := t }
  /-- A ping is due, and no longer wanted. -/
  | dueLatched {t : Timer} (due : m.timer.takeEvent = some t)
      (shut : m.latched.isSome ∨ m.finished = true) :
      Step M n m (.timerReadable, .event) { m with timer := t.consumeTimerFiringSignal }
  /-- A ping is due, and is tried. -/
  | due {t : Timer} {c : M.Store} {err : ErrorCode} (due : m.timer.takeEvent = some t)
      (finished : m.finished = false) (latched : m.latched = none) (ping : M.Ping m.store c err) :
      Step M n m (.timerReadable, .event)
        { m.took c err with timer := t.consumeTimerFiringSignal }.schedule

/-- The call ended the sending. -/
def ends : Op × Reply → Bool
  | (.endSending, .returned ok _) => ok
  | _ => false

/-- The call started the pings. -/
def pings : Op × Reply → Bool
  | (.autoPing _, .returned ok _) => ok
  | _ => false

/-! ## What follows over any medium -/

section AnyMedium

open Lts

variable {M : Medium} {n : Nat} {m m' : Sender M.Store} {l : Op × Reply}
  {tr : List (Op × Reply)}

/-- A blob that is not declined is one to be handed over. -/
theorem Sender.declined_latched {σ : Type} {m : Sender σ} {b : Blob} (h : m.declined n b = none) :
    m.started = true ∧ m.finished = false ∧ b.length ≤ n ∧ m.latched = none := by
  unfold Sender.declined at h
  split at h
  · cases h
  · rename_i hstart
    split at h
    · cases h
    · rename_i hfin
      split at h
      · cases h
      · rename_i hlen
        split at h
        · cases h
        · rename_i herr
          exact ⟨by simpa using hstart, by simpa using hfin, Nat.not_lt.mp hlen, by simpa using herr⟩

/-- **A refused call, and a send that is declined, change nothing.** -/
theorem Step.idle (h : Step M n m l m') (hidle : l.2.idle = true) : m' = m := by
  cases h with
  | startRefused _ => rfl
  | sendDeclined _ => rfl
  | endRefused _ => rfl
  | pingRefused _ => rfl
  | send _ hput =>
      have herr := M.put_err hput
      simp [Reply.idle, herr] at hidle
  | start _ _ _ => cases hidle
  | startLatched _ _ => cases hidle
  | endLatched _ _ _ => cases hidle
  | endSending _ _ _ _ => cases hidle
  | pingLatched _ _ _ _ => cases hidle
  | ping _ _ _ _ _ => cases hidle
  | flush _ _ _ => cases hidle
  | timerFires _ => cases hidle
  | dueLatched _ _ => cases hidle
  | due _ _ _ _ => cases hidle

/-- **An error is kept, and nothing is handed over after it.** -/
theorem Step.latched (h : Step M n m l m') (herr : m.latched.isSome) :
    m'.latched = m.latched ∧ m'.store = m.store := by
  have hne : m.latched ≠ none := Option.ne_none_iff_isSome.mpr herr
  cases h with
  | startRefused _ => exact ⟨rfl, rfl⟩
  | startLatched _ _ => exact ⟨rfl, rfl⟩
  | sendDeclined _ => exact ⟨rfl, rfl⟩
  | endRefused _ => exact ⟨rfl, rfl⟩
  | pingRefused _ => exact ⟨rfl, rfl⟩
  | endLatched _ _ _ => exact ⟨rfl, rfl⟩
  | pingLatched _ _ _ _ => exact ⟨rfl, rfl⟩
  | timerFires _ => exact ⟨rfl, rfl⟩
  | dueLatched _ _ => exact ⟨rfl, rfl⟩
  | send hdec _ => exact absurd (Sender.declined_latched hdec).2.2.2 hne
  | start _ hnone _ => exact absurd hnone hne
  | endSending _ _ hnone _ => exact absurd hnone hne
  | ping _ _ _ hnone _ => exact absurd hnone hne
  | flush _ hnone _ => exact absurd hnone hne
  | due _ _ hnone _ => exact absurd hnone hne

/-- The end of sending is asked for by the call that says so, once and for all; so are the pings. -/
theorem Step.flags (h : Step M n m l m') :
    m'.finished = (m.finished || ends l) ∧ m'.pinging = (m.pinging || pings l) ∧
      ¬ (m.finished = true ∧ ends l = true) ∧ ¬ (m.pinging = true ∧ pings l = true) := by
  cases h <;> simp_all [Sender.took, Sender.schedule, Sender.putOff, ends, pings]

/-- **The end and the pings are asked for once**, from a machine where they have not been. -/
theorem counts {m₀ : Sender M.Store} (hfin : m₀.finished = false) (hping : m₀.pinging = false)
    (h : Run (Step M n) m₀ tr m) :
    tr.countP ends = m.finished.toNat ∧ tr.countP pings = m.pinging.toNat := by
  refine Run.history (P := fun tr m => tr.countP ends = m.finished.toNat ∧
    tr.countP pings = m.pinging.toNat) ?_ h (by simp [hfin, hping])
  intro tr m l m' ⟨hends, hpings⟩ hstep
  obtain ⟨hfin', hping', honce, honce'⟩ := hstep.flags
  rw [List.countP_append, List.countP_append, hends, hpings, hfin', hping']
  constructor
  · cases hm : m.finished <;> cases hl : ends l <;> simp_all
  · cases hm : m.pinging <;> cases hl : pings l <;> simp_all

end AnyMedium

/-! ## Items -/

/-- The items passed on, and those held back, all whole. -/
structure Items where
  /-- Those held back, the next first. -/
  queue : List Item
  /-- Those passed on. -/
  wire : List Item
  deriving DecidableEq

/-- What handing over an item comes to. -/
inductive Items.Put (q : Items) (f : Item) : Items → ErrorCode → Prop where
  /-- Others are held back, and it is put behind them. -/
  | behind (queue : q.queue ≠ []) : Put q f { q with queue := q.queue ++ [f] } none
  /-- It is passed on at once. -/
  | gone (queue : q.queue = []) : Put q f { q with wire := q.wire ++ [f] } none
  /-- It is held back. -/
  | kept (queue : q.queue = []) : Put q f { q with queue := [f] } none
  /-- The transport fails, and it is lost. -/
  | failed (queue : q.queue = []) (e : Err) (err : declines (some e) = false) : Put q f q (some e)

/-- What a writable transport takes: some of the items held back, and not all if it fails. -/
inductive Items.Flush (q : Items) : Items → ErrorCode → Prop where
  /-- Some are passed on. -/
  | passed {fs gs : List Item} {err : ErrorCode} (queue : q.queue = fs ++ gs)
      (left : err.isSome → gs ≠ []) : Flush q ⟨gs, q.wire ++ fs⟩ err

/-- Items, one after the other. -/
def itemMedium : Medium where
  Store := Items
  Idle q := q.queue = []
  Put := Items.Put
  Flush := Items.Flush
  put_err h := by
    cases h with
    | behind _ => rfl
    | gone _ => rfl
    | kept _ => rfl
    | failed _ _ herr => exact herr

end FlowIpc.BlobSender
