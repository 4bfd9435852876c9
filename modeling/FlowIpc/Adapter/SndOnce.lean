import FlowIpc.Adapter.Snd

/-!
# The end of sending is reported once

Of all calls of `end_sending()` and `async_end_sending()` the first is accepted, and if it came with a
handler, that one is invoked, once: with the error that has ended the pipe, or with success if all that
was accepted and the graceful close were handed to the transport, or, if neither had come about when
the adapter was destroyed, with the code for that. No other handler is invoked (`EndsOnce`).

The handler is in the slot while the core keeps the adapter's own handler, posted to the worker once the
core has an answer, and then invoked (`HandlerAt`); so it is nowhere lost, and nowhere twice, as long
as the core loses nothing (`SndWorld.ReachedKeeping.endsOnce`).
-/

namespace FlowIpc.Adapter

open Lts

/-- The code that the destructor has for a handler. -/
abbrev aborted : ErrorCode := Code.objectShutdownAbortedCompletionHandler.toErrorCode

namespace SndWorld

variable {C : SndCore} {w w' : SndWorld C} {ph : Phase}

/-! ## The promise -/

/-- The handler of the first call that ends the sending. -/
def handler (w : SndWorld C) : Option Nat :=
  w.ends.head?.bind Prod.fst

/-- What the handler is to be told. -/
inductive Answer (w : SndWorld C) : ErrorCode → Prop where
  /-- An error has ended the pipe. -/
  | hosed (e : Err) (latched : C.hosed w.adapter.syncIo = some e) : Answer w (some e)
  /-- Everything accepted was handed to the transport, and the graceful close behind it. -/
  | handed (clear : C.hosed w.adapter.syncIo = none)
      (all : C.Handed w.adapter.syncIo w.accepted) : Answer w none
  /-- Neither had come about by destruction. -/
  | aborted (clear : C.hosed w.adapter.syncIo = none)
      (some_left : ¬ C.Handed w.adapter.syncIo w.accepted) (destroyed : w.destroyed = true) :
      Answer w Adapter.aborted

/-- The handler has yet to be invoked: it has been posted, or there is nothing to tell it. -/
inductive Pending (w : SndWorld C) (f : Nat) : Prop where
  /-- It has been posted with its answer. -/
  | posted (err : ErrorCode) (task : w.adapter.worker = [(some f, err)]) (answer : w.Answer err)
  /-- It waits. -/
  | waits (slot : w.adapter.endSendingOnDoneFunc = some f)
      (clear : C.hosed w.adapter.syncIo = none)
      (some_left : ¬ C.Handed w.adapter.syncIo w.accepted)

/-- The end of sending is accepted once, and reported once. -/
structure EndsOnce (w : SndWorld C) : Prop where
  noFailure : w.adapter.assertFailed = false ∧ C.assertFailed w.adapter.syncIo = false
  /-- Exactly the first call is accepted. -/
  accepted : ∀ c rest, w.ends = c :: rest → c.2 = true ∧ ∀ c' ∈ rest, c'.2 = false
  /-- Its handler is invoked once, and until then, which is before destruction, it is pending. -/
  invoked : ∀ f, w.handler = some f →
    (w.destroyed = false ∧ w.invoked = [] ∧ w.Pending f) ∨
      ∃ err, w.invoked = [(f, err)] ∧ w.Answer err
  /-- No other handler is. -/
  silent : w.handler = none → w.invoked = []

/-! ## The invariant -/

/-- Where the handler is, by what the core has done with it. -/
inductive HandlerAt : Option Nat → Phase → (destroyed : Bool) → (slot : Option Nat) →
    (worker : List (Option Nat × ErrorCode)) → (invoked : List (Nat × ErrorCode)) → Prop where
  /-- There is none: the sending was not ended. -/
  | opened (destroyed : Bool) : HandlerAt none .opened destroyed none [] []
  /-- There is none: the sending was ended without. -/
  | silent (destroyed : Bool) : HandlerAt none .silent destroyed none [] []
  /-- In its slot. -/
  | slot (f : Nat) : HandlerAt (some f) .waiting false (some f) [] []
  /-- In its slot, and invoked by the destructor. -/
  | aborted (f : Nat) : HandlerAt (some f) .waiting true (some f) [] [(f, Adapter.aborted)]
  /-- Posted. -/
  | posted (f : Nat) (err : ErrorCode) :
      HandlerAt (some f) (.done err) false none [(some f, err)] []
  /-- Invoked. -/
  | invoked (f : Nat) (err : ErrorCode) (destroyed : Bool) :
      HandlerAt (some f) (.done err) destroyed none [] [(f, err)]

namespace HandlerAt

variable {f : Option Nat} {d : Bool} {slot : Option Nat} {worker : List (Option Nat × ErrorCode)}
  {invoked : List (Nat × ErrorCode)}

/-- Before the sending is ended there is nothing. -/
theorem of_opened (h : HandlerAt f .opened d slot worker invoked) :
    f = none ∧ slot = none ∧ worker = [] ∧ invoked = [] := by
  cases h
  exact ⟨rfl, rfl, rfl, rfl⟩

/-- Without a handler none is invoked. -/
theorem of_none (h : HandlerAt none ph d slot worker invoked) : invoked = [] := by
  cases h with
  | opened => rfl
  | silent => rfl

/-- The four places where a handler can be. -/
theorem of_some {g : Nat} (h : HandlerAt (some g) ph d slot worker invoked) :
    (ph = .waiting ∧ d = false ∧ slot = some g ∧ invoked = []) ∨
      (ph = .waiting ∧ d = true ∧ invoked = [(g, Adapter.aborted)]) ∨
      ∃ err, ph = .done err ∧
        ((d = false ∧ worker = [(some g, err)] ∧ invoked = []) ∨ invoked = [(g, err)]) := by
  cases h with
  | slot => exact .inl ⟨rfl, rfl, rfl, rfl⟩
  | aborted => exact .inr (.inl ⟨rfl, rfl, rfl⟩)
  | posted _ err => exact .inr (.inr ⟨err, rfl, .inl ⟨rfl, rfl, rfl⟩⟩)
  | invoked _ err _ => exact .inr (.inr ⟨err, rfl, .inr rfl⟩)

/-- The slot holds a handler only while the core has an answer to come. -/
theorem of_slot {g : Nat} (h : HandlerAt f ph d (some g) worker invoked) : ph = .waiting := by
  cases h with
  | slot => rfl
  | aborted => rfl

/-- While the core has an answer to come, and the adapter lives, the handler is in the slot. -/
theorem of_waiting (h : HandlerAt f .waiting false slot worker invoked) :
    ∃ g, f = some g ∧ slot = some g ∧ worker = [] ∧ invoked = [] := by
  cases h with
  | slot g => exact ⟨g, rfl, rfl, rfl, rfl⟩

/-- Where nothing is in the slot or posted, the destructor has nothing to do. -/
theorem of_empty (h : HandlerAt f ph d none [] invoked) : HandlerAt f ph true none [] invoked := by
  cases h with
  | opened => exact .opened true
  | silent => exact .silent true
  | invoked g err => exact .invoked g err true

/-- What is posted is the handler, with its answer. -/
theorem of_posted {task : Option Nat × ErrorCode} {tasks : List (Option Nat × ErrorCode)}
    (h : HandlerAt f ph d slot (task :: tasks) invoked) :
    ∃ g err, f = some g ∧ ph = .done err ∧ slot = none ∧ task = (some g, err) ∧ tasks = [] ∧
      invoked = [] := by
  cases h with
  | posted g err => exact ⟨g, err, rfl, rfl, rfl, rfl, rfl, rfl⟩

end HandlerAt

/-- What holds of an adapter whose core is this far. -/
structure Inv (w : SndWorld C) (ph : Phase) : Prop where
  core : C.Inv w.adapter.syncIo ph w.accepted
  noFailure : w.adapter.assertFailed = false
  opened_iff : ph = .opened ↔ w.ends = []
  accepted : ∀ c rest, w.ends = c :: rest → c.2 = true ∧ ∀ c' ∈ rest, c'.2 = false
  at' : HandlerAt w.handler ph w.destroyed w.adapter.endSendingOnDoneFunc w.adapter.worker w.invoked

/-- The answer that a core has come to. -/
theorem Inv.answer {err : ErrorCode} (h : w.Inv (.done err)) : w.Answer err := by
  obtain ⟨hhosed, hhanded⟩ := C.done_spec _ _ _ h.core
  cases err with
  | none => exact .handed hhosed (hhanded rfl)
  | some e => exact .hosed e hhosed

/-- The invariant says what was promised. -/
theorem Inv.endsOnce (h : w.Inv ph) : w.EndsOnce where
  noFailure := ⟨h.noFailure, C.noFailure _ _ _ h.core⟩
  accepted := h.accepted
  invoked f hf := by
    have hat := h.at'
    rw [hf] at hat
    rcases hat.of_some with ⟨rfl, hd, hslot, hnone⟩ | ⟨rfl, hd, hone⟩ | ⟨err, rfl, hcases⟩
    · obtain ⟨hclear, hleft⟩ := C.waiting_spec _ _ h.core
      exact .inl ⟨hd, hnone, .waits hslot hclear hleft⟩
    · obtain ⟨hclear, hleft⟩ := C.waiting_spec _ _ h.core
      exact .inr ⟨_, hone, .aborted hclear hleft hd⟩
    · rcases hcases with ⟨hd, htask, hnone⟩ | hone
      · exact .inl ⟨hd, hnone, .posted err htask h.answer⟩
      · exact .inr ⟨err, hone, h.answer⟩
  silent hf := by
    have hat := h.at'
    rw [hf] at hat
    exact hat.of_none

/-! ## Steps -/

/-- A sender just constructed has not been ended. -/
theorem inv_init (h : Init w) : w.Inv .opened := by
  obtain ⟨s, ans, hs, rfl⟩ := h
  obtain ⟨hok, hcore⟩ := C.start_spec s ans hs
  rcases hstart : C.startSendOps s ans with ⟨ok, s'⟩
  rw [hstart] at hok hcore
  have hctor : AsyncAdapterSender.ctor s ans = ⟨s', none, [], false⟩ := by
    unfold AsyncAdapterSender.ctor
    rw [hstart]
    exact AsyncAdapterSender.assert_of hok
  rw [hctor]
  exact {
    core := hcore
    noFailure := rfl
    opened_iff := by simp
    accepted := fun c rest hc => by cases hc
    at' := .opened false }

/-- A step that only the core takes. -/
theorem Inv.setCore {s : C.State} {acc : List C.Msg} (h : w.Inv ph) (hs : C.Inv s ph acc) :
    ({ w with adapter := { w.adapter with syncIo := s }, accepted := acc } : SndWorld C).Inv ph :=
  { h with core := hs }

/-- A further call is refused. -/
theorem Inv.refused {s : C.State} {f : Option Nat} (h : w.Inv ph) (hph : ph ≠ .opened)
    (hs : C.Inv s ph w.accepted) :
    ({ w with adapter := { w.adapter with syncIo := s }, ends := w.ends ++ [(f, false)] } :
      SndWorld C).Inv ph := by
  cases hends : w.ends with
  | nil => exact absurd (h.opened_iff.mpr hends) hph
  | cons c rest =>
      have hfirst := h.accepted c rest hends
      have hhandler : ({ w with ends := c :: rest ++ [(f, false)] } : SndWorld C).handler =
          w.handler := by
        rw [handler, handler, hends]
        rfl
      exact {
        core := hs
        noFailure := h.noFailure
        opened_iff := ⟨fun heq => absurd heq hph, fun hnil => by simp at hnil⟩
        accepted := by
          intro c' rest' heq
          rw [List.cons_append, List.cons.injEq] at heq
          obtain ⟨rfl, rfl⟩ := heq
          refine ⟨hfirst.1, ?_⟩
          intro c' hmem
          rcases List.mem_append.mp hmem with hmem | hmem
          · exact hfirst.2 c' hmem
          · rw [List.mem_singleton.mp hmem]
        at' := by
          change HandlerAt ({ w with ends := c :: rest ++ [(f, false)] } : SndWorld C).handler _ _ _ _ _
          rw [hhandler]
          exact h.at' }

/-- The first call is accepted. -/
theorem Inv.first {s : C.State} {f : Option Nat} {ph' : Phase} {slot : Option Nat}
    {worker : List (Option Nat × ErrorCode)} (h : w.Inv .opened) (hph : ph' ≠ .opened)
    (hs : C.Inv s ph' w.accepted) (hat : HandlerAt f ph' w.destroyed slot worker []) :
    ({ w with
      adapter := ⟨s, slot, worker, false⟩
      ends := w.ends ++ [(f, true)] } : SndWorld C).Inv ph' := by
  rw [h.opened_iff.mp rfl]
  obtain ⟨-, -, -, hnone⟩ := h.at'.of_opened
  exact {
    core := hs
    noFailure := rfl
    opened_iff := ⟨fun heq => absurd heq hph, fun hnil => by simp at hnil⟩
    accepted := by
      intro c rest heq
      rw [List.nil_append, List.cons.injEq] at heq
      obtain ⟨rfl, rfl⟩ := heq
      exact ⟨rfl, fun c' hmem => by cases hmem⟩
    at' := by
      change HandlerAt f ph' w.destroyed slot worker w.invoked
      rw [hnone]
      exact hat }

/-- Sending, pinging and the events that invoke nothing are a matter of the core only. -/
theorem Inv.send {m : C.Msg} {ans : C.Ans} (h : w.Inv ph)
    (hstep : w.Step (.send m ans) w') : w'.Inv ph := by
  unfold Step next at hstep
  split at hstep
  · cases hstep
  · rcases hsend : C.send w.adapter.syncIo m ans with ⟨ok, err, s⟩
    obtain ⟨rfl, hs⟩ := C.send_spec _ _ _ _ _ _ _ _ h.core hsend
    simp only [AsyncAdapterSender.send, hsend] at hstep
    rw [AsyncAdapterSender.assert_of trivial] at hstep
    cases hstep
    exact h.setCore hs

/-- What a call that ends the sending does to the rest. -/
theorem step_asyncEndSending {f : Option Nat} {ans : C.Ans} {ok : Bool} {a : AsyncAdapterSender C}
    (hstep : w.Step (.asyncEndSending f ans) w') (hcall : w.adapter.asyncEndSending f ans = (ok, a)) :
    w.destroyed = false ∧ w' = { w with adapter := a, ends := w.ends ++ [(f, ok)] } := by
  unfold Step next at hstep
  split at hstep
  · cases hstep
  · rename_i hlive
    simp only [hcall] at hstep
    cases hstep
    exact ⟨by simpa using hlive, rfl⟩

/-- The end is asked for, or refused. -/
theorem Inv.asyncEndSending {f : Option Nat} {ans : C.Ans} (h : w.Inv ph)
    (hkeeps : w.Keeps (.asyncEndSending f ans)) (hstep : w.Step (.asyncEndSending f ans) w') :
    ∃ ph', w'.Inv ph' := by
  rcases hcall : w.adapter.asyncEndSending f ans with ⟨ok, a⟩
  obtain ⟨hlive, rfl⟩ := step_asyncEndSending hstep hcall
  unfold AsyncAdapterSender.asyncEndSending at hcall
  cases f with
  | none =>
      rcases hend : C.endSending w.adapter.syncIo ans with ⟨ok₁, s⟩
      simp only [hend] at hcall
      cases hcall
      cases C.endSending_spec _ _ _ _ _ _ h.core hend with
      | refused before after => exact ⟨ph, h.refused before after⟩
      | ended before after =>
          subst before
          obtain ⟨-, hslot, hworker, -⟩ := h.at'.of_opened
          refine ⟨.silent, ?_⟩
          rw [hslot, hworker, h.noFailure]
          exact h.first (by simp) after (.silent w.destroyed)
  | some f =>
      simp only at hcall
      cases hslot : w.adapter.endSendingOnDoneFunc with
      | some g =>
          -- A call while the first is pending does not get as far as the core.
          have hat := h.at'
          rw [hslot] at hat
          obtain rfl := hat.of_slot
          rw [if_pos (by rw [hslot]; rfl)] at hcall
          cases hcall
          exact ⟨.waiting, h.refused (by simp) h.core⟩
      | none =>
          rw [if_neg (by simp [hslot])] at hcall
          rcases hend : C.asyncEndSending w.adapter.syncIo ans with ⟨ok₁, err, s⟩
          simp only [hend] at hcall
          cases C.asyncEndSending_spec _ _ _ _ _ _ _ h.core hkeeps hend with
          | refused _ before after =>
              rw [if_pos rfl] at hcall
              cases hcall
              refine ⟨ph, ?_⟩
              have hinv := h.refused (f := some f) before after
              simp only [hslot] at hinv
              exact hinv
          | kept before after =>
              subst before
              obtain ⟨-, -, hworker, -⟩ := h.at'.of_opened
              rw [if_neg (by simp), if_pos rfl] at hcall
              cases hcall
              refine ⟨.waiting, ?_⟩
              rw [hworker, h.noFailure]
              exact h.first (by simp) after (hlive ▸ .slot f)
          | answered _ before ne after =>
              subst before
              obtain ⟨-, -, hworker, -⟩ := h.at'.of_opened
              have hgen := C.genuine _ _ _ after
              rw [(C.done_spec _ _ _ after).1] at hgen
              rw [if_neg (by simp), if_neg ne, AsyncAdapterSender.onSyncIoEndSendingDone,
                AsyncAdapterSender.assert_of hgen.2.1] at hcall
              cases hcall
              refine ⟨.done err, ?_⟩
              rw [hworker, h.noFailure]
              exact h.first (by simp) after (hlive ▸ .posted f err)

/-- An event reports the end, or leaves it to be reported. -/
theorem Inv.event {ev : C.Ev} {ans : C.Ans} (h : w.Inv ph) (hstep : w.Step (.event ev ans) w') :
    ∃ ph', w'.Inv ph' := by
  unfold Step next at hstep
  split at hstep
  · cases hstep
  · rename_i hlive
    have hlive : w.destroyed = false := by simpa using hlive
    simp only at hstep
    split at hstep
    · cases hstep
    · rename_i s hev
      cases C.event_spec _ _ _ _ _ _ _ h.core hev with
      | nothing after =>
          cases hstep
          exact ⟨ph, h.setCore after⟩
    · rename_i s err hev
      cases C.event_spec _ _ _ _ _ _ _ h.core hev with
      | invoked _ before after =>
          subst before
          have hat := h.at'
          rw [hlive] at hat
          obtain ⟨g, hg, hslot, hworker, hnone⟩ := hat.of_waiting
          have hgen := C.genuine _ _ _ after
          rw [(C.done_spec _ _ _ after).1] at hgen
          simp only [AsyncAdapterSender.onSyncIoEndSendingDone] at hstep
          rw [AsyncAdapterSender.assert_of hgen.2.1] at hstep
          cases hstep
          refine ⟨.done err, ?_⟩
          exact {
            core := after
            noFailure := h.noFailure
            opened_iff := ⟨fun heq => (by cases heq), fun hnil => (by cases h.opened_iff.mpr hnil)⟩
            accepted := h.accepted
            at' := by
              change HandlerAt w.handler _ w.destroyed none (w.adapter.worker ++ [(_, err)]) w.invoked
              rw [hg, hlive, hslot, hworker, hnone]
              exact .posted g err }

/-- The handler that was posted is invoked. -/
theorem Inv.runTask (h : w.Inv ph) (hstep : w.Step .runTask w') : w'.Inv ph := by
  unfold Step next at hstep
  split at hstep
  · cases hstep
  · simp only at hstep
    cases hworker : w.adapter.worker with
    | nil =>
        rw [hworker] at hstep
        cases hstep
    | cons task tasks =>
        have hat := h.at'
        rw [hworker] at hat
        obtain ⟨g, err, hg, rfl, hslot, rfl, rfl, hnone⟩ := hat.of_posted
        simp only [hworker, SndWorld.runTask] at hstep
        cases hstep
        exact {
          core := h.core
          noFailure := h.noFailure
          opened_iff := h.opened_iff
          accepted := h.accepted
          at' := by
            change HandlerAt w.handler _ w.destroyed w.adapter.endSendingOnDoneFunc []
              (w.invoked ++ [(g, err)])
            rw [hg, hslot, hnone]
            exact .invoked g err w.destroyed }

/-- The destructor runs what is posted, and then invokes the handler if that is still in the slot. -/
theorem Inv.destroy (h : w.Inv ph) (hstep : w.Step .destroy w') : w'.Inv ph := by
  have hat := h.at'
  unfold Step next at hstep
  split at hstep
  · cases hstep
  · rename_i hlive
    have hlive : w.destroyed = false := by simpa using hlive
    rw [hlive] at hat
    have hend : ∀ {slot : Option Nat} {invoked : List (Nat × ErrorCode)},
        HandlerAt w.handler ph true slot [] invoked →
          ({ w with
            adapter := ⟨w.adapter.syncIo, slot, [], w.adapter.assertFailed⟩
            invoked := invoked
            destroyed := true } : SndWorld C).Inv ph := by
      intro slot invoked hat'
      exact { h with at' := hat' }
    simp only at hstep
    cases hworker : w.adapter.worker with
    | cons task tasks =>
        rw [hworker] at hat
        obtain ⟨g, err, hg, rfl, hslot, rfl, rfl, hnone⟩ := hat.of_posted
        simp only [hworker, List.foldl_cons, List.foldl_nil, SndWorld.runTask,
          AsyncAdapterSender.dtor, hslot, hnone] at hstep
        cases hstep
        apply hend
        rw [hg]
        exact .invoked g err true
    | nil =>
        rw [hworker] at hat
        simp only [hworker, List.foldl_nil, AsyncAdapterSender.dtor] at hstep
        cases hslot : w.adapter.endSendingOnDoneFunc with
        | none =>
            rw [hslot] at hat
            simp only [hslot, List.append_nil] at hstep
            cases hstep
            exact hend hat.of_empty
        | some g =>
            rw [hslot] at hat
            obtain rfl := hat.of_slot
            obtain ⟨g', hg, heq, -, hnone⟩ := hat.of_waiting
            cases heq
            simp only [hslot, hnone, List.nil_append] at hstep
            cases hstep
            apply hend
            rw [hg]
            exact .aborted g

/-! ## Runs -/

/-- A step in which the core loses no handler keeps the invariant. -/
theorem Inv.step {m : SndMove C} (h : w.Inv ph) (hstep : Restrict Step Keeps w m w') :
    ∃ ph', w'.Inv ph' := by
  obtain ⟨hkeeps, hstep⟩ := hstep
  cases m with
  | send m ans => exact ⟨ph, h.send hstep⟩
  | autoPing period ans =>
      unfold Step next at hstep
      split at hstep
      · cases hstep
      · cases hstep
        exact ⟨ph, h.setCore (C.autoPing_spec _ _ _ period ans h.core)⟩
  | asyncEndSending f ans => exact h.asyncEndSending hkeeps hstep
  | event ev ans => exact h.event hstep
  | runTask => exact ⟨ph, h.runTask hstep⟩
  | destroy => exact ⟨ph, h.destroy hstep⟩

/-- Wherever the core has lost no handler, the end of sending is reported once. -/
theorem ReachedKeeping.endsOnce (h : w.ReachedKeeping) : w.EndsOnce := by
  have hinv : ∃ ph, w.Inv ph := by
    apply Reachable.invariant (P := fun w => ∃ ph, SndWorld.Inv w ph) _ _ h
    · intro w hinit
      exact ⟨.opened, inv_init hinit⟩
    · rintro w m w' ⟨ph, hw⟩ hstep
      exact hw.step hstep
  obtain ⟨ph, hw⟩ := hinv
  exact hw.endsOnce

end SndWorld

end FlowIpc.Adapter
