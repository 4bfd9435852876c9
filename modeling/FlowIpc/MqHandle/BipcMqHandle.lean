import FlowIpc.MqHandle.Handle

/-!
# `Bipc_mq_handle`: the mode is a flag beside a condition variable

A `bipc::message_queue` keeps its messages in memory that is shared, under a mutex, and has a condition
variable for each direction. `wait_impl()` waits as the queue's own blocking calls do: it takes the mutex,
and while the queue is starved sleeps on the variable, among the `blocked_dudes`. It looks at the mode when
it has taken the mutex and whenever it has woken up, and only then at the queue. Whoever switches the mode
on does so under the mutex, and notifies all who sleep. So no one sleeps on in a direction that is in
interrupt mode (`Inv`), and a turn of a wait is an interruption iff the mode is on, unless the library
throws an exception in it.

A sleeper may wake up at any time, for all it knows; how long it has slept is left to the system.

Source: `bipc_mq_handle.hpp`, `bipc_mq_handle.cpp`.
-/

namespace FlowIpc.MqHandle

open Lts

/-- An exception of the library's.
Source: `bipc_mq_handle.cpp` `op_with_possible_bipc_mq_exception` -/
inductive BipcException where
  /-- `bipc::size_error` -/
  | sizeError
  /-- Another, which has a native code. -/
  | native (code : {n : Nat // n ≠ 0})
  /-- Another, which has none. -/
  | other
  deriving DecidableEq

/-- The code that is emitted for it.
Source: `bipc_mq_handle.cpp` `op_with_possible_bipc_mq_exception` -/
def BipcException.toErr : BipcException → Err
  | .sizeError => .code .mqMessageSizeOverOrUnderflow
  | .native code => .system code
  | .other => .code .mqBipcMiscLibraryError

/-- No exception of the library is reported as an interruption. -/
theorem BipcException.toErr_ne_interrupted (e : BipcException) : some e.toErr ≠ interrupted := by
  cases e <;> simp [BipcException.toErr]

/-- What a wait comes to next. -/
inductive CondTurn where
  /-- It is woken up on the condition variable: it was notified, or the time is up, or for no reason. -/
  | wakes
  /-- It has the mutex; whether the queue is starved, and, if it was woken up, whether by the time. -/
  | locked (starved timedOut : Bool)
  /-- The library throws. -/
  | threw (e : BipcException)
  deriving DecidableEq

/-- Where a call is. -/
inductive BipcPos where
  /-- It is about to try to transfer without blocking. -/
  | attempt
  /-- It is about to take the mutex. -/
  | check
  /-- It sleeps on the condition variable. -/
  | asleep
  /-- It has been woken up, and is about to take the mutex again. -/
  | woken
  deriving DecidableEq

/-- What there is for a direction in a `Bipc_mq_handle`.
Source: `bipc_mq_handle.hpp` `m_interrupting_snd`, `m_interrupting_rcv` -/
structure BipcMqHandle where
  /-- `m_interrupting_snd`, `m_interrupting_rcv` -/
  interrupting : Bool
  /-- How many of the queue's `m_blocked_senders` or `m_blocked_receivers` are this handle's. -/
  blockedDudes : Nat
  deriving DecidableEq

namespace BipcMqHandle

/-- All who sleep in the direction are woken up. -/
def notifyAll (d : Dir) (op : Option (Op BipcPos)) : Option (Op BipcPos) :=
  op.map fun p => if p.dir = d ∧ p.pos = .asleep then { p with pos := .woken } else p

/-- `interrupt_allow_impl<SND_ELSE_RCV, ON_ELSE_OFF>()`, what it leaves in progress and what it returns.
Source: `bipc_mq_handle.cpp` `interrupt_allow_impl` -/
def interruptAllowImpl (d : Dir) (onElseOff : Bool) (r : BipcMqHandle) (op : Option (Op BipcPos)) :
    BipcMqHandle × Option (Op BipcPos) × Bool :=
  if r.interrupting = onElseOff then (r, op, false)
  else ({ r with interrupting := onElseOff }, if onElseOff then notifyAll d op else op, true)

/-- The same as a step. -/
def switched (d : Dir) (b : Bool) (r : BipcMqHandle) (op : Option (Op BipcPos)) :
    Option (BipcMqHandle × Option (Op BipcPos) × Obs) :=
  let (r, op, ok) := interruptAllowImpl d b r op
  some (r, op, .switched ok)

/-- What a turn of `wait_impl()` leads to. -/
inductive Turn where
  /-- It is now at `pos`. -/
  | at (pos : BipcPos)
  /-- It returns this, and this is `*err_code`. -/
  | returns (ok : Bool) (err : ErrorCode)
  deriving DecidableEq

/-- A turn of `wait_impl<WAIT_TYPE, SND_ELSE_RCV>()`; `none` if it is not what can happen next.
Source: `bipc_mq_handle.cpp` `wait_impl` -/
def waitImpl (w : WaitType) (r : BipcMqHandle) : BipcPos → CondTurn → Option (BipcMqHandle × Turn)
  | .check, .threw e => some (r, .returns false (some e.toErr))
  | .check, .locked starved _ =>
    if r.interrupting then some (r, .returns false interrupted)
    else if starved then
      if w = .poll then some (r, .returns false none)
      else some ({ r with blockedDudes := r.blockedDudes + 1 }, .at .asleep)
    else some (r, .returns true none)
  | .asleep, .wakes => some (r, .at .woken)
  | .woken, .threw e =>
    some ({ r with blockedDudes := r.blockedDudes - 1 }, .returns false (some e.toErr))
  | .woken, .locked starved timedOut =>
    if r.interrupting then
      some ({ r with blockedDudes := r.blockedDudes - 1 }, .returns false interrupted)
    else if w = .timedWait ∧ timedOut then
      some ({ r with blockedDudes := r.blockedDudes - 1 }, .returns (!starved) none)
    else if starved then some (r, .at .asleep)
    else some ({ r with blockedDudes := r.blockedDudes - 1 }, .returns true none)
  | _, _ => none

/-- After a try, or at the end of a wait, that has come to `o` the call is over, or it goes on at `pos`. -/
def proceed (p : Op BipcPos) (pos : BipcPos) : Obs → Option (Op BipcPos)
  | .returned _ _ => none
  | _ => some { p with pos := pos }

/-- What is done next.
Source: `bipc_mq_handle.cpp` `send`, `timed_send`, `receive`, `timed_receive`, `is_sendable`,
`wait_sendable`, `timed_wait_sendable`, `is_receivable`, `wait_receivable`, `timed_wait_receivable` -/
def act (r : BipcMqHandle) (op : Option (Op BipcPos)) :
    Input BipcException CondTurn → Option (BipcMqHandle × Option (Op BipcPos) × Obs)
  | .interrupt d => switched d true r op
  | .allow d => switched d false r op
  | .begin d c =>
    match op with
    | some _ => none
    | none => some (r, some ⟨d, c, if c.transmits then .attempt else .check⟩, .pending)
  | .attempt d a =>
    match op with
    | none => none
    | some p =>
      if p.dir = d ∧ p.pos = .attempt then
        let o : Obs :=
          match a with
          | .done => .returned true none
          | .wouldBlock => .pending
          | .failed e => .returned false (some e.toErr)
        some (r, proceed p .check o, o)
      else none
  | .wait d t =>
    match op with
    | none => none
    | some p =>
      if p.dir = d then
        match waitImpl p.call.waitType r p.pos t with
        | none => none
        | some (r, .at pos) => some (r, some { p with pos := pos }, .pending)
        | some (r, .returns ok err) =>
          let o := p.call.afterWait ok err
          some (r, proceed p .attempt o, o)
      else none

/-- `Bipc_mq_handle`, as a kind of handle. -/
def kind : Kind where
  R := BipcMqHandle
  Pos := BipcPos
  E := BipcException
  T := CondTurn
  ctor := ⟨false, 0⟩
  interrupting := interrupting
  act := act
  Waits pos := pos ≠ .attempt

/-! ## What a direction keeps -/

variable {r r' : BipcMqHandle} {op op' : Option (Op BipcPos)} {d : Dir} {t : CondTurn} {o : Obs}

/-- A call that is on the condition variable is among the blocked dudes. -/
def blocked : Option (Op BipcPos) → Nat
  | some ⟨_, _, .asleep⟩ | some ⟨_, _, .woken⟩ => 1
  | _ => 0

/-- No one sleeps in a direction that is in interrupt mode. Who is blocked is counted. -/
structure Inv (r : BipcMqHandle) (op : Option (Op BipcPos)) : Prop where
  blocked : r.blockedDudes = blocked op
  asleep : ∀ p ∈ op, p.pos = .asleep → r.interrupting = false

/-- In a turn that a wait has while its direction is in interrupt mode, the library does not throw. -/
def Told (r : BipcMqHandle) (x : Input BipcException CondTurn × Obs) : Prop :=
  match x.1 with
  | .wait _ t => r.interrupting = true → ∀ e, t ≠ .threw e
  | _ => True

/-- No one goes to sleep by being notified, nor leaves the blocked dudes. -/
theorem notifyAll_spec (d : Dir) (op : Option (Op BipcPos)) :
    blocked (notifyAll d op) = blocked op ∧
      (∀ p ∈ notifyAll d op, p.dir = d → p.pos ≠ .asleep) ∧
      ∀ p ∈ notifyAll d op, ∃ q ∈ op, p.dir = q.dir := by
  rcases op with _ | ⟨e, c, pos⟩
  · refine ⟨rfl, ?_, ?_⟩
    · rintro p ⟨⟩
    · rintro p ⟨⟩
  · by_cases hp : e = d ∧ pos = .asleep
    · obtain ⟨rfl, rfl⟩ := hp
      simp [notifyAll, blocked]
    · have hkept : notifyAll d (some ⟨e, c, pos⟩) = some ⟨e, c, pos⟩ := by
        simp [notifyAll, hp]
      rw [hkept]
      refine ⟨rfl, ?_, fun p hp => ⟨p, hp, rfl⟩⟩
      rintro p ⟨⟩ hdir hpos
      exact hp ⟨hdir, hpos⟩

/-- The mode is switched, and a sleeper does not stay asleep while it is on. -/
theorem Inv.interruptAllowImpl (h : r.Inv op) (hop : ∀ p ∈ op, p.dir = d) (b : Bool) :
    ∃ op', interruptAllowImpl d b r op = ({ r with interrupting := b }, op', b != r.interrupting) ∧
      Inv { r with interrupting := b } op' := by
  unfold BipcMqHandle.interruptAllowImpl
  by_cases hsame : r.interrupting = b
  · subst hsame
    refine ⟨op, ?_, h⟩
    rw [if_pos rfl, bne_self_eq_false]
  · rw [if_neg hsame]
    have hne : (b != r.interrupting) = true := bne_iff_ne.mpr (Ne.symm hsame)
    refine ⟨_, by rw [hne], ?_⟩
    cases b with
    | true =>
        rw [if_pos rfl]
        obtain ⟨hblocked, hawake, hdir⟩ := notifyAll_spec d op
        refine ⟨h.blocked.trans hblocked.symm, fun p hp hpos => ?_⟩
        obtain ⟨q, hq, hpq⟩ := hdir p hp
        exact absurd hpos (hawake p hp (hpq.trans (hop q hq)))
    | false =>
        rw [if_neg (by decide)]
        exact ⟨h.blocked, fun p hp hpos => rfl⟩

/-- A call that goes on is one of the same direction. -/
theorem mem_proceed {p q : Op BipcPos} {pos : BipcPos} (h : q ∈ proceed p pos o) :
    q.dir = p.dir ∧ q.pos = pos := by
  cases o with
  | returned ok err => cases h
  | switched ok =>
      cases h
      exact ⟨rfl, rfl⟩
  | pending =>
      cases h
      exact ⟨rfl, rfl⟩

/-- A try is about the call in progress, and is no interruption. -/
theorem act_attempt {a : Attempt BipcException} (h : r.act op (.attempt d a) = some (r', op', o)) :
    r' = r ∧ ∃ p, op = some p ∧ p.dir = d ∧ p.pos = .attempt ∧ op' = proceed p .check o ∧
      ¬ o.Interrupted ∧ ∀ ok, o ≠ .switched ok := by
  unfold act at h
  simp only at h
  split at h
  · cases h
  · rename_i p
    split_ifs at h with hguard
    cases a with
    | done =>
        cases h
        exact ⟨rfl, p, rfl, hguard.1, hguard.2, rfl, by simp [Obs.Interrupted], by simp⟩
    | wouldBlock =>
        cases h
        exact ⟨rfl, p, rfl, hguard.1, hguard.2, rfl, by simp [Obs.Interrupted], by simp⟩
    | failed e =>
        cases h
        refine ⟨rfl, p, rfl, hguard.1, hguard.2, rfl, ?_, by simp⟩
        rintro ⟨ok, ho⟩
        exact e.toErr_ne_interrupted (Obs.returned.inj ho).2

/-- A turn is about the call in progress: it goes on waiting, or `wait_impl()` has returned. -/
theorem act_wait (h : r.act op (.wait d t) = some (r', op', o)) :
    ∃ p, op = some p ∧ p.dir = d ∧
      ((∃ pos, waitImpl p.call.waitType r p.pos t = some (r', .at pos) ∧
          op' = some { p with pos := pos } ∧ o = .pending) ∨
        ∃ ok err, waitImpl p.call.waitType r p.pos t = some (r', .returns ok err) ∧
          op' = proceed p .attempt o ∧ o = p.call.afterWait ok err) := by
  unfold act at h
  simp only at h
  split at h
  · cases h
  · rename_i p
    split_ifs at h with hdir
    split at h
    · cases h
    · rename_i hwait
      cases h
      exact ⟨p, rfl, hdir, .inl ⟨_, hwait, rfl, rfl⟩⟩
    · rename_i hwait
      cases h
      exact ⟨p, rfl, hdir, .inr ⟨_, _, hwait, rfl, rfl⟩⟩

/-- What a turn of `wait_impl()` has come to: where the call goes on the mode is off; where it returns it
has left the blocked dudes, and says that it was interrupted iff the mode is on and nothing was thrown. -/
structure TurnSpec (r r' : BipcMqHandle) (t : CondTurn) (turn : Turn) : Prop where
  mode : r'.interrupting = r.interrupting
  goes_on : ∀ pos, turn = .at pos →
    r.interrupting = false ∧ (pos = .asleep ∨ pos = .woken) ∧ r'.blockedDudes = 1
  left : ∀ ok err, turn = .returns ok err → r'.blockedDudes = 0
  interrupted : r.interrupting = true → (∀ e, t ≠ .threw e) → turn = .returns false interrupted
  not_interrupted : r.interrupting = false ∨ (∃ e, t = .threw e) →
    ∀ ok err, turn = .returns ok err → err ≠ MqHandle.interrupted

/-- A turn in which the library throws is as it should be. -/
theorem turnSpec_threw {r' : BipcMqHandle} {e : BipcException} (hmode : r'.interrupting = r.interrupting)
    (hleft : r'.blockedDudes = 0) : TurnSpec r r' (.threw e) (.returns false (some e.toErr)) where
  mode := hmode
  goes_on pos h := by cases h
  left ok err _ := hleft
  interrupted _ hnot := absurd rfl (hnot e)
  not_interrupted _ ok err h := by
    cases h
    exact e.toErr_ne_interrupted

/-- A turn that finds the mode on is as it should be. -/
theorem turnSpec_on {r' : BipcMqHandle} (hmode : r'.interrupting = r.interrupting)
    (hleft : r'.blockedDudes = 0) (hon : r.interrupting = true) {b c : Bool} :
    TurnSpec r r' (.locked b c) (.returns false interrupted) where
  mode := hmode
  goes_on pos h := by cases h
  left ok err _ := hleft
  interrupted _ _ := rfl
  not_interrupted hoff ok err _ := by
    rcases hoff with hoff | ⟨e, he⟩
    · rw [hon] at hoff
      cases hoff
    · cases he

/-- A turn that finds the mode off is as it should be. -/
theorem turnSpec_off {r' : BipcMqHandle} (hmode : r'.interrupting = r.interrupting)
    (hoff : r.interrupting = false) {turn : Turn}
    (hat : ∀ pos, turn = .at pos → (pos = .asleep ∨ pos = .woken) ∧ r'.blockedDudes = 1)
    (hret : ∀ ok err, turn = .returns ok err → r'.blockedDudes = 0 ∧ err = none) :
    TurnSpec r r' t turn where
  mode := hmode
  goes_on pos h := ⟨hoff, hat pos h⟩
  left ok err h := (hret ok err h).1
  interrupted hon _ := by
    rw [hoff] at hon
    cases hon
  not_interrupted _ ok err h := by
    rw [(hret ok err h).2]
    simp

/-- Each turn of a wait is as it should be. -/
theorem Inv.turn {p : Op BipcPos} {w : WaitType} {turn : Turn} (h : r.Inv (some p))
    (hw : waitImpl w r p.pos t = some (r', turn)) : TurnSpec r r' t turn := by
  have hblocked := h.blocked
  have hasleep := h.asleep p rfl
  obtain ⟨e, c, pos⟩ := p
  simp only at hw hasleep
  cases pos with
  | attempt =>
      simp only [waitImpl] at hw
      cases hw
  | check =>
      have hzero : r.blockedDudes = 0 := hblocked
      cases t with
      | wakes => cases hw
      | threw e =>
          cases hw
          exact turnSpec_threw (by rfl) hzero
      | locked starved timedOut =>
          simp only [waitImpl] at hw
          split_ifs at hw with hon hstarved hpoll
          · cases hw
            exact turnSpec_on (by rfl) hzero hon
          · cases hw
            exact turnSpec_off (by rfl) (by simpa using hon) (by simp) (by simp [hzero])
          · cases hw
            exact turnSpec_off (by rfl) (by simpa using hon) (by simp [hzero]) (by simp)
          · cases hw
            exact turnSpec_off (by rfl) (by simpa using hon) (by simp) (by simp [hzero])
  | asleep =>
      have hone : r.blockedDudes = 1 := hblocked
      cases t with
      | wakes =>
          cases hw
          exact turnSpec_off (by rfl) (hasleep rfl) (by simp [hone]) (by simp)
      | threw e => cases hw
      | locked starved timedOut => cases hw
  | woken =>
      have hone : r.blockedDudes = 1 := hblocked
      cases t with
      | wakes => cases hw
      | threw e =>
          cases hw
          exact turnSpec_threw (by rfl) (by simp [hone])
      | locked starved timedOut =>
          simp only [waitImpl] at hw
          split_ifs at hw with hon htime hstarved
          · cases hw
            exact turnSpec_on (by rfl) (by simp [hone]) hon
          · cases hw
            exact turnSpec_off (by rfl) (by simpa using hon) (by simp) (by simp [hone])
          · cases hw
            exact turnSpec_off (by rfl) (by simpa using hon) (by simp [hone]) (by simp)
          · cases hw
            exact turnSpec_off (by rfl) (by simpa using hon) (by simp) (by simp [hone])

/-- **A turn honours the mode** iff nothing is thrown in it while the mode is on. -/
theorem Inv.honoured_wait (hinv : r.Inv op) (h : r.act op (.wait d t) = some (r', op', o)) :
    HonouredAt r.interrupting ((.wait d t : Input BipcException CondTurn), o) ↔
      r.Told (.wait d t, o) := by
  obtain ⟨p, rfl, -, ⟨pos, hw, -, ho⟩ | ⟨ok, err, hw, -, ho⟩⟩ := act_wait h
  · have hspec := hinv.turn hw
    have hoff := (hspec.goes_on pos rfl).1
    simp only [HonouredAt, Told, hoff, ho]
    exact iff_of_true (by simp [Obs.Interrupted]) fun h => by cases h
  · have hspec := hinv.turn hw
    simp only [HonouredAt, Told]
    by_cases htold : r.interrupting = true ∧ ∀ e, t ≠ .threw e
    · obtain ⟨hon, hnot⟩ := htold
      cases hspec.interrupted hon hnot
      rw [if_pos hon, ho, p.call.afterWait_interrupted]
      exact iff_of_true rfl fun _ => hnot
    · have hor : r.interrupting = false ∨ ∃ e, t = .threw e := by
        cases hon : r.interrupting with
        | false => exact .inl rfl
        | true => exact .inr (by simpa [hon] using htold)
      have hnot : ¬ o.Interrupted := by
        intro hint
        rw [ho] at hint
        exact hspec.not_interrupted hor ok err rfl (Call.interrupted_afterWait hint)
      cases hon : r.interrupting with
      | true =>
          rw [if_pos rfl]
          refine iff_of_false (fun hover => hnot ⟨false, hover⟩) fun h => ?_
          exact htold ⟨hon, h rfl⟩
      | false =>
          rw [if_neg (by decide)]
          exact iff_of_true hnot fun h => by cases h

/-- A turn keeps the invariant, and the mode. -/
theorem Inv.wait (hinv : r.Inv op) (h : r.act op (.wait d t) = some (r', op', o)) :
    r'.Inv op' ∧ r'.interrupting = r.interrupting ∧ ∀ ok, o ≠ .switched ok := by
  obtain ⟨p, rfl, -, ⟨pos, hw, rfl, rfl⟩ | ⟨ok, err, hw, rfl, ho⟩⟩ := act_wait h
  · have hspec := hinv.turn hw
    obtain ⟨hoff, hpos, hone⟩ := hspec.goes_on pos rfl
    refine ⟨⟨?_, fun q _ _ => by rw [hspec.mode, hoff]⟩, hspec.mode, by simp⟩
    rw [hone]
    rcases hpos with rfl | rfl <;> rfl
  · have hspec := hinv.turn hw
    refine ⟨⟨?_, fun q hq hpos => ?_⟩, hspec.mode, fun ok => ?_⟩
    · rw [hspec.left ok err rfl]
      cases o <;> rfl
    · rw [(mem_proceed hq).2] at hpos
      cases hpos
    · rw [ho]
      exact p.call.afterWait_ne_switched _ _ ok

/-- What a switch leaves in progress is what was in progress, or was woken up. -/
theorem mem_interruptAllowImpl {b : Bool} {q : Op BipcPos} (h : q ∈ (interruptAllowImpl d b r op).2.1) :
    ∃ p ∈ op, q.dir = p.dir := by
  unfold interruptAllowImpl at h
  by_cases hsame : r.interrupting = b
  · rw [if_pos hsame] at h
    exact ⟨q, h, rfl⟩
  · rw [if_neg hsame] at h
    cases b with
    | true => exact (notifyAll_spec d op).2.2 q h
    | false => exact ⟨q, h, rfl⟩

/-- A switch does not concern a call of the other direction. -/
theorem interruptAllowImpl_other {p : Op BipcPos} (hdir : p.dir ≠ d) (b : Bool) :
    interruptAllowImpl d b r (some p) =
      ((interruptAllowImpl d b r none).1, some p, (interruptAllowImpl d b r none).2.2) ∧
        (interruptAllowImpl d b r none).2.1 = none := by
  have hkept : notifyAll d (some p) = some p := by
    simp [notifyAll, hdir]
  have hnone : notifyAll d none = none := rfl
  unfold interruptAllowImpl
  rw [hkept, hnone]
  by_cases hsame : r.interrupting = b
  · rw [if_pos hsame, if_pos hsame]
    exact ⟨rfl, rfl⟩
  · rw [if_neg hsame, if_neg hsame]
    cases b <;> exact ⟨rfl, rfl⟩

/-- A switch of the one direction does not touch a call in the other. -/
theorem switched_other {p : Op BipcPos} (hdir : p.dir ≠ d) (b : Bool)
    (h : switched d b r (some p) = some (r', op', o)) :
    op' = some p ∧ switched d b r none = some (r', none, o) := by
  obtain ⟨heq, hnone⟩ := interruptAllowImpl_other (r := r) hdir b
  unfold switched at h ⊢
  rw [heq] at h
  cases h
  exact ⟨rfl, congrArg (fun op => some (_, op, _)) hnone⟩

/-- A switch sets the mode, and answers whether that changes it. -/
theorem Inv.switched (h : r.Inv op) (hop : ∀ p ∈ op, p.dir = d) (b : Bool)
    (hstep : switched d b r op = some (r', op', o)) :
    r'.Inv op' ∧ r'.interrupting = b ∧ o = .switched (b != r.interrupting) := by
  obtain ⟨op₁, heq, hinv⟩ := h.interruptAllowImpl hop b
  unfold BipcMqHandle.switched at hstep
  rw [heq] at hstep
  cases hstep
  exact ⟨hinv, rfl, rfl⟩

/-- A `Bipc_mq_handle` keeps what is promised, up to exceptions. -/
theorem lawful : kind.Lawful Told Inv where
  ctor := ⟨rfl, fun p hp => by cases hp⟩
  ctor_off := rfl
  own r op i r' op' o hop h := by
    cases i with
    | interrupt d =>
        cases h
        intro q hq
        obtain ⟨p, hp, hpq⟩ := mem_interruptAllowImpl hq
        exact hpq.trans (hop p hp)
    | allow d =>
        cases h
        intro q hq
        obtain ⟨p, hp, hpq⟩ := mem_interruptAllowImpl hq
        exact hpq.trans (hop p hp)
    | begin d c =>
        cases op with
        | some p => cases h
        | none =>
            cases h
            rintro p ⟨⟩
            rfl
    | attempt d a =>
        obtain ⟨-, p, rfl, hdir, -, rfl, -⟩ := act_attempt h
        exact fun q hq => (mem_proceed hq).1.trans hdir
    | wait d t =>
        obtain ⟨p, rfl, hdir, ⟨pos, -, rfl, -⟩ | ⟨ok, err, -, rfl, -⟩⟩ := act_wait h
        · rintro q ⟨⟩
          exact hdir
        · exact fun q hq => (mem_proceed hq).1.trans hdir
  other r p i r' op' o hdir h := by
    cases i with
    | interrupt d => exact switched_other hdir true h
    | allow d => exact switched_other hdir false h
    | begin d c => cases h
    | attempt d a =>
        obtain ⟨-, q, hq, hdir', -⟩ := act_attempt (show act r (some p) (.attempt d a) = _ from h)
        cases hq
        exact absurd hdir' hdir
    | wait d t =>
        obtain ⟨q, hq, hdir', -⟩ := act_wait (show act r (some p) (.wait d t) = _ from h)
        cases hq
        exact absurd hdir' hdir
  acts r op i r' op' o hop hinv h := by
    cases i with
    | interrupt d =>
        obtain ⟨hinv', hmode, rfl⟩ := Inv.switched hinv hop true h
        refine ⟨hinv', hmode, ?_, by simp [HonouredAt, Obs.Interrupted, Told]⟩
        simp only [Answered, Bool.true_bne]
        rfl
    | allow d =>
        obtain ⟨hinv', hmode, rfl⟩ := Inv.switched hinv hop false h
        refine ⟨hinv', hmode, ?_, by simp [HonouredAt, Obs.Interrupted, Told]⟩
        simp only [Answered, Bool.false_bne]
        rfl
    | begin d c =>
        cases op with
        | some p => cases h
        | none =>
            cases h
            have hpos : (if c.transmits = true then BipcPos.attempt else .check) = .attempt ∨
                (if c.transmits = true then BipcPos.attempt else .check) = .check := by
              split_ifs <;> simp
            refine ⟨⟨?_, ?_⟩, rfl, by simp [Answered], ?_⟩
            · have hzero : r.blockedDudes = 0 := hinv.blocked
              rcases hpos with hpos | hpos <;> rw [hpos, hzero] <;> rfl
            · rintro p ⟨⟩ hasleep
              rcases hpos with hpos | hpos <;> rw [hpos] at hasleep <;> cases hasleep
            · simp [HonouredAt, Obs.Interrupted, Told]
    | attempt d a =>
        obtain ⟨rfl, ⟨e, c, pos⟩, rfl, -, rfl, rfl, hnot, hans⟩ := act_attempt h
        have hzero : r'.blockedDudes = 0 := Inv.blocked hinv
        refine ⟨⟨?_, fun q hq hasleep => ?_⟩, rfl, hans, iff_of_true hnot trivial⟩
        · rw [hzero]
          cases o <;> rfl
        · rw [(mem_proceed hq).2] at hasleep
          cases hasleep
    | wait d t =>
        obtain ⟨hinv', hmode, hans⟩ := Inv.wait hinv h
        exact ⟨hinv', hmode, hans, Inv.honoured_wait hinv h⟩
  switchable r op op' d hinv := ⟨rfl, rfl⟩
  turn r p hinv hwaits hon := by
    -- No one sleeps while the mode is on, so that the next thing is to take the mutex.
    obtain ⟨e, c, pos⟩ := p
    have hact {r' : BipcMqHandle} (hwait : waitImpl c.waitType r pos (.locked true false) =
        some (r', .returns false interrupted)) :
        kind.act r (some ⟨e, c, pos⟩) (.wait e (.locked true false)) =
          some (r', none, .returned false interrupted) := by
      change act r (some ⟨e, c, pos⟩) (.wait e (.locked true false)) = _
      simp only [act, hwait, Call.afterWait_interrupted]
      rfl
    cases pos with
    | attempt => exact absurd rfl hwaits
    | check => exact ⟨_, _, hact (if_pos hon)⟩
    | asleep =>
        have hoff := Inv.asleep hinv _ rfl rfl
        exact absurd (hon.symm.trans hoff) (by decide)
    | woken => exact ⟨_, _, hact (if_pos hon)⟩

end BipcMqHandle

end FlowIpc.MqHandle
