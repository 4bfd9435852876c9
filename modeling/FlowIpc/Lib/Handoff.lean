import FlowIpc.Lib.Transition

/-!
# A resource handed to a worker thread and back

A user thread works on a resource that two threads may not work on at once. Where it would have to
wait, it posts a task to a worker thread, which does the waiting, and awaits a pipe; the worker, once
its wait has ended, writes one byte to the pipe, unless the wait was interrupted. The event loop of the
user thread then calls it back, and the callback consumes the byte first.

* `User` is the program of the user thread: what it does in a turn, a call or a callback, is a list of
  *acts*, carried out one by one, with the worker running in between.
* `User.Disciplined` is the rule: in a turn, a user thread that awaits the pipe does nothing; one that
  does not may touch the resource, and may then, as the last thing, post a task and await the pipe.
* `Exclusive` is what follows for every state of every run (`User.Disciplined.reachable`): the tasks not
  finished and the bytes not read are one at most, and while they are one the resource is not touched.
  Nor is the user thread ever stuck (`Live`).
-/

namespace Handoff

open Lts

universe u v w

/-- What the user thread does in a turn, as far as the resource and the worker go. -/
inductive Act (ω : Type w) where
  /-- It works on the resource. -/
  | touch (op : ω)
  /-- It posts a task to the worker. -/
  | post
  /-- It asks the event loop to be called back when the pipe is readable. -/
  | await
  /-- It reads a byte off the pipe. -/
  | consume
  deriving DecidableEq

/-- Where the worker is. -/
inductive Worker where
  /-- Between tasks. -/
  | idle
  /-- Waiting, which is work on the resource. -/
  | waiting
  /-- Done waiting, and about to write the byte. -/
  | signalling
  deriving DecidableEq

/-- How a wait ends. -/
inductive WaitEnd where
  /-- What was waited for is the case. -/
  | ready
  /-- It cannot be waited for. -/
  | failed
  /-- The user thread interrupted it. -/
  | interrupted
  deriving DecidableEq

/-- How far the destruction has come. -/
inductive Phase where
  | alive
  /-- The user thread has interrupted all waits, present and future. -/
  | interrupted
  /-- The worker thread has been joined. -/
  | gone
  deriving DecidableEq

/-- The program of the user thread: its turns are calls and callbacks, told apart by `isReady`. -/
structure User (σ : Type u) (ι : Type v) (ω : Type w) where
  /-- How often the pipe is awaited in this state. -/
  waits : σ → Nat
  /-- The callback for a readable pipe. -/
  isReady : ι → Bool
  /-- What a turn makes of the state, and what is done in it. -/
  turn : σ → ι → Option (σ × List (Act ω))

/-- The two threads, the pipe, and the event loop. -/
structure State (σ : Type u) (ω : Type w) where
  /-- The state of the user thread, as the current turn will leave it. -/
  core : σ
  /-- What is left to do of the current turn. -/
  todo : List (Act ω)
  /-- How often the event loop has been asked for a callback that is still to come. -/
  waits : Nat
  /-- The bytes in the pipe. -/
  bytes : Nat
  /-- The tasks posted that have not begun. -/
  posted : Nat
  worker : Worker
  phase : Phase

/-- What can happen next. -/
inductive Move (ι : Type v) where
  /-- The user thread begins a turn. -/
  | turn (i : ι)
  /-- It does the next thing of its turn. -/
  | act
  /-- The worker begins a task, and so to wait. -/
  | start
  /-- Its wait ends. -/
  | ends (e : WaitEnd)
  /-- It writes the byte. -/
  | signal
  /-- The user thread interrupts the worker. -/
  | interrupt
  /-- The user thread joins the worker; a task that has not begun is dropped. -/
  | join
  deriving DecidableEq

/-- A move of the worker. -/
def Move.IsWorker {ι : Type v} (m : Move ι) : Prop :=
  m = .start ∨ (∃ e, m = .ends e) ∨ m = .signal

variable {σ : Type u} {ι : Type v} {ω : Type w}

namespace State

/-- The tasks posted and not finished. -/
def unfinished (s : State σ ω) : Nat :=
  s.posted + if s.worker = .idle then 0 else 1

/-- A user thread that has done nothing yet. -/
def init (core : σ) : State σ ω :=
  ⟨core, [], 0, 0, 0, .idle, .alive⟩

/-- The next thing of the turn. There is no reading from an empty pipe. -/
def act (s : State σ ω) : Option (State σ ω) :=
  match s.todo with
  | [] => none
  | .touch _ :: acts => some { s with todo := acts }
  | .post :: acts => some { s with todo := acts, posted := s.posted + 1 }
  | .await :: acts => some { s with todo := acts, waits := s.waits + 1 }
  | .consume :: acts =>
    if s.bytes = 0 then none else some { s with todo := acts, bytes := s.bytes - 1 }

/-- What a move leads to, where it can be made. A callback needs a request for it and a readable pipe;
a wait is interrupted only by the user thread. -/
def next (user : User σ ι ω) (s : State σ ω) : Move ι → Option (State σ ω)
  | .turn i =>
    if s.phase = .alive ∧ s.todo = [] ∧ (user.isReady i = true → 0 < s.waits ∧ 0 < s.bytes) then
      (user.turn s.core i).map fun r =>
        { s with
          core := r.1
          todo := r.2
          waits := if user.isReady i then s.waits - 1 else s.waits }
    else none
  | .act => s.act
  | .start =>
    if s.worker = .idle ∧ 0 < s.posted then
      some { s with worker := .waiting, posted := s.posted - 1 }
    else none
  | .ends e =>
    if s.worker = .waiting ∧ (e = .interrupted → s.phase ≠ .alive) then
      some { s with worker := if e = .interrupted then .idle else .signalling }
    else none
  | .signal =>
    if s.worker = .signalling then some { s with worker := .idle, bytes := s.bytes + 1 } else none
  | .interrupt =>
    if s.phase = .alive ∧ s.todo = [] then some { s with phase := .interrupted } else none
  | .join =>
    if s.phase = .interrupted ∧ s.worker = .idle then some { s with phase := .gone, posted := 0 }
    else none

end State

/-- A move, as a step. -/
def Step (user : User σ ι ω) (s : State σ ω) (m : Move ι) (t : State σ ω) : Prop :=
  s.next user m = some t

/-! ## The rule for the user thread -/

/-- The acts that may be done in a turn, between the requests for a callback before and after it: none,
while there is one; otherwise work on the resource, after which it may be handed to the worker. -/
inductive Turn : Nat → List (Act ω) → Nat → Prop where
  /-- The worker has the resource. -/
  | held : Turn 1 [] 1
  /-- The user thread has it, and keeps it. -/
  | kept (ops : List ω) : Turn 0 (ops.map .touch) 0
  /-- It hands it to the worker. -/
  | handed (ops : List ω) : Turn 0 (ops.map .touch ++ [.post, .await]) 1

/-- Nothing done is a turn. -/
theorem Turn.nil {n : Nat} (h : n ≤ 1) : Turn n ([] : List (Act ω)) n := by
  obtain rfl | rfl : n = 0 ∨ n = 1 := by omega
  · exact .kept []
  · exact .held

/-- One thing more done with the resource, first. -/
theorem Turn.touch {as : List (Act ω)} {n : Nat} (op : ω) (h : Turn 0 as n) :
    Turn 0 (.touch op :: as) n := by
  cases h with
  | kept ops => exact .kept (op :: ops)
  | handed ops => exact .handed (op :: ops)

/-- Turns one after another are one. -/
theorem Turn.append {as bs : List (Act ω)} {k m n : Nat} (h : Turn k as m) (h' : Turn m bs n) :
    Turn k (as ++ bs) n := by
  cases h with
  | held =>
      cases h' with
      | held => exact .held
  | kept ops =>
      induction ops with
      | nil => exact h'
      | cons op ops ih => exact ih.touch op
  | handed ops =>
      cases h' with
      | held =>
          rw [List.append_nil]
          exact .handed ops

/-- The pipe is not awaited twice. -/
theorem Turn.le_one {as : List (Act ω)} {m n : Nat} (h : Turn m as n) : n ≤ 1 := by
  cases h <;> omega

/-- The user thread keeps to the rule in all states with `P`, which are kept: in a call, and in a
callback once it has consumed the byte, which it does first. A callback asked for can be made. -/
structure User.Disciplined (user : User σ ι ω) (P : σ → Prop) : Prop where
  call : ∀ {s s' : σ} {i : ι} {as : List (Act ω)}, P s → user.isReady i = false →
    user.turn s i = some (s', as) → P s' ∧ Turn (user.waits s) as (user.waits s')
  ready : ∀ {s : σ} {i : ι}, P s → user.waits s = 1 → user.isReady i = true →
    ∃ s' as, user.turn s i = some (s', .consume :: as) ∧ P s' ∧ Turn 0 as (user.waits s')

/-! ## What follows from it -/

/-- The worker and the user thread are never at the resource at once, and nothing in the pipe is missing
or too many. -/
structure Exclusive (s : State σ ω) : Prop where
  /-- There is one unfinished task, or one unread byte, at most. -/
  atMostOne : s.unfinished + s.bytes ≤ 1
  /-- Until the interrupt there is one, between turns, iff the pipe is awaited, which it is once. -/
  one_iff : s.phase = .alive → s.todo = [] → (s.unfinished + s.bytes = 1 ↔ s.waits = 1) ∧ s.waits ≤ 1
  /-- While there is one the user thread does not touch the resource. -/
  untouched : s.unfinished + s.bytes = 1 → ∀ op, s.todo.head? ≠ some (.touch op)
  /-- While the worker waits neither does it. -/
  notAtOnce : s.worker = .waiting → ∀ op, s.todo.head? ≠ some (.touch op)
  /-- Where the user thread reads a byte, that is the only one, and the worker is done. -/
  oneByte : s.todo.head? = some .consume → s.bytes = 1 ∧ s.unfinished = 0
  /-- From the interrupt on the user thread does nothing, and after the join nor does the worker. -/
  finished : s.phase ≠ .alive → s.todo = [] ∧ (s.phase = .gone → s.unfinished = 0)

/-- No thread waits for what cannot come. -/
structure Live (user : User σ ι ω) (s : State σ ω) : Prop where
  /-- A turn that was begun goes on. -/
  turns : s.todo ≠ [] → ∃ t, Step user s .act t
  /-- While the pipe is awaited the worker can move, or the callback can be made. -/
  awaited : s.phase = .alive → s.todo = [] → 0 < s.waits →
    (∃ m t, m.IsWorker ∧ Step user s m t) ∨
      ∀ i, user.isReady i = true → ∃ t, Step user s (.turn i) t
  /-- The destruction comes to its end, and in four moves at most. -/
  ends : s.phase = .interrupted → (∃ m t, Step user s m t) ∧
    ∀ ms t, Run (Step user) s ms t → ms.length ≤ 4

/-- Where the user thread is in its turn: what the worker has to do, the bytes in the pipe and the
requests for a callback, the acts left, and the requests once these are done. -/
inductive Stage : Nat → Nat → Nat → List (Act ω) → Nat → Prop where
  /-- Between turns, the pipe being awaited. -/
  | held {m b : Nat} (one : m + b = 1) : Stage m b 1 [] 1
  /-- Working on the resource, or between turns. -/
  | kept (ops : List ω) : Stage 0 0 0 (ops.map .touch) 0
  /-- Working on the resource, to hand it to the worker then. -/
  | handed (ops : List ω) : Stage 0 0 0 (ops.map .touch ++ [.post, .await]) 1
  /-- The task has been posted. -/
  | posted {m b : Nat} (one : m + b = 1) : Stage m b 0 [.await] 1
  /-- In the callback, about to read the byte. -/
  | called {as : List (Act ω)} {n : Nat} (rest : Turn 0 as n) : Stage 0 1 0 (.consume :: as) n

/-- A turn begins where the last one left off. -/
theorem Turn.stage {as : List (Act ω)} {n : Nat} (h : Turn 0 as n) : Stage 0 0 0 as n := by
  cases h with
  | kept ops => exact .kept ops
  | handed ops => exact .handed ops

/-- Where the worker has something to do, it may do that. -/
theorem Stage.worker {m b m' b' k n : Nat} {as : List (Act ω)} (h : Stage m b k as n) (hm : 0 < m)
    (heq : m' + b' = m + b) : Stage m' b' k as n := by
  cases h with
  | held one => exact .held (by omega)
  | kept => omega
  | handed => omega
  | posted one => exact .posted (by omega)
  | called => omega

/-- The invariant of the two threads, `P` being that of the user thread. -/
structure Inv (user : User σ ι ω) (P : σ → Prop) (s : State σ ω) : Prop where
  core : P s.core
  stage : s.phase = .alive → Stage s.unfinished s.bytes s.waits s.todo (user.waits s.core)
  ending : s.phase ≠ .alive → s.todo = [] ∧ s.unfinished + s.bytes ≤ 1
  gone : s.phase = .gone → s.unfinished = 0

/-! ### Where the user thread is, told by what it does next -/

section Stage

variable {m b k n : Nat} {as : List (Act ω)}

/-- Between turns there is a request for a callback, or none. -/
theorem Stage.of_nil (h : Stage m b k ([] : List (Act ω)) n) : k = n ∧ k ≤ 1 ∧ m + b = k := by
  generalize hl : ([] : List (Act ω)) = l at h
  cases h with
  | held one => exact ⟨rfl, Nat.le_refl 1, one⟩
  | kept => exact ⟨rfl, Nat.zero_le 1, rfl⟩
  | handed ops => simp at hl
  | posted => cases hl
  | called => cases hl

/-- Who touches the resource has it alone. -/
theorem Stage.of_touch {op : ω} (h : Stage m b k (.touch op :: as) n) :
    m = 0 ∧ b = 0 ∧ k = 0 ∧ Turn 0 as n := by
  generalize hl : Act.touch op :: as = l at h
  cases h with
  | held => cases hl
  | kept ops =>
      cases ops with
      | nil => cases hl
      | cons op ops =>
          cases hl
          exact ⟨rfl, rfl, rfl, .kept ops⟩
  | handed ops =>
      cases ops with
      | nil => cases hl
      | cons op ops =>
          cases hl
          exact ⟨rfl, rfl, rfl, .handed ops⟩
  | posted => cases hl
  | called => cases hl

/-- Who posts a task has it alone until then, and has then to wait. -/
theorem Stage.of_post (h : Stage m b k (.post :: as) n) :
    m = 0 ∧ b = 0 ∧ k = 0 ∧ as = [.await] ∧ n = 1 := by
  generalize hl : Act.post :: as = l at h
  cases h with
  | held => cases hl
  | kept ops => cases ops <;> cases hl
  | handed ops =>
      cases ops with
      | nil =>
          cases hl
          exact ⟨rfl, rfl, rfl, rfl, rfl⟩
      | cons => cases hl
  | posted => cases hl
  | called => cases hl

/-- Who is about to wait has posted a task. -/
theorem Stage.of_await (h : Stage m b k (.await :: as) n) :
    m + b = 1 ∧ k = 0 ∧ as = [] ∧ n = 1 := by
  generalize hl : Act.await :: as = l at h
  cases h with
  | held => cases hl
  | kept ops => cases ops <;> cases hl
  | handed ops => cases ops <;> cases hl
  | posted one =>
      cases hl
      exact ⟨one, rfl, rfl, rfl⟩
  | called => cases hl

/-- Who reads the byte finds one. -/
theorem Stage.of_consume (h : Stage m b k (.consume :: as) n) :
    m = 0 ∧ b = 1 ∧ k = 0 ∧ Turn 0 as n := by
  generalize hl : Act.consume :: as = l at h
  cases h with
  | held => cases hl
  | kept ops => cases ops <;> cases hl
  | handed ops => cases ops <;> cases hl
  | posted => cases hl
  | called rest =>
      cases hl
      exact ⟨rfl, rfl, rfl, rest⟩

/-- One unfinished task, or one byte, at most, wherever the user thread is. -/
theorem Stage.le_one (h : Stage m b k as n) : m + b ≤ 1 := by
  cases h <;> omega

end Stage

/-! ### Steps -/

variable {user : User σ ι ω} {P : σ → Prop} {s t : State σ ω}

/-- Acts are left to be done only while the object is alive. -/
theorem Inv.alive_of_todo (h : Inv user P s) (htodo : s.todo ≠ []) : s.phase = .alive := by
  by_contra hphase
  exact htodo (h.ending hphase).1

/-- A resource that nobody waits for is in order from the start. -/
theorem inv_init {core : σ} (hcore : P core) (hwaits : user.waits core = 0) :
    Inv user P (State.init core) where
  core := hcore
  stage _ := by
    have hkept : Stage 0 0 0 (([] : List ω).map Act.touch) 0 := .kept []
    rw [show user.waits (State.init (ω := ω) core).core = 0 from hwaits]
    exact hkept
  ending hphase := absurd rfl hphase
  gone hphase := by cases hphase

/-- A turn begins: a call, or the callback. -/
theorem Inv.turn (hu : user.Disciplined P) (h : Inv user P s) {i : ι}
    (hstep : Step user s (.turn i) t) : Inv user P t := by
  unfold Step State.next at hstep
  simp only at hstep
  split at hstep
  · rename_i hok
    obtain ⟨halive, htodo, hready⟩ := hok
    obtain ⟨⟨core, as⟩, hturn, rfl⟩ := Option.map_eq_some_iff.mp hstep
    have hstage := h.stage halive
    rw [htodo] at hstage
    obtain ⟨hwaits, hle, htoken⟩ := hstage.of_nil
    cases hi : user.isReady i with
    | true =>
        obtain ⟨hw, hb⟩ := hready hi
        have hone : s.waits = 1 := by omega
        obtain ⟨core', as', hturn', hcore, hrest⟩ := hu.ready h.core (hwaits ▸ hone) hi
        rw [hturn] at hturn'
        cases hturn'
        refine ⟨hcore, fun _ => ?_, fun hphase => absurd halive hphase, fun hphase => ?_⟩
        · have hbytes : s.bytes = 1 := by omega
          have hnone : s.unfinished = 0 := by omega
          change Stage s.unfinished s.bytes (s.waits - 1) (.consume :: as') (user.waits core)
          rw [hnone, hbytes, hone]
          exact .called hrest
        · rw [show s.phase = .gone from hphase] at halive
          cases halive
    | false =>
        obtain ⟨hcore, hrest⟩ := hu.call h.core hi hturn
        refine ⟨hcore, fun _ => ?_, fun hphase => absurd halive hphase, fun hphase => ?_⟩
        · change Stage s.unfinished s.bytes s.waits as (user.waits core)
          rw [← hwaits] at hrest
          obtain hzero | hone : s.waits = 0 ∨ s.waits = 1 := by omega
          · have hnone : s.unfinished = 0 := by omega
            have hbytes : s.bytes = 0 := by omega
            rw [hnone, hbytes, hzero]
            rw [hzero] at hrest
            exact hrest.stage
          · rw [hone] at hrest htoken ⊢
            generalize user.waits core = n at hrest ⊢
            cases hrest
            exact .held htoken
        · rw [show s.phase = .gone from hphase] at halive
          cases halive
  · cases hstep

/-- The next thing of a turn is done. -/
theorem Inv.act (h : Inv user P s) (hstep : s.act = some t) : Inv user P t := by
  have halive : s.phase = .alive := by
    apply h.alive_of_todo
    intro hnil
    simp [State.act, hnil] at hstep
  have hstage := h.stage halive
  have hinv : ∀ u : State σ ω, u.core = s.core → u.phase = .alive →
      Stage u.unfinished u.bytes u.waits u.todo (user.waits s.core) → Inv user P u := by
    intro u hcore hphase hu
    refine ⟨hcore ▸ h.core, fun _ => hcore ▸ hu, fun hne => absurd hphase hne, fun hgone => ?_⟩
    rw [hphase] at hgone
    cases hgone
  cases htodo : s.todo with
  | nil => simp [State.act, htodo] at hstep
  | cons a as =>
      rw [htodo] at hstage
      cases a with
      | touch op =>
          simp only [State.act, htodo, Option.some.injEq] at hstep
          subst hstep
          obtain ⟨hm, hb, hk, hrest⟩ := hstage.of_touch
          refine hinv _ (by rfl) (by exact halive) ?_
          change Stage s.unfinished s.bytes s.waits as (user.waits s.core)
          rw [hm, hb, hk]
          exact hrest.stage
      | post =>
          simp only [State.act, htodo, Option.some.injEq] at hstep
          subst hstep
          obtain ⟨hm, hb, hk, rfl, hn⟩ := hstage.of_post
          refine hinv _ (by rfl) (by exact halive) ?_
          change Stage (s.posted + 1 + if s.worker = .idle then 0 else 1) s.bytes s.waits [.await] _
          rw [hk, hn]
          unfold State.unfinished at hm
          exact .posted (by omega)
      | await =>
          simp only [State.act, htodo, Option.some.injEq] at hstep
          subst hstep
          obtain ⟨hone, hk, rfl, hn⟩ := hstage.of_await
          refine hinv _ (by rfl) (by exact halive) ?_
          change Stage s.unfinished s.bytes (s.waits + 1) [] _
          rw [hk, hn]
          exact .held hone
      | consume =>
          obtain ⟨hm, hb, hk, hrest⟩ := hstage.of_consume
          simp only [State.act, htodo, hb, Nat.one_ne_zero, if_false, Option.some.injEq] at hstep
          subst hstep
          refine hinv _ (by rfl) (by exact halive) ?_
          change Stage s.unfinished (1 - 1) s.waits as _
          rw [hm, hk]
          exact hrest.stage

/-- What the worker does to its tasks and the pipe: it goes on with a task, or finishes it with a byte,
or, after the interrupt, without. -/
theorem worker_cases {m : Move ι} (hm : m.IsWorker) (hstep : Step user s m t) :
    t.core = s.core ∧ t.todo = s.todo ∧ t.waits = s.waits ∧ t.phase = s.phase ∧ 0 < s.unfinished ∧
      (t.unfinished + t.bytes = s.unfinished + s.bytes ∨
        (s.phase ≠ .alive ∧ t.unfinished + t.bytes + 1 = s.unfinished + s.bytes)) ∧
      t.unfinished ≤ s.unfinished := by
  unfold Step State.next at hstep
  rcases hm with rfl | ⟨e, rfl⟩ | rfl
  · simp only at hstep
    split at hstep
    · rename_i hok
      cases hstep
      simp only [State.unfinished, hok.1, if_true, reduceCtorEq, if_false]
      have := hok.2
      refine ⟨trivial, trivial, trivial, trivial, by omega, .inl (by omega), by omega⟩
    · cases hstep
  · simp only at hstep
    split at hstep
    · rename_i hok
      cases hstep
      by_cases he : e = .interrupted
      · simp only [State.unfinished, hok.1, he, if_true, reduceCtorEq, if_false]
        exact ⟨trivial, trivial, trivial, trivial, by omega, .inr ⟨hok.2 he, by omega⟩, by omega⟩
      · simp only [State.unfinished, hok.1, he, reduceCtorEq, if_false]
        exact ⟨trivial, trivial, trivial, trivial, by omega, .inl trivial, by omega⟩
    · cases hstep
  · simp only at hstep
    split at hstep
    · rename_i hok
      cases hstep
      simp only [State.unfinished, hok, if_true, reduceCtorEq, if_false]
      exact ⟨trivial, trivial, trivial, trivial, by omega, .inl (by omega), by omega⟩
    · cases hstep

/-- What the worker does keeps it so. -/
theorem Inv.worker (h : Inv user P s) {m : Move ι} (hm : m.IsWorker) (hstep : Step user s m t) :
    Inv user P t := by
  obtain ⟨hcore, htodo, hwaits, hphase, hpos, htoken, hle⟩ := worker_cases hm hstep
  refine ⟨hcore ▸ h.core, fun halive => ?_, fun hne => ?_, fun hgone => ?_⟩
  · rw [hphase] at halive
    rw [hwaits, htodo, hcore]
    apply (h.stage halive).worker hpos
    rcases htoken with heq | ⟨hne, -⟩
    · exact heq
    · exact absurd halive hne
  · rw [hphase] at hne
    obtain ⟨hnil, hone⟩ := h.ending hne
    refine ⟨htodo.trans hnil, ?_⟩
    omega
  · have := h.gone (hphase ▸ hgone)
    omega

/-- So does every other step, of a disciplined user. -/
theorem Inv.step (hu : user.Disciplined P) (h : Inv user P s) {m : Move ι}
    (hstep : Step user s m t) : Inv user P t := by
  cases m with
  | turn i => exact h.turn hu hstep
  | act => exact h.act hstep
  | start => exact h.worker (.inl rfl) hstep
  | ends e => exact h.worker (.inr (.inl ⟨e, rfl⟩)) hstep
  | signal => exact h.worker (.inr (.inr rfl)) hstep
  | interrupt =>
      unfold Step State.next at hstep
      simp only at hstep
      split at hstep
      · rename_i hok
        cases hstep
        refine ⟨h.core, ?_, fun _ => ⟨hok.2, (h.stage hok.1).le_one⟩, ?_⟩
        · rintro ⟨⟩
        · rintro ⟨⟩
      · cases hstep
  | join =>
      unfold Step State.next at hstep
      simp only at hstep
      split at hstep
      · rename_i hok
        cases hstep
        obtain ⟨hnil, hone⟩ := h.ending (by simp [hok.1])
        refine ⟨h.core, ?_, fun _ => ⟨hnil, ?_⟩, fun _ => ?_⟩
        · rintro ⟨⟩
        · unfold State.unfinished at hone ⊢
          simp only [hok.2, if_true] at hone ⊢
          omega
        · simp [State.unfinished, hok.2]
      · cases hstep

/-! ## Every run -/

/-- What the invariant says of who is at the resource. -/
theorem Inv.exclusive (h : Inv user P s) : Exclusive s := by
  have hle : s.unfinished + s.bytes ≤ 1 := by
    by_cases hphase : s.phase = .alive
    · exact (h.stage hphase).le_one
    · exact (h.ending hphase).2
  have huntouched : ∀ op, s.todo.head? = some (.touch op) → s.unfinished + s.bytes = 0 := by
    intro op hhead
    obtain ⟨as, htodo⟩ := List.head?_eq_some_iff.mp hhead
    have hstage := h.stage (h.alive_of_todo (by rw [htodo]; simp))
    rw [htodo] at hstage
    obtain ⟨hm, hb, -⟩ := hstage.of_touch
    omega
  refine ⟨hle, fun halive htodo => ?_, fun hone op hhead => ?_, fun hwait op hhead => ?_,
    fun hhead => ?_, fun hphase => ⟨(h.ending hphase).1, h.gone⟩⟩
  · have hstage := h.stage halive
    rw [htodo] at hstage
    obtain ⟨-, hw, htoken⟩ := hstage.of_nil
    exact ⟨by rw [htoken], hw⟩
  · have := huntouched op hhead
    omega
  · have hzero := huntouched op hhead
    unfold State.unfinished at hzero
    simp only [hwait, reduceCtorEq, if_false] at hzero
    omega
  · obtain ⟨as, htodo⟩ := List.head?_eq_some_iff.mp hhead
    have hstage := h.stage (h.alive_of_todo (by rw [htodo]; simp))
    rw [htodo] at hstage
    obtain ⟨hm, hb, -⟩ := hstage.of_consume
    exact ⟨hb, hm⟩

/-- The moves that are left after the interrupt. -/
def State.left (s : State σ ω) : Nat :=
  (match s.phase with
    | .gone => 0
    | _ => 1) +
  (match s.worker with
    | .idle => 0
    | .waiting => 2
    | .signalling => 1) + 3 * s.posted

/-- After the interrupt every move brings the end nearer. -/
theorem Inv.left_lt (h : Inv user P s) (hphase : s.phase ≠ .alive) {m : Move ι}
    (hstep : Step user s m t) : t.phase ≠ .alive ∧ t.left < s.left := by
  have htodo := (h.ending hphase).1
  unfold Step State.next at hstep
  cases m with
  | turn i => simp [hphase] at hstep
  | act => simp [State.act, htodo] at hstep
  | interrupt => simp [hphase] at hstep
  | start =>
      simp only at hstep
      split at hstep
      · rename_i hok
        cases hstep
        refine ⟨hphase, ?_⟩
        have := hok.2
        simp only [State.left, hok.1]
        omega
      · cases hstep
  | ends e =>
      simp only at hstep
      split at hstep
      · rename_i hok
        cases hstep
        refine ⟨hphase, ?_⟩
        simp only [State.left, hok.1]
        by_cases he : e = .interrupted
        · rw [if_pos he]
          simp only
          omega
        · rw [if_neg he]
          simp only
          omega
      · cases hstep
  | signal =>
      simp only at hstep
      split at hstep
      · rename_i hok
        cases hstep
        refine ⟨hphase, ?_⟩
        simp only [State.left, hok]
        omega
      · cases hstep
  | join =>
      simp only at hstep
      split at hstep
      · rename_i hok
        cases hstep
        refine ⟨by simp, ?_⟩
        simp only [State.left, hok.1, hok.2]
        omega
      · cases hstep

/-- So no run is longer than what is left. -/
theorem Inv.length_le (hu : user.Disciplined P) {ms : List (Move ι)} (h : Inv user P s)
    (hphase : s.phase ≠ .alive) (hrun : Run (Step user) s ms t) :
    ms.length + t.left ≤ s.left := by
  have hall : Inv user P t ∧ t.phase ≠ .alive ∧ ms.length + t.left ≤ s.left := by
    apply hrun.history (P := fun ms t => Inv user P t ∧ t.phase ≠ .alive ∧
      ms.length + t.left ≤ s.left)
    · rintro ms t m u ⟨ht, hphase, hle⟩ hstep
      obtain ⟨hphase', hlt⟩ := ht.left_lt hphase hstep
      refine ⟨ht.step hu hstep, hphase', ?_⟩
      rw [List.length_append, List.length_singleton]
      omega
    · exact ⟨h, hphase, by simp⟩
  exact hall.2.2

/-- Where the worker has something to do it can do it, after the interrupt also without the resource. -/
theorem exists_worker_step (h : 0 < s.unfinished) : ∃ m t, m.IsWorker ∧ Step user s m t := by
  unfold State.unfinished at h
  cases hw : s.worker with
  | idle =>
      have hposted : 0 < s.posted := by simpa [hw] using h
      exact ⟨.start, _, .inl rfl, if_pos ⟨hw, hposted⟩⟩
  | waiting =>
      refine ⟨.ends .ready, _, .inr (.inl ⟨_, rfl⟩), if_pos ⟨hw, ?_⟩⟩
      rintro ⟨⟩
  | signalling => exact ⟨.signal, _, .inr (.inr rfl), if_pos hw⟩

/-- What the invariant says of who can go on. -/
theorem Inv.live (hu : user.Disciplined P) (h : Inv user P s) : Live user s where
  turns htodo := by
    have hstage := h.stage (h.alive_of_todo htodo)
    unfold Step State.next
    simp only
    cases has : s.todo with
    | nil => exact absurd has htodo
    | cons a as =>
        cases a with
        | touch op => exact ⟨_, by rw [State.act, has]⟩
        | post => exact ⟨_, by rw [State.act, has]⟩
        | await => exact ⟨_, by rw [State.act, has]⟩
        | consume =>
            rw [has] at hstage
            have hone := hstage.of_consume.2.1
            exact ⟨_, by rw [State.act, has, hone]; rfl⟩
  awaited halive htodo hpos := by
    have hstage := h.stage halive
    rw [htodo] at hstage
    obtain ⟨hwaits, hle, htoken⟩ := hstage.of_nil
    by_cases hunfinished : 0 < s.unfinished
    · exact .inl (exists_worker_step hunfinished)
    · refine .inr fun i hi => ?_
      obtain ⟨core, as, hturn, -⟩ := hu.ready h.core (by omega) hi
      have hbytes : 0 < s.bytes := by omega
      unfold Step State.next
      simp only [halive, htodo, hturn, hpos, hbytes, and_self, implies_true, if_true, Option.map_some]
      exact ⟨_, rfl⟩
  ends hphase := by
    have hne : s.phase ≠ .alive := by simp [hphase]
    constructor
    · by_cases hidle : s.worker = .idle
      · exact ⟨.join, _, if_pos ⟨hphase, hidle⟩⟩
      · have hunfinished : 0 < s.unfinished := by
          unfold State.unfinished
          rw [if_neg hidle]
          omega
        obtain ⟨m, t, -, hstep⟩ : ∃ m t, m.IsWorker ∧ Step user s m t := exists_worker_step hunfinished
        exact ⟨m, t, hstep⟩
    · intro ms t hrun
      have hlen := h.length_le hu hne hrun
      have hone := (h.ending hne).2
      have hleft : s.left ≤ 4 := by
        unfold State.unfinished at hone
        unfold State.left
        simp only [hphase]
        cases hw : s.worker with
        | idle =>
            simp only [hw, if_true] at hone ⊢
            omega
        | waiting =>
            simp only [hw, reduceCtorEq, if_false] at hone ⊢
            omega
        | signalling =>
            simp only [hw, reduceCtorEq, if_false] at hone ⊢
            omega
      omega

/-- Whoever keeps to the rule and starts without a request for a callback shares the resource with the
worker as they should, in every run. -/
theorem User.Disciplined.reachable {init : σ → Prop} (hu : user.Disciplined P)
    (hinit : ∀ core, init core → P core ∧ user.waits core = 0)
    (h : Reachable (Step user) (fun s => ∃ core, init core ∧ s = .init core) s) :
    P s.core ∧ Exclusive s ∧ Live user s := by
  have hinv : Inv user P s := by
    apply h.invariant
    · rintro t ⟨core, hcore, rfl⟩
      obtain ⟨hP, hwaits⟩ := hinit core hcore
      exact inv_init hP hwaits
    · intro t m u ht hstep
      exact ht.step hu hstep
  exact ⟨hinv.core, hinv.exclusive, hinv.live hu⟩

end Handoff
