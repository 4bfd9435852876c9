import FlowIpc.Lib.Transition

/-!
# The calls that a channel makes of both its pipes

A `Channel` with a blobs pipe and a handles pipe passes most calls on to the one or the other. `end_sending()`,
`auto_ping()` and `idle_timer_run()` it makes of both: of the blobs pipe first, and of the handles pipe only if
the former accepts. That the latter then accepts, too, is asserted.

A `Pipe` is any that keeps the contract which these calls go by: a call is accepted once, and not before the
direction has been started (`Flags.Accepts`). Over any two of them, in every run in which the pipes are used
through their channel alone,

* the assertion fails where the blobs pipe accepts a call in a direction that has not been started in the handles
  pipe (`Channel.Trips`), and nowhere else (`Channel.assertFailed_iff`);
* the two have accepted the same calls for as long as it has not failed, and not any more once it has
  (`Channel.Inv.agree_iff`): without assertions the pipes stay apart for good.

Source: `channel.hpp` `Channel::end_sending`, `Channel::async_end_sending`, `Channel::auto_ping`,
`Channel::idle_timer_run`.
-/

namespace FlowIpc.ChannelJoint

open Lts

/-! ## Calls -/

/-- A call that a channel makes of both its pipes. -/
inductive Call where
  /-- `end_sending()` -/
  | endSending
  /-- `async_end_sending()` -/
  | asyncEndSending (onDoneFunc : Nat)
  /-- `auto_ping()`; the contract asks for a positive period. -/
  | autoPing (period : {n : Nat // 0 < n})
  /-- `idle_timer_run()`; the contract asks for a positive timeout. -/
  | idleTimerRun (timeout : {n : Nat // 0 < n})

/-- What a pipe's answers to these calls go by, at the end that sends and at the end that receives. -/
structure Flags where
  /-- Sending has been started. -/
  sndStarted : Bool
  /-- Sending has been ended. -/
  finished : Bool
  /-- The period of the pings; 0 for none. -/
  autoPingPeriod : Nat
  /-- Receiving has been started. -/
  rcvStarted : Bool
  /-- The idle timeout; 0 for none. -/
  idleTimeout : Nat

namespace Flags

/-- The direction that the call is about has been started. -/
def Started (x : Flags) : Call → Prop
  | .endSending => x.sndStarted = true
  | .asyncEndSending _ => x.sndStarted = true
  | .autoPing _ => x.sndStarted = true
  | .idleTimerRun _ => x.rcvStarted = true

/-- The call has not been accepted before, nor one after which it would be refused. -/
def Due (x : Flags) : Call → Prop
  | .endSending => x.finished = false
  | .asyncEndSending _ => x.finished = false
  | .autoPing _ => x.finished = false ∧ x.autoPingPeriod = 0
  | .idleTimerRun _ => x.idleTimeout = 0

/-- The call is accepted. -/
def Accepts (x : Flags) (c : Call) : Prop :=
  x.Started c ∧ x.Due c

/-- After a call that is accepted. -/
def after (x : Flags) : Call → Flags
  | .endSending => { x with finished := true }
  | .asyncEndSending _ => { x with finished := true }
  | .autoPing period => { x with autoPingPeriod := period }
  | .idleTimerRun timeout => { x with idleTimeout := timeout }

/-- Whatever is not one of the calls may start a direction, and changes nothing else. -/
structure Keeps (x x' : Flags) : Prop where
  finished_eq : x'.finished = x.finished
  autoPingPeriod_eq : x'.autoPingPeriod = x.autoPingPeriod
  idleTimeout_eq : x'.idleTimeout = x.idleTimeout

/-- The two have accepted the same calls. -/
structure Agree (x y : Flags) : Prop where
  finished : x.finished = y.finished
  autoPingPeriod : x.autoPingPeriod = y.autoPingPeriod
  idleTimeout : x.idleTimeout = y.idleTimeout

/-- The former has accepted a call that the latter has not. -/
inductive Ahead (x y : Flags) : Prop where
  /-- Sending has been ended in the former alone. -/
  | finished : x.finished = true → y.finished = false → Ahead x y
  /-- The former alone pings. -/
  | pings : x.autoPingPeriod ≠ 0 → y.autoPingPeriod = 0 → Ahead x y
  /-- The former alone has an idle timeout. -/
  | idles : x.idleTimeout ≠ 0 → y.idleTimeout = 0 → Ahead x y

variable {x x' y y' : Flags} {c : Call}

/-- To do nothing keeps what has been accepted. -/
theorem keeps_refl (x : Flags) : x.Keeps x :=
  ⟨rfl, rfl, rfl⟩

/-- Two that agree do so after anything that is none of the calls. -/
theorem Agree.keeps (h : x.Agree y) (hx : x.Keeps x') (hy : y.Keeps y') : x'.Agree y' where
  finished := by rw [hx.finished_eq, hy.finished_eq, h.finished]
  autoPingPeriod := by rw [hx.autoPingPeriod_eq, hy.autoPingPeriod_eq, h.autoPingPeriod]
  idleTimeout := by rw [hx.idleTimeout_eq, hy.idleTimeout_eq, h.idleTimeout]

/-- One that is ahead stays so. -/
theorem Ahead.keeps (h : x.Ahead y) (hx : x.Keeps x') (hy : y.Keeps y') : x'.Ahead y' := by
  cases h with
  | finished h h' => exact .finished (hx.finished_eq.trans h) (hy.finished_eq.trans h')
  | pings h h' => exact .pings (hx.autoPingPeriod_eq ▸ h) (hy.autoPingPeriod_eq.trans h')
  | idles h h' => exact .idles (hx.idleTimeout_eq ▸ h) (hy.idleTimeout_eq.trans h')

/-- Two that have accepted the same calls await the same. -/
theorem Agree.due_iff (h : x.Agree y) : x.Due c ↔ y.Due c := by
  unfold Due
  rw [h.finished, h.autoPingPeriod, h.idleTimeout]

/-- Two that agree do so after both have accepted a call. -/
theorem Agree.after (h : x.Agree y) (c : Call) : (x.after c).Agree (y.after c) := by
  cases c with
  | endSending => exact ⟨rfl, h.autoPingPeriod, h.idleTimeout⟩
  | asyncEndSending f => exact ⟨rfl, h.autoPingPeriod, h.idleTimeout⟩
  | autoPing period => exact ⟨h.finished, rfl, h.idleTimeout⟩
  | idleTimerRun timeout => exact ⟨h.finished, h.autoPingPeriod, rfl⟩

/-- A call that the former alone accepts puts it ahead. -/
theorem Agree.ahead_after (h : x.Agree y) (hdue : x.Due c) : (x.after c).Ahead y := by
  cases c with
  | endSending => exact .finished rfl (h.finished ▸ hdue)
  | asyncEndSending f => exact .finished rfl (h.finished ▸ hdue)
  | autoPing period => exact .pings (Nat.ne_of_gt period.property) (h.autoPingPeriod ▸ hdue.2)
  | idleTimerRun timeout => exact .idles (Nat.ne_of_gt timeout.property) (h.idleTimeout ▸ hdue)

/-- What is ahead stays so: the call that the latter lacks is not made of it again. -/
theorem Ahead.after (h : x.Ahead y) (hdue : x.Due c) : (x.after c).Ahead y ∧ (x.after c).Ahead (y.after c) := by
  cases h with
  | finished h h' =>
      cases c with
      | idleTimerRun timeout => exact ⟨.finished h h', .finished h h'⟩
      | endSending => cases h.symm.trans hdue
      | asyncEndSending f => cases h.symm.trans hdue
      | autoPing period => cases h.symm.trans hdue.1
  | pings h h' =>
      cases c with
      | autoPing period => exact absurd hdue.2 h
      | endSending => exact ⟨.pings h h', .pings h h'⟩
      | asyncEndSending f => exact ⟨.pings h h', .pings h h'⟩
      | idleTimerRun timeout => exact ⟨.pings h h', .pings h h'⟩
  | idles h h' =>
      cases c with
      | idleTimerRun timeout => exact absurd hdue h
      | endSending => exact ⟨.idles h h', .idles h h'⟩
      | asyncEndSending f => exact ⟨.idles h h', .idles h h'⟩
      | autoPing period => exact ⟨.idles h h', .idles h h'⟩

/-- What is ahead does not agree. -/
theorem Ahead.not_agree (h : x.Ahead y) : ¬ x.Agree y := by
  intro hagree
  cases h with
  | finished h h' => cases h.symm.trans (hagree.finished.trans h')
  | pings h h' => exact h (hagree.autoPingPeriod.trans h')
  | idles h h' => exact h (hagree.idleTimeout.trans h')

end Flags

/-- What comes of a call, with what it returns. -/
inductive Flags.Takes (x : Flags) (c : Call) : Bool → Flags → Prop where
  /-- It is accepted. -/
  | accepted : x.Accepts c → x.Takes c true (x.after c)
  /-- It is refused. -/
  | refused : ¬ x.Accepts c → x.Takes c false x

/-! ## Pipes -/

/-- A pipe from one process to another, with what each end may do besides these calls. -/
structure Pipe where
  /-- Its two ends, and what is between them. -/
  State : Type
  /-- What either end does, but for these calls. -/
  Move : Type
  /-- What the transport answers during a call. -/
  Answers : Type
  /-- Just constructed. -/
  Init : State → Prop
  /-- One step. -/
  next : State → Move → Option State
  /-- A call, with what it returns. -/
  call : State → Call → Answers → Bool × State
  /-- What calls go by. -/
  flags : State → Flags
  /-- What holds in every state. -/
  Holds : State → Prop
  init_holds : ∀ s, Init s → Holds s
  init_flags : ∀ s, Init s → (flags s).finished = false ∧ (flags s).autoPingPeriod = 0 ∧ (flags s).idleTimeout = 0
  next_holds : ∀ s m s', Holds s → next s m = some s' → Holds s'
  next_keeps : ∀ s m s', Holds s → next s m = some s' → (flags s).Keeps (flags s')
  call_holds : ∀ s c a, Holds s → Holds (call s c a).2
  call_takes : ∀ s c a, Holds s → (flags s).Takes c (call s c a).1 (flags (call s c a).2)

/-! ## The channel -/

/-- A channel with two pipes: the one direction of each, with the calls at the end that sends and at the end
that receives.
Source: `channel.hpp` `Channel` -/
structure Channel (P Q : Pipe) where
  /-- `blob_snd()` here and `blob_rcv()` there. -/
  blobs : P.State
  /-- `hndl_snd()` here and `hndl_rcv()` there. -/
  hndls : Q.State
  /-- Some assertion has failed; execution goes on, as in a build without assertions. -/
  assertFailed : Bool

namespace Channel

variable {P Q : Pipe}

/-- A call of both pipes, during which these give the answers `a` and `b`. The second is called only if the
first accepts, and is asserted to accept, too. -/
def both (c : Channel P Q) (call : Call) (a : P.Answers) (b : Q.Answers) : Bool × Channel P Q :=
  let (accepted, blobs) := P.call c.blobs call a
  let c := { c with blobs := blobs }
  if accepted then
    let (ok, hndls) := Q.call c.hndls call b
    (true, { c with hndls := hndls, assertFailed := c.assertFailed || !ok })
  else (false, c)

/-- The second pipe is called if the first accepts, and only then. -/
theorem both_eq (c : Channel P Q) (call : Call) (a : P.Answers) (b : Q.Answers) :
    c.both call a b =
      if (P.call c.blobs call a).1 then
        (true, ⟨(P.call c.blobs call a).2, (Q.call c.hndls call b).2,
          c.assertFailed || !(Q.call c.hndls call b).1⟩)
      else (false, { c with blobs := (P.call c.blobs call a).2 }) :=
  rfl

/-- `end_sending()`
Source: `channel.hpp` `Channel::end_sending` -/
def endSending (c : Channel P Q) (a : P.Answers) (b : Q.Answers) : Bool × Channel P Q :=
  c.both .endSending a b

/-- `async_end_sending()`, as far as it is a call of the pipes; both are given the handler that joins the two
completions.
Source: `channel.hpp` `Channel::async_end_sending` (both overloads) -/
def asyncEndSending (c : Channel P Q) (combinedOnDone : Nat) (a : P.Answers) (b : Q.Answers) :
    Bool × Channel P Q :=
  c.both (.asyncEndSending combinedOnDone) a b

/-- `auto_ping()`
Source: `channel.hpp` `Channel::auto_ping` -/
def autoPing (c : Channel P Q) (period : {n : Nat // 0 < n}) (a : P.Answers) (b : Q.Answers) :
    Bool × Channel P Q :=
  c.both (.autoPing period) a b

/-- `idle_timer_run()`
Source: `channel.hpp` `Channel::idle_timer_run` -/
def idleTimerRun (c : Channel P Q) (timeout : {n : Nat // 0 < n}) (a : P.Answers) (b : Q.Answers) :
    Bool × Channel P Q :=
  c.both (.idleTimerRun timeout) a b

/-- What happens to a channel. -/
inductive Input (P Q : Pipe) where
  /-- Something else is done with the blobs pipe. -/
  | blobs (m : P.Move)
  /-- Something else is done with the handles pipe. -/
  | hndls (m : Q.Move)
  /-- `end_sending()` -/
  | endSending (a : P.Answers) (b : Q.Answers)
  /-- `async_end_sending()` -/
  | asyncEndSending (combinedOnDone : Nat) (a : P.Answers) (b : Q.Answers)
  /-- `auto_ping()`; the contract asks for a positive period. -/
  | autoPing (period : {n : Nat // 0 < n}) (a : P.Answers) (b : Q.Answers)
  /-- `idle_timer_run()`; the contract asks for a positive timeout. -/
  | idleTimerRun (timeout : {n : Nat // 0 < n}) (a : P.Answers) (b : Q.Answers)

/-- The call of both pipes that an input makes, if it makes one. -/
def Input.call? : Input P Q → Option Call
  | .blobs _ => none
  | .hndls _ => none
  | .endSending _ _ => some .endSending
  | .asyncEndSending f _ _ => some (.asyncEndSending f)
  | .autoPing period _ _ => some (.autoPing period)
  | .idleTimerRun timeout _ _ => some (.idleTimerRun timeout)

/-- One step. -/
def next (c : Channel P Q) : Input P Q → Option (Channel P Q)
  | .blobs m => (P.next c.blobs m).map fun blobs => { c with blobs := blobs }
  | .hndls m => (Q.next c.hndls m).map fun hndls => { c with hndls := hndls }
  | .endSending a b => some (c.endSending a b).2
  | .asyncEndSending f a b => some (c.asyncEndSending f a b).2
  | .autoPing period a b => some (c.autoPing period a b).2
  | .idleTimerRun timeout a b => some (c.idleTimerRun timeout a b).2

/-- The step relation. -/
def Step (c : Channel P Q) (i : Input P Q) (c' : Channel P Q) : Prop :=
  c.next i = some c'

/-- A channel just constructed. -/
def Init (c : Channel P Q) : Prop :=
  P.Init c.blobs ∧ Q.Init c.hndls ∧ c.assertFailed = false

/-- The input is a call that the blobs pipe accepts, in a direction that has not been started in the handles
pipe. -/
def Trips (c : Channel P Q) (i : Input P Q) : Prop :=
  ∃ call, i.call? = some call ∧ (P.flags c.blobs).Accepts call ∧ ¬ (Q.flags c.hndls).Started call

/-! ## The invariant -/

/-- The pipes have accepted the same calls, unless the assertion has failed. -/
structure Inv (c : Channel P Q) : Prop where
  blobs : P.Holds c.blobs
  hndls : Q.Holds c.hndls
  agree : c.assertFailed = false → (P.flags c.blobs).Agree (Q.flags c.hndls)
  ahead : c.assertFailed = true → (P.flags c.blobs).Ahead (Q.flags c.hndls)

variable {c c' start : Channel P Q} {i : Input P Q} {is : List (Input P Q)}

/-- A channel just constructed is in order. -/
theorem Init.inv (h : c.Init) : c.Inv where
  blobs := P.init_holds _ h.1
  hndls := Q.init_holds _ h.2.1
  agree _ := by
    obtain ⟨hfin, hping, hidle⟩ := P.init_flags _ h.1
    obtain ⟨hfin', hping', hidle'⟩ := Q.init_flags _ h.2.1
    exact ⟨hfin.trans hfin'.symm, hping.trans hping'.symm, hidle.trans hidle'.symm⟩
  ahead hfailed := by
    rw [h.2.2] at hfailed
    cases hfailed

/-- They agree for as long as the assertion has not failed, and not any more once it has. -/
theorem Inv.agree_iff (h : c.Inv) : c.assertFailed = false ↔ (P.flags c.blobs).Agree (Q.flags c.hndls) := by
  constructor
  · exact h.agree
  · intro hagree
    by_contra hfailed
    exact (h.ahead (by simpa using hfailed)).not_agree hagree

/-- A call of both pipes fails the assertion where it trips, and nowhere else. -/
theorem Inv.both (h : c.Inv) (call : Call) (a : P.Answers) (b : Q.Answers) :
    (c.both call a b).2.Inv ∧
      ((c.both call a b).2.assertFailed = true ↔ c.assertFailed = true ∨
        (P.flags c.blobs).Accepts call ∧ ¬ (Q.flags c.hndls).Started call) := by
  have hblobs := P.call_holds c.blobs call a h.blobs
  have htakes := P.call_takes c.blobs call a h.blobs
  have hhndls := Q.call_holds c.hndls call b h.hndls
  have htakes' := Q.call_takes c.hndls call b h.hndls
  rw [both_eq]
  generalize P.call c.blobs call a = r at hblobs htakes ⊢
  generalize Q.call c.hndls call b = r' at hhndls htakes' ⊢
  obtain ⟨accepted, p⟩ := r
  obtain ⟨ok, q⟩ := r'
  dsimp only at hblobs htakes hhndls htakes' ⊢
  generalize hx : P.flags p = x at htakes
  generalize hy : Q.flags q = y at htakes'
  cases htakes with
  | refused hno =>
      -- The handles pipe is not called.
      rw [if_neg Bool.false_ne_true]
      refine ⟨⟨hblobs, h.hndls, ?_, ?_⟩, ?_⟩
      · rw [hx]
        exact h.agree
      · rw [hx]
        exact h.ahead
      · constructor
        · exact Or.inl
        · intro hfailed
          exact hfailed.resolve_right fun htrips => hno htrips.1
  | accepted hyes =>
      rw [if_pos rfl]
      cases htakes' with
      | accepted hyes' =>
          -- Both go on together, or as far apart as they were.
          rw [Bool.not_true, Bool.or_false]
          refine ⟨⟨hblobs, hhndls, ?_, ?_⟩, ?_⟩
          · intro hok
            rw [hx, hy]
            exact (h.agree hok).after call
          · intro hfailed
            rw [hx, hy]
            exact ((h.ahead hfailed).after hyes.2).2
          · constructor
            · exact Or.inl
            · intro hfailed
              exact hfailed.resolve_right fun htrips => htrips.2 hyes'.1
      | refused hno' =>
          rw [Bool.not_false, Bool.or_true]
          refine ⟨⟨hblobs, hhndls, fun hok => (by cases hok), fun _ => ?_⟩, ?_⟩
          · rw [hx, hy]
            cases hfailed : c.assertFailed with
            | false => exact (h.agree hfailed).ahead_after hyes.2
            | true => exact ((h.ahead hfailed).after hyes.2).1
          · refine iff_of_true rfl ?_
            cases hfailed : c.assertFailed with
            | true => exact .inl rfl
            | false =>
                -- What the one awaits, the other awaits: so it has not been started.
                refine .inr ⟨hyes, fun hstarted => hno' ⟨hstarted, ?_⟩⟩
                exact (h.agree hfailed).due_iff.mp hyes.2

/-- A step fails the assertion where it trips, and nowhere else. -/
theorem Inv.step (h : c.Inv) (hstep : c.Step i c') :
    c'.Inv ∧ (c'.assertFailed = true ↔ c.assertFailed = true ∨ c.Trips i) := by
  -- What is not a call of both changes nothing that the calls go by.
  have hnone (hcall : i.call? = none) : c.assertFailed = true ↔ c.assertFailed = true ∨ c.Trips i := by
    constructor
    · exact Or.inl
    · rintro (hfailed | ⟨call, hsome, -⟩)
      · exact hfailed
      · cases hcall.symm.trans hsome
  have hsome {call : Call} {a : P.Answers} {b : Q.Answers} (hcall : i.call? = some call)
      (hc : c' = (c.both call a b).2) :
      c'.Inv ∧ (c'.assertFailed = true ↔ c.assertFailed = true ∨ c.Trips i) := by
    obtain ⟨hinv, hfailed⟩ := h.both call a b
    rw [hc]
    refine ⟨hinv, hfailed.trans (or_congr_right ?_)⟩
    constructor
    · intro htrips
      exact ⟨call, hcall, htrips⟩
    · rintro ⟨call', hcall', htrips⟩
      cases hcall.symm.trans hcall'
      exact htrips
  unfold Step next at hstep
  cases i with
  | blobs m =>
      simp only [Option.map_eq_some_iff] at hstep
      obtain ⟨p, hnext, rfl⟩ := hstep
      have hkeeps := P.next_keeps _ _ _ h.blobs hnext
      refine ⟨⟨P.next_holds _ _ _ h.blobs hnext, h.hndls, ?_, ?_⟩, hnone rfl⟩
      · exact fun hok => (h.agree hok).keeps hkeeps (Flags.keeps_refl _)
      · exact fun hfailed => (h.ahead hfailed).keeps hkeeps (Flags.keeps_refl _)
  | hndls m =>
      simp only [Option.map_eq_some_iff] at hstep
      obtain ⟨q, hnext, rfl⟩ := hstep
      have hkeeps := Q.next_keeps _ _ _ h.hndls hnext
      refine ⟨⟨h.blobs, Q.next_holds _ _ _ h.hndls hnext, ?_, ?_⟩, hnone rfl⟩
      · exact fun hok => (h.agree hok).keeps (Flags.keeps_refl _) hkeeps
      · exact fun hfailed => (h.ahead hfailed).keeps (Flags.keeps_refl _) hkeeps
  | endSending a b => exact hsome rfl (Option.some.inj hstep).symm
  | asyncEndSending f a b => exact hsome rfl (Option.some.inj hstep).symm
  | autoPing period a b => exact hsome rfl (Option.some.inj hstep).symm
  | idleTimerRun timeout a b => exact hsome rfl (Option.some.inj hstep).symm

/-- A channel is in order in every run. -/
theorem Inv.run (h : start.Inv) (hrun : Run Step start is c) : c.Inv :=
  hrun.invariant (P := Inv) (fun _ _ _ hinv hstep => (hinv.step hstep).1) h

/-- Once it has failed it has failed. -/
theorem assertFailed_run (h : start.Inv) (hrun : Run Step start is c) (hfailed : start.assertFailed = true) :
    c.assertFailed = true := by
  induction hrun with
  | nil => exact hfailed
  | snoc hrun hstep ih => exact ((h.run hrun).step hstep).2.mpr (.inl ih)

/-- The assertion has failed if some step on the way tripped it, and only then. -/
theorem assertFailed_iff (h : start.Init) (hrun : Run Step start is c) :
    c.assertFailed = true ↔ ∃ is₁ i is₂ v,
      is = is₁ ++ i :: is₂ ∧ Run Step start is₁ v ∧ v.Trips i ∧ Run Step v (i :: is₂) c := by
  constructor
  · intro hfailed
    induction hrun with
    | nil =>
        rw [h.2.2] at hfailed
        cases hfailed
    | snoc hrun hstep ih =>
        rename_i v w is i
        rcases ((h.inv.run hrun).step hstep).2.mp hfailed with hbefore | htrips
        · obtain ⟨is₁, j, is₂, u, rfl, hrun₁, htrips, hrun₂⟩ := ih hbefore
          refine ⟨is₁, j, is₂ ++ [i], u, ?_, hrun₁, htrips, ?_⟩
          · rw [List.append_assoc, List.cons_append]
          · rw [← List.cons_append]
            exact hrun₂.snoc hstep
        · exact ⟨is, i, [], v, rfl, hrun, htrips, .single hstep⟩
  · rintro ⟨is₁, i, is₂, v, -, hrun₁, htrips, hrun₂⟩
    obtain ⟨w, hstep, hrun₂⟩ := run_cons_iff.mp hrun₂
    have hv := h.inv.run hrun₁
    exact assertFailed_run (hv.step hstep).1 hrun₂ ((hv.step hstep).2.mpr (.inr htrips))

end Channel

end FlowIpc.ChannelJoint
