import FlowIpc.PosixMq.AllOrNothing
import FlowIpc.Lib.Custody
import FlowIpc.Lib.Transition
import Mathlib.Logic.Function.Basic

/-!
# Many `Posix_mq_handle`s, and what moves between them

A `World` is the handles that there are, each in its place, and what has been done in the system. They are
constructed, moved, swapped and destroyed (`Op`); a handle may be moved to itself, or swapped with itself.

* `swap()` exchanges the members, all of them. For the pipes it takes the descriptors out of both
  handles, one after the other, and then puts them back crosswise; so it is right also where both are
  one (`World.swap_eq`).
* `operator=(Posix_mq_handle&&)` first makes its target null, and then swaps. It closes the target's pipes,
  by assigning new ones to the members; what it does to the queue and the epoll sets is to forget them.

The `World`'s book says who holds what (`World.book`), a holder being a place and a part of the handle there.

Source: `posix_mq_handle.cpp` `operator=`, `swap`, `~Posix_mq_handle`, the constructors.
-/

namespace FlowIpc.PosixMq

open MqHandle Custody

/-- What has been done, one after the other. -/
def Log.append (l l' : Log) : Log :=
  ⟨l.opened ++ l'.opened, l.closed ++ l'.closed, l.watches ++ l'.watches, l.nonBlocking ++ l'.nonBlocking,
    l.permitted ++ l'.permitted⟩

/-- The handles, and what has been done in the system. -/
structure World where
  /-- How many constructions there have been. -/
  constructions : Nat
  /-- The handle in each place. -/
  objs : Nat → Option PosixMqHandle
  /-- What has been done. -/
  log : Log

/-- What is done to handles. -/
inductive Op where
  /-- The default constructor, in place `i`. -/
  | default (i : Nat)
  /-- One of the other constructors. -/
  | construct (i : Nat) (absoluteName : String) (o : Opening) (a : Answers) (ptr : Option ErrorCode)
  /-- The move constructor, in place `i`, from the handle in place `j`. -/
  | moveConstruct (i j : Nat)
  /-- `operator=(Posix_mq_handle&&)` -/
  | moveAssign (i j : Nat)
  /-- `swap()` -/
  | swap (i j : Nat)
  /-- The destructor. -/
  | destroy (i : Nat)

/-- The four ends of the pipes. -/
structure Pipes where
  /-- `m_interrupter_snd` -/
  interrupterSnd : Option Fd
  /-- `m_interrupter_rcv` -/
  interrupterRcv : Option Fd
  /-- `m_interrupt_detector_snd` -/
  interruptDetectorSnd : Option Fd
  /-- `m_interrupt_detector_rcv` -/
  interruptDetectorRcv : Option Fd

namespace PosixMqHandle

/-- What `unload` takes out of the handle.
Source: `posix_mq_handle.cpp` `swap` `unload` -/
def pipes (h : PosixMqHandle) : Pipes :=
  ⟨h.snd.interrupter, h.rcv.interrupter, h.snd.interruptDetector, h.rcv.interruptDetector⟩

/-- What `reload` puts into the handle.
Source: `posix_mq_handle.cpp` `swap` `reload` -/
def reload (p : Pipes) (h : PosixMqHandle) : PosixMqHandle :=
  { h with
    snd := { h.snd with interrupter := p.interrupterSnd, interruptDetector := p.interruptDetectorSnd }
    rcv := { h.rcv with interrupter := p.interrupterRcv, interruptDetector := p.interruptDetectorRcv } }

/-- What `unload` leaves of the handle. -/
def unloaded (h : PosixMqHandle) : PosixMqHandle := h.reload ⟨none, none, none, none⟩

/-- The handle, with the members that are simply swapped taken from `src`. -/
def withMembers (h src : PosixMqHandle) : PosixMqHandle :=
  { mq := src.mq
    absoluteName := src.absoluteName
    snd := { h.snd with epollHndl := src.snd.epollHndl, interrupting := src.snd.interrupting }
    rcv := { h.rcv with epollHndl := src.rcv.epollHndl, interrupting := src.rcv.interrupting } }

/-- Nullified by `operator=`, but for the pipes. -/
def nullified (h : PosixMqHandle) : PosixMqHandle :=
  { mq := none
    absoluteName := ""
    snd := { h.snd with epollHndl := none }
    rcv := { h.rcv with epollHndl := none } }

end PosixMqHandle

namespace World

/-- The handle in place `i` is `h` from now on. -/
def set (w : World) (i : Nat) (h : Option PosixMqHandle) : World :=
  { w with objs := Function.update w.objs i h }

/-- The same, when more has been done in the system. -/
def replace (w : World) (i : Nat) (h : Option PosixMqHandle) (log : Log) : World :=
  { w with log := log }.set i h

/-- `swap()` for the handles in places `i` and `j`.
Source: `posix_mq_handle.cpp` `swap` -/
def swap (i j : Nat) (w : World) : Option World := do
  let h₁ ← w.objs i
  let h₂ ← w.objs j
  let w := (w.set i (h₁.withMembers h₂)).set j (h₂.withMembers h₁)
  let h₁ ← w.objs i
  let fds₁ := h₁.pipes
  let w := w.set i h₁.unloaded
  let h₂ ← w.objs j
  let fds₂ := h₂.pipes
  let w := w.set j h₂.unloaded
  let h₁ ← w.objs i
  let w := w.set i (h₁.reload fds₂)
  let h₂ ← w.objs j
  pure (w.set j (h₂.reload fds₁))

/-- `operator=(Posix_mq_handle&&)`, for the handle in place `i`, from that in place `j`.
Source: `posix_mq_handle.cpp` `operator=` -/
def moveAssign (i j : Nat) (w : World) : Option World := do
  let h ← w.objs i
  if i = j then pure w
  else
    let m : Making := ⟨h.nullified, w.log⟩
    let m := (m.closes (.interrupter .snd)).closes (.interruptDetector .snd)
    let m := (m.closes (.interrupter .rcv)).closes (.interruptDetector .rcv)
    (w.replace i m.obj m.log).swap i j

/-- What an operation does. It is not done in a place where there is a handle already, or where there is
none, as the case may be.
Source: `posix_mq_handle.cpp`, the constructors, `operator=`, `swap`, `~Posix_mq_handle` -/
def step (w : World) : Op → Option World
  | .default i => if w.objs i = none then some (w.set i (some .null)) else none
  | .construct i absoluteName o a ptr =>
    if w.objs i = none then
      (ctor w.constructions absoluteName o a).map fun r =>
        let (m, emitted) := report ptr r
        let w := { w with constructions := w.constructions + 1, log := w.log.append m.log }
        match emitted with
        | .ret h _ => w.set i (some h)
        | .threw _ => w
    else none
  | .moveConstruct i j =>
    if w.objs i = none ∧ w.objs j ≠ none then (w.set i (some .null)).moveAssign i j else none
  | .moveAssign i j => w.moveAssign i j
  | .swap i j => w.swap i j
  | .destroy i =>
    (w.objs i).map fun h => w.replace i none (Making.dtor ⟨h, w.log⟩).log

/-- No handle, and nothing done. -/
def init : World := ⟨0, fun _ => none, .empty⟩

/-- A step. -/
def Step (w : World) (op : Op) (w' : World) : Prop := w.step op = some w'

/-- Who holds what. -/
def book (w : World) : Book (Nat × Part) Fd where
  acquired := w.log.opened
  released := w.log.closed
  holds x fd := ∃ h, w.objs x.1 = some h ∧ h.slot x.2 = some fd

/-! ## Places exchanged -/

variable {w w' : World} {i j : Nat} {g₁ g₂ : PosixMqHandle}

/-- A handle is as it has been set, and the others as before. -/
@[simp] theorem objs_set (w : World) (i : Nat) (h : Option PosixMqHandle) (k : Nat) :
    (w.set i h).objs k = if k = i then h else w.objs k := by
  by_cases hk : k = i
  · subst hk
    rw [if_pos rfl]
    exact Function.update_self ..
  · rw [if_neg hk]
    exact Function.update_of_ne hk ..

@[simp] theorem log_set (w : World) (i : Nat) (h : Option PosixMqHandle) : (w.set i h).log = w.log := rfl

@[simp] theorem constructions_set (w : World) (i : Nat) (h : Option PosixMqHandle) :
    (w.set i h).constructions = w.constructions := rfl

/-- Two worlds with the same handles and the same log are the same. -/
theorem ext_of (hc : w.constructions = w'.constructions) (hl : w.log = w'.log)
    (ho : ∀ k, w.objs k = w'.objs k) : w = w' := by
  obtain ⟨c, o, l⟩ := w
  obtain ⟨c', o', l'⟩ := w'
  cases hc
  cases hl
  cases funext ho
  rfl

/-- `swap()` exchanges the handles, also if they are one. -/
theorem swap_eq (h₁ : w.objs i = some g₁) (h₂ : w.objs j = some g₂) :
    w.swap i j = some ((w.set i (some g₂)).set j (some g₁)) := by
  by_cases hij : i = j
  · subst hij
    cases h₁.symm.trans h₂
    simp [swap, h₁]
    refine ext_of rfl rfl fun k => ?_
    by_cases hk : k = i
    · simp [hk]
      rfl
    · simp [hk]
  · have hji : j ≠ i := Ne.symm hij
    simp [swap, h₁, h₂, hij, hji]
    refine ext_of rfl rfl fun k => ?_
    by_cases hk : k = i
    · subst hk
      simp [hij]
      rfl
    · by_cases hk' : k = j
      · simp [hk']
        rfl
      · simp [hk, hk']

/-- What is assigned to is as the other handle was, and that one is null. -/
theorem moveAssign_eq (hij : i ≠ j) (h₁ : w.objs i = some g₁) (h₂ : w.objs j = some g₂) :
    ∃ log g, w.moveAssign i j = some ((w.replace i (some g₂) log).set j (some g)) ∧ g.mq = none ∧
      g.absoluteName = "" := by
  let m : Making := ⟨g₁.nullified, w.log⟩
  let m' := m.closeAll [.interrupter .snd, .interruptDetector .snd, .interrupter .rcv, .interruptDetector .rcv]
  refine ⟨m'.log, m'.obj, ?_, ?_, ?_⟩
  · simp only [moveAssign, h₁, if_neg hij, Option.bind_eq_bind, Option.bind_some]
    have hi : (w.replace i (some m'.obj) m'.log).objs i = some m'.obj := by
      simp [replace]
    have hj : (w.replace i (some m'.obj) m'.log).objs j = some g₂ := by
      simp [replace, Ne.symm hij, h₂]
    refine (swap_eq hi hj).trans (congrArg some (ext_of rfl rfl fun k => ?_))
    simp only [objs_set, replace]
    split_ifs <;> rfl
  · exact (Making.slot_closeAll _ .mq).trans (if_neg (by decide))
  · exact Making.absoluteName_closeAll _

end World

end FlowIpc.PosixMq
