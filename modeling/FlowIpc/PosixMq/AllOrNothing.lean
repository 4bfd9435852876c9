import FlowIpc.PosixMq.Made
import Mathlib.Data.List.Count

/-!
# A construction is all or nothing

A construction that fails is to leave nothing: a handle as by the default constructor, and no descriptor
open. `AllOrNothing` is that, to the letter, at the time when the error is emitted; `InTheEnd` is the same
when the handle has been destroyed too, which closes the pipes that it still has. A constructor that throws
leaves no handle, so that the two come to one.

* Where `fchmod()` fails, of a queue that has just been created, the queue stays open in a handle without
  epoll sets. The destructor's assertions do not hold of that handle; if the constructor throws, there is
  no one to close the queue.
* Where `epoll_create1()` fails all is undone, the pipes too. Not so where `epoll_ctl()`, `mq_setattr()` or
  `mq_open()` fails: the handle that is returned has the pipes still.

`allOrNothing_iff` says that this is all that is wrong.

Source: `posix_mq_handle.cpp`, the constructors, `pipe_setup`, `epoll_setup`, `~Posix_mq_handle`.
-/

namespace FlowIpc.PosixMq

open MqHandle

/-! ## All, or nothing -/

/-- The handle is as one by the default constructor, but for its name and its pipes. -/
structure PosixMqHandle.Null (h : PosixMqHandle) : Prop where
  mq : h.mq = none
  snd : h.snd.epollHndl = none
  rcv : h.rcv.epollHndl = none

/-- Whatever has been opened is closed again, once. -/
def Making.ClosedOnce (m : Making) : Prop := ∀ fd ∈ m.log.opened, m.log.closed.count fd = 1

instance (m : Making) : Decidable m.ClosedOnce := by
  unfold Making.ClosedOnce
  infer_instance

/-- The handle has a queue that does not block, and for a direction a set with the queue and the end of an
open pipe; what it has is open. -/
structure Making.Usable (m : Making) : Prop where
  mq : ∃ q, m.obj.mq = some q ∧ q ∈ m.log.nonBlocking
  epoll d : ∃ q e i w, m.obj.mq = some q ∧ (m.obj.side d).epollHndl = some e ∧
    (m.obj.side d).interruptDetector = some i ∧ (m.obj.side d).interrupter = some w ∧
    (e, q) ∈ m.log.watches ∧ (e, i) ∈ m.log.watches
  opened p : ∀ fd ∈ m.obj.slot p, fd ∈ m.log.opened ∧ fd ∉ m.log.closed

/-- A construction has left all or nothing. If it has emitted an error the handle, if there is one, is
null, and `left` holds of what was done in the system; else it is usable. -/
def LeavesAllOrNothing (left : Making → Prop) (r : Making × ErrorCode) (emitted : Making × Emit PosixMqHandle) :
    Prop :=
  match r.2, emitted.2 with
  | some _, .threw _ => emitted.1.ClosedOnce
  | some _, .ret h _ => h.Null ∧ h.dtorAsserts ∧ left emitted.1
  | none, .ret h _ => emitted.1.Usable ∧ h.dtorAsserts
  | none, .threw _ => False

/-- **All or nothing**, when the constructor is over. -/
def AllOrNothing (ptr : Option ErrorCode) (r : Making × ErrorCode) : Prop :=
  LeavesAllOrNothing Making.ClosedOnce r (report ptr r)

/-- The same, if what the handle still has may be closed by its destructor. -/
def InTheEnd (ptr : Option ErrorCode) (r : Making × ErrorCode) : Prop :=
  LeavesAllOrNothing (fun m => m.dtor.ClosedOnce) r (report ptr r)

/-! ## What there is to close -/

variable {k : Nat} {absoluteName : String} {created : Bool} {f : Option Failed} {m : Making}

/-- The descriptors of a construction are those of its parts. -/
@[simp] theorem mem_fds {k : Nat} {ps : List Part} {p : Part} : (⟨k, p⟩ : Fd) ∈ fds k ps ↔ p ∈ ps := by
  simp [fds]

/-- A descriptor is counted as often as its part. -/
theorem count_fds (k : Nat) (ps : List Part) (p : Part) : (fds k ps).count ⟨k, p⟩ = ps.count p := by
  unfold fds
  refine List.count_map_of_injective _ _ ?_ p
  rintro p q ⟨⟩
  rfl

/-- What is closed in the end is what the constructor has closed, and what is left of the parts. -/
theorem Made.closed_closeAll (h : Made k absoluteName created f m) {ps : List Part} (hps : ps.Nodup) :
    (m.closeAll ps).log.closed = fds k (closedParts f ++ ps.filter fun p => p ∈ keptParts f) := by
  rw [Making.closed_closeAll hps, h.closed]
  unfold fds
  rw [List.map_append]
  congr 1
  rw [← List.filterMap_eq_map, List.filterMap_filter]
  apply List.filterMap_congr
  intro p _
  rw [h.obj, PosixMqHandle.slot_of]
  by_cases hp : p ∈ keptParts f <;> simp [hp]

/-- Each descriptor is closed once if each part that was opened is counted once. -/
theorem Made.closedOnce_closeAll (h : Made k absoluteName created f m) {ps : List Part} (hps : ps.Nodup) :
    (m.closeAll ps).ClosedOnce ↔ ∀ p ∈ openedParts f,
      (closedParts f ++ ps.filter fun p => p ∈ keptParts f).count p = 1 := by
  unfold Making.ClosedOnce
  rw [Making.opened_closeAll, h.opened, h.closed_closeAll hps]
  constructor
  · intro hall p hp
    rw [← count_fds k]
    exact hall _ (mem_fds.mpr hp)
  · intro hall fd hfd
    obtain ⟨p, hp, rfl⟩ := List.mem_map.mp hfd
    rw [count_fds]
    exact hall p hp

/-- A part has its descriptor if it is kept, and else none. -/
theorem Made.slot_eq (h : Made k absoluteName created f m) (p : Part) :
    m.obj.slot p = if p ∈ keptParts f then some ⟨k, p⟩ else none := by
  rw [h.obj, PosixMqHandle.slot_of]

/-- A part that is kept has its own descriptor. -/
theorem Made.slot_of_kept (h : Made k absoluteName created f m) {p : Part} (hp : p ∈ keptParts f) :
    m.obj.slot p = some ⟨k, p⟩ := by
  rw [h.slot_eq, if_pos hp]

/-- It has none exactly if it is not kept. -/
theorem Made.slot_eq_none_iff (h : Made k absoluteName created f m) {p : Part} :
    m.obj.slot p = none ↔ p ∉ keptParts f := by
  rw [h.slot_eq]
  simp

/-- The handle is null if neither the queue nor an epoll set is kept. -/
theorem Made.null_iff (h : Made k absoluteName created f m) :
    m.obj.Null ↔ .mq ∉ keptParts f ∧ .epollHndl .snd ∉ keptParts f ∧ .epollHndl .rcv ∉ keptParts f := by
  simp only [← h.slot_eq_none_iff]
  constructor
  · rintro ⟨hmq, hsnd, hrcv⟩
    exact ⟨hmq, hsnd, hrcv⟩
  · rintro ⟨hmq, hsnd, hrcv⟩
    exact ⟨hmq, hsnd, hrcv⟩

/-- The destructor of a null handle asserts nothing that fails. -/
theorem PosixMqHandle.Null.dtorAsserts {h : PosixMqHandle} (hnull : h.Null) : h.dtorAsserts := by
  unfold PosixMqHandle.dtorAsserts
  rw [if_pos hnull.mq]
  exact ⟨hnull.snd, hnull.rcv⟩

/-- What is left where nothing has failed can be used. -/
theorem Made.usable (h : Made k absoluteName created none m) : m.Usable where
  mq := by
    have hmq : m.obj.slot .mq = some ⟨k, .mq⟩ := h.slot_of_kept (by decide)
    refine ⟨_, hmq, ?_⟩
    rw [h.nonBlocking rfl]
    exact List.mem_singleton_self _
  epoll d := by
    have hslot p (hp : p ∈ keptParts none) := h.slot_of_kept hp
    have hmq := hslot .mq (by decide)
    rw [h.watches rfl]
    cases d
    · exact ⟨_, _, _, _, hmq, hslot (.epollHndl .snd) (by decide),
        hslot (.interruptDetector .snd) (by decide), hslot (.interrupter .snd) (by decide),
        by simp, by simp⟩
    · exact ⟨_, _, _, _, hmq, hslot (.epollHndl .rcv) (by decide),
        hslot (.interruptDetector .rcv) (by decide), hslot (.interrupter .rcv) (by decide),
        by simp, by simp⟩
  opened p fd hfd := by
    rw [h.slot_eq] at hfd
    by_cases hp : p ∈ keptParts none
    · rw [if_pos hp] at hfd
      cases hfd
      rw [h.opened, h.closed, mem_fds, mem_fds]
      exact ⟨(List.mem_filter.mp hp).1, nofun⟩
    · rw [if_neg hp] at hfd
      cases hfd

/-- The destructor of a handle whose construction succeeded asserts nothing that fails. -/
theorem Made.dtorAsserts (h : Made k absoluteName created none m) : m.obj.dtorAsserts := by
  have hslot p (hp : p ∈ keptParts none) : m.obj.slot p ≠ none := by
    rw [h.slot_of_kept hp]
    nofun
  have hmq : m.obj.mq ≠ none := hslot .mq (by decide)
  unfold PosixMqHandle.dtorAsserts
  rw [if_neg hmq]
  exact ⟨hslot (.epollHndl .snd) (by decide), hslot (.epollHndl .rcv) (by decide)⟩

/-! ## Where it is -/

/-- Nothing fails, or what fails is a call of those after which all is undone before the constructor is
over; for some that is so only if it throws. -/
def UndoneAtOnce (ptr : Option ErrorCode) : Option Failed → Prop
  | none | some (.call (.connectPipe _)) | some (.call (.epollCreate _)) => True
  | some .mqOpen | some (.call .mqSetattr) | some (.call (.epollCtlMq _))
  | some (.call (.epollCtlDetector _)) => ptr = none
  | some (.call .fchmod) => False

variable {c : Failed} {ptr : Option ErrorCode}

/-- After a failure the handle is null, unless it was `fchmod()` that failed. -/
theorem Made.null_of_failed (h : Made k absoluteName created (some c) m) :
    m.obj.Null ↔ c ≠ .call .fchmod := by
  rw [h.null_iff]
  rcases c with _ | (_ | _) | _ | _ | (_ | _) | (_ | _) | (_ | _) <;> decide

/-- Members' destructors are enough, unless what fails is `fchmod()`. -/
theorem Made.closedOnce_destroyMembers (h : Made k absoluteName created (some c) m) :
    m.destroyMembers.ClosedOnce ↔ c ≠ .call .fchmod := by
  rw [Making.destroyMembers_eq, h.closedOnce_closeAll (by decide)]
  rcases c with _ | (_ | _) | _ | _ | (_ | _) | (_ | _) | (_ | _) <;> decide

/-- After a failure everything is closed, once, if all is undone before the constructor is over. -/
theorem Made.closedOnce_of_failed (h : Made k absoluteName created (some c) m) (e : ErrorCode) :
    m.ClosedOnce ↔ UndoneAtOnce (some e) (some c) := by
  refine (h.closedOnce_closeAll (List.nodup_nil (α := Part))).trans ?_
  unfold UndoneAtOnce
  rcases c with _ | (_ | _) | _ | _ | (_ | _) | (_ | _) | (_ | _) <;> simp <;> decide

/-- In the end, too. -/
theorem Made.closedOnce_dtor (h : Made k absoluteName created (some c) m) (hc : c ≠ .call .fchmod) :
    m.dtor.ClosedOnce := by
  have hmq : m.obj.mq = none := (h.null_of_failed.mpr hc).mq
  unfold Making.dtor
  rw [if_pos hmq]
  exact h.closedOnce_destroyMembers.mpr hc

variable {f : Option (Failed × Err)} {o : Opening} {a : Answers}

/-- Everything is there, or nothing, exactly if all is undone in time. -/
theorem Made.allOrNothing (h : Made k absoluteName created (f.map Prod.fst) m) :
    AllOrNothing ptr (m, f.map Prod.snd) ↔ UndoneAtOnce ptr (f.map Prod.fst) := by
  rcases f with _ | ⟨c, e⟩
  · exact ⟨fun _ => trivial, fun _ => ⟨h.usable, h.dtorAsserts⟩⟩
  · rcases ptr with _ | ptr
    · refine h.closedOnce_destroyMembers.trans ?_
      rcases c with _ | (_ | _) | _ | _ | (_ | _) | (_ | _) | (_ | _) <;> simp [UndoneAtOnce]
    · unfold AllOrNothing LeavesAllOrNothing report
      have honce := h.closedOnce_of_failed ptr
      constructor
      · exact fun ⟨_, _, hclosed⟩ => honce.mp hclosed
      · intro hc
        have hnull : m.obj.Null := by
          rw [h.null_of_failed]
          rintro rfl
          exact hc
        exact ⟨hnull, hnull.dtorAsserts, honce.mpr hc⟩

/-- If the destructor may close the rest, `fchmod()` is the only exception. -/
theorem Made.inTheEnd_iff (h : Made k absoluteName created (f.map Prod.fst) m) :
    InTheEnd ptr (m, f.map Prod.snd) ↔ f.map Prod.fst ≠ some (.call .fchmod) := by
  rcases f with _ | ⟨c, e⟩
  · exact ⟨fun _ => nofun, fun _ => ⟨h.usable, h.dtorAsserts⟩⟩
  · have hc : (some (c, e)).map Prod.fst ≠ some (.call .fchmod) ↔ c ≠ .call .fchmod := by
      simp
    rw [hc]
    rcases ptr with _ | ptr
    · exact h.closedOnce_destroyMembers
    · constructor
      · exact fun ⟨hnull, _⟩ => h.null_of_failed.mp hnull
      · intro hc
        have hnull := h.null_of_failed.mpr hc
        exact ⟨hnull, hnull.dtorAsserts, h.closedOnce_dtor hc⟩

/-- **Where a construction is all or nothing**: to the letter, and in the end. A constructor that has not
failed is as `none`. -/
theorem allOrNothing_iff (k : Nat) (absoluteName : String) (o : Opening) (a : Answers)
    (ptr : Option ErrorCode) :
    ((∀ r, ctor k absoluteName o a = some r → AllOrNothing ptr r) ↔
      ∀ f, o.firstFailed a = some f → UndoneAtOnce ptr (f.map Prod.fst)) ∧
    ((∀ r, ctor k absoluteName o a = some r → InTheEnd ptr r) ↔
      ∀ f, o.firstFailed a = some f → f.map Prod.fst ≠ some (.call .fchmod)) ∧
    ((ctor k absoluteName o a).isSome ↔ (o.firstFailed a).isSome) := by
  rcases ctor_spec k absoluteName o a with ⟨hctor, hf⟩ | ⟨m, f, hctor, hf, hmade⟩
  · rw [hctor, hf]
    simp
  · rw [hctor, hf]
    simp [hmade.allOrNothing, hmade.inTheEnd_iff]

/-- No call fails. -/
def Answers.good : Answers := ⟨none, none, ⟨none, none, none, none⟩, ⟨none, none, none, none⟩⟩

/-- The queue is created, but cannot be given its permissions. -/
theorem not_allOrNothing_fchmod :
    ∃ r, ctor 0 "q" (.createOnly none) { Answers.good with fchmod := some 1 } = some r ∧
      r.2 = some (.system 1) ∧ r.1.obj.mq = some ⟨0, .mq⟩ ∧ ¬ r.1.obj.dtorAsserts ∧
      ¬ AllOrNothing (some none) r ∧ ¬ InTheEnd (some none) r ∧
      -- If the constructor throws the queue is never closed.
      (report none r).2 = .threw (.system 1) ∧ (report none r).1.log.opened.count ⟨0, .mq⟩ = 1 ∧
      (report none r).1.log.closed.count ⟨0, .mq⟩ = 0 := by
  refine ⟨_, rfl, rfl, rfl, by decide, ?_, ?_, rfl, by decide, by decide⟩
  · rintro ⟨hnull, -, -⟩
    cases hnull.mq
  · rintro ⟨hnull, -, -⟩
    cases hnull.mq

end FlowIpc.PosixMq
