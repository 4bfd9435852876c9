import FlowIpc.PosixMq.World

/-!
# The ledger of descriptors

Every descriptor that a construction has opened is held by one handle, or closed, once (`World.Ledger`);
so all are closed when all handles are destroyed, and the descriptors of a handle are always those of one
construction. That is so in a run iff two things never happen in it (`World.Pays`): a handle that has a
queue is assigned to, from another, for then its queue and its epoll sets are forgotten; and a constructor
throws because `fchmod()` has failed, for then its queue is.

What has been forgotten stays so; hence the iff (`ledger_kept_iff`).

Source: `posix_mq_handle.cpp` `operator=`, `swap`, `~Posix_mq_handle`, the constructors.
-/

namespace FlowIpc.PosixMq

open MqHandle Custody Lts

/-- The descriptors of a handle are those of one construction, each in its place; and without a queue there
are no epoll sets. -/
structure PosixMqHandle.Whole (h : PosixMqHandle) : Prop where
  one : ∃ k, ∀ p fd, h.slot p = some fd → fd = ⟨k, p⟩
  epoll d : h.slot .mq = none → h.slot (.epollHndl d) = none

/-- A handle has nothing twice. -/
theorem PosixMqHandle.Whole.nodup {h : PosixMqHandle} (hwhole : h.Whole) {ps : List Part} (hps : ps.Nodup) :
    (ps.filterMap h.slot).Nodup := by
  obtain ⟨k, hk⟩ := hwhole.one
  refine List.Nodup.filterMap ?_ hps
  intro p q fd hp hq
  have hpq : (⟨k, p⟩ : Fd) = ⟨k, q⟩ := (hk p fd hp).symm.trans (hk q fd hq)
  exact congrArg Fd.part hpq

namespace World

/-- **The ledger.** -/
structure Ledger (w : World) : Prop where
  /-- Each descriptor opened has one holder and is open, or is closed, once, and has none. -/
  kept : w.book.Kept
  /-- All are closed, once, when all handles are destroyed. -/
  ended : (∀ i, w.objs i = none) → ∀ fd ∈ w.log.opened, w.log.closed.count fd = 1
  /-- The descriptors of a handle are those of one construction. -/
  unmixed i h : w.objs i = some h → ∃ k, ∀ p fd, h.slot p = some fd → fd = ⟨k, p⟩

/-- The operation forgets no descriptor. -/
def Pays (w : World) : Op → Prop
  | .construct _ _ o a ptr => ptr = none → ∀ e, o.firstFailed a ≠ some (some (.call .fchmod, e))
  | .moveAssign i j => i = j ∨ ∀ h, w.objs i = some h → h.mq = none
  | _ => True

/-- What is true in every run. -/
structure Inv (w : World) : Prop where
  accounted : w.book.Accounted
  fresh fd : fd ∈ w.log.opened → fd.ctor < w.constructions
  whole i h : w.objs i = some h → h.Whole

variable {w w' : World} {i j : Nat} {h : PosixMqHandle} {fd : Fd} {op : Op}

/-- A null handle has no descriptors. -/
theorem slot_null (p : Part) : PosixMqHandle.null.slot p = none := by
  rcases p with _ | d | d | d
  · rfl
  all_goals cases d <;> rfl

/-- A null handle is whole. -/
theorem whole_null : PosixMqHandle.null.Whole where
  one := ⟨0, fun p fd hfd => by rw [slot_null] at hfd; cases hfd⟩
  epoll d _ := slot_null _

/-- The ledger is in order while there are no handles. -/
theorem inv_init : init.Inv where
  accounted fd := by
    refine ⟨.fresh, List.not_mem_nil, List.not_mem_nil, ?_⟩
    rintro x ⟨h, hh, -⟩
    cases hh
  fresh fd hfd := absurd hfd List.not_mem_nil
  whole i h hh := by cases hh

/-- The handle in place `i` is gone, or has less; of what it had, what there was of `ps` is closed. -/
theorem Inv.shrink (hw : w.Inv) (hi : w.objs i = some h) (h' : Option PosixMqHandle) {ps : List Part}
    (log : Log) (hps : ps.Nodup) (hopened : log.opened = w.log.opened)
    (hclosed : log.closed = w.log.closed ++ ps.filterMap h.slot)
    (hwhole : ∀ g, h' = some g → g.Whole)
    (hslot : ∀ g, h' = some g → ∀ p, g.slot p = none ∨ (g.slot p = h.slot p ∧ p ∉ ps)) :
    (w.replace i h' log).Inv ∧
      ∀ fd, (w.replace i h' log).book.Has fd .lost ↔
        w.book.Has fd .lost ∨ ∃ p, h.slot p = some fd ∧ p ∉ ps ∧ ∀ g, h' = some g → g.slot p = none := by
  obtain ⟨k, hk⟩ := (hw.whole i h hi).one
  -- What is held in other places, and in this.
  have hother {x : Nat × Part} {fd : Fd} (hx : x.1 ≠ i) :
      (w.replace i h' log).book.holds x fd ↔ w.book.holds x fd := by
    simp [book, replace, hx]
  have hhere {p : Part} {fd : Fd} :
      (w.replace i h' log).book.holds (i, p) fd ↔ ∃ g, h' = some g ∧ g.slot p = some fd := by
    simp [book, replace]
  have hholds {p : Part} {fd : Fd} : w.book.holds (i, p) fd ↔ h.slot p = some fd := by
    simp [book, hi]
  have hle (x : Nat × Part) (fd : Fd) (hnew : (w.replace i h' log).book.holds x fd) :
      w.book.holds x fd := by
    obtain ⟨j, p⟩ := x
    by_cases hj : j = i
    · subst hj
      obtain ⟨g, hg, hsome⟩ := hhere.mp hnew
      rcases hslot g hg p with hnone | ⟨hsame, -⟩
      · rw [hnone] at hsome
        cases hsome
      · exact hholds.mpr (hsame ▸ hsome)
    · exact (hother hj).mp hnew
  have hcs (fd : Fd) (hfd : fd ∈ ps.filterMap h.slot) : (∃ x, w.book.holds x fd) ∧
      ∀ x, ¬ (w.replace i h' log).book.holds x fd := by
    obtain ⟨p, hp, hpfd⟩ := List.mem_filterMap.mp hfd
    refine ⟨⟨(i, p), hholds.mpr hpfd⟩, ?_⟩
    rintro ⟨j, q⟩ hnew
    by_cases hj : j = i
    · subst hj
      obtain ⟨g, hg, hsome⟩ := hhere.mp hnew
      rcases hslot g hg q with hnone | ⟨hsame, hq⟩
      · rw [hnone] at hsome
        cases hsome
      · have hpq := (hk p fd hpfd).symm.trans (hk q fd (hsame ▸ hsome))
        cases hpq
        exact hq hp
    · have huniq := hw.accounted.holds_unique ((hother hj).mp hnew) (hholds.mpr hpfd)
      exact hj (congrArg Prod.fst huniq)
  obtain ⟨hacc, hlost⟩ := hw.accounted.drop (w.replace i h' log).book (ps.filterMap h.slot) hopened hclosed
    ((hw.whole i h hi).nodup hps) hle hcs
  refine ⟨⟨hacc, fun fd hfd => hw.fresh fd (hopened ▸ hfd), fun j g hj => ?_⟩, fun fd => ?_⟩
  · rw [replace, objs_set] at hj
    by_cases hji : j = i
    · rw [if_pos hji] at hj
      exact hwhole g hj
    · rw [if_neg hji] at hj
      exact hw.whole j g hj
  · rw [hlost]
    refine or_congr_right ?_
    constructor
    · rintro ⟨⟨⟨j, p⟩, hold, hnew⟩, hfd⟩
      by_cases hj : j = i
      · subst hj
        rw [hholds] at hold
        rw [hhere] at hnew
        refine ⟨p, hold, fun hp => hfd (List.mem_filterMap.mpr ⟨p, hp, hold⟩), fun g hg => ?_⟩
        rcases hslot g hg p with hnone | ⟨hsame, -⟩
        · exact hnone
        · exact absurd ⟨g, hg, hsame.trans hold⟩ hnew
      · exact absurd ((hother hj).mpr hold) hnew
    · rintro ⟨p, hp, hps, hnone⟩
      refine ⟨⟨(i, p), hholds.mpr hp, ?_⟩, ?_⟩
      · rw [hhere]
        rintro ⟨g, hg, hsome⟩
        rw [hnone g hg] at hsome
        cases hsome
      · rw [List.mem_filterMap]
        rintro ⟨q, hq, hqfd⟩
        have hpq := (hk p fd hp).symm.trans (hk q fd hqfd)
        cases hpq
        exact hps hq

/-- A null handle is put in a place without one. -/
theorem Inv.appear (hw : w.Inv) (hi : w.objs i = none) :
    (w.set i (some .null)).Inv ∧ ∀ fd, (w.set i (some .null)).book.Has fd .lost ↔ w.book.Has fd .lost := by
  have hholds (x : Nat × Part) (fd : Fd) : (w.set i (some .null)).book.holds x fd ↔ w.book.holds x fd := by
    unfold book
    by_cases hx : x.1 = i
    · simp [hx, hi, slot_null]
    · simp [hx]
  obtain ⟨hacc, hlost⟩ := hw.accounted.exchange (w.set i (some .null)).book (Equiv.refl _) rfl rfl hholds
  refine ⟨⟨hacc, hw.fresh, fun j g hj => ?_⟩, hlost⟩
  rw [objs_set] at hj
  by_cases hji : j = i
  · rw [if_pos hji] at hj
    cases hj
    exact whole_null
  · rw [if_neg hji] at hj
    exact hw.whole j g hj

/-- Two handles change places. -/
theorem Inv.swap (hw : w.Inv) (hswap : w.swap i j = some w') :
    w'.Inv ∧ ∀ fd, w'.book.Has fd .lost ↔ w.book.Has fd .lost := by
  rcases hi : w.objs i with _ | g₁
  · simp [World.swap, hi] at hswap
  rcases hj : w.objs j with _ | g₂
  · simp [World.swap, hi, hj] at hswap
  rw [swap_eq hi hj] at hswap
  cases hswap
  have hobjs (k : Nat) : ((w.set i (some g₂)).set j (some g₁)).objs k = w.objs (Equiv.swap i j k) := by
    by_cases hkj : k = j
    · simp [hkj, hi]
    · by_cases hki : k = i
      · subst hki
        simp [hkj, hj]
      · simp [hkj, hki, Equiv.swap_apply_of_ne_of_ne hki hkj]
  have hholds (x : Nat × Part) (fd : Fd) : ((w.set i (some g₂)).set j (some g₁)).book.holds x fd ↔
      w.book.holds ((Equiv.swap i j).prodCongr (Equiv.refl Part) x) fd := by
    simp only [book, hobjs]
    rfl
  obtain ⟨hacc, hlost⟩ := hw.accounted.exchange ((w.set i (some g₂)).set j (some g₁)).book _ rfl rfl hholds
  refine ⟨⟨hacc, hw.fresh, fun k g hk => ?_⟩, hlost⟩
  rw [hobjs] at hk
  exact hw.whole _ g hk

/-- The ends of the pipes, as `operator=` closes them. -/
def pipeEnds : List Part :=
  [.interrupter .snd, .interruptDetector .snd, .interrupter .rcv, .interruptDetector .rcv]

/-- What an operation forgets. -/
def Loses (w : World) (op : Op) (fd : Fd) : Prop :=
  match op with
  | .construct _ _ o a ptr =>
    ptr = none ∧ (∃ e, o.firstFailed a = some (some (.call .fchmod, e))) ∧ fd = ⟨w.constructions, .mq⟩
  | .moveAssign i j => i ≠ j ∧ ∃ h p, w.objs i = some h ∧ h.slot p = some fd ∧ p ∉ pipeEnds
  | _ => False

/-- A handle that was moved from has but its pipes left. -/
theorem slot_nullified (h : PosixMqHandle) (p : Part) :
    h.nullified.slot p = if p ∈ pipeEnds then h.slot p else none := by
  rcases p with _ | d | d | d
  · rfl
  all_goals cases d <;> rfl

/-- `operator=(Posix_mq_handle&&)` -/
theorem Inv.moveAssign (hw : w.Inv) (hmove : w.moveAssign i j = some w') :
    w'.Inv ∧ ∀ fd, w'.book.Has fd .lost ↔ w.book.Has fd .lost ∨ Loses w (.moveAssign i j) fd := by
  rcases hi : w.objs i with _ | h
  · simp [World.moveAssign, hi] at hmove
  by_cases hij : i = j
  · simp only [World.moveAssign, hi, if_pos hij, Option.bind_eq_bind, Option.bind_some] at hmove
    cases hmove
    exact ⟨hw, fun fd => by simp [Loses, hij]⟩
  · simp only [World.moveAssign, hi, if_neg hij, Option.bind_eq_bind, Option.bind_some] at hmove
    have hall : (((Making.closes (.interrupter .snd) ⟨h.nullified, w.log⟩).closes (.interruptDetector .snd)).closes
        (.interrupter .rcv)).closes (.interruptDetector .rcv) =
          Making.closeAll pipeEnds ⟨h.nullified, w.log⟩ := rfl
    rw [hall] at hmove
    have hnone (p : Part) : (Making.closeAll pipeEnds ⟨h.nullified, w.log⟩).obj.slot p = none := by
      rw [Making.slot_closeAll, slot_nullified]
      by_cases hp : p ∈ pipeEnds <;> simp [hp]
    have hclosed : (Making.closeAll pipeEnds ⟨h.nullified, w.log⟩).log.closed =
        w.log.closed ++ pipeEnds.filterMap h.slot := by
      rw [Making.closed_closeAll (by decide)]
      refine congrArg (w.log.closed ++ ·) (List.filterMap_congr fun p hp => ?_)
      exact (slot_nullified h p).trans (if_pos hp)
    obtain ⟨hinv, hlost⟩ := hw.shrink hi (some (Making.closeAll pipeEnds ⟨h.nullified, w.log⟩).obj)
      (Making.closeAll pipeEnds ⟨h.nullified, w.log⟩).log (show pipeEnds.Nodup by decide)
      (Making.opened_closeAll _) hclosed
      (by
        rintro g ⟨⟩
        refine ⟨⟨0, fun p fd hfd => ?_⟩, fun d _ => hnone _⟩
        cases (hnone p).symm.trans hfd)
      (by
        rintro g ⟨⟩ p
        exact .inl (hnone p))
    obtain ⟨hinv', hlost'⟩ := hinv.swap hmove
    refine ⟨hinv', fun fd => (hlost' fd).trans ((hlost fd).trans (or_congr_right ?_))⟩
    constructor
    · rintro ⟨p, hp, hpipe, -⟩
      exact ⟨hij, h, p, hi, hp, hpipe⟩
    · rintro ⟨-, g, p, hg, hp, hpipe⟩
      cases hi.symm.trans hg
      refine ⟨p, hp, hpipe, ?_⟩
      rintro g ⟨⟩
      exact hnone p

/-- The destructor. -/
theorem Inv.destroy (hw : w.Inv) (hi : w.objs i = some h) :
    (w.replace i none (Making.dtor ⟨h, w.log⟩).log).Inv ∧
      ∀ fd, (w.replace i none (Making.dtor ⟨h, w.log⟩).log).book.Has fd .lost ↔ w.book.Has fd .lost := by
  rw [Making.dtor_eq]
  obtain ⟨hinv, hlost⟩ := hw.shrink hi none (Making.closeAll (Making.dtorParts h) ⟨h, w.log⟩).log
    (Making.nodup_dtorParts h) (Making.opened_closeAll _) (Making.closed_closeAll (Making.nodup_dtorParts h))
    (fun g hg => by cases hg) (fun g hg => by cases hg)
  refine ⟨hinv, fun fd => (hlost fd).trans (or_iff_left ?_)⟩
  rintro ⟨p, hp, hparts, -⟩
  have hepoll := (hw.whole i h hi).epoll
  unfold Making.dtorParts at hparts
  by_cases hmq : h.mq = none
  · rw [if_pos hmq, List.nil_append] at hparts
    rcases p with _ | d | d | d
    · cases hmq.symm.trans hp
    · cases (hepoll d hmq).symm.trans hp
    all_goals cases d <;> exact hparts (by decide)
  · rw [if_neg hmq] at hparts
    rcases p with _ | d | d | d
    · exact hparts (by decide)
    all_goals cases d <;> exact hparts (by decide)

/-- The descriptors `ps` are opened by a new construction, and of these `cs` are closed; the handle, if
there is one, is put in place `i`. -/
theorem Inv.acquire (hw : w.Inv) (hi : w.objs i = none) {ps cs : List Part} {log : Log}
    (h' : Option PosixMqHandle) (hopened : log.opened = fds w.constructions ps)
    (hclosed : log.closed = fds w.constructions cs) (hps : ps.Nodup) (hcs : cs.Nodup) (hsub : cs ⊆ ps)
    (hwhole : ∀ g, h' = some g → g.Whole)
    (hslot : ∀ g, h' = some g → ∀ p fd, g.slot p = some fd → fd = ⟨w.constructions, p⟩ ∧ p ∈ ps ∧ p ∉ cs) :
    (World.mk (w.constructions + 1) (w.set i h').objs (w.log.append log)).Inv ∧
      ∀ fd, (World.mk (w.constructions + 1) (w.set i h').objs (w.log.append log)).book.Has fd .lost ↔
        w.book.Has fd .lost ∨ ∃ p, fd = ⟨w.constructions, p⟩ ∧ p ∈ ps ∧ p ∉ cs ∧
          ∀ g, h' = some g → g.slot p ≠ some fd := by
  have hnodup {qs : List Part} (hqs : qs.Nodup) : (fds w.constructions qs).Nodup := by
    refine hqs.map ?_
    rintro p q ⟨⟩
    rfl
  have hfresh (fd : Fd) (hfd : fd ∈ fds w.constructions ps) : w.book.Has fd .fresh := by
    obtain ⟨p, -, rfl⟩ := List.mem_map.mp hfd
    obtain ⟨c, hc⟩ := hw.accounted ⟨w.constructions, p⟩
    have hnot : (⟨w.constructions, p⟩ : Fd) ∉ w.log.opened := fun hmem => absurd (hw.fresh _ hmem) (by simp)
    cases c with
    | fresh => exact hc
    | held x => exact absurd (Book.mem_of_count_eq_one hc.1) hnot
    | released => exact absurd (Book.mem_of_count_eq_one hc.1) hnot
    | lost => exact absurd (Book.mem_of_count_eq_one hc.1) hnot
  have hholds (x : Nat × Part) (fd : Fd) :
      (World.mk (w.constructions + 1) (w.set i h').objs (w.log.append log)).book.holds x fd ↔
        w.book.holds x fd ∨ (x.1 = i ∧ ∃ g, h' = some g ∧ g.slot x.2 = some fd) := by
    unfold book
    by_cases hx : x.1 = i
    · simp [hx, hi]
    · simp [hx]
  obtain ⟨hacc, hlost⟩ := hw.accounted.acquire
    (World.mk (w.constructions + 1) (w.set i h').objs (w.log.append log)).book
    (fds w.constructions ps) (fds w.constructions cs)
    (congrArg (w.log.opened ++ ·) hopened) (congrArg (w.log.closed ++ ·) hclosed) (hnodup hps) (hnodup hcs) hfresh
    (fun fd hfd => List.map_subset _ hsub hfd) hholds
    (by
      rintro ⟨j, p⟩ fd ⟨-, g, hg, hfd⟩
      obtain ⟨rfl, hp, hpcs⟩ := hslot g hg p fd hfd
      rw [mem_fds, mem_fds]
      exact ⟨hp, hpcs⟩)
    (by
      rintro ⟨j, p⟩ ⟨j', q⟩ fd ⟨hj, g, hg, hp⟩ ⟨hj', g', hg', hq⟩
      cases hg.symm.trans hg'
      have hpq := (hslot g hg p fd hp).1.symm.trans (hslot g hg q fd hq).1
      cases hpq
      exact Prod.ext (hj.trans hj'.symm) rfl)
  refine ⟨⟨hacc, fun fd hfd => ?_, fun j g hj => ?_⟩, fun fd => (hlost fd).trans (or_congr_right ?_)⟩
  · rcases List.mem_append.mp hfd with hfd | hfd
    · exact Nat.lt_succ_of_lt (hw.fresh fd hfd)
    · rw [hopened] at hfd
      obtain ⟨p, -, rfl⟩ := List.mem_map.mp hfd
      exact Nat.lt_succ_self _
  · change (w.set i h').objs j = some g at hj
    rw [objs_set] at hj
    by_cases hji : j = i
    · rw [if_pos hji] at hj
      exact hwhole g hj
    · rw [if_neg hji] at hj
      exact hw.whole j g hj
  · constructor
    · rintro ⟨hmem, hnot, hnone⟩
      obtain ⟨p, hp, rfl⟩ := List.mem_map.mp hmem
      exact ⟨p, rfl, hp, fun hpcs => hnot (mem_fds.mpr hpcs), fun g hg hfd => hnone (i, p) ⟨rfl, g, hg, hfd⟩⟩
    · rintro ⟨p, rfl, hp, hpcs, hnone⟩
      refine ⟨mem_fds.mpr hp, fun hmem => hpcs (mem_fds.mp hmem), ?_⟩
      rintro ⟨j, q⟩ ⟨-, g, hg, hfd⟩
      have hpq := (hslot g hg q _ hfd).1
      cases hpq
      exact hnone g hg hfd

variable {absoluteName : String} {created : Bool} {m : Making} {f : Option Failed}

/-- No part is opened twice. -/
theorem nodup_openedParts (f : Option Failed) : (openedParts f).Nodup := by
  rcases f with _ | _ | (_ | _) | _ | _ | (_ | _) | (_ | _) | (_ | _) <;> decide

/-- No part is closed twice, by the constructor and then as a member. -/
theorem nodup_closedParts (f : Option Failed) :
    (closedParts f ++ Making.memberParts.filter fun p => p ∈ keptParts f).Nodup := by
  rcases f with _ | _ | (_ | _) | _ | _ | (_ | _) | (_ | _) | (_ | _) <;> decide

/-- None is closed that was not opened. -/
theorem closedParts_subset (f : Option Failed) :
    (closedParts f ++ Making.memberParts.filter fun p => p ∈ keptParts f) ⊆ openedParts f := by
  rcases f with _ | _ | (_ | _) | _ | _ | (_ | _) | (_ | _) | (_ | _) <;> decide

/-- What is left where a constructor has thrown. -/
theorem left_iff {c : Failed} (p : Part) :
    (p ∈ openedParts (some c) ∧
      p ∉ closedParts (some c) ++ Making.memberParts.filter fun p => p ∈ keptParts (some c)) ↔
      c = .call .fchmod ∧ p = .mq := by
  rcases c with _ | (_ | _) | _ | _ | (_ | _) | (_ | _) | (_ | _) <;> rcases p with _ | (_ | _) | (_ | _) | (_ | _) <;>
    decide

/-- A handle that has been constructed is whole. -/
theorem whole_made (h : Made w.constructions absoluteName created f m) : m.obj.Whole where
  one := by
    refine ⟨w.constructions, fun p fd hfd => ?_⟩
    rw [h.slot_eq] at hfd
    by_cases hp : p ∈ keptParts f
    · rw [if_pos hp] at hfd
      cases hfd
      rfl
    · rw [if_neg hp] at hfd
      cases hfd
  epoll d hmq := by
    rw [h.slot_eq_none_iff] at hmq ⊢
    revert hmq
    rcases f with _ | _ | (_ | _) | _ | _ | (_ | _) | (_ | _) | (_ | _) <;> cases d <;> decide

/-- One of the constructors. -/
theorem Inv.construct {o : Opening} {a : Answers} {ptr : Option ErrorCode} (hw : w.Inv)
    (hstep : w.step (.construct i absoluteName o a ptr) = some w') :
    w'.Inv ∧ ∀ fd, w'.book.Has fd .lost ↔
      w.book.Has fd .lost ∨ Loses w (.construct i absoluteName o a ptr) fd := by
  simp only [step] at hstep
  by_cases hi : w.objs i = none
  swap
  · rw [if_neg hi] at hstep
    cases hstep
  rw [if_pos hi] at hstep
  rcases ctor_spec w.constructions absoluteName o a with ⟨hctor, -⟩ | ⟨m, f, hctor, hf, hmade⟩
  · rw [hctor] at hstep
    cases hstep
  rw [hctor, Option.map_some] at hstep
  have hwhole : ∀ g, some m.obj = some g → g.Whole := by
    rintro g ⟨⟩
    exact whole_made hmade
  have hslot : ∀ g, some m.obj = some g → ∀ p fd, g.slot p = some fd →
      fd = ⟨w.constructions, p⟩ ∧ p ∈ openedParts (f.map Prod.fst) ∧ p ∉ closedParts (f.map Prod.fst) := by
    rintro g ⟨⟩ p fd hfd
    rw [hmade.slot_eq] at hfd
    by_cases hp : p ∈ keptParts (f.map Prod.fst)
    · rw [if_pos hp] at hfd
      cases hfd
      have hmem := List.mem_filter.mp hp
      exact ⟨rfl, hmem.1, of_decide_eq_true hmem.2⟩
    · rw [if_neg hp] at hfd
      cases hfd
  -- The handle is there: it has what is open.
  have hthere := hw.acquire hi (some m.obj) hmade.opened hmade.closed (nodup_openedParts _)
    (List.Nodup.of_append_left (nodup_closedParts _))
    (List.Subset.trans (List.subset_append_left _ _) (closedParts_subset _)) hwhole hslot
  have hnone (fd : Fd) : ¬ ∃ p, fd = ⟨w.constructions, p⟩ ∧ p ∈ openedParts (f.map Prod.fst) ∧
      p ∉ closedParts (f.map Prod.fst) ∧ ∀ g, some m.obj = some g → g.slot p ≠ some fd := by
    rintro ⟨p, rfl, hp, hpcs, hlost⟩
    refine hlost m.obj rfl (hmade.slot_of_kept (List.mem_filter.mpr ⟨hp, decide_eq_true hpcs⟩))
  rcases f with _ | ⟨c, e⟩
  · cases hstep
    refine ⟨hthere.1, fun fd => (hthere.2 fd).trans (or_congr_right ⟨fun h => absurd h (hnone fd), ?_⟩)⟩
    rintro ⟨-, ⟨e, he⟩, -⟩
    cases hf.symm.trans he
  · rcases ptr with _ | ptr
    · cases hstep
      have hclosed := hmade.closed_closeAll (show Making.memberParts.Nodup by decide)
      obtain ⟨hinv, hlost⟩ := hw.acquire hi none
        ((Making.opened_closeAll (m := m) Making.memberParts).trans hmade.opened) hclosed (nodup_openedParts _)
        (nodup_closedParts _) (closedParts_subset _) (fun g hg => by cases hg) (fun g hg => by cases hg)
      have hset : w.set i none = w := by
        refine ext_of rfl rfl fun k => ?_
        rw [objs_set]
        by_cases hk : k = i
        · rw [if_pos hk, hk, hi]
        · rw [if_neg hk]
      rw [hset] at hinv hlost
      refine ⟨hinv, fun fd => (hlost fd).trans (or_congr_right ?_)⟩
      constructor
      · rintro ⟨p, rfl, hp, hpcs, -⟩
        obtain ⟨rfl, rfl⟩ := (left_iff p).mp ⟨hp, hpcs⟩
        exact ⟨rfl, ⟨e, hf⟩, rfl⟩
      · rintro ⟨-, ⟨e', he'⟩, rfl⟩
        cases hf.symm.trans he'
        obtain ⟨hp, hpcs⟩ := (left_iff (c := .call .fchmod) .mq).mpr ⟨rfl, rfl⟩
        exact ⟨.mq, rfl, hp, hpcs, fun g hg => by cases hg⟩
    · cases hstep
      refine ⟨hthere.1, fun fd => (hthere.2 fd).trans (or_congr_right ⟨fun h => absurd h (hnone fd), ?_⟩)⟩
      rintro ⟨h, -⟩
      cases h

/-- **A step** keeps the invariant, and it loses what it forgets, and no more. -/
theorem Inv.step (hw : w.Inv) (hstep : Step w op w') :
    w'.Inv ∧ ∀ fd, w'.book.Has fd .lost ↔ w.book.Has fd .lost ∨ Loses w op fd := by
  have hnothing {u : World} (h : u.Inv ∧ ∀ fd, u.book.Has fd .lost ↔ w.book.Has fd .lost)
      (hloses : ∀ fd, ¬ Loses w op fd) :
      u.Inv ∧ ∀ fd, u.book.Has fd .lost ↔ w.book.Has fd .lost ∨ Loses w op fd :=
    ⟨h.1, fun fd => (h.2 fd).trans (or_iff_left (hloses fd)).symm⟩
  cases op with
  | default i =>
      simp only [Step, World.step] at hstep
      by_cases hi : w.objs i = none
      · rw [if_pos hi] at hstep
        cases hstep
        exact hnothing (hw.appear hi) fun fd h => h
      · rw [if_neg hi] at hstep
        cases hstep
  | construct i absoluteName o a ptr => exact hw.construct hstep
  | moveConstruct i j =>
      simp only [Step, World.step] at hstep
      by_cases hi : w.objs i = none ∧ w.objs j ≠ none
      · rw [if_pos hi] at hstep
        have happear := hw.appear hi.1
        obtain ⟨hinv, hlost⟩ := happear.1.moveAssign hstep
        refine hnothing ⟨hinv, fun fd => ((hlost fd).trans (or_iff_left ?_)).trans (happear.2 fd)⟩ fun fd h => h
        rintro ⟨-, h, p, hh, hp, -⟩
        rw [objs_set, if_pos rfl] at hh
        cases hh
        rw [slot_null] at hp
        cases hp
      · rw [if_neg hi] at hstep
        cases hstep
  | moveAssign i j => exact hw.moveAssign hstep
  | swap i j => exact hnothing (hw.swap hstep) fun fd h => h
  | destroy i =>
      simp only [Step, World.step] at hstep
      rcases hi : w.objs i with _ | h
      · rw [hi] at hstep
        cases hstep
      · rw [hi] at hstep
        cases hstep
        exact hnothing (hw.destroy hi) fun fd h => h

/-- An operation forgets nothing iff it pays. -/
theorem Inv.pays_iff (hw : w.Inv) : Pays w op ↔ ∀ fd, ¬ Loses w op fd := by
  cases op with
  | construct i absoluteName o a ptr =>
      constructor
      · rintro hpays fd ⟨hptr, ⟨e, he⟩, -⟩
        exact hpays hptr e he
      · intro hloses hptr e he
        exact hloses _ ⟨hptr, ⟨e, he⟩, rfl⟩
  | moveAssign i j =>
      constructor
      · rintro hpays fd ⟨hij, h, p, hi, hp, hpipe⟩
        have hmq : h.mq = none := (hpays.resolve_left hij) h hi
        rcases p with _ | d | d | d
        · cases hmq.symm.trans hp
        · cases ((hw.whole i h hi).epoll d hmq).symm.trans hp
        all_goals cases d <;> exact hpipe (by decide)
      · intro hloses
        rw [Pays, or_iff_not_imp_left]
        intro hij h hi
        by_contra hmq
        obtain ⟨fd, hfd⟩ := Option.ne_none_iff_exists'.mp hmq
        exact hloses fd ⟨hij, h, .mq, hi, hfd, by decide⟩
  | default i => exact ⟨fun _ _ h => h, fun _ => trivial⟩
  | moveConstruct i j => exact ⟨fun _ _ h => h, fun _ => trivial⟩
  | swap i j => exact ⟨fun _ _ h => h, fun _ => trivial⟩
  | destroy i => exact ⟨fun _ _ h => h, fun _ => trivial⟩

/-- The book is kept iff nothing is lost. -/
theorem Inv.ledger_iff_lost (hw : w.Inv) : w.Ledger ↔ ∀ fd, ¬ w.book.Has fd .lost := by
  rw [← hw.accounted.kept_iff]
  constructor
  · exact fun h => h.kept
  · intro hkept
    refine ⟨hkept, fun hnone => hkept.released ?_, fun i h hi => (hw.whole i h hi).one⟩
    rintro x fd ⟨h, hh, -⟩
    rw [hnone] at hh
    cases hh

/-- The world after an operation is determined. -/
theorem step_det (w : World) (op : Op) (t u : World) (ht : Step w op t) (hu : Step w op u) : t = u :=
  Option.some.inj (ht.symm.trans hu)

/-- The ledger is in order in every run. -/
theorem inv_run {ops : List Op} (hrun : Run Step init ops w) : w.Inv :=
  hrun.invariant (fun _ _ _ hs hstep => (hs.step hstep).1) inv_init

/-- **The ledger is kept** in a run iff no step of it forgets a descriptor. -/
theorem ledger_kept_iff (ops : List Op) (w : World) (hrun : Run Step init ops w) :
    w.Ledger ↔ Run (Restrict Step Pays) init ops w := by
  rw [(inv_run hrun).ledger_iff_lost]
  induction hrun with
  | nil =>
      refine ⟨fun _ => Run.nil _, fun _ fd => ?_⟩
      rintro ⟨hcount, -⟩
      cases hcount
  | @snoc t u ops op hrun hstep ih =>
      have ht := inv_run hrun
      have hlost := (ht.step hstep).2
      simp only [hlost, not_or, forall_and]
      rw [ih, ← ht.pays_iff, run_snoc_iff]
      constructor
      · rintro ⟨hpaid, hpays⟩
        exact ⟨t, hpaid, hpays, hstep⟩
      · rintro ⟨t', hpaid, hpays, -⟩
        cases hpaid.of_restrict.det step_det hrun
        exact ⟨hpaid, hpays⟩

/-- A handle is constructed, moved, swapped and moved again, and destroyed. -/
def sampleOps : List Op :=
  [.construct 0 "q" (.openOrCreate [⟨none, none⟩]) .good (some none), .moveConstruct 1 0, .swap 0 1, .swap 1 1,
    .destroy 1, .moveConstruct 2 0, .destroy 0, .destroy 2]

/-- A handle is made, moved and swapped, with itself too, and the ledger is kept. -/
theorem ledger_kept_iff_sampleOps : ∃ w, Run Step init sampleOps w ∧ w.log.opened.length = 7 ∧
    (w.Ledger ↔ Run (Restrict Step Pays) init sampleOps w) ∧ w.Ledger := by
  have hrun : ∃ w, Run Step init sampleOps w ∧ w.log.opened.length = 7 := ⟨_, Run.of_foldlM rfl, by decide⟩
  obtain ⟨w, hrun, hlength⟩ := hrun
  have hiff := ledger_kept_iff sampleOps w hrun
  refine ⟨w, hrun, hlength, hiff, hiff.mpr (hrun.restrict ?_)⟩
  intro op hop u
  simp only [sampleOps, List.mem_cons, List.not_mem_nil, or_false] at hop
  rcases hop with rfl | rfl | rfl | rfl | rfl | rfl | rfl | rfl
  all_goals first
    | trivial
    | exact nofun

/-- A handle that has a queue is assigned to. When both are destroyed its queue and its epoll sets are
open. -/
theorem not_ledger_moveAssign : ∃ w, Run Step init
      [.construct 0 "q" (.openOnly none) .good (some none), .construct 1 "r" (.openOnly none) .good (some none),
        .moveAssign 0 1, .destroy 0, .destroy 1] w ∧
    (∀ i, w.objs i = none) ∧
    (∀ p ∈ [Part.mq, .epollHndl .snd, .epollHndl .rcv], ⟨0, p⟩ ∈ w.log.opened ∧ ⟨0, p⟩ ∉ w.log.closed) ∧
    ¬ w.Ledger := by
  have hrun : ∃ w, Run Step init
      [.construct 0 "q" (.openOnly none) .good (some none), .construct 1 "r" (.openOnly none) .good (some none),
        .moveAssign 0 1, .destroy 0, .destroy 1] w ∧ (∀ i, w.objs i = none) ∧
      ∀ p ∈ [Part.mq, .epollHndl .snd, .epollHndl .rcv], ⟨0, p⟩ ∈ w.log.opened ∧ ⟨0, p⟩ ∉ w.log.closed := by
    refine ⟨_, Run.of_foldlM rfl, fun i => ?_, by decide⟩
    rcases i with _ | _ | i <;> rfl
  obtain ⟨w, hrun, hnone, hopen⟩ := hrun
  refine ⟨w, hrun, hnone, hopen, fun hledger => ?_⟩
  obtain ⟨hmem, hnot⟩ := hopen .mq List.mem_cons_self
  exact hnot (List.count_pos_iff.mp (by rw [hledger.ended hnone _ hmem]; decide))

end World

end FlowIpc.PosixMq
