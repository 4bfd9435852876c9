import FlowIpc.BlobSender.Machine
import FlowIpc.Lib.PrefixCode

/-!
# Senders over cells

A transport of the code's carries *cells*: bytes, or messages of a queue. An item is some cells, none of
which is missing when it has been passed on whole; between two calls the head of what is held back may
have gone in part. `cellMedium enc` is such a transport, as far as it can be told from the cells on it
and those held back.

As no item is without cells, the machine over cells is simulated, step by step, by the machine over
items (`Refines.step`): the transport has the cells of the items passed on and a proper part of the next
one's.
-/

namespace FlowIpc.BlobSender

open Lts PrefixCode

universe u

/-- The cells on a transport, and those held back. -/
structure Cells (α : Type u) where
  /-- Those on the transport. -/
  sent : List α
  /-- Those held back, the next first. -/
  pend : List α

section CellMedium

variable {α : Type}

/-- What handing over an item comes to: its cells are added behind the others, some of them on the
transport, if none were held back; or the transport fails with a proper part of them on it, and then no
matter what is held back. -/
inductive Cells.Put (enc : Item → List α) (c : Cells α) (f : Item) : Cells α → ErrorCode → Prop where
  /-- They are on the transport, or held back. -/
  | added {sent pend l : List α} (append : sent ++ pend = c.sent ++ c.pend ++ enc f)
      (prefix_sent : sent = c.sent ++ l) (behind : c.pend ≠ [] → l = []) :
      Put enc c f ⟨sent, pend⟩ none
  /-- The transport fails. -/
  | failed {l pend : List α} (idle : c.pend = []) (part : l <+: enc f) (proper : l ≠ enc f) (e : Err)
      (err : declines (some e) = false) : Put enc c f ⟨c.sent ++ l, pend⟩ (some e)

/-- What a writable transport takes: some of the cells held back, and not all if it fails. -/
inductive Cells.Flush (c : Cells α) : Cells α → ErrorCode → Prop where
  /-- Some are passed on. -/
  | passed {l pend : List α} {err : ErrorCode} (append : l ++ pend = c.pend)
      (left : err.isSome → pend ≠ []) : Flush c ⟨c.sent ++ l, pend⟩ err

/-- Cells, one after the other. -/
def cellMedium (enc : Item → List α) : Medium where
  Store := Cells α
  Idle c := c.pend = []
  Put := Cells.Put enc
  Flush := Cells.Flush
  put_err h := by
    cases h with
    | added _ _ _ => rfl
    | failed _ _ _ _ herr => exact herr

end CellMedium

/-! ## Which items the cells are of -/

variable {α : Type} {enc : Item → List α} {c c' : Cells α} {q : Items} {f : Item} {err : ErrorCode}

/-- The cells are those of the items, the head of those held back having gone in part. -/
structure Holds (enc : Item → List α) (c : Cells α) (q : Items) (part : List α) : Prop where
  sent_eq : c.sent = stream enc q.wire ++ part
  pend_eq : part ++ c.pend = stream enc q.queue
  proper : part = [] ∨ ∃ f, [f] <+: q.queue ∧ part <+: enc f ∧ part ≠ enc f

/-- After an error: the cells on the transport are those of the items passed on, and a proper part of
those of one more. -/
def Broken (enc : Item → List α) (c : Cells α) (q : Items) : Prop :=
  ∃ f part, c.sent = stream enc q.wire ++ part ∧ part <+: enc f ∧ part ≠ enc f

/-- How the cells and the items go together. -/
def Carries (enc : Item → List α) (c : Cells α) (q : Items) (err : ErrorCode) : Prop :=
  if err = none then ∃ part, Holds enc c q part else Broken enc c q

/-- Without an error, what is held back is the rest of the items. -/
theorem carries_none : Carries enc c q none ↔ ∃ part, Holds enc c q part := by
  simp [Carries]

/-- After one, some of the next item may have gone. -/
theorem carries_some {e : Err} : Carries enc c q (some e) ↔ Broken enc c q := by
  simp [Carries]

/-- Where nothing is held back, nothing has gone in part. -/
theorem Holds.of_idle (henc : ∀ f, enc f ≠ []) {part : List α} (h : Holds enc c q part)
    (hc : c.pend = []) : q.queue = [] ∧ part = [] := by
  have hpart : part = stream enc q.queue := by
    have := h.pend_eq
    rwa [hc, List.append_nil] at this
  have hqueue : q.queue = [] := by
    cases hq : q.queue with
    | nil => rfl
    | cons f fs =>
        exfalso
        rw [hq, stream_cons] at hpart
        rcases h.proper with hnil | ⟨g, hg, hle, hne⟩
        · rw [hnil] at hpart
          exact henc f (List.append_eq_nil_iff.mp hpart.symm).1
        · rw [hq, List.cons_prefix_cons] at hg
          obtain ⟨rfl, -⟩ := hg
          apply hne
          apply hle.eq_of_length_le
          rw [hpart, List.length_append]
          exact Nat.le_add_right _ _
  rw [hqueue] at hpart
  exact ⟨hqueue, hpart⟩

/-- Something is held back as items exactly if as cells. -/
theorem Holds.idle_iff (henc : ∀ f, enc f ≠ []) {part : List α} (h : Holds enc c q part) :
    c.pend = [] ↔ q.queue = [] := by
  constructor
  · intro hc
    exact (h.of_idle henc hc).1
  · intro hq
    have hpend := h.pend_eq
    rw [hq, stream_nil] at hpend
    exact (List.append_eq_nil_iff.mp hpend).2

/-- Cells added are those of one more item. -/
theorem Holds.put (henc : ∀ f, enc f ≠ []) {part : List α} (h : Holds enc c q part)
    (hput : Cells.Put enc c f c' err) : ∃ q', Items.Put q f q' err ∧ Carries enc c' q' err := by
  cases hput with
  | @added sent pend l happend hsent hbehind =>
      by_cases hpend : c.pend = []
      · obtain ⟨hqueue, rfl⟩ := h.of_idle henc hpend
        have hwire : c.sent = stream enc q.wire := by simpa using h.sent_eq
        subst hsent
        rw [hpend, List.append_nil, List.append_assoc, List.append_cancel_left_eq] at happend
        by_cases hp : pend = []
        · refine ⟨_, .gone hqueue, carries_none.mpr ⟨[], ?_, ?_, .inl rfl⟩⟩
          · rw [hp, List.append_nil] at happend
            simp [hwire, happend]
          · simp [hqueue, hp]
        · refine ⟨_, .kept hqueue, carries_none.mpr ⟨l, ?_, ?_, .inr ⟨f, ?_, ?_, ?_⟩⟩⟩
          · rw [hwire]
          · simpa using happend
          · exact List.prefix_rfl
          · exact ⟨pend, happend⟩
          · intro heq
            rw [heq] at happend
            exact hp (by simpa using happend)
      · have hqueue : q.queue ≠ [] := fun hq => hpend ((h.idle_iff henc).mpr hq)
        obtain rfl := hbehind hpend
        rw [List.append_nil] at hsent
        subst hsent
        rw [List.append_assoc, List.append_cancel_left_eq] at happend
        refine ⟨_, .behind hqueue, carries_none.mpr ⟨part, h.sent_eq, ?_, ?_⟩⟩
        · simp only [happend]
          rw [← List.append_assoc, h.pend_eq, stream_append, stream_singleton]
        · rcases h.proper with hnil | ⟨g, hg, hpart⟩
          · exact .inl hnil
          · exact .inr ⟨g, hg.trans (List.prefix_append _ _), hpart⟩
  | failed hidle hpart hproper e herr =>
      obtain ⟨hqueue, rfl⟩ := h.of_idle henc hidle
      refine ⟨q, .failed hqueue e herr, carries_some.mpr ⟨f, _, ?_, hpart, hproper⟩⟩
      have hwire := h.sent_eq
      rw [List.append_nil] at hwire
      simp only [hwire]

/-- Cells passed on are those of some of the items held back, and part of the next. -/
theorem Holds.flush (henc : ∀ f, enc f ≠ []) {part : List α} (h : Holds enc c q part)
    (hflush : Cells.Flush c c' err) : ∃ q', Items.Flush q q' err ∧ Carries enc c' q' err := by
  cases hflush with
  | @passed l pend _ happend hleft =>
      have hle : part ++ l <+: stream enc q.queue := by
        refine ⟨pend, ?_⟩
        rw [List.append_assoc, happend, h.pend_eq]
      obtain ⟨fs, tail, ⟨gs, hgs⟩, hstream, htail⟩ := exists_of_prefix_stream hle
      have hpend : tail ++ pend = stream enc gs := by
        have hqueue := h.pend_eq
        rw [← happend, ← List.append_assoc, hstream, ← hgs, stream_append, List.append_assoc,
          List.append_cancel_left_eq] at hqueue
        exact hqueue
      have hsent : c.sent ++ l = stream enc (q.wire ++ fs) ++ tail := by
        rw [h.sent_eq, List.append_assoc, hstream, stream_append, List.append_assoc]
      have hgs_ne : err.isSome → gs ≠ [] := by
        rintro herr rfl
        exact hleft herr (List.append_eq_nil_iff.mp hpend).2
      -- The items behind the ones passed on begin with the one that has gone in part.
      have hproper : tail = [] ∨ ∃ f, [f] <+: gs ∧ tail <+: enc f ∧ tail ≠ enc f := by
        rcases htail with rfl | ⟨g, hg, hpart⟩
        · exact .inl rfl
        · rw [← hgs, List.prefix_append_right_inj] at hg
          exact .inr ⟨g, hg, hpart⟩
      refine ⟨_, .passed hgs.symm hgs_ne, ?_⟩
      cases err with
      | none => exact carries_none.mpr ⟨tail, hsent, hpend, hproper⟩
      | some e =>
          refine carries_some.mpr ?_
          rcases hproper with rfl | ⟨g, -, hpart⟩
          · exact ⟨.ping, [], hsent, List.nil_prefix, (henc .ping).symm⟩
          · exact ⟨g, tail, hsent, hpart⟩

/-- A ping is dropped in both, or handed over in both. -/
theorem Holds.ping (henc : ∀ f, enc f ≠ []) {c c' : (cellMedium enc).Store} {part : List α}
    (h : Holds enc c q part)
    (hping : (cellMedium enc).Ping c c' err) :
    ∃ q', itemMedium.Ping q q' err ∧ Carries enc c' q' err := by
  cases hping with
  | dropped => exact ⟨q, .dropped, carries_none.mpr ⟨part, h⟩⟩
  | put hidle hput =>
      obtain ⟨q', hput', hcarries⟩ := h.put henc hput
      exact ⟨q', .put ((h.idle_iff henc).mp hidle) hput', hcarries⟩

/-! ## The simulation -/

/-- The machine `a` over items is the machine `m` over cells, its items being those of the cells. -/
def Refines (enc : Item → List α) (m : Sender (Cells α)) (a : Sender Items) : Prop :=
  a = m.withStore a.store ∧ Carries enc m.store a.store m.latched

variable {m m' : Sender (Cells α)} {a : Sender Items} {max : Nat} {l : Op × Reply}

/-- A machine that has just been constructed, and one whose constructor failed. -/
theorem refines_made {enc : Item → List α} (henc : ∀ f, enc f ≠ []) (err : ErrorCode) :
    Refines enc (.made ⟨[], []⟩ err) (.made ⟨[], []⟩ err) := by
  refine ⟨rfl, ?_⟩
  cases err with
  | none => exact carries_none.mpr ⟨[], rfl, rfl, .inl rfl⟩
  | some e => exact carries_some.mpr ⟨.ping, [], rfl, List.nil_prefix, (henc .ping).symm⟩

/-- **Step by step the machine over items does what the machine over cells does.** -/
theorem Refines.step (henc : ∀ f, enc f ≠ []) {m m' : Sender (cellMedium enc).Store}
    {a : Sender itemMedium.Store} (h : Refines enc m a)
    (hstep : Step (cellMedium enc) max m l m') :
    ∃ a', Step itemMedium max a l a' ∧ Refines enc m' a' := by
  obtain ⟨ha, hcarries⟩ := h
  generalize a.store = q at ha hcarries
  subst ha
  -- Where the medium is used there is no error yet.
  have hholds : m.latched = none → ∃ part, Holds enc m.store q part := by
    intro hnone
    rw [hnone] at hcarries
    exact carries_none.mp hcarries
  cases hstep with
  | startRefused hstart => exact ⟨_, .startRefused hstart, rfl, hcarries⟩
  | sendDeclined hdec => exact ⟨_, .sendDeclined hdec, rfl, hcarries⟩
  | endRefused hshut => exact ⟨_, .endRefused hshut, rfl, hcarries⟩
  | pingRefused hshut => exact ⟨_, .pingRefused hshut, rfl, hcarries⟩
  | startLatched hstart herr => exact ⟨_, .startLatched hstart herr, rfl, hcarries⟩
  | endLatched hstart hfin herr => exact ⟨_, .endLatched hstart hfin herr, rfl, hcarries⟩
  | pingLatched hstart hfin hping herr =>
      exact ⟨_, .pingLatched hstart hfin hping herr, rfl, hcarries⟩
  | timerFires hfire => exact ⟨_, .timerFires hfire, rfl, hcarries⟩
  | dueLatched hdue hshut => exact ⟨_, .dueLatched hdue hshut, rfl, hcarries⟩
  | start hstart herr hput =>
      obtain ⟨part, hh⟩ := hholds herr
      obtain ⟨q', hput', hc⟩ := hh.put henc hput
      exact ⟨_, .start hstart herr hput', rfl, hc⟩
  | send hdec hput =>
      obtain ⟨part, hh⟩ := hholds (Sender.declined_latched hdec).2.2.2
      obtain ⟨q', hput', hc⟩ := hh.put henc hput
      exact ⟨_, .send hdec hput', rfl, hc⟩
  | endSending hstart hfin herr hput =>
      obtain ⟨part, hh⟩ := hholds herr
      obtain ⟨q', hput', hc⟩ := hh.put henc hput
      exact ⟨_, .endSending hstart hfin herr hput', rfl, hc⟩
  | ping hstart hfin hoff herr hping =>
      obtain ⟨part, hh⟩ := hholds herr
      obtain ⟨q', hping', hc⟩ := hh.ping henc hping
      exact ⟨_, .ping hstart hfin hoff herr hping', rfl, hc⟩
  | flush hheld herr hflush =>
      obtain ⟨part, hh⟩ := hholds herr
      obtain ⟨q', hflush', hc⟩ := hh.flush henc hflush
      exact ⟨_, .flush (fun hq => hheld ((hh.idle_iff henc).mpr hq)) herr hflush', rfl, hc⟩
  | due hdue hfin herr hping =>
      obtain ⟨part, hh⟩ := hholds herr
      obtain ⟨q', hping', hc⟩ := hh.ping henc hping
      exact ⟨_, .due hdue hfin herr hping', rfl, hc⟩

end FlowIpc.BlobSender
