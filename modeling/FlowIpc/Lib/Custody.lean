import Mathlib.Data.List.Nodup
import Mathlib.Logic.Equiv.Basic

/-!
# Custody of resources

Resources are acquired, held, handed from one holder to another, and released. This file is about who is
to release what, whatever the resources and the holders are.

* **Books.** A `Book` is what there is to tell of it: what has been acquired and released so far, each time
  that it was, and who holds what now.
* **Status.** A resource that is accounted for is fresh, held by one holder, released once, or lost
  (`Book.Has`): no one holds a lost resource, so that no one will release it.
* **Keeping the book.** `Book.Kept` is that each resource acquired is held by exactly one holder, or
  released, once, and held by none. That is to say that none is lost (`Accounted.kept_iff`), and then all
  are released when no one holds any more (`Kept.released`).
* **Entries.** What may be done to a book, and what is lost by it: some of what is held is held no more
  (`Accounted.drop`), holders change places (`Accounted.exchange`), and fresh resources are acquired
  (`Accounted.acquire`). What has been lost stays lost.
* **Losing.** `LosesUnless` says of one book, and a later one, when nothing has been lost on the way; the ways
  are put together by `LosesUnless.trans`.
-/

namespace Custody

universe u v

variable {ω : Type u} {ρ : Type v} [DecidableEq ρ]

/-! ## Books -/

/-- Where a resource is. -/
inductive Status (ω : Type u) where
  /-- It has not been acquired. -/
  | fresh
  /-- `o` holds it. -/
  | held (o : ω)
  /-- It has been released. -/
  | released
  /-- It has been acquired, and is neither held nor released. -/
  | lost

/-- What has been acquired and released, and who holds what. -/
structure Book (ω : Type u) (ρ : Type v) where
  /-- What has been acquired. -/
  acquired : List ρ
  /-- What has been released. -/
  released : List ρ
  /-- `o` holds `r`. -/
  holds : ω → ρ → Prop

namespace Book

/-- The resource has this status. -/
def Has (b : Book ω ρ) (r : ρ) : Status ω → Prop
  | .fresh => r ∉ b.acquired ∧ r ∉ b.released ∧ ∀ o, ¬ b.holds o r
  | .held o => b.acquired.count r = 1 ∧ r ∉ b.released ∧ ∀ p, b.holds p r ↔ p = o
  | .released => b.acquired.count r = 1 ∧ b.released.count r = 1 ∧ ∀ o, ¬ b.holds o r
  | .lost => b.acquired.count r = 1 ∧ r ∉ b.released ∧ ∀ o, ¬ b.holds o r

/-- Each resource has a status. -/
def Accounted (b : Book ω ρ) : Prop := ∀ r, ∃ c, b.Has r c

/-- Each resource acquired is held by exactly one holder, or released, once; there are no others. -/
structure Kept (b : Book ω ρ) : Prop where
  held_or_released r : r ∈ b.acquired →
    ((∃! o, b.holds o r) ∧ r ∉ b.released) ∨ (b.released.count r = 1 ∧ ∀ o, ¬ b.holds o r)
  acquired r : r ∈ b.released ∨ (∃ o, b.holds o r) → r ∈ b.acquired

variable {b : Book ω ρ} {r : ρ} {o p : ω}

/-- When no one holds anything any more, all is released. -/
theorem Kept.released (h : b.Kept) (hnone : ∀ o r, ¬ b.holds o r) : ∀ r ∈ b.acquired, b.released.count r = 1 := by
  intro r hr
  rcases h.held_or_released r hr with ⟨⟨o, ho, -⟩, -⟩ | ⟨hcount, -⟩
  · exact absurd ho (hnone o r)
  · exact hcount

/-- What is counted once is there. -/
theorem mem_of_count_eq_one {l : List ρ} (h : l.count r = 1) : r ∈ l :=
  List.count_pos_iff.mp (by omega)

/-- A book in which each resource has a status is kept iff none is lost. -/
theorem Accounted.kept_iff (h : b.Accounted) : b.Kept ↔ ∀ r, ¬ b.Has r .lost := by
  constructor
  · rintro hkept r ⟨hacq, hrel, hholds⟩
    rcases hkept.held_or_released r (mem_of_count_eq_one hacq) with ⟨⟨o, ho, -⟩, -⟩ | ⟨hcount, -⟩
    · exact hholds o ho
    · exact hrel (mem_of_count_eq_one hcount)
  · intro hlost
    constructor
    · intro r hr
      obtain ⟨c, hc⟩ := h r
      cases c with
      | fresh => exact absurd hr hc.1
      | held o => exact .inl ⟨⟨o, (hc.2.2 o).mpr rfl, fun p hp => (hc.2.2 p).mp hp⟩, hc.2.1⟩
      | released => exact .inr ⟨hc.2.1, hc.2.2⟩
      | lost => exact absurd hc (hlost r)
    · intro r hr
      obtain ⟨c, hc⟩ := h r
      cases c with
      | fresh =>
          rcases hr with hr | ⟨o, ho⟩
          · exact absurd hr hc.2.1
          · exact absurd ho (hc.2.2 o)
      | held o => exact mem_of_count_eq_one hc.1
      | released => exact mem_of_count_eq_one hc.1
      | lost => exact mem_of_count_eq_one hc.1

/-- Who holds a resource is the only one. -/
theorem Accounted.holds_unique (h : b.Accounted) (ho : b.holds o r) (hp : b.holds p r) : o = p := by
  obtain ⟨c, hc⟩ := h r
  cases c with
  | fresh => exact absurd ho (hc.2.2 o)
  | held q => exact ((hc.2.2 o).mp ho).trans ((hc.2.2 p).mp hp).symm
  | released => exact absurd ho (hc.2.2 o)
  | lost => exact absurd ho (hc.2.2 o)

/-- What is held has been acquired, once, and not released. -/
theorem Accounted.of_holds (h : b.Accounted) (ho : b.holds o r) :
    b.acquired.count r = 1 ∧ r ∉ b.released := by
  obtain ⟨c, hc⟩ := h r
  cases c with
  | fresh => exact absurd ho (hc.2.2 o)
  | held q => exact ⟨hc.1, hc.2.1⟩
  | released => exact absurd ho (hc.2.2 o)
  | lost => exact absurd ho (hc.2.2 o)

/-! ## Entries -/

/-- Some of what is held is held no more, and of that `cs` is released. The rest of it is lost. -/
theorem Accounted.drop (h : b.Accounted) (b' : Book ω ρ) (cs : List ρ) (hacq : b'.acquired = b.acquired)
    (hrel : b'.released = b.released ++ cs) (hnodup : cs.Nodup) (hle : ∀ o r, b'.holds o r → b.holds o r)
    (hcs : ∀ r ∈ cs, (∃ o, b.holds o r) ∧ ∀ o, ¬ b'.holds o r) :
    b'.Accounted ∧ ∀ r, b'.Has r .lost ↔
      b.Has r .lost ∨ (∃ o, b.holds o r ∧ ¬ b'.holds o r) ∧ r ∉ cs := by
  have hkeeps {r : ρ} (hnone : ∀ o, ¬ b.holds o r) : r ∉ cs ∧ ∀ o, ¬ b'.holds o r :=
    ⟨fun hr => (hcs r hr).1.elim fun o ho => hnone o ho, fun o ho => hnone o (hle o r ho)⟩
  have hnot {r : ρ} : r ∉ b'.released ↔ r ∉ b.released ∧ r ∉ cs := by
    rw [hrel, List.mem_append, not_or]
  -- There was one holder, so there is none now.
  have hgone {o : ω} {r : ρ} (ho : b.holds o r) (ho' : ¬ b'.holds o r) : ∀ p, ¬ b'.holds p r := by
    intro p hp
    cases h.holds_unique (hle p r hp) ho
    exact ho' hp
  refine ⟨fun r => ?_, fun r => ?_⟩
  · obtain ⟨c, hc⟩ := h r
    cases c with
    | fresh =>
        obtain ⟨hr, hnone⟩ := hkeeps hc.2.2
        exact ⟨.fresh, hacq ▸ hc.1, hnot.mpr ⟨hc.2.1, hr⟩, hnone⟩
    | held o =>
        have ho : b.holds o r := (hc.2.2 o).mpr rfl
        by_cases ho' : b'.holds o r
        · have hr : r ∉ cs := fun hr => (hcs r hr).2 o ho'
          refine ⟨.held o, hacq ▸ hc.1, hnot.mpr ⟨hc.2.1, hr⟩, fun p => ⟨fun hp => (hc.2.2 p).mp (hle p r hp), ?_⟩⟩
          rintro rfl
          exact ho'
        · by_cases hr : r ∈ cs
          · refine ⟨.released, hacq ▸ hc.1, ?_, hgone ho ho'⟩
            rw [hrel, List.count_append, List.count_eq_zero.mpr hc.2.1,
              List.count_eq_one_of_mem hnodup hr]
          · exact ⟨.lost, hacq ▸ hc.1, hnot.mpr ⟨hc.2.1, hr⟩, hgone ho ho'⟩
    | released =>
        obtain ⟨hr, hnone⟩ := hkeeps hc.2.2
        refine ⟨.released, hacq ▸ hc.1, ?_, hnone⟩
        rw [hrel, List.count_append, hc.2.1, List.count_eq_zero.mpr hr]
    | lost =>
        obtain ⟨hr, hnone⟩ := hkeeps hc.2.2
        exact ⟨.lost, hacq ▸ hc.1, hnot.mpr ⟨hc.2.1, hr⟩, hnone⟩
  · constructor
    · rintro ⟨hcount, hrel', hnone⟩
      rw [hacq] at hcount
      obtain ⟨hrel', hr⟩ := hnot.mp hrel'
      by_cases ho : ∃ o, b.holds o r
      · obtain ⟨o, ho⟩ := ho
        exact .inr ⟨⟨o, ho, hnone o⟩, hr⟩
      · exact .inl ⟨hcount, hrel', not_exists.mp ho⟩
    · rintro (⟨hcount, hrel', hnone⟩ | ⟨⟨o, ho, ho'⟩, hr⟩)
      · obtain ⟨hr, hnone'⟩ := hkeeps hnone
        exact ⟨hacq ▸ hcount, hnot.mpr ⟨hrel', hr⟩, hnone'⟩
      · obtain ⟨hcount, hrel'⟩ := h.of_holds ho
        exact ⟨hacq ▸ hcount, hnot.mpr ⟨hrel', hr⟩, hgone ho ho'⟩

/-- Holders change places. Nothing is lost. -/
theorem Accounted.exchange (h : b.Accounted) (b' : Book ω ρ) (e : ω ≃ ω) (hacq : b'.acquired = b.acquired)
    (hrel : b'.released = b.released) (hholds : ∀ o r, b'.holds o r ↔ b.holds (e o) r) :
    b'.Accounted ∧ ∀ r, b'.Has r .lost ↔ b.Has r .lost := by
  have hnone r : (∀ o, ¬ b'.holds o r) ↔ ∀ o, ¬ b.holds o r := by
    simp only [hholds]
    exact e.forall_congr_right (q := fun o => ¬ b.holds o r)
  refine ⟨fun r => ?_, fun r => ?_⟩
  · obtain ⟨c, hc⟩ := h r
    cases c with
    | fresh => exact ⟨.fresh, hacq ▸ hc.1, hrel ▸ hc.2.1, (hnone r).mpr hc.2.2⟩
    | held o =>
        refine ⟨.held (e.symm o), hacq ▸ hc.1, hrel ▸ hc.2.1, fun p => ?_⟩
        rw [hholds, hc.2.2, Equiv.eq_symm_apply]
    | released => exact ⟨.released, hacq ▸ hc.1, hrel ▸ hc.2.1, (hnone r).mpr hc.2.2⟩
    | lost => exact ⟨.lost, hacq ▸ hc.1, hrel ▸ hc.2.1, (hnone r).mpr hc.2.2⟩
  · unfold Has
    rw [hacq, hrel, hnone]

/-- Fresh resources are acquired, `rs`; of these `cs` is released again, and some of the others are held
from now on, each by one holder. The rest of them is lost. -/
theorem Accounted.acquire (h : b.Accounted) (b' : Book ω ρ) (rs cs : List ρ) {new : ω → ρ → Prop}
    (hacq : b'.acquired = b.acquired ++ rs) (hrel : b'.released = b.released ++ cs) (hrs : rs.Nodup)
    (hcs : cs.Nodup) (hfresh : ∀ r ∈ rs, b.Has r .fresh) (hsub : ∀ r ∈ cs, r ∈ rs)
    (hholds : ∀ o r, b'.holds o r ↔ b.holds o r ∨ new o r) (hnew : ∀ o r, new o r → r ∈ rs ∧ r ∉ cs)
    (huniq : ∀ o p r, new o r → new p r → o = p) :
    b'.Accounted ∧ ∀ r, b'.Has r .lost ↔
      b.Has r .lost ∨ (r ∈ rs ∧ r ∉ cs ∧ ∀ o, ¬ new o r) := by
  have hold {r : ρ} (hr : r ∉ rs) :
      b'.acquired.count r = b.acquired.count r ∧ b'.released.count r = b.released.count r ∧
        ∀ o, b'.holds o r ↔ b.holds o r := by
    refine ⟨?_, ?_, fun o => ?_⟩
    · rw [hacq, List.count_append, List.count_eq_zero.mpr hr, Nat.add_zero]
    · rw [hrel, List.count_append, List.count_eq_zero.mpr fun hc => hr (hsub r hc), Nat.add_zero]
    · rw [hholds]
      exact or_iff_left fun hn => hr (hnew o r hn).1
  have hmem {r : ρ} (hr : r ∈ rs) :
      b'.acquired.count r = 1 ∧ b'.released.count r = cs.count r ∧ ∀ o, b'.holds o r ↔ new o r := by
    obtain ⟨hacq', hrel', hnone⟩ := hfresh r hr
    refine ⟨?_, ?_, fun o => ?_⟩
    · rw [hacq, List.count_append, List.count_eq_zero.mpr hacq', List.count_eq_one_of_mem hrs hr]
    · rw [hrel, List.count_append, List.count_eq_zero.mpr hrel', Nat.zero_add]
    · rw [hholds]
      exact or_iff_right (hnone o)
  refine ⟨fun r => ?_, fun r => ?_⟩
  · by_cases hr : r ∈ rs
    · obtain ⟨hone, hcount, hiff⟩ := hmem hr
      by_cases hc : r ∈ cs
      · refine ⟨.released, hone, ?_, fun o ho => (hnew o r ((hiff o).mp ho)).2 hc⟩
        rw [hcount, List.count_eq_one_of_mem hcs hc]
      · have hnot : r ∉ b'.released := by
          rw [← List.count_eq_zero, hcount, List.count_eq_zero]
          exact hc
        by_cases ho : ∃ o, new o r
        · obtain ⟨o, ho⟩ := ho
          refine ⟨.held o, hone, hnot, fun p => ?_⟩
          rw [hiff]
          constructor
          · exact fun hp => huniq p o r hp ho
          · rintro rfl
            exact ho
        · exact ⟨.lost, hone, hnot, fun o hb => ho ⟨o, (hiff o).mp hb⟩⟩
    · obtain ⟨hcount, hcount', hiff⟩ := hold hr
      obtain ⟨c, hc⟩ := h r
      refine ⟨c, ?_⟩
      cases c <;> simp only [Has, ← List.count_eq_zero, hcount, hcount', hiff] at hc ⊢ <;> exact hc
  · by_cases hr : r ∈ rs
    · obtain ⟨hone, hcount, hiff⟩ := hmem hr
      have hfresh' : ¬ b.Has r .lost := by
        rintro ⟨hcount, -, -⟩
        exact (hfresh r hr).1 (mem_of_count_eq_one hcount)
      simp only [Has, ← List.count_eq_zero, hone, hcount, hiff, hr, true_and]
      constructor
      · exact .inr
      · rintro (hlost | hlost)
        · exact absurd ⟨hlost.1, List.count_eq_zero.mp hlost.2.1, hlost.2.2⟩ hfresh'
        · exact hlost
    · obtain ⟨hcount, hcount', hiff⟩ := hold hr
      simp only [Has, ← List.count_eq_zero, hcount, hcount', hiff, hr, false_and, or_false]

/-! ## What is lost on the way -/

/-- From one book to a later one: what has been lost stays lost, and more than that is lost unless `p`. -/
structure LosesUnless (b b' : Book ω ρ) (p : Prop) : Prop where
  lost r : b.Has r .lost → b'.Has r .lost
  no_more : p ↔ ∀ r, b'.Has r .lost → b.Has r .lost

variable {b' b'' : Book ω ρ} {q : Prop}

/-- Where nothing is done nothing is lost. -/
theorem LosesUnless.refl (b : Book ω ρ) : LosesUnless b b True :=
  ⟨fun _ => id, fun _ _ => id, fun _ => trivial⟩

/-- Nothing is lost on both ways. -/
theorem LosesUnless.trans {p : Prop} (h : LosesUnless b b' p) (h' : LosesUnless b' b'' q) :
    LosesUnless b b'' (p ∧ q) := by
  refine ⟨fun r hr => h'.lost r (h.lost r hr), fun ⟨hp, hq⟩ r hr => ?_, fun hback => ⟨?_, ?_⟩⟩
  · exact h.no_more.mp hp r (h'.no_more.mp hq r hr)
  · exact h.no_more.mpr fun r hr => hback r (h'.lost r hr)
  · exact h'.no_more.mpr fun r hr => h.lost r (hback r hr)

/-- A condition may be replaced by one that is equivalent. -/
theorem LosesUnless.congr {p : Prop} (h : LosesUnless b b' p) (hpq : p ↔ q) : LosesUnless b b' q :=
  ⟨h.lost, hpq.symm.trans h.no_more⟩

/-- What is lost on the way is what there is of these. -/
theorem LosesUnless.of_iff {lost : ρ → Prop} (h : ∀ r, b'.Has r .lost ↔ b.Has r .lost ∨ lost r)
    (hnew : ∀ r, lost r → ¬ b.Has r .lost) : LosesUnless b b' (∀ r, ¬ lost r) := by
  refine ⟨fun r hr => (h r).mpr (.inl hr), fun hnone r hr => ?_, fun hback r hr => ?_⟩
  · exact ((h r).mp hr).resolve_right (hnone r)
  · exact hnew r hr (hback r ((h r).mpr (.inr hr)))

/-- Nothing is lost in the end iff nothing had been, and nothing has been on the way. -/
theorem LosesUnless.none_lost_iff {p : Prop} (h : LosesUnless b b' p) :
    (∀ r, ¬ b'.Has r .lost) ↔ (∀ r, ¬ b.Has r .lost) ∧ p := by
  constructor
  · intro hnone
    exact ⟨fun r hr => hnone r (h.lost r hr), h.no_more.mpr fun r hr => absurd hr (hnone r)⟩
  · rintro ⟨hnone, hp⟩ r hr
    exact hnone r (h.no_more.mp hp r hr)

end Book

end Custody
