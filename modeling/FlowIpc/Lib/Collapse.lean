import Mathlib.Data.List.Destutter

/-!
# Lists without runs of a value

`collapse sep l` is the list `l` with every run of two or more `sep` made one: of the greedy sublists that
Mathlib provides (`List.destutter`), the one that leaves out what would have `sep` follow `sep`.

* It makes a list without such runs of any (`isChain_collapse`), and leaves alone those that are
  (`collapse_of_isChain`).
* A scan from the left can compute it: what is no `sep` is kept (`collapse_cons_of_ne`), and of a run the
  first (`collapse_cons_self`).
-/

namespace FlowIpc.Lib

variable {α : Type*} (sep : α)

/-- Not both are `sep`. -/
def Apart (a b : α) : Prop := ¬(a = sep ∧ b = sep)

instance [DecidableEq α] : DecidableRel (Apart sep) := fun _ _ =>
  inferInstanceAs (Decidable (¬_))

variable [DecidableEq α]

/-- Every run of `sep` is made one. -/
def collapse (l : List α) : List α := l.destutter (Apart sep)

@[simp] theorem collapse_nil : collapse sep [] = [] := rfl

/-- No two `sep` are left side by side. -/
theorem isChain_collapse (l : List α) : (collapse sep l).IsChain (Apart sep) :=
  l.isChain_destutter _

/-- Where there are no two, nothing changes. -/
theorem collapse_of_isChain {l : List α} (h : l.IsChain (Apart sep)) : collapse sep l = l :=
  l.destutter_of_isChain _ h

variable {sep}

/-- After an element that is no `sep`, or before one, the rest is collapsed by itself. -/
theorem destutter'_of_apart {a : α} {l : List α} (h : ∀ b ∈ l.head?, Apart sep a b) :
    l.destutter' (Apart sep) a = a :: collapse sep l := by
  cases l with
  | nil => rfl
  | cons b l => rw [List.destutter'_cons_pos _ (h b rfl)]; rfl

/-- Another element in front stays as it is. -/
theorem collapse_cons_of_ne {a : α} (h : a ≠ sep) (l : List α) :
    collapse sep (a :: l) = a :: collapse sep l :=
  destutter'_of_apart fun _ _ hsep => h hsep.1

/-- Of a run in front one is left. -/
theorem collapse_cons_self (l : List α) :
    collapse sep (sep :: l) = sep :: collapse sep (l.dropWhile (· = sep)) := by
  induction l with
  | nil => rfl
  | cons b l ih =>
    by_cases hb : b = sep
    · subst hb
      rw [List.dropWhile_cons_of_pos (by simp), ← ih]
      exact List.destutter'_cons_neg _ fun h => h ⟨rfl, rfl⟩
    · rw [List.dropWhile_cons_of_neg (by simpa using hb)]
      exact destutter'_of_apart fun c hc hsep => hb (by rw [← hsep.2]; exact Option.mem_some.1 hc)

end FlowIpc.Lib
