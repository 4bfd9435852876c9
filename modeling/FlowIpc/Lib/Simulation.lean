import FlowIpc.Lib.Transition

/-!
# Simulation

A system simulates another if each step of that other is matched by a run of its own, from related states
to related states. Then whatever the other can reach is related to something that it can reach itself
(`Reachable.simulate`), so what always holds of the one can be read off the other.

A system that is put together of two, of which each step moves one, has the runs of both (`Run.lift`).
-/

namespace Lts

universe u v w x

variable {σ : Type u} {ι : Type v} {α : Type w} {κ : Type x}
variable {step : σ → ι → σ → Prop} {astep : α → κ → α → Prop}

/-- Runs are taken over by a map of the states and one of the inputs, step by step. -/
theorem Run.lift {f : σ → α} {g : ι → κ} {P : σ → Prop}
    (hstep : ∀ s i t, P s → step s i t → P t ∧ astep (f s) (g i) (f t)) {s t : σ} {is : List ι}
    (h : Run step s is t) (hs : P s) : P t ∧ Run astep (f s) (is.map g) (f t) := by
  induction h with
  | nil => exact ⟨hs, Run.nil _⟩
  | @snoc t u is i _ hlast ih =>
      obtain ⟨ht, hrun⟩ := ih
      obtain ⟨hu, hlast'⟩ := hstep t i u ht hlast
      rw [List.map_append]
      exact ⟨hu, hrun.snoc hlast'⟩

/-- If each step from a related state is matched by a run, what is reachable is related to something
that is. -/
theorem Reachable.simulate {init : σ → Prop} {ainit : α → Prop} {R : σ → α → Prop}
    (hinit : ∀ s, init s → ∃ a, R s a ∧ Reachable astep ainit a)
    (hstep : ∀ s i t a, R s a → Reachable astep ainit a → step s i t →
      ∃ is b, Run astep a is b ∧ R t b)
    {t : σ} (h : Reachable step init t) : ∃ a, R t a ∧ Reachable astep ainit a := by
  apply Reachable.invariant (P := fun s => ∃ a, R s a ∧ Reachable astep ainit a) hinit _ h
  rintro s i t ⟨a, hR, ha⟩ hlast
  obtain ⟨is, b, hrun, hR'⟩ := hstep s i t a hR ha hlast
  exact ⟨b, hR', ha.run hrun⟩

end Lts
