import Mathlib.Data.List.Induction

/-!
# Labelled transition relations and their runs

A system is a relation `step : σ → ι → σ → Prop`: from a state, on an input, to a state. This file
holds the induction principles the verification uses, stated once.

* **Runs.** `Run step s is t`: the inputs `is`, taken in order, lead from `s` to `t`. Runs are
  built at the end (`Run.snoc`), since invariants are proved by looking at the last step; they
  split and append (`run_append_iff`).
* **Invariants.** `Run.invariant` (what every step preserves holds at the end) and `Run.history` (the same of
  the inputs too). `Restrict` keeps the steps whose pre-state and input are admissible, so that a run of it is
  a run all of whose steps are.
* **Progress.** `exists_run_of_decreasing`: a goal that some step always comes nearer to can be reached.
* **Reachability.** `Reachable step init t`: some run from an initial state ends in `t`.
-/

namespace Lts

universe u v

variable {σ : Type u} {ι : Type v}

/-! ## Runs -/

/-- `Run step s is t`: taking the inputs `is` in order from `s` leads to `t`. -/
inductive Run (step : σ → ι → σ → Prop) : σ → List ι → σ → Prop where
  /-- The empty run. -/
  | nil (s : σ) : Run step s [] s
  /-- One more step at the end. -/
  | snoc {s t u : σ} {is : List ι} {i : ι} :
      Run step s is t → step t i u → Run step s (is ++ [i]) u

variable {step : σ → ι → σ → Prop} {s t u : σ} {is js : List ι} {i : ι}

/-- A single step is a run. -/
theorem Run.single (h : step s i t) : Run step s [i] t := by
  simpa using (@Run.nil σ ι step s).snoc h

/-- Runs compose. -/
theorem Run.append (h : Run step s is t) (h' : Run step t js u) :
    Run step s (is ++ js) u := by
  induction h' with
  | nil => simpa using h
  | snoc _ hstep ih =>
      rw [← List.append_assoc]
      exact ih.snoc hstep

/-- A run over no input stays where it is. -/
@[simp] theorem run_nil_iff : Run step s [] t ↔ s = t := by
  constructor
  · intro h
    generalize hl : ([] : List ι) = is at h
    cases h with
    | nil => rfl
    | snoc => simp at hl
  · rintro rfl
    exact Run.nil s

/-- A run whose inputs end in `i` is a run followed by a step on `i`. -/
@[simp] theorem run_snoc_iff :
    Run step s (is ++ [i]) u ↔ ∃ t, Run step s is t ∧ step t i u := by
  constructor
  · intro h
    generalize hl : is ++ [i] = js at h
    cases h with
    | nil => simp at hl
    | snoc h hstep =>
        obtain ⟨rfl, hi⟩ := List.append_inj' hl rfl
        cases hi
        exact ⟨_, h, hstep⟩
  · rintro ⟨t, h, hstep⟩
    exact h.snoc hstep

/-- A run over `is ++ js` passes through a state reached on `is`. -/
theorem run_append_iff :
    Run step s (is ++ js) u ↔ ∃ t, Run step s is t ∧ Run step t js u := by
  constructor
  · intro h
    induction js using List.reverseRecOn generalizing u with
    | nil => exact ⟨u, by simpa using h, Run.nil u⟩
    | append_singleton js i ih =>
        rw [← List.append_assoc, run_snoc_iff] at h
        obtain ⟨v, h, hstep⟩ := h
        obtain ⟨t, h, h'⟩ := ih h
        exact ⟨t, h, h'.snoc hstep⟩
  · rintro ⟨t, h, h'⟩
    exact h.append h'

/-- A run whose inputs begin with `i` begins with a step on `i`. -/
theorem run_cons_iff :
    Run step s (i :: is) u ↔ ∃ t, step s i t ∧ Run step t is u := by
  change Run step s ([i] ++ is) u ↔ _
  rw [run_append_iff]
  constructor
  · rintro ⟨t, h, h'⟩
    obtain ⟨v, hv, hstep⟩ := run_snoc_iff.mp (show Run step s ([] ++ [i]) t from h)
    cases run_nil_iff.mp hv
    exact ⟨t, hstep, h'⟩
  · rintro ⟨t, h, h'⟩
    exact ⟨t, Run.single h, h'⟩

/-- Where the steps are computed, so are runs. -/
theorem Run.of_foldlM {f : σ → ι → Option σ} (h : is.foldlM f s = some t) :
    Run (fun s i t => f s i = some t) s is t := by
  induction is generalizing s with
  | nil =>
      cases h
      exact Run.nil _
  | cons i is ih =>
      simp only [List.foldlM_cons, Option.bind_eq_bind, Option.bind_eq_some_iff] at h
      obtain ⟨u, hstep, h⟩ := h
      exact run_cons_iff.mpr ⟨u, hstep, ih h⟩

/-! ## Invariants over runs -/

/-- What holds at the start and is preserved by every step holds at the end of every run. -/
theorem Run.invariant {P : σ → Prop} (hstep : ∀ s i t, P s → step s i t → P t)
    (h : Run step s is t) (hs : P s) : P t := by
  induction h with
  | nil => exact hs
  | snoc _ h ih => exact hstep _ _ _ ih h

/-- The same, of the inputs taken and the state they lead to. -/
theorem Run.history {P : List ι → σ → Prop}
    (hstep : ∀ is s i t, P is s → step s i t → P (is ++ [i]) t) (h : Run step s is t) (hs : P [] s) :
    P is t := by
  induction h with
  | nil => exact hs
  | snoc _ h ih => exact hstep _ _ _ _ ih h

/-- The steps of `step` that are taken from a state and on an input in `ok`. -/
def Restrict (step : σ → ι → σ → Prop) (ok : σ → ι → Prop) : σ → ι → σ → Prop :=
  fun s i t => ok s i ∧ step s i t

/-- A run whose steps are all among those of a larger relation is a run of that one. -/
theorem Run.mono {step' : σ → ι → σ → Prop} (hle : ∀ s i t, step s i t → step' s i t)
    (h : Run step s is t) : Run step' s is t := by
  induction h with
  | nil => exact Run.nil s
  | snoc _ h ih => exact ih.snoc (hle _ _ _ h)

/-- A run of admissible steps is a run. -/
theorem Run.of_restrict {ok : σ → ι → Prop} (h : Run (Restrict step ok) s is t) :
    Run step s is t :=
  h.mono fun _ _ _ h => h.2

/-- A run whose inputs are admissible in every state is a run of admissible steps. -/
theorem Run.restrict {ok : σ → ι → Prop} (h : Run step s is t) (hok : ∀ i ∈ is, ∀ u, ok u i) :
    Run (Restrict step ok) s is t := by
  induction h with
  | nil => exact Run.nil s
  | @snoc t u is i _ h ih =>
      refine (ih fun j hj => hok j (List.mem_append_left _ hj)).snoc ⟨hok i ?_ t, h⟩
      exact List.mem_append_right _ (List.mem_singleton_self i)

/-- A run of a deterministic relation ends where it ends. -/
theorem Run.det (hdet : ∀ s i t u, step s i t → step s i u → t = u) (h : Run step s is t)
    (h' : Run step s is u) : t = u := by
  induction h generalizing u with
  | nil => exact run_nil_iff.mp h'
  | snoc _ hlast ih =>
      obtain ⟨v, hrun, hlast'⟩ := run_snoc_iff.mp h'
      cases ih hrun
      exact hdet _ _ _ _ hlast hlast'

/-- If states map to those of another machine, step by step, and the same steps are admissible in both,
then the image of a run is one of admissible steps iff the run is. Both are to be deterministic. -/
theorem Run.restrict_iff {α : Type w} {astep : α → ι → α → Prop} {aok : α → ι → Prop}
    {ok : σ → ι → Prop} {f : σ → α} {P : σ → Prop}
    (hdet : ∀ s i t u, step s i t → step s i u → t = u)
    (hadet : ∀ a i b c, astep a i b → astep a i c → b = c)
    (hstep : ∀ s i t, P s → step s i t → P t ∧ astep (f s) i (f t) ∧ (aok (f s) i ↔ ok s i))
    (h : Run step s is t) (hs : P s) :
    Run (Restrict astep aok) (f s) is (f t) ↔ Run (Restrict step ok) s is t := by
  have hP {t : σ} {is : List ι} (h : Run step s is t) : P t :=
    h.invariant (fun s i t hs hi => (hstep s i t hs hi).1) hs
  have himage {t : σ} {is : List ι} (h : Run step s is t) : Run astep (f s) is (f t) := by
    induction h with
    | nil => exact Run.nil _
    | snoc hrun hlast ih => exact ih.snoc (hstep _ _ _ (hP hrun) hlast).2.1
  induction h with
  | nil => simp
  | @snoc t u is i hrun hlast ih =>
      have hiff := (hstep t i u (hP hrun) hlast).2.2
      rw [run_snoc_iff, run_snoc_iff]
      constructor
      · rintro ⟨b, hb, haok, -⟩
        cases hb.of_restrict.det hadet (himage hrun)
        exact ⟨t, ih.mp hb, hiff.mp haok, hlast⟩
      · rintro ⟨t', ht', hok, -⟩
        cases ht'.of_restrict.det hdet hrun
        exact ⟨f t, ih.mpr ht', hiff.mpr hok, (hstep t i u (hP hrun) hlast).2.1⟩

/-- Where every state short of the goal has a step that keeps to `P` and makes the measure less, the goal can
be reached, by such steps. -/
theorem exists_run_of_decreasing {P goal : σ → Prop} {ok : ι → Prop} (m : σ → Nat)
    (hstep : ∀ s, P s → ¬ goal s → ∃ i t, ok i ∧ step s i t ∧ P t ∧ m t < m s) (hs : P s) :
    ∃ is t, (∀ i ∈ is, ok i) ∧ Run step s is t ∧ P t ∧ goal t := by
  induction hn : m s using Nat.strongRecOn generalizing s with
  | ind n ih =>
      by_cases hgoal : goal s
      · exact ⟨[], s, by simp, Run.nil s, hs, hgoal⟩
      · obtain ⟨i, t, hi, hit, ht, hlt⟩ := hstep s hs hgoal
        obtain ⟨is, u, his, hrun, hu, hgoal⟩ := ih (m t) (hn ▸ hlt) ht rfl
        refine ⟨i :: is, u, ?_, run_cons_iff.mpr ⟨t, hit, hrun⟩, hu, hgoal⟩
        intro j hj
        rcases List.mem_cons.mp hj with rfl | hj
        · exact hi
        · exact his j hj

/-! ## Reachability -/

/-- Some run from an initial state ends in `t`. -/
def Reachable (step : σ → ι → σ → Prop) (init : σ → Prop) (t : σ) : Prop :=
  ∃ s is, init s ∧ Run step s is t

/-- An initial state is reachable. -/
theorem Reachable.of_init {init : σ → Prop} (h : init s) : Reachable step init s :=
  ⟨s, [], h, Run.nil s⟩

/-- A step from a reachable state reaches its target. -/
theorem Reachable.snoc {init : σ → Prop} (h : Reachable step init s) (hstep : step s i t) :
    Reachable step init t := by
  obtain ⟨s₀, is, hs, h⟩ := h
  exact ⟨s₀, is ++ [i], hs, h.snoc hstep⟩

/-- What a run leads to from a reachable state is reachable. -/
theorem Reachable.run {init : σ → Prop} (h : Reachable step init s) (hrun : Run step s is t) :
    Reachable step init t := by
  obtain ⟨s₀, js, hs, h⟩ := h
  exact ⟨s₀, js ++ is, hs, h.append hrun⟩

/-- An inductive invariant holds in every reachable state. -/
theorem Reachable.invariant {init P : σ → Prop} (hinit : ∀ s, init s → P s)
    (hstep : ∀ s i t, P s → step s i t → P t) (h : Reachable step init t) : P t := by
  obtain ⟨s, is, hs, h⟩ := h
  exact h.invariant hstep (hinit s hs)

end Lts
