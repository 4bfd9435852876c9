import Mathlib.Data.List.Basic

/-!
# Requests and results, matched in order

Requests and results come in, each in an order of its own. The first request is answered with the first
result, the second with the second, and so on, each as soon as both are there; so that at any time requests
wait or results do, never both, which a `Matching` carries as a field. At some point the results may be
closed, with a value of type `ε`: then every request that finds no result is answered with that.

`Accounts m as bs os` says what has become of the requests `as` and the results `bs`, the answers being
`os`: nothing is lost and nothing is used twice. It is kept by all that can happen (`Accounts.request`,
`Accounts.result`, `Accounts.close`), and says which request is answered with which result
(`Accounts.answer`).
-/

universe u v w

/-- What a request is answered with. -/
inductive Answer (β : Type v) (ε : Type w) where
  /-- A result. -/
  | got (b : β)
  /-- There are no more. -/
  | closed (e : ε)
  deriving DecidableEq

/-- Requests that wait for results, or results that wait for requests. -/
structure Matching (α : Type u) (β : Type v) (ε : Type w) where
  /-- The requests that wait. -/
  waiting : List α
  /-- The results that wait. -/
  ready : List β
  /-- What the results were closed with. -/
  closed : Option ε
  /-- Where requests wait there is nothing to answer them with. -/
  steady : waiting ≠ [] → ready = [] ∧ closed = none

namespace Matching

variable {α : Type u} {β : Type v} {ε : Type w}

/-- Nothing has come in. -/
def empty : Matching α β ε := ⟨[], [], none, fun h => absurd rfl h⟩

/-- A request comes in. -/
def request (m : Matching α β ε) (a : α) : Matching α β ε × List (α × Answer β ε) :=
  match m.ready, m.closed with
  | b :: bs, c => (⟨[], bs, c, fun h => absurd rfl h⟩, [(a, .got b)])
  | [], some e => (⟨[], [], some e, fun h => absurd rfl h⟩, [(a, .closed e)])
  | [], none => (⟨m.waiting ++ [a], [], none, fun _ => ⟨rfl, rfl⟩⟩, [])

/-- A result comes in. -/
def result (m : Matching α β ε) (b : β) : Matching α β ε × List (α × Answer β ε) :=
  match hw : m.waiting with
  | a :: as => (⟨as, m.ready, m.closed, fun _ => m.steady (by simp [hw])⟩, [(a, .got b)])
  | [] => (⟨[], m.ready ++ [b], m.closed, fun h => absurd rfl h⟩, [])

/-- The results are closed. -/
def close (m : Matching α β ε) (e : ε) : Matching α β ε × List (α × Answer β ε) :=
  (⟨[], m.ready, some e, fun h => absurd rfl h⟩, m.waiting.map fun a => (a, .closed e))

/-! ## What is answered with what -/

/-- A request that has been served. -/
def served (x : α × β) : α × Answer β ε := (x.1, .got x.2)

/-- A request that has come too late. -/
def late (x : α × ε) : α × Answer β ε := (x.1, .closed x.2)

/-- What has become of the requests `as` and the results `bs`: of the requests some were served, the first
with the first result, and so on; then, if there were no more, some have come too late; the others wait. -/
def Accounts (m : Matching α β ε) (as : List α) (bs : List β) (os : List (α × Answer β ε)) : Prop :=
  ∃ (xs : List (α × β)) (ys : List (α × ε)), os = xs.map served ++ ys.map late ∧
    as = xs.map Prod.fst ++ (ys.map Prod.fst ++ m.waiting) ∧ bs = xs.map Prod.snd ++ m.ready ∧
    ∀ y ∈ ys, m.ready = [] ∧ m.closed = some y.2

/-- The answer to the `k`-th request. -/
def nth (bs : List β) (c : Option ε) (k : Nat) : Option (Answer β ε) :=
  match bs[k]? with
  | some b => some (.got b)
  | none => c.map .closed

variable {m : Matching α β ε} {as : List α} {bs : List β} {os : List (α × Answer β ε)}

/-- At first there is nothing to account for. -/
theorem accounts_empty : (empty : Matching α β ε).Accounts [] [] [] :=
  ⟨[], [], rfl, rfl, rfl, by simp⟩

/-- A request is kept account of. -/
theorem Accounts.request (h : m.Accounts as bs os) (a : α) :
    (m.request a).1.Accounts (as ++ [a]) bs (os ++ (m.request a).2) := by
  obtain ⟨xs, ys, rfl, rfl, rfl, hlate⟩ := h
  obtain ⟨waiting, ready, closed, steady⟩ := m
  unfold Matching.request
  simp only at hlate ⊢
  rcases ready with _ | ⟨b, bs⟩
  · rcases closed with _ | e
    · -- The request waits; none has come too late yet.
      refine ⟨xs, ys, by simp, by simp, rfl, ?_⟩
      intro y hy
      exact hlate y hy
    · have hnone : waiting = [] := by
        by_contra hne
        have hclosed := (steady hne).2
        simp at hclosed
      subst hnone
      refine ⟨xs, ys ++ [(a, e)], by simp [late], by simp, rfl, ?_⟩
      intro y hy
      rcases List.mem_append.mp hy with hy | hy
      · exact hlate y hy
      · rw [List.mem_singleton.mp hy]
        exact ⟨rfl, rfl⟩
  · have hnone : waiting = [] := by
      by_contra hne
      have hready := (steady hne).1
      simp at hready
    have hys : ys = [] := by
      refine List.eq_nil_iff_forall_not_mem.mpr fun y hy => ?_
      have hready := (hlate y hy).1
      simp at hready
    subst hnone hys
    exact ⟨xs ++ [(a, b)], [], by simp [served], by simp, by simp, by simp⟩

/-- A result is kept account of, where they have not been closed. -/
theorem Accounts.result (h : m.Accounts as bs os) (hopen : m.closed = none) (b : β) :
    (m.result b).1.Accounts as (bs ++ [b]) (os ++ (m.result b).2) := by
  obtain ⟨xs, ys, rfl, rfl, rfl, hlate⟩ := h
  obtain ⟨waiting, ready, closed, steady⟩ := m
  unfold Matching.result
  simp only at hlate hopen ⊢
  have hys : ys = [] := by
    refine List.eq_nil_iff_forall_not_mem.mpr fun y hy => ?_
    have hclosed := (hlate y hy).2
    rw [hopen] at hclosed
    simp at hclosed
  subst hys
  rcases waiting with _ | ⟨a, waiting⟩
  · exact ⟨xs, [], by simp, by simp, by simp, by simp⟩
  · have hready : ready = [] := (steady (by simp)).1
    subst hready
    exact ⟨xs ++ [(a, b)], [], by simp [served], by simp, by simp, by simp⟩

/-- The closing is kept account of, if it is the first. -/
theorem Accounts.close (h : m.Accounts as bs os) (hopen : m.closed = none) (e : ε) :
    (m.close e).1.Accounts as bs (os ++ (m.close e).2) := by
  obtain ⟨xs, ys, rfl, rfl, rfl, hlate⟩ := h
  obtain ⟨waiting, ready, closed, steady⟩ := m
  unfold Matching.close
  simp only at hlate hopen ⊢
  have hys : ys = [] := by
    refine List.eq_nil_iff_forall_not_mem.mpr fun y hy => ?_
    have hclosed := (hlate y hy).2
    rw [hopen] at hclosed
    simp at hclosed
  subst hys
  refine ⟨xs, waiting.map fun a => (a, e), by simp [late, Function.comp_def],
    by simp [Function.comp_def], rfl, ?_⟩
  intro y hy
  obtain ⟨a, ha, rfl⟩ := List.mem_map.mp hy
  exact ⟨(steady (List.ne_nil_of_mem ha)).1, rfl⟩

/-- The answers are those to the first requests, and no result is used twice. -/
theorem Accounts.requests (h : m.Accounts as bs os) : os.map Prod.fst ++ m.waiting = as := by
  obtain ⟨xs, ys, rfl, rfl, -⟩ := h
  simp [served, late, Function.comp_def]

/-- The result in an answer. -/
def got? : Answer β ε → Option β
  | .got b => some b
  | .closed _ => none

/-- What has been got, and what is ready, is what has come. -/
theorem Accounts.results (h : m.Accounts as bs os) :
    (os.filterMap fun o => got? o.2) ++ m.ready = bs := by
  obtain ⟨xs, ys, rfl, -, rfl, -⟩ := h
  have hserved : (fun x : α × β => got? (served (ε := ε) x).2) = fun x => some x.2 := rfl
  have hlate : (fun y : α × ε => got? (late (β := β) y).2) = fun _ => none := rfl
  rw [List.filterMap_append, List.filterMap_map, List.filterMap_map]
  simp only [Function.comp_def, hserved, hlate]
  simp

/-- **The `k`-th request is answered with the `k`-th result**, and if there is none with what the results
were closed with. -/
theorem Accounts.answer (h : m.Accounts as bs os) {k : Nat} {o : α × Answer β ε} (ho : os[k]? = some o) :
    as[k]? = some o.1 ∧ nth bs m.closed k = some o.2 := by
  obtain ⟨xs, ys, rfl, rfl, rfl, hlate⟩ := h
  by_cases hk : k < xs.length
  · rw [List.getElem?_append_left (by simpa using hk), List.getElem?_map, Option.map_eq_some_iff] at ho
    obtain ⟨x, hx, rfl⟩ := ho
    refine ⟨?_, ?_⟩
    · rw [List.getElem?_append_left (by simpa using hk), List.getElem?_map, hx]
      rfl
    · unfold nth
      rw [List.getElem?_append_left (by simpa using hk), List.getElem?_map, hx]
      rfl
  · have hle : xs.length ≤ k := Nat.le_of_not_lt hk
    rw [List.getElem?_append_right (by simpa using hle), List.getElem?_map, Option.map_eq_some_iff] at ho
    obtain ⟨y, hy, rfl⟩ := ho
    obtain ⟨hready, hclosed⟩ := hlate y (List.mem_of_getElem? hy)
    have hlt : k - xs.length < ys.length := by
      obtain ⟨hlt, -⟩ := List.getElem?_eq_some_iff.mp hy
      simpa using hlt
    refine ⟨?_, ?_⟩
    · rw [List.getElem?_append_right (by simpa using hle),
        List.getElem?_append_left (by simpa using hlt), List.getElem?_map]
      simp only [List.length_map] at hy ⊢
      rw [hy]
      rfl
    · unfold nth
      rw [hready, List.append_nil, List.getElem?_eq_none (by simpa using hle), hclosed]
      rfl

end Matching
