import FlowIpc.Lib.Transition
import FlowIpc.Negotiation.Negotiator
import Mathlib.Data.Int.ConditionallyCompleteOrder
import Mathlib.Logic.Function.Basic
import Mathlib.Order.ConditionallyCompleteLattice.Basic

/-!
# Negotiation between the two ends of a pathway

Two negotiators, each on its own range of versions, at the ends of one pathway. Each side may ask
its negotiator for its maximum any number of times and transmits every answer that is a version;
each side may feed any value the other has transmitted to its own negotiator, any number of times,
with or without an `Error_code` to receive the result.

* **What is meant** (`commonVersions`, `isGreatest_commonVersions`): the sides are to speak the
  greatest version both can speak, which is the smaller of the two maxima when any version will do.
  Two sides that are agreed, and have each settled on a version, do (`isGreatest_of_reachable`).
* **What the code does, on every run** (`Endpoint.Inv`, `inv_of_reachable`): one transmission of the
  maximum; one computation, whose result never changes.
* **When the two coincide** (`agreement_iff`): exactly when neither side finds itself backwards
  compatible with an opposing maximum lower than its own. On the other ranges such a side speaks its
  own maximum, which the other cannot (`not_agreement_of_newer_side`).

Source: `protocol_negotiator.hpp` (algorithm in the class doc), `protocol_negotiator.cpp`.
-/

namespace FlowIpc.Negotiation

open ProtocolNegotiator Lts

/-! ## What negotiation is for -/

/-- The versions that both ranges contain. -/
def commonVersions (r r' : VersionRange) : Set Int :=
  Set.Icc r.min r.max ∩ Set.Icc r'.min r'.max

/-- The smaller maximum is the greatest common version, as soon as neither side finds it too old. -/
theorem isGreatest_commonVersions {r r' : VersionRange} (h : r.min ≤ min r.max r'.max)
    (h' : r'.min ≤ min r.max r'.max) : IsGreatest (commonVersions r r') (min r.max r'.max) := by
  refine ⟨⟨⟨h, min_le_left _ _⟩, ⟨h', min_le_right _ _⟩⟩, ?_⟩
  rintro v ⟨⟨_, hv⟩, _, hv'⟩
  exact le_min hv hv'

/-! ## The pathway -/

/-- The two ends. -/
inductive Side where
  /-- One end. -/
  | a
  /-- The other end. -/
  | b
  deriving DecidableEq, Repr

/-- The opposing end. -/
def Side.other : Side → Side
  | .a => .b
  | .b => .a

@[simp] theorem Side.other_a : Side.a.other = .b := rfl

@[simp] theorem Side.other_b : Side.b.other = .a := rfl

@[simp] theorem Side.other_other (s : Side) : s.other.other = s := by
  cases s <;> rfl

@[simp] theorem Side.other_ne (s : Side) : s.other ≠ s := by
  cases s <;> simp

/-- One end: its negotiator, and what its calls have given so far. -/
structure Endpoint where
  /-- The negotiator. -/
  neg : ProtocolNegotiator
  /-- What `local_max_proto_ver_for_sending()` has returned, call by call. -/
  returned : List Int
  /-- What `compute_negotiated_proto_ver()` has done to its caller, call by call. -/
  outcomes : List (Emit Bool)

/-- An end as it is before any call. -/
def Endpoint.fresh (r : VersionRange) : Endpoint where
  neg := ctor r
  returned := []
  outcomes := []

/-- What the end has transmitted: each returned value but `S_VER_UNKNOWN`, which stands for
nothing to send. -/
def Endpoint.transmitted (e : Endpoint) : List Int :=
  e.returned.filter (· ≠ verUnknown)

/-- A call of `local_max_proto_ver_for_sending()`. -/
def Endpoint.send (e : Endpoint) : Endpoint :=
  let (v, neg) := e.neg.localMaxProtoVerForSending
  { e with neg := neg, returned := e.returned ++ [v] }

/-- A call of `compute_negotiated_proto_ver(v, err_code)`; `err_code` is null if `nullPtr`, and
otherwise points to a falsy `Error_code`. -/
def Endpoint.compute (e : Endpoint) (v : Int) (nullPtr : Bool) : Endpoint :=
  let (outcome, neg) := execAndThrowOnError (if nullPtr then none else some none)
    (e.neg.computeNegotiatedProtoVer v)
  { e with neg := neg, outcomes := e.outcomes ++ [outcome] }

/-- A call by one of the sides. -/
inductive Input where
  /-- `s` asks its negotiator for the value to send. -/
  | send (s : Side)
  /-- `s` feeds `v` to its negotiator. -/
  | compute (s : Side) (v : Int) (nullPtr : Bool)

/-- The calls in any order; what a side computes from was transmitted by the other. -/
inductive Step : (Side → Endpoint) → Input → (Side → Endpoint) → Prop where
  /-- A send is always possible. -/
  | send (st : Side → Endpoint) (s : Side) :
      Step st (.send s) (Function.update st s (st s).send)
  /-- A computation needs a value transmitted by the opposing side. -/
  | compute (st : Side → Endpoint) (s : Side) (v : Int) (nullPtr : Bool) :
      v ∈ (st s.other).transmitted →
      Step st (.compute s v nullPtr) (Function.update st s ((st s).compute v nullPtr))

/-- The pathway before any call, the sides speaking the ranges `R`. -/
def Fresh (R : Side → VersionRange) (st : Side → Endpoint) : Prop :=
  ∀ s, st s = Endpoint.fresh (R s)

/-! ## What the code does on every run -/

/-- What every run keeps true of an end that speaks `r`, opposite an end whose maximum is `opp`. -/
structure Endpoint.Inv (r : VersionRange) (opp : Int) (e : Endpoint) : Prop where
  /-- The range never changes. -/
  range_eq : e.neg.range = r
  /-- The first send returns the maximum, and every later one `S_VER_UNKNOWN`. -/
  sends : (e.neg.localMaxProtoVerSent = false ∧ e.returned = []) ∨
    (e.neg.localMaxProtoVerSent = true ∧ ∃ k, e.returned = r.max :: List.replicate k verUnknown)
  /-- The first computation settles the version and emits its code; later ones do nothing. -/
  computed : (e.neg.negotiatedProtoVer = verUnknown ∧ e.outcomes = []) ∨
    (e.neg.negotiatedProtoVer = negotiatedVer r opp ∧
      ∃ k, e.outcomes.map Emit.emitted = emittedCode r opp :: List.replicate k none)

namespace Endpoint

variable {r : VersionRange} {opp : Int} {e : Endpoint}

/-- A fresh end meets the invariant. -/
theorem inv_fresh (r : VersionRange) (opp : Int) : (fresh r).Inv r opp :=
  ⟨rfl, .inl ⟨rfl, rfl⟩, .inl ⟨rfl, rfl⟩⟩

/-- Only the maximum is ever transmitted. -/
theorem Inv.transmitted_eq (h : e.Inv r opp) : e.transmitted = [] ∨ e.transmitted = [r.max] := by
  have hr : r.max ≠ verUnknown := by
    have := r.max_pos
    unfold verUnknown
    omega
  unfold transmitted
  rcases h.sends with ⟨_, h⟩ | ⟨_, k, h⟩
  · exact .inl (by simp [h])
  · exact .inr (by simp [h, hr])

/-- A side that has been asked for its maximum has transmitted it, once. -/
theorem Inv.transmitted_of_returned (h : e.Inv r opp) (hne : e.returned ≠ []) :
    e.transmitted = [r.max] := by
  have hr : r.max ≠ verUnknown := by
    have := r.max_pos
    unfold verUnknown
    omega
  rcases h.sends with ⟨_, h⟩ | ⟨_, k, h⟩
  · exact absurd h hne
  · simp [transmitted, h, hr]

/-- A send keeps the invariant. -/
theorem Inv.send (h : e.Inv r opp) : e.send.Inv r opp := by
  unfold Endpoint.send localMaxProtoVerForSending
  rcases h.sends with ⟨hs, hret⟩ | ⟨hs, k, hret⟩
  · refine ⟨by simpa [hs] using h.range_eq, .inr ⟨by simp [hs], 0, ?_⟩, by simpa [hs] using h.computed⟩
    simp [hs, hret, h.range_eq]
  · refine ⟨by simpa [hs] using h.range_eq, .inr ⟨by simp [hs], k + 1, ?_⟩,
      by simpa [hs] using h.computed⟩
    simp [hs, hret, List.replicate_succ']

/-- A computation, seen through its effect on the version and on the emitted codes. -/
theorem compute_spec (e : Endpoint) (v : Int) (nullPtr : Bool) :
    (e.compute v nullPtr).neg = (e.neg.computeNegotiatedProtoVer v none).2.2 ∧
      (e.compute v nullPtr).outcomes.map Emit.emitted
        = e.outcomes.map Emit.emitted ++ [(e.neg.computeNegotiatedProtoVer v none).2.1] := by
  unfold compute
  cases nullPtr
  · exact ⟨rfl, by simp⟩
  · exact ⟨by simp, by simp⟩

/-- A computation from the opposing maximum keeps the invariant. -/
theorem Inv.compute (h : e.Inv r opp) (nullPtr : Bool) : (e.compute opp nullPtr).Inv r opp := by
  obtain ⟨hneg, hout⟩ := e.compute_spec opp nullPtr
  have hret : (e.compute opp nullPtr).returned = e.returned := rfl
  rcases h.computed with ⟨hunk, hnil⟩ | ⟨hver, k, hem⟩
  · rw [compute_of_unknown _ _ hunk] at hneg hout
    refine ⟨by rw [hneg]; exact h.range_eq, by rw [hneg, hret]; exact h.sends, .inr ⟨?_, 0, ?_⟩⟩
    · rw [hneg, h.range_eq]
    · rw [hout, hnil, h.range_eq]
      rfl
  · have hknown : e.neg.negotiatedProtoVer ≠ verUnknown := hver ▸ negotiatedVer_ne_unknown opp r
    rw [compute_of_known _ _ _ hknown] at hneg hout
    refine ⟨by rw [hneg]; exact h.range_eq, by rw [hneg, hret]; exact h.sends,
      .inr ⟨by rw [hneg]; exact hver, k + 1, ?_⟩⟩
    rw [hout, hem, List.replicate_succ', List.cons_append]

/-- Once there is an outcome the version is settled. -/
theorem Inv.of_computed (h : e.Inv r opp) (hne : e.outcomes ≠ []) :
    e.neg.negotiatedProtoVer = negotiatedVer r opp ∧
      ∃ k, e.outcomes.map Emit.emitted = emittedCode r opp :: List.replicate k none := by
  rcases h.computed with ⟨_, hnil⟩ | h
  · exact absurd hnil hne
  · exact h

/-- A version other than `S_VER_UNKNOWN` is the one the code computes. -/
theorem Inv.negotiated_of_pos (h : e.Inv r opp) (hpos : 0 < e.neg.negotiatedProtoVer) :
    e.neg.negotiatedProtoVer = negotiatedVer r opp := by
  rcases h.computed with ⟨hunk, _⟩ | ⟨hver, _⟩
  · rw [hunk] at hpos
    exact absurd hpos (by decide)
  · exact hver

end Endpoint

/-- Both ends keep their invariant. -/
def Inv (R : Side → VersionRange) (st : Side → Endpoint) : Prop :=
  ∀ s, (st s).Inv (R s) (R s.other).max

variable {R : Side → VersionRange} {st st' : Side → Endpoint} {i : Input}

/-- Every call keeps the invariant: what a side computes from is the opposing maximum. -/
theorem inv_step (h : Inv R st) (hstep : Step st i st') : Inv R st' := by
  intro s
  cases hstep with
  | send s' =>
      by_cases hs : s = s'
      · subst hs
        simpa using (h s).send
      · simpa [Function.update_of_ne hs] using h s
  | compute s' v nullPtr hv =>
      by_cases hs : s = s'
      · subst hs
        have hopp : v = (R s.other).max := by
          rcases (h s.other).transmitted_eq with ht | ht <;> rw [ht] at hv
          · simp at hv
          · simpa using hv
        subst hopp
        simpa using (h s).compute nullPtr
      · simpa [Function.update_of_ne hs] using h s

/-- The invariant holds in every reachable state. -/
theorem inv_of_reachable (h : Reachable Step (Fresh R) st) : Inv R st := by
  refine h.invariant ?_ fun _ _ _ => inv_step
  intro st hst s
  rw [hst s]
  exact Endpoint.inv_fresh _ _

/-- A settled version stays as it is, whatever is called next. -/
theorem negotiated_stable (h : Inv R st) (hstep : Step st i st') (s : Side)
    (hs : (st s).neg.negotiatedProtoVer ≠ verUnknown) :
    (st' s).neg.negotiatedProtoVer = (st s).neg.negotiatedProtoVer := by
  have h' := inv_step h hstep s
  rcases (h s).computed with ⟨hunk, _⟩ | ⟨hver, k, hem⟩
  · exact absurd hunk hs
  · rcases h'.computed with ⟨_, hnil⟩ | ⟨hver', _⟩
    · exfalso
      cases hstep with
      | send s' =>
          by_cases hss : s = s'
          · subst hss
            simp only [Function.update_self] at hnil
            simp [show (st s).send.outcomes = (st s).outcomes from rfl] at hnil
            simp [hnil] at hem
          · rw [Function.update_of_ne hss] at hnil
            simp [hnil] at hem
      | compute s' v nullPtr hv =>
          by_cases hss : s = s'
          · subst hss
            simp [Endpoint.compute] at hnil
          · rw [Function.update_of_ne hss] at hnil
            simp [hnil] at hem
    · rw [hver, hver']

/-- The order of calls in which both sides send, and then `s` computes, is possible; it settles the
version of `s`. -/
theorem exists_reachable_computed (R : Side → VersionRange) (s : Side) :
    ∃ st, Reachable Step (Fresh R) st ∧ (st s).outcomes ≠ [] ∧
      (st s).neg.negotiatedProtoVer = negotiatedVer (R s) (R s.other).max := by
  let st₀ : Side → Endpoint := fun s => Endpoint.fresh (R s)
  let st₁ := Function.update st₀ s.other (st₀ s.other).send
  let st₂ := Function.update st₁ s ((st₁ s).compute (R s.other).max false)
  have h₁ : Reachable Step (Fresh R) st₁ :=
    (Reachable.of_init fun _ => rfl).snoc (Step.send st₀ s.other)
  have hv : (R s.other).max ∈ (st₁ s.other).transmitted := by
    have : (st₁ s.other).returned ≠ [] := by
      simp [st₁, Endpoint.send]
    simp [(inv_of_reachable h₁ s.other).transmitted_of_returned this]
  have h₂ : Reachable Step (Fresh R) st₂ := h₁.snoc (Step.compute st₁ s _ false hv)
  have hne : (st₂ s).outcomes ≠ [] := by
    simp [st₂, Endpoint.compute]
  exact ⟨st₂, h₂, hne, ((inv_of_reachable h₂ s).of_computed hne).1⟩

/-! ## Agreement -/

/-- What the sides are promised of each other in one state. -/
structure Agreed (R : Side → VersionRange) (st : Side → Endpoint) : Prop where
  /-- A side that was asked for its maximum has transmitted it exactly once. -/
  sends_once : ∀ s, (st s).returned ≠ [] → (st s).transmitted = [(R s).max]
  /-- A computation whose result is not too old for its side settles on the smaller maximum, without
  an error. -/
  supported : ∀ s, (st s).outcomes ≠ [] → (R s).min ≤ min (R s).max (R s.other).max →
    (st s).neg.negotiatedProtoVer = min (R s).max (R s.other).max ∧
      ∀ o ∈ (st s).outcomes, o.emitted = none
  /-- A computation whose result is too old for its side reports so, once, and nothing else. -/
  unsupported : ∀ s, (st s).outcomes ≠ [] → ¬ (R s).min ≤ min (R s).max (R s.other).max →
    (st s).neg.negotiatedProtoVer = verUnsupported ∧
      ∃ k, (st s).outcomes.map Emit.emitted
        = Code.protocolNegotiationOpposingVerTooOld.toErrorCode :: List.replicate k none
  /-- A negotiated version is one the side speaks and one the opposing side is not too old for. -/
  in_range : ∀ s, 0 < (st s).neg.negotiatedProtoVer →
    (R s).min ≤ (st s).neg.negotiatedProtoVer ∧
      (st s).neg.negotiatedProtoVer ≤ (R s).max ∧
      (st s).neg.negotiatedProtoVer ≤ (R s.other).max
  /-- Two supported versions are the same. -/
  same : 0 < (st .a).neg.negotiatedProtoVer → 0 < (st .b).neg.negotiatedProtoVer →
    (st .a).neg.negotiatedProtoVer = (st .b).neg.negotiatedProtoVer

/-- Agreement on the ranges `R`: on every run the sides are agreed, and no call changes a version
that is settled. -/
def Agreement (R : Side → VersionRange) : Prop :=
  ∀ st, Reachable Step (Fresh R) st → Agreed R st ∧
    ∀ i st', Step st i st' → ∀ s, (st s).neg.negotiatedProtoVer ≠ verUnknown →
      (st' s).neg.negotiatedProtoVer = (st s).neg.negotiatedProtoVer

/-- The side `s` is newer than the opposing one, and backwards compatible with it. -/
def NewerAndCompatible (R : Side → VersionRange) (s : Side) : Prop :=
  (R s).min ≤ (R s.other).max ∧ (R s.other).max < (R s).max

/-- Off the backwards-compatible branch the computed version is the intended one. -/
theorem negotiatedVer_eq_min {r r' : VersionRange} (h : ¬ (r.min ≤ r'.max ∧ r'.max < r.max)) :
    negotiatedVer r r'.max = if r.min ≤ min r.max r'.max then min r.max r'.max
      else verUnsupported := by
  have := r.min_le_max
  have := r'.max_pos
  unfold negotiatedVer
  split <;> split <;> omega

/-- The code emitted is the one for a version too old exactly when the smaller maximum is. -/
theorem emittedCode_eq {r r' : VersionRange} :
    emittedCode r r'.max = if r.min ≤ min r.max r'.max then none
      else Code.protocolNegotiationOpposingVerTooOld.toErrorCode := by
  have := r.min_le_max
  have := r'.max_pos
  unfold emittedCode
  rw [if_neg (by omega)]
  split <;> split <;> first | rfl | omega

/-- The sides are agreed in every state that meets the invariant, if neither is newer and
compatible. -/
theorem agreed_of_inv (hR : ∀ s, ¬ NewerAndCompatible R s) (h : Inv R st) : Agreed R st where
  sends_once s hs := (h s).transmitted_of_returned hs
  supported s hs hmin := by
    obtain ⟨hver, k, hem⟩ := (h s).of_computed hs
    rw [negotiatedVer_eq_min (hR s), if_pos hmin] at hver
    rw [emittedCode_eq, if_pos hmin, ← List.replicate_succ] at hem
    refine ⟨hver, fun o ho => ?_⟩
    have : o.emitted ∈ List.replicate (k + 1) (none : ErrorCode) := hem ▸ List.mem_map_of_mem ho
    exact List.eq_of_mem_replicate this
  unsupported s hs hmin := by
    obtain ⟨hver, k, hem⟩ := (h s).of_computed hs
    rw [negotiatedVer_eq_min (hR s), if_neg hmin] at hver
    rw [emittedCode_eq, if_neg hmin] at hem
    exact ⟨hver, k, hem⟩
  in_range s hs := by
    have hver := (h s).negotiated_of_pos hs
    rw [negotiatedVer_eq_min (hR s)] at hver
    rw [hver] at hs ⊢
    split at hs
    · rename_i hmin
      rw [if_pos hmin]
      exact ⟨hmin, min_le_left _ _, min_le_right _ _⟩
    · exact absurd hs (by decide)
  same ha hb := by
    have hva := (h .a).negotiated_of_pos ha
    have hvb := (h .b).negotiated_of_pos hb
    rw [negotiatedVer_eq_min (hR .a)] at hva
    rw [negotiatedVer_eq_min (hR .b)] at hvb
    rw [hva] at ha
    rw [hvb] at hb
    split at ha
    · split at hb
      · rename_i hmina hminb
        rw [hva, hvb, if_pos hmina, if_pos hminb]
        exact min_comm _ _
      · exact absurd hb (by decide)
    · exact absurd ha (by decide)

/-- A side that is newer than the opposing one and compatible with it ends with a version the
opposing side cannot speak. -/
theorem not_agreement_of_newer_side {s : Side} (hs : NewerAndCompatible R s) : ¬ Agreement R := by
  intro h
  obtain ⟨st, hreach, hne, hver⟩ := exists_reachable_computed R s
  have hneg : negotiatedVer (R s) (R s.other).max = (R s).max := by
    unfold negotiatedVer
    rw [if_pos ⟨(R s.other).max_pos, .inr hs.1⟩]
  have hpos : 0 < (st s).neg.negotiatedProtoVer := by
    rw [hver, hneg]
    exact (R s).max_pos
  have hle := ((h st hreach).1.in_range s hpos).2.2
  rw [hver, hneg] at hle
  exact absurd hs.2 (not_lt.mpr hle)

/-- **Agreement** holds on exactly the pairs of ranges on which neither side is both newer than the
opposing one and compatible with it. -/
theorem agreement_iff (R : Side → VersionRange) :
    Agreement R ↔ ∀ s, ¬ NewerAndCompatible R s := by
  constructor
  · exact fun h s hs => not_agreement_of_newer_side hs h
  · intro hR st hreach
    have h := inv_of_reachable hreach
    exact ⟨agreed_of_inv hR h, fun i st' hstep s hs => negotiated_stable h hstep s hs⟩

/-- **The greatest common version** is what two sides have settled on, where neither is both newer than the
opposing one and compatible with it. -/
theorem isGreatest_of_reachable (hR : ∀ s, ¬ NewerAndCompatible R s) (hreach : Reachable Step (Fresh R) st)
    (hpos : ∀ s, 0 < (st s).neg.negotiatedProtoVer) (s : Side) :
    IsGreatest (commonVersions (R s) (R s.other)) (st s).neg.negotiatedProtoVer := by
  have hinv := inv_of_reachable hreach
  have hagreed := agreed_of_inv hR hinv
  have hmin : ∀ s, (R s).min ≤ min (R s).max (R s.other).max := by
    intro s
    obtain ⟨hlow, hmax, hmax'⟩ := hagreed.in_range s (hpos s)
    exact hlow.trans (le_min hmax hmax')
  have hne : (st s).outcomes ≠ [] := by
    intro hnil
    rcases (hinv s).computed with ⟨hunk, -⟩ | ⟨-, k, hem⟩
    · exact absurd (hunk ▸ hpos s) (by decide)
    · rw [hnil] at hem
      exact absurd hem (by simp)
  rw [(hagreed.supported s hne (hmin s)).1]
  refine isGreatest_commonVersions (hmin s) ?_
  have h' := hmin s.other
  rwa [Side.other_other, min_comm] at h'

/-- The ranges `[1, 2]` and `[1, 1]`: the newer side is meant to fall back to version 1. -/
def fallBackRanges : Side → VersionRange
  | .a => ⟨1, 2, VersionRange.one.min_pos, by decide, by decide⟩
  | .b => .one

/-- On `[1, 2]` against `[1, 1]` the newer side settles on version 2, and agreement fails. -/
theorem not_agreement_fallBackRanges : ¬ Agreement fallBackRanges :=
  not_agreement_of_newer_side (s := .a) ⟨by decide, by decide⟩

end FlowIpc.Negotiation
