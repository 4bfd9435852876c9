import FlowIpc.MqPeers.Uniqueness
import Mathlib.Data.List.Infix

/-!
# What cleanup finds after a crash

`for_each_persistent()` lists the names of queues only, and so relies on this: while a sentinel of a
queue exists, so does the name of the queue. The deleter of a peer keeps it by removing the name last.
Two things break it.

* `remove_persistent()` takes the name away *first*; with a sentinel still there, a crash before its
  next step leaves the sentinel for good, and no cleanup lists it.
* `ensureUniquePeer` asks nothing about the name: called from a handle whose queue has lost its name,
  or is about to because a deleter has passed the sentinel already, it makes a sentinel that
  outlives the name.

`Ordered` is the invariant of every run without these (`ordered_step`); `cleanup_finds` says that on
such runs, from every state, a leak is listed and a cleanup removes all of it, and that any other
step can be followed by a leak that is not listed.

Source: `blob_stream_mq_impl.hpp` `remove_persistent`, `for_each_persistent`, `ensure_unique_peer`.
-/

namespace FlowIpc.MqPeers

open Lts

/-! ## The statement -/

/-- What cleaning up relies on and gives, in one state. -/
structure CleanupFinds (q : MqName) (s : Sys) : Prop where
  /-- While a sentinel exists, so does the name of the queue. -/
  named : ∀ d, s.kernel.sentinel q d = true → (s.kernel.mqs q).isSome
  /-- Whatever is left, the queue is listed. -/
  listed : Leaked s.kernel q → ForEachPersistent s.kernel q
  /-- Cleaning up a queue that is listed leaves nothing. -/
  cleaned : ForEachPersistent s.kernel q → ¬ Leaked (removePersistent s.kernel q).2 q

/-- The contract: a name is used again only after the destructors of both peers have run. -/
def Contract (s : Sys) : Input → Prop
  | .create _ => ∀ b, (s.agents b).attached = none ∧ ∀ d m todo, s.agents b ≠ .deleting d m todo
  | _ => True

/-- The steps that keep the contract. -/
def ContractStep (q : MqName) : Sys → Input → Sys → Prop :=
  Restrict (Step q) Contract

/-- The step does not make a sentinel without a name to go with it, nor take the name from a
sentinel: a request that finds its sentinel missing comes while the name is there and no deleter
that will still take the name away has already passed the sentinel; and `remove_persistent()` starts
its removals only when no sentinel is left. -/
def InOrder (q : MqName) (s : Sys) : Input → Prop
  | .ensureUniquePeer a d fault =>
    fault = none → s.kernel.sentinel q d = false → (∃ m, s.agents a = .holding m) →
      (s.kernel.mqs q).isSome ∧ ∀ b d' m todo, s.agents b = .deleting d' m todo →
        .mq ∈ todo → .sentinel d ∈ todo
  | .removeNext a =>
    ∀ todo, s.agents a = .cleaning (.mq :: todo) → ∀ d, s.kernel.sentinel q d = false
  | _ => True

variable {q : MqName} {s t u : Sys} {i : Input}

/-- That sentinels go with the name is all that cleaning up relies on. -/
theorem cleanupFinds_iff :
    CleanupFinds q s ↔ ∀ d, s.kernel.sentinel q d = true → (s.kernel.mqs q).isSome := by
  constructor
  · exact fun h => h.named
  · intro h
    refine ⟨h, ?_, fun _ => removePersistent_clean _ _⟩
    rintro (hmq | ⟨d, hd⟩)
    · exact hmq
    · exact h d hd

/-! ## Runs in order -/

/-- The invariant of runs in order. -/
structure Ordered (q : MqName) (s : Sys) : Prop where
  /-- While a sentinel exists, so does the name. -/
  named : ∀ d, s.kernel.sentinel q d = true → (s.kernel.mqs q).isSome
  /-- What a deleter is yet to remove is the rest of its list. -/
  rest : ∀ b d m todo, s.agents b = .deleting d m todo → todo <:+ deleterRemovals d
  /-- A sentinel that a deleter has passed is gone while the deleter has yet to take the name. -/
  passed : ∀ b d m todo, s.agents b = .deleting d m todo → .mq ∈ todo →
    ∀ d', .sentinel d' ∉ todo → s.kernel.sentinel q d' = false

/-- Replacing an agent keeps the invariant if it is not a deleter afterwards. -/
theorem Ordered.set {a : Nat} {ag : Agent} (h : Ordered q s)
    (hag : ∀ d m todo, ag ≠ .deleting d m todo) : Ordered q (s.set a ag) := by
  have hsub : ∀ b d m todo, (s.set a ag).agents b = .deleting d m todo →
      s.agents b = .deleting d m todo := by
    intro b d m todo hb
    by_cases hab : b = a
    · subst hab
      rw [agents_set_self] at hb
      exact absurd hb (hag d m todo)
    · rwa [agents_set_of_ne _ _ _ _ hab] at hb
  exact ⟨h.named, fun b d m todo hb => h.rest b d m todo (hsub b d m todo hb),
    fun b d m todo hb => h.passed b d m todo (hsub b d m todo hb)⟩

/-- Replacing an agent by a deleter keeps the invariant if the deleter is in order. -/
theorem Ordered.set_deleting {a m : Nat} {d : Bool} {todo : List Removal} (h : Ordered q s)
    (hrest : todo <:+ deleterRemovals d)
    (hpassed : .mq ∈ todo → ∀ d', .sentinel d' ∉ todo → s.kernel.sentinel q d' = false) :
    Ordered q (s.set a (.deleting d m todo)) := by
  refine ⟨h.named, fun b d' m' todo' hb => ?_, fun b d' m' todo' hb => ?_⟩
  · by_cases hab : b = a
    · subst hab
      rw [agents_set_self] at hb
      cases hb
      exact hrest
    · rw [agents_set_of_ne _ _ _ _ hab] at hb
      exact h.rest b d' m' todo' hb
  · by_cases hab : b = a
    · subst hab
      rw [agents_set_self] at hb
      cases hb
      exact hpassed
    · rw [agents_set_of_ne _ _ _ _ hab] at hb
      exact h.passed b d' m' todo' hb

/-- A deleter starts in order. -/
theorem Ordered.start_deleting {a m : Nat} {d : Bool} (h : Ordered q s) :
    Ordered q (s.set a (.deleting d m (deleterRemovals d))) := by
  refine h.set_deleting (List.suffix_refl _) fun _ d' hd' => absurd ?_ hd'
  cases d <;> cases d' <;> simp [deleterRemovals]

/-- A removal keeps the invariant if it does not take the name from a sentinel. -/
theorem Ordered.remove {r : Removal} (h : Ordered q s)
    (hr : r = .mq → ∀ d, s.kernel.sentinel q d = false) : Ordered q (s.remove q r) := by
  refine ⟨fun d hd => ?_, h.rest, fun b d m todo hb hmq d' hd' => ?_⟩
  · rw [sentinel_remove, Bool.and_eq_true] at hd
    have hne : r ≠ .mq := by
      intro hmq
      rw [hr hmq d] at hd
      exact absurd hd.1 (by decide)
    rw [mqs_remove, if_neg hne]
    exact h.named d hd.1
  · rw [sentinel_remove, h.passed b d m todo hb hmq d' hd']
    rfl

/-- Nothing comes after the name in the list of a deleter. -/
theorem eq_nil_of_suffix {d : Bool} {todo : List Removal}
    (h : Removal.mq :: todo <:+ deleterRemovals d) : todo = [] := by
  simp only [deleterRemovals, List.suffix_cons_iff, List.cons.injEq, reduceCtorEq, false_and,
    false_or, true_and, List.suffix_nil, or_false] at h
  exact h

/-- A step in order keeps the invariant. -/
theorem ordered_step (h : Ordered q s) (hok : InOrder q s i) (hstep : Step q s i t) :
    Ordered q t := by
  cases hstep with
  | create a _ _ =>
      have h' : Ordered q { s with kernel := s.kernel.createMq q } :=
        ⟨fun d _ => by simp, h.rest, h.passed⟩
      exact h'.set (by simp)
  | «open» a m _ _ => exact h.set (by simp)
  | drop a m _ => exact h.set (by simp)
  | grant a m d fault k hold hk =>
      obtain ⟨rfl, hs, rfl⟩ := ensureUniquePeer_eq_none_iff.mp hk
      obtain ⟨hmq, hnot⟩ := hok rfl hs ⟨m, hold⟩
      have h' : Ordered q { s with
          kernel := s.kernel.setSentinel q d true
          robbed := Function.update s.robbed a false } := by
        refine ⟨fun _ _ => hmq, h.rest, fun b d' m' todo hb hmem d'' hd'' => ?_⟩
        have hne : d'' ≠ d := by
          rintro rfl
          exact hd'' (hnot b d' m' todo hb hmem)
        simpa [hne] using h.passed b d' m' todo hb hmem d'' hd''
      exact h'.set (by simp)
  | refuse a m d fault e k _ hk =>
      cases ensureUniquePeer_of_some hk
      exact h
  | constructDone a m d _ => exact h.set (by simp)
  | constructFail a m d _ => exact h.start_deleting
  | close a m d _ => exact h.start_deleting
  | removePersistent a _ => exact h.set (by simp)
  | deleterNext a m d r todo ha =>
      have hrest := h.rest a d m _ ha
      -- By the time a deleter takes the name it has passed both sentinels.
      have hr : r = .mq → ∀ d', s.kernel.sentinel q d' = false := by
        rintro rfl d'
        have hnil := eq_nil_of_suffix hrest
        subst hnil
        exact h.passed a d m _ ha (by simp) d' (by simp)
      refine (h.remove hr).set_deleting ((List.suffix_cons r todo).trans hrest) ?_
      intro hmem d' hd'
      rw [sentinel_remove]
      by_cases hrd : r = .sentinel d'
      · simp [hrd]
      · have hpassed := h.passed a d m _ ha (List.mem_cons_of_mem _ hmem) d'
          (by simp [hd', Ne.symm hrd])
        simp [hpassed]
  | cleanupNext a r todo ha =>
      refine (h.remove ?_).set (by simp)
      rintro rfl
      exact hok todo ha
  | deleterDone a m d _ => exact h.set (by simp)
  | cleanupDone a _ => exact h.set (by simp)
  | crash a => exact h.set (by simp)

/-- The invariant holds initially. -/
theorem ordered_initial (h : Initial q s) : Ordered q s := by
  refine ⟨fun d hd => ?_, fun b d m todo hb => ?_, fun b d m todo hb => ?_⟩
  · rw [h.sentinel d] at hd
    cases hd
  · rw [h.agents b] at hb
    cases hb
  · rw [h.agents b] at hb
    cases hb

/-! ## Steps out of order -/

/-- A deleter that has passed the sentinel `d` goes on to take the name away, whatever it removes
before; a sentinel of direction `d` that is there now is left without a name. -/
theorem exists_run_nameless {b m : Nat} {d d' : Bool} (todo : List Removal)
    (hb : s.agents b = .deleting d' m todo) (hmq : .mq ∈ todo) (hd : .sentinel d ∉ todo)
    (hs : s.kernel.sentinel q d = true) :
    ∃ is t, Run (ContractStep q) s is t ∧ t.kernel.sentinel q d = true ∧ t.kernel.mqs q = none := by
  induction todo generalizing s with
  | nil => simp at hmq
  | cons r todo ih =>
      have hstep : ContractStep q s (.removeNext b)
          ((s.remove q r).set b (.deleting d' m todo)) :=
        ⟨trivial, .deleterNext s b m d' r todo hb⟩
      have hs' : ((s.remove q r).set b (.deleting d' m todo)).kernel.sentinel q d = true := by
        have hne : r ≠ .sentinel d := fun h => hd (by simp [h])
        simp [hs, hne]
      by_cases hr : r = .mq
      · subst hr
        exact ⟨_, _, Run.single hstep, hs', by simp⟩
      · obtain ⟨is, t, hrun, ht⟩ := ih (agents_set_self ..)
          (by simpa [Ne.symm hr] using hmq) (fun h => hd (List.mem_cons_of_mem _ h)) hs'
        exact ⟨_, t, (Run.single hstep).append hrun, ht⟩

/-- A sentinel without a name is what cleaning up does not find. -/
theorem not_cleanupFinds {d : Bool} (hs : s.kernel.sentinel q d = true)
    (hmq : s.kernel.mqs q = none) : ¬ CleanupFinds q s := by
  intro h
  have := h.named d hs
  rw [hmq] at this
  cases this

/-- A step out of order can be followed by a leak that is not listed. -/
theorem exists_unlisted (hok : ¬ InOrder q s i) (hstep : Step q s i u) :
    ∃ is t, Run (ContractStep q) u is t ∧ ¬ CleanupFinds q t := by
  cases hstep with
  | grant a m d fault k hold hk =>
      obtain ⟨rfl, hs, rfl⟩ := ensureUniquePeer_eq_none_iff.mp hk
      have hsent : (s.grant a d m (s.kernel.setSentinel q d true)).kernel.sentinel q d = true := by
        simp
      by_cases hmq : (s.kernel.mqs q).isSome
      · simp only [InOrder, not_forall, not_and] at hok
        obtain ⟨_, _, _, hok⟩ := hok
        obtain ⟨b, d', m', todo, hb, hmem, hd⟩ := hok hmq
        have hba : b ≠ a := by
          rintro rfl
          rw [hold] at hb
          cases hb
        obtain ⟨is, t, hrun, hts, htmq⟩ := exists_run_nameless (q := q) todo
          (by rw [agents_grant_of_ne _ _ _ _ _ _ hba]; exact hb) hmem hd hsent
        exact ⟨is, t, hrun, not_cleanupFinds hts htmq⟩
      · rw [Option.not_isSome_iff_eq_none] at hmq
        exact ⟨[], _, Run.nil _, not_cleanupFinds hsent hmq⟩
  | refuse a m d fault e k hold hk =>
      exfalso
      simp only [InOrder, not_forall] at hok
      obtain ⟨rfl, hs, _⟩ := hok
      simp [ensureUniquePeer, hs] at hk
  | deleterNext a m d r todo ha =>
      exfalso
      simp [InOrder, ha] at hok
  | cleanupNext a r todo ha =>
      simp only [InOrder, ha, Agent.cleaning.injEq, List.cons.injEq, not_forall] at hok
      obtain ⟨todo', ⟨rfl, rfl⟩, d, hd⟩ := hok
      rw [Bool.not_eq_false] at hd
      exact ⟨[], _, Run.nil _, not_cleanupFinds (d := d) (by simp [hd]) (by simp)⟩
  | create | «open» | drop | constructDone | constructFail | close | removePersistent
  | deleterDone | cleanupDone | crash => exact absurd trivial hok

/-! ## Cleaning up -/

/-- **Cleanup finds everything.** Every run all of whose steps are in order ends in a state where
whatever is left is listed and can be cleaned up; and after any step out of order, in any run, there
is a way on, within the contract, to a leak that is not listed. -/
theorem cleanup_finds (q : MqName) :
    (∀ s is t, Initial q s → Run (Restrict (Step q) (InOrder q)) s is t → CleanupFinds q t) ∧
      ∀ s is t i u, Initial q s → Run (Step q) s is t → ¬ InOrder q t i → Step q t i u →
        ∃ js v, Run (ContractStep q) u js v ∧ ¬ CleanupFinds q v := by
  refine ⟨fun s is t hinit hrun => ?_, fun _ _ _ _ _ _ _ hok hstep => exists_unlisted hok hstep⟩
  have hstep : ∀ s i t, Ordered q s → Restrict (Step q) (InOrder q) s i t → Ordered q t :=
    fun _ _ _ h hstep => ordered_step h hstep.1 hstep.2
  exact cleanupFinds_iff.mpr (hrun.invariant hstep (ordered_initial hinit)).named

/-- A queue is made and gets a sender, whose process crashes; then a cleanup is about to start. -/
theorem exists_run_leftSentinel : ∃ is t u, Run (ContractStep exampleName) emptySys is t ∧
    ¬ InOrder exampleName t (.removeNext 1) ∧ Step exampleName t (.removeNext 1) u := by
  let s₁ := { emptySys with kernel := emptySys.kernel.createMq exampleName }.set 0 (.holding 0)
  let s₂ := s₁.grant 0 true 0 (s₁.kernel.setSentinel exampleName true true)
  let s₃ := s₂.set 0 .crashed
  let s₄ := s₃.set 1 (.cleaning removePersistentRemovals)
  have h₁ : ContractStep exampleName emptySys (.create 0) s₁ :=
    ⟨fun b => ⟨rfl, fun _ _ _ => Agent.noConfusion⟩, .create emptySys 0 rfl rfl⟩
  have h₂ : ContractStep exampleName s₁ (.ensureUniquePeer 0 true none) s₂ :=
    ⟨trivial, .grant s₁ 0 0 true none _ rfl (ensureUniquePeer_eq_none_iff.mpr ⟨rfl, rfl, rfl⟩)⟩
  have h₃ : ContractStep exampleName s₂ (.crash 0) s₃ := ⟨trivial, .crash s₂ 0⟩
  have h₄ : ContractStep exampleName s₃ (.removePersistent 1) s₄ :=
    ⟨trivial, .removePersistent s₃ 1 rfl⟩
  refine ⟨_, s₄, _, (((Run.single h₁).snoc h₂).snoc h₃).snoc h₄, fun hok => ?_,
    .cleanupNext s₄ 1 _ _ rfl⟩
  have hs : s₄.kernel.sentinel exampleName true = true := by
    simp [s₄, s₃, s₂]
  rw [hok _ rfl true] at hs
  cases hs

/-- There is a run, within the contract, to a leak that is not listed. -/
theorem not_cleanup_finds :
    ¬ ∀ is t, Run (ContractStep exampleName) emptySys is t → CleanupFinds exampleName t := by
  intro h
  obtain ⟨is, t, u, hrun, hok, hstep⟩ := exists_run_leftSentinel
  obtain ⟨js, v, hrun', hv⟩ := exists_unlisted hok hstep
  have hstep' : ContractStep exampleName t (.removeNext 1) u := ⟨trivial, hstep⟩
  exact hv (h _ v ((hrun.snoc hstep').append hrun'))

/-- A queue is made and gets a sender whose process crashes: the leak is listed. But a cleanup that
then starts, and crashes, leads to one that is not. -/
theorem cleanup_finds_crashed_sender :
    (∃ is t, Run (Step exampleName) emptySys is t ∧ Leaked t.kernel exampleName ∧
      CleanupFinds exampleName t) ∧
      ∃ is v, Run (Step exampleName) emptySys is v ∧ ¬ CleanupFinds exampleName v := by
  let s₁ := { emptySys with kernel := emptySys.kernel.createMq exampleName }.set 0 (.holding 0)
  let s₂ := s₁.grant 0 true 0 (s₁.kernel.setSentinel exampleName true true)
  let s₃ := s₂.set 0 .crashed
  have h₁ : Step exampleName emptySys (.create 0) s₁ := .create emptySys 0 rfl rfl
  have h₂ : Step exampleName s₁ (.ensureUniquePeer 0 true none) s₂ :=
    .grant s₁ 0 0 true none _ rfl (ensureUniquePeer_eq_none_iff.mpr ⟨rfl, rfl, rfl⟩)
  have hok₂ : InOrder exampleName s₁ (.ensureUniquePeer 0 true none) := by
    intro _ _ _
    refine ⟨by simp [s₁], fun b d' m todo hb => ?_⟩
    by_cases hb0 : b = 0
    · subst hb0
      cases hb
    · rw [agents_set_of_ne _ _ _ _ hb0] at hb
      cases hb
  have hrun : Run (Restrict (Step exampleName) (InOrder exampleName)) emptySys
      [.create 0, .ensureUniquePeer 0 true none, .crash 0] s₃ :=
    ((Run.single ⟨trivial, h₁⟩).snoc ⟨hok₂, h₂⟩).snoc ⟨trivial, .crash s₂ 0⟩
  have hinit := initial_emptySys exampleName
  refine ⟨⟨_, s₃, hrun.of_restrict, .inl (by simp [s₃, s₂, s₁]),
    (cleanup_finds exampleName).1 emptySys _ s₃ hinit hrun⟩, ?_⟩
  obtain ⟨is, t, u, hrun', hok, hstep⟩ := exists_run_leftSentinel
  obtain ⟨js, v, hrun'', hv⟩ :=
    (cleanup_finds exampleName).2 emptySys is t _ u hinit hrun'.of_restrict hok hstep
  exact ⟨_, v, (hrun'.of_restrict.snoc hstep).append hrun''.of_restrict, hv⟩

end FlowIpc.MqPeers
