import FlowIpc.MqPeers.Protocol

/-!
# At most one sender and one receiver per queue

The sentinel of a direction is there to keep a second peer of that direction off the queue. The
deleter of a peer removes both sentinels and then the name of the queue; until the last of these
steps, and for whoever opened the queue before it, the queue can still be had while the sentinel of
the *other* peer, alive and well, is gone.

* **The window** (`exists_window_of_close`): from every state with a live peer of each direction
  and one more open handle, closing one peer opens the window for that handle, which can then become
  a second live peer of the other direction (`exists_two_live_of_window`).
* **Outside the window** (`atMostOneAttached_run`): as long as nobody asks for a place on a queue
  whose present peer has been robbed of its sentinel, there is at most one peer of each direction.
* **Exactness** (`live_unique`): a request inside the window can be followed by two live peers.

Source: `blob_stream_mq_impl.hpp` `ensure_unique_peer`.
-/

namespace FlowIpc.MqPeers

open Lts

/-! ## The statement -/

/-- No two live peers of one direction are on one queue object. -/
def AtMostOneLive (s : Sys) : Prop :=
  ∀ a b d m, s.agents a = .live d m → s.agents b = .live d m → a = b

/-- The same of peers whose constructor may still be running. -/
def AtMostOneAttached (s : Sys) : Prop :=
  ∀ a b d m, (s.agents a).attached = some (d, m) → (s.agents b).attached = some (d, m) → a = b

/-- The step is not a request, from a handle to a queue object, for a place whose sentinel is not
there though a peer of that direction and object is, which another agent has robbed. -/
def OutsideWindow (q : MqName) (s : Sys) : Input → Prop
  | .ensureUniquePeer a d fault =>
    fault = none → s.kernel.sentinel q d = false → ∀ m, s.agents a = .holding m →
      ∀ b, (s.agents b).attached = some (d, m) → s.robbed b = false
  | _ => True

variable {q : MqName} {s t : Sys} {i : Input}

/-- Who is live is attached. -/
theorem AtMostOneAttached.live (h : AtMostOneAttached s) : AtMostOneLive s := by
  intro a b d m ha hb
  exact h a b d m (by rw [ha]; rfl) (by rw [hb]; rfl)

/-! ## Outside the window -/

/-- Replacing an agent by one that is not attached adds no peer. -/
theorem AtMostOneAttached.set {a : Nat} {ag : Agent} (h : AtMostOneAttached s)
    (hag : ag.attached = none ∨ ag.attached = (s.agents a).attached) :
    AtMostOneAttached (s.set a ag) := by
  have hsub : ∀ b d m, ((s.set a ag).agents b).attached = some (d, m) →
      (s.agents b).attached = some (d, m) := by
    intro b d m hb
    by_cases hab : b = a
    · subst hab
      rw [agents_set_self] at hb
      rcases hag with hag | hag
      · rw [hag] at hb
        cases hb
      · rw [← hag, hb]
    · rwa [agents_set_of_ne _ _ _ _ hab] at hb
  intro b c d m hb hc
  exact h b c d m (hsub b d m hb) (hsub c d m hc)

/-- A step outside the window adds no second peer. -/
theorem atMostOneAttached_step (hm : Marked q s) (h : AtMostOneAttached s)
    (hok : OutsideWindow q s i) (hstep : Step q s i t) : AtMostOneAttached t := by
  cases hstep with
  | create a _ _ =>
      exact AtMostOneAttached.set (s := { s with kernel := s.kernel.createMq q }) h (.inl rfl)
  | «open» a m _ _ => exact h.set (.inl rfl)
  | drop a m _ => exact h.set (.inl rfl)
  | grant a m d fault k hold hk =>
      obtain ⟨rfl, hs, rfl⟩ := ensureUniquePeer_eq_none_iff.mp hk
      -- A peer already there would be robbed, its sentinel being gone; the guard excludes that.
      have hnone : ∀ b, (s.agents b).attached ≠ some (d, m) := by
        intro b hb
        have hrob := sentinel_of_attached hm hb hs
        rw [hok rfl hs m hold b hb] at hrob
        cases hrob
      intro b c d' m' hb hc
      by_cases hba : b = a
      · by_cases hca : c = a
        · rw [hba, hca]
        · subst hba
          rw [agents_grant_self] at hb
          cases hb
          rw [agents_grant_of_ne _ _ _ _ _ _ hca] at hc
          exact absurd hc (hnone c)
      · by_cases hca : c = a
        · subst hca
          rw [agents_grant_self] at hc
          cases hc
          rw [agents_grant_of_ne _ _ _ _ _ _ hba] at hb
          exact absurd hb (hnone b)
        · rw [agents_grant_of_ne _ _ _ _ _ _ hba] at hb
          rw [agents_grant_of_ne _ _ _ _ _ _ hca] at hc
          exact h b c d' m' hb hc
  | refuse a m d fault e k _ hk =>
      cases ensureUniquePeer_of_some hk
      exact h
  | constructDone a m d hcon => exact h.set (.inr (by rw [hcon]; rfl))
  | constructFail a m d _ => exact h.set (.inl rfl)
  | close a m d _ => exact h.set (.inl rfl)
  | removePersistent a _ => exact h.set (.inl rfl)
  | deleterNext a m d r todo _ => exact AtMostOneAttached.set (s := s.remove q r) h (.inl rfl)
  | cleanupNext a r todo _ => exact AtMostOneAttached.set (s := s.remove q r) h (.inl rfl)
  | deleterDone a m d _ => exact h.set (.inl rfl)
  | cleanupDone a _ => exact h.set (.inl rfl)
  | crash a => exact h.set (.inl rfl)

/-- A run outside the window adds no second peer. -/
theorem atMostOneAttached_run {is : List Input} (hinit : Initial q s)
    (hrun : Run (Restrict (Step q) (OutsideWindow q)) s is t) : AtMostOneAttached t := by
  have h₀ : Marked q s ∧ AtMostOneAttached s := by
    refine ⟨marked_initial hinit, fun a b d m ha => ?_⟩
    rw [hinit.agents a] at ha
    cases ha
  have hstep : ∀ s i t, Marked q s ∧ AtMostOneAttached s →
      Restrict (Step q) (OutsideWindow q) s i t → Marked q t ∧ AtMostOneAttached t :=
    fun _ _ _ h hstep =>
      ⟨marked_step h.1 hstep.2, atMostOneAttached_step h.1 h.2 hstep.1 hstep.2⟩
  exact (hrun.invariant hstep h₀).2

/-! ## Inside the window -/

/-- A peer under construction can be made live. -/
theorem exists_run_live {a m : Nat} {d : Bool} (h : (s.agents a).attached = some (d, m)) :
    ∃ is t, Run (Step q) s is t ∧ t.agents a = .live d m ∧
      ∀ b, b ≠ a → t.agents b = s.agents b := by
  cases hag : s.agents a with
  | constructing d' m' =>
      rw [hag] at h
      cases h
      exact ⟨_, _, Run.single (.constructDone s a m d hag), agents_set_self _ _ _,
        fun b hb => agents_set_of_ne _ _ _ _ hb⟩
  | live d' m' =>
      rw [hag] at h
      cases h
      exact ⟨[], s, Run.nil s, hag, fun _ _ => rfl⟩
  | idle => rw [hag] at h; cases h
  | holding m' => rw [hag] at h; cases h
  | deleting d' m' todo => rw [hag] at h; cases h
  | cleaning todo => rw [hag] at h; cases h
  | crashed => rw [hag] at h; cases h

/-- Two attached peers of one direction and object can both be made live. -/
theorem exists_two_live_of_attached {a b m : Nat} {d : Bool} (hab : a ≠ b)
    (ha : (s.agents a).attached = some (d, m)) (hb : (s.agents b).attached = some (d, m)) :
    ∃ is t, Run (Step q) s is t ∧ ¬ AtMostOneLive t := by
  obtain ⟨is, t, hrun, hta, hother⟩ := exists_run_live (q := q) ha
  obtain ⟨js, u, hrun', hub, hother'⟩ :=
    exists_run_live (q := q) (s := t) (a := b) (by rw [hother b hab.symm]; exact hb)
  refine ⟨is ++ js, u, hrun.append hrun', fun h => hab (h a b d m ?_ hub)⟩
  rw [hother' a hab, hta]

/-- A request inside the window can be followed by two live peers. -/
theorem exists_two_live_of_window {u : Sys} (hok : ¬ OutsideWindow q s i) (hstep : Step q s i u) :
    ∃ is t, Run (Step q) u is t ∧ ¬ AtMostOneLive t := by
  cases hstep with
  | grant a m d fault k hold hk =>
      obtain ⟨rfl, hs, rfl⟩ := ensureUniquePeer_eq_none_iff.mp hk
      simp only [OutsideWindow, not_forall] at hok
      obtain ⟨_, _, m', hold', b, hb, _⟩ := hok
      obtain rfl : m = m' := Agent.holding.inj (hold.symm.trans hold')
      have hba : b ≠ a := by
        rintro rfl
        rw [hold] at hb
        cases hb
      refine exists_two_live_of_attached (a := b) (b := a) (d := d) (m := m) hba ?_ ?_
      · rw [agents_grant_of_ne _ _ _ _ _ _ hba]
        exact hb
      · rw [agents_grant_self]
        rfl
  | refuse a m d fault e k hold hk =>
      exfalso
      simp only [OutsideWindow, not_forall] at hok
      obtain ⟨rfl, hs, _⟩ := hok
      simp [ensureUniquePeer, hs] at hk
  | create | «open» | drop | constructDone | constructFail | close | removePersistent
  | deleterNext | cleanupNext | deleterDone | cleanupDone | crash => exact absurd trivial hok

/-- From every state with a live peer of each direction on a queue object and one more handle to it,
the close of one peer opens the window for the handle. -/
theorem exists_window_of_close {a b c m : Nat} {d : Bool} (ha : s.agents a = .live d m)
    (hb : s.agents b = .live (!d) m) (hc : s.agents c = .holding m) :
    ∃ is t u, Run (Step q) s is t ∧ ¬ OutsideWindow q t (.ensureUniquePeer c d none) ∧
      Step q t (.ensureUniquePeer c d none) u := by
  have hab : a ≠ b := by
    rintro rfl
    rw [ha] at hb
    cases d <;> cases hb
  have hbc : b ≠ c := by
    rintro rfl
    rw [hb] at hc
    cases hc
  -- The deleter of `b` up to the removal of the sentinel of `a`.
  let s₁ := s.set b (.deleting (!d) m (deleterRemovals !d))
  let s₂ := (s₁.remove q (.sentinel !d)).set b (.deleting (!d) m [.sentinel !!d, .mq])
  let t := (s₂.remove q (.sentinel !!d)).set b (.deleting (!d) m [.mq])
  have h₁ : Step q s (.close b) s₁ := .close s b m (!d) hb
  have h₂ : Step q s₁ (.removeNext b) s₂ := .deleterNext s₁ b m (!d) _ _ (agents_set_self ..)
  have h₃ : Step q s₂ (.removeNext b) t := .deleterNext s₂ b m (!d) _ _ (agents_set_self ..)
  have htc : t.agents c = .holding m := by
    simp [t, s₂, s₁, agents_set, hbc.symm, hc]
  have hta₂ : (s₂.agents a).attached = some (d, m) := by
    simp [s₂, s₁, agents_set, hab, ha, Agent.attached]
  have hta : (t.agents a).attached = some (d, m) := by
    rw [show t.agents a = s₂.agents a from agents_set_of_ne _ _ _ _ hab]
    exact hta₂
  have hts : t.kernel.sentinel q d = false := by
    simp [t]
  have hrob : t.robbed a = true := by
    rw [robbed_set, robbed_remove_sentinel s₂ q a _ d hta₂]
    simp
  refine ⟨_, t, _, ((Run.single h₁).snoc h₂).snoc h₃, fun hok => ?_,
    .grant t c m d none _ htc (ensureUniquePeer_eq_none_iff.mpr ⟨rfl, hts, rfl⟩)⟩
  have := hok rfl hts m htc a hta
  rw [hrob] at this
  cases this

/-! ## Uniqueness -/

/-- **At most one live peer.** Every run all of whose steps are outside the window ends with at most
one live sender and one live receiver on each queue object; and after any step inside the window, in
any run, there is a way on to two. -/
theorem live_unique (q : MqName) :
    (∀ s is t, Initial q s → Run (Restrict (Step q) (OutsideWindow q)) s is t → AtMostOneLive t) ∧
      ∀ s is t i u, Initial q s → Run (Step q) s is t → ¬ OutsideWindow q t i → Step q t i u →
        ∃ js v, Run (Step q) u js v ∧ ¬ AtMostOneLive v :=
  ⟨fun _ _ _ hinit hrun => (atMostOneAttached_run hinit hrun).live,
    fun _ _ _ _ _ _ _ hok hstep => exists_two_live_of_window hok hstep⟩

/-- A queue name as in practice. -/
def exampleName : MqName where
  resourceTypeId := "posixQ".toList
  absoluteName := "_q".toList

/-- A system with nothing in it. -/
def emptySys : Sys where
  kernel := { mqs := fun _ => none, shmPools := fun _ => false, nextMq := 0 }
  agents := fun _ => .idle
  robbed := fun _ => false

/-- It is an initial state. -/
theorem initial_emptySys (q : MqName) : Initial q emptySys :=
  ⟨rfl, fun _ => rfl, fun _ => rfl⟩

/-- From a state where agent `a` has a handle to `m` and the sentinel of `d` is free, `a` becomes a
live peer; the other agents, the other sentinel and the name stay as they are. -/
theorem exists_run_admitted {a m : Nat} {d : Bool} (ha : s.agents a = .holding m)
    (hs : s.kernel.sentinel q d = false) :
    ∃ is t, Run (Step q) s is t ∧ t.agents a = .live d m ∧ (∀ b, b ≠ a → t.agents b = s.agents b) ∧
      t.kernel.sentinel q (!d) = s.kernel.sentinel q (!d) := by
  let t := s.grant a d m (s.kernel.setSentinel q d true)
  have h₁ : Step q s (.ensureUniquePeer a d none) t :=
    .grant s a m d none _ ha (ensureUniquePeer_eq_none_iff.mpr ⟨rfl, hs, rfl⟩)
  have h₂ : Step q t (.constructDone a) (t.set a (.live d m)) :=
    .constructDone t a m d (agents_grant_self ..)
  refine ⟨_, _, (Run.single h₁).snoc h₂, agents_set_self .., fun b hb => ?_, ?_⟩
  · rw [agents_set_of_ne _ _ _ _ hb, agents_grant_of_ne _ _ _ _ _ _ hb]
  · cases d <;> simp [t]

/-- A queue is made and opened twice; the three handles give a sender, a receiver and a spare. Then
the receiver closes, which opens the window for the spare handle. -/
theorem exists_window : ∃ is t u, Run (Step exampleName) emptySys is t ∧
    ¬ OutsideWindow exampleName t (.ensureUniquePeer 2 true none) ∧
    Step exampleName t (.ensureUniquePeer 2 true none) u := by
  let s₁ := { emptySys with kernel := emptySys.kernel.createMq exampleName }.set 0 (.holding 0)
  let s₂ := s₁.set 1 (.holding 0)
  let s₃ := s₂.set 2 (.holding 0)
  have h₁ : Step exampleName emptySys (.create 0) s₁ := .create emptySys 0 rfl rfl
  have h₂ : Step exampleName s₁ (.open 1) s₂ := .open s₁ 1 0 rfl (by simp [s₁, emptySys])
  have h₃ : Step exampleName s₂ (.open 2) s₃ := .open s₂ 2 0 rfl (by simp [s₂, s₁, emptySys])
  have hs : ∀ d, s₃.kernel.sentinel exampleName d = false := by
    intro d
    simp [s₃, s₂, s₁, emptySys, Kernel.sentinel, Kernel.createMq]
  obtain ⟨is, t, hrun, ht₀, hother, hsent⟩ :=
    exists_run_admitted (q := exampleName) (s := s₃) (a := 0) (m := 0) (d := true) rfl (hs true)
  obtain ⟨js, u, hrun', hu₁, hother', _⟩ :=
    exists_run_admitted (q := exampleName) (s := t) (a := 1) (m := 0) (d := false)
      (by rw [hother 1 (by decide)]; rfl) (by rw [show false = !true from rfl, hsent]; exact hs _)
  obtain ⟨ks, v, w, hrun'', hok, hstep⟩ :=
    exists_window_of_close (q := exampleName) (s := u) (a := 0) (b := 1) (c := 2) (m := 0)
      (d := true) (by rw [hother' 0 (by decide)]; exact ht₀) hu₁
      (by rw [hother' 2 (by decide), hother 2 (by decide)]; rfl)
  exact ⟨_, v, w, (((((Run.single h₁).snoc h₂).snoc h₃).append hrun).append hrun').append hrun'',
    hok, hstep⟩

/-- There is a run to two live senders of one queue. -/
theorem not_live_unique :
    ¬ ∀ is t, Run (Step exampleName) emptySys is t → AtMostOneLive t := by
  intro h
  obtain ⟨is, t, u, hrun, hok, hstep⟩ := exists_window
  obtain ⟨js, v, hrun', hv⟩ := exists_two_live_of_window hok hstep
  exact hv (h _ v ((hrun.snoc hstep).append hrun'))

/-- A queue is made and its handle becomes the only sender; and there is a run into the window. -/
theorem live_unique_of_sender :
    (∃ is t, Run (Step exampleName) emptySys is t ∧ t.agents 0 = .live true 0 ∧ AtMostOneLive t) ∧
      ∃ is v, Run (Step exampleName) emptySys is v ∧ ¬ AtMostOneLive v := by
  let s₁ := { emptySys with kernel := emptySys.kernel.createMq exampleName }.set 0 (.holding 0)
  let s₂ := s₁.grant 0 true 0 (s₁.kernel.setSentinel exampleName true true)
  let s₃ := s₂.set 0 (.live true 0)
  have h₁ : Step exampleName emptySys (.create 0) s₁ := .create emptySys 0 rfl rfl
  have h₂ : Step exampleName s₁ (.ensureUniquePeer 0 true none) s₂ :=
    .grant s₁ 0 0 true none _ rfl (ensureUniquePeer_eq_none_iff.mpr ⟨rfl, rfl, rfl⟩)
  have h₃ : Step exampleName s₂ (.constructDone 0) s₃ := .constructDone s₂ 0 0 true rfl
  have hrun : Run (Restrict (Step exampleName) (OutsideWindow exampleName)) emptySys
      [.create 0, .ensureUniquePeer 0 true none, .constructDone 0] s₃ :=
    ((Run.single ⟨trivial, h₁⟩).snoc ⟨fun _ _ _ _ _ _ => rfl, h₂⟩).snoc ⟨trivial, h₃⟩
  have hinit := initial_emptySys exampleName
  refine ⟨⟨_, s₃, hrun.of_restrict, rfl, (live_unique exampleName).1 emptySys _ s₃ hinit hrun⟩, ?_⟩
  obtain ⟨is, t, u, hrun', hok, hstep⟩ := exists_window
  obtain ⟨js, v, hrun'', hv⟩ :=
    (live_unique exampleName).2 emptySys is t _ u hinit hrun' hok hstep
  exact ⟨_, v, (hrun'.snoc hstep).append hrun'', hv⟩

end FlowIpc.MqPeers
