import FlowIpc.Lib.Transition
import FlowIpc.MqPeers.Names

/-!
# Processes at work on one queue name

Any number of agents, in any number of processes, act on the names of one queue. An agent is one
thread of activity: it makes or opens a queue handle and tries to turn it into a peer, which it later
closes; or it runs `remove_persistent()`. The removals of a deleter and of `remove_persistent()` are
steps of their own, and an agent may crash between any two steps.

* **Steps** (`Step`): each is one operation of an agent on the names, or one that needs no name.
* **Bookkeeping** (`Sys.robbed`): a peer is *robbed* when another agent removes the sentinel that
  marks it. The code reads this nowhere; it names the window in which the guard of `ensureUniquePeer`
  is off (`sentinel_of_attached`).

Source: `blob_stream_mq_impl.hpp` `ensure_unique_peer`, `remove_persistent`;
`sync_io/detail/blob_stream_mq_snd_impl.hpp`, `sync_io/detail/blob_stream_mq_rcv_impl.hpp`, the
constructors and destructors.
-/

namespace FlowIpc.MqPeers

open Lts

/-! ## Agents -/

/-- What an agent is doing. Queue objects are told apart by number; `true` is the direction of
senders. -/
inductive Agent where
  /-- Nothing. -/
  | idle
  /-- It has a handle to queue object `m`, not (yet) passed to a peer. -/
  | holding (m : Nat)
  /-- The constructor of a peer owns handle and deleter, and is to make the rest. -/
  | constructing (d : Bool) (m : Nat)
  /-- It is a live peer. -/
  | live (d : Bool) (m : Nat)
  /-- It runs the deleter of a peer; `todo` is left to remove. -/
  | deleting (d : Bool) (m : Nat) (todo : List Removal)
  /-- It runs `remove_persistent()`; `todo` is left to remove. -/
  | cleaning (todo : List Removal)
  /-- Its process is gone. -/
  | crashed
  deriving DecidableEq

/-- The direction and queue object of a peer whose deleter has not begun. -/
def Agent.attached : Agent → Option (Bool × Nat)
  | .constructing d m => some (d, m)
  | .live d m => some (d, m)
  | _ => none

/-- The names, the agents, and which of the agents have been robbed. -/
structure Sys where
  /-- The persistent names. -/
  kernel : Kernel
  /-- The agents. -/
  agents : Nat → Agent
  /-- The agent was attached when another agent removed the sentinel of its direction. -/
  robbed : Nat → Bool

namespace Sys

/-- The agent `a` becomes `ag`. -/
def set (s : Sys) (a : Nat) (ag : Agent) : Sys :=
  { s with agents := Function.update s.agents a ag }

/-- The agent `a` is admitted as a peer, which leaves the names `k`; nobody has robbed it yet. -/
def grant (s : Sys) (a : Nat) (d : Bool) (m : Nat) (k : Kernel) : Sys :=
  { s with kernel := k, robbed := Function.update s.robbed a false }.set a (.constructing d m)

/-- The removal `r` on the queue `q`, and who is robbed by it. -/
def remove (s : Sys) (q : MqName) (r : Removal) : Sys :=
  { s with
    kernel := (r.run s.kernel q).2
    robbed := fun b => s.robbed b ||
      match r, (s.agents b).attached with
      | .sentinel d, some (d', _) => d == d'
      | _, _ => false }

end Sys

/-! ## Steps -/

/-- The steps an agent `a` can take. -/
inductive Input where
  /-- `Mq(Create_only, name)` -/
  | create (a : Nat)
  /-- `Mq(Open_only, name)` -/
  | «open» (a : Nat)
  /-- The handle is closed unused. -/
  | drop (a : Nat)
  /-- A sender or receiver is being constructed: `ensure_unique_peer()`. -/
  | ensureUniquePeer (a : Nat) (d : Bool) (fault : Option Nat)
  /-- The constructor finishes. -/
  | constructDone (a : Nat)
  /-- The rest of the constructor fails, and `m_mq.reset()` starts the deleter. -/
  | constructFail (a : Nat)
  /-- The destructor, or a fatal error, starts the deleter. -/
  | close (a : Nat)
  /-- `remove_persistent()` is called. -/
  | removePersistent (a : Nat)
  /-- The next removal of the deleter or of `remove_persistent()`. -/
  | removeNext (a : Nat)
  /-- The deleter closes the handle, or `remove_persistent()` returns. -/
  | finish (a : Nat)
  /-- The process goes away; open handles close, names stay. -/
  | crash (a : Nat)

/-- The steps at the queue name `q`. -/
inductive Step (q : MqName) : Sys → Input → Sys → Prop where
  /-- A create-only opening needs the name to be free. -/
  | create (s : Sys) (a : Nat) : s.agents a = .idle → s.kernel.mqs q = none →
      Step q s (.create a)
        ({ s with kernel := s.kernel.createMq q }.set a (.holding s.kernel.nextMq))
  /-- An open-only opening needs the name to stand for a queue. -/
  | «open» (s : Sys) (a m : Nat) : s.agents a = .idle → s.kernel.mqs q = some m →
      Step q s (.open a) (s.set a (.holding m))
  /-- A handle may be closed at any time. -/
  | drop (s : Sys) (a m : Nat) : s.agents a = .holding m → Step q s (.drop a) (s.set a .idle)
  /-- The peer is admitted. -/
  | grant (s : Sys) (a m : Nat) (d : Bool) (fault : Option Nat) (k : Kernel) :
      s.agents a = .holding m → ensureUniquePeer s.kernel q d fault = (none, k) →
      Step q s (.ensureUniquePeer a d fault) (s.grant a d m k)
  /-- The peer is refused; its would-be owner keeps the handle. -/
  | refuse (s : Sys) (a m : Nat) (d : Bool) (fault : Option Nat) (e : Err) (k : Kernel) :
      s.agents a = .holding m → ensureUniquePeer s.kernel q d fault = (some e, k) →
      Step q s (.ensureUniquePeer a d fault) { s with kernel := k }
  /-- The constructor finishes. -/
  | constructDone (s : Sys) (a m : Nat) (d : Bool) : s.agents a = .constructing d m →
      Step q s (.constructDone a) (s.set a (.live d m))
  /-- The constructor fails. -/
  | constructFail (s : Sys) (a m : Nat) (d : Bool) : s.agents a = .constructing d m →
      Step q s (.constructFail a) (s.set a (.deleting d m (deleterRemovals d)))
  /-- A live peer closes. -/
  | close (s : Sys) (a m : Nat) (d : Bool) : s.agents a = .live d m →
      Step q s (.close a) (s.set a (.deleting d m (deleterRemovals d)))
  /-- A cleanup starts. -/
  | removePersistent (s : Sys) (a : Nat) : s.agents a = .idle →
      Step q s (.removePersistent a) (s.set a (.cleaning removePersistentRemovals))
  /-- A deleter makes its next removal. -/
  | deleterNext (s : Sys) (a m : Nat) (d : Bool) (r : Removal) (todo : List Removal) :
      s.agents a = .deleting d m (r :: todo) →
      Step q s (.removeNext a) ((s.remove q r).set a (.deleting d m todo))
  /-- A cleanup makes its next removal. -/
  | cleanupNext (s : Sys) (a : Nat) (r : Removal) (todo : List Removal) :
      s.agents a = .cleaning (r :: todo) →
      Step q s (.removeNext a) ((s.remove q r).set a (.cleaning todo))
  /-- A deleter closes its handle. -/
  | deleterDone (s : Sys) (a m : Nat) (d : Bool) : s.agents a = .deleting d m [] →
      Step q s (.finish a) (s.set a .idle)
  /-- A cleanup returns. -/
  | cleanupDone (s : Sys) (a : Nat) : s.agents a = .cleaning [] →
      Step q s (.finish a) (s.set a .idle)
  /-- An agent crashes. -/
  | crash (s : Sys) (a : Nat) : Step q s (.crash a) (s.set a .crashed)

/-- Nothing exists under the name, and nobody is at work. -/
structure Initial (q : MqName) (s : Sys) : Prop where
  /-- The name is free. -/
  mqs : s.kernel.mqs q = none
  /-- No sentinel exists. -/
  sentinel : ∀ d, s.kernel.sentinel q d = false
  /-- All agents are idle. -/
  agents : ∀ a, s.agents a = .idle

/-! ## Small facts about updates -/

section simpSet

variable (s : Sys) (q : MqName) (a b : Nat) (ag : Agent) (r : Removal) (d : Bool)

@[simp] theorem agents_set_self : (s.set a ag).agents a = ag := by
  simp [Sys.set]

/-- An agent is where it has been put, and the others as before. -/
theorem agents_set : (s.set a ag).agents b = if b = a then ag else s.agents b := by
  simp [Sys.set, Function.update_apply]

/-- No other agent is moved. -/
theorem agents_set_of_ne (h : b ≠ a) : (s.set a ag).agents b = s.agents b := by
  simp [Sys.set, h]

@[simp] theorem kernel_set : (s.set a ag).kernel = s.kernel := rfl

@[simp] theorem robbed_set : (s.set a ag).robbed = s.robbed := rfl

@[simp] theorem kernel_grant (m : Nat) (k : Kernel) : (s.grant a d m k).kernel = k := rfl

/-- Who is admitted goes on to construct its peer. -/
@[simp] theorem agents_grant_self (m : Nat) (k : Kernel) :
    (s.grant a d m k).agents a = .constructing d m :=
  agents_set_self _ _ _

/-- No other agent is moved by it. -/
theorem agents_grant_of_ne (m : Nat) (k : Kernel) (h : b ≠ a) :
    (s.grant a d m k).agents b = s.agents b :=
  agents_set_of_ne _ _ _ _ h

/-- No other agent is robbed, or given back what it was robbed of. -/
theorem robbed_grant_of_ne (m : Nat) (k : Kernel) (h : b ≠ a) :
    (s.grant a d m k).robbed b = s.robbed b := by
  simp [Sys.grant, Sys.set, h]

@[simp] theorem agents_remove : (s.remove q r).agents = s.agents := rfl

/-- A sentinel is gone if it is what was removed. -/
@[simp] theorem sentinel_remove :
    (s.remove q r).kernel.sentinel q d = (s.kernel.sentinel q d && !decide (r = .sentinel d)) := by
  cases r with
  | sentinel d' =>
      by_cases h : d = d'
      · simp [Sys.remove, Removal.run, h]
      · simp [Sys.remove, Removal.run, h, Ne.symm h]
  | mq => simp [Sys.remove, Removal.run]

/-- The name is gone if it is what was removed. -/
@[simp] theorem mqs_remove :
    (s.remove q r).kernel.mqs q = if r = .mq then none else s.kernel.mqs q := by
  cases r <;> simp [Sys.remove, Removal.run]

/-- A removal robs exactly the attached peers of the direction of the sentinel it removes. -/
theorem robbed_remove_sentinel {m : Nat} (h : (s.agents b).attached = some (d, m)) :
    (s.remove q r).robbed b = (s.robbed b || decide (r = .sentinel d)) := by
  cases r with
  | sentinel d' => simp [Sys.remove, h, beq_eq_decide]
  | mq => simp [Sys.remove]

end simpSet

/-! ## Sentinels mark peers -/

/-- An attached peer that has not been robbed is marked by its sentinel. -/
def Marked (q : MqName) (s : Sys) : Prop :=
  ∀ a d m, (s.agents a).attached = some (d, m) → s.robbed a = false → s.kernel.sentinel q d = true

variable {q : MqName} {s s' : Sys} {i : Input}

/-- Replacing an agent that is not attached afterwards keeps every other peer marked. -/
theorem Marked.set {a : Nat} {ag : Agent} (h : Marked q s) (hag : ag.attached = none) :
    Marked q (s.set a ag) := by
  intro b d m hb hrob
  by_cases hab : b = a
  · subst hab
    rw [agents_set_self, hag] at hb
    cases hb
  · rw [agents_set_of_ne _ _ _ _ hab] at hb
    exact h b d m hb hrob

/-- A removal keeps every peer marked that it does not rob. -/
theorem Marked.remove (h : Marked q s) (r : Removal) : Marked q (s.remove q r) := by
  intro b d m hb hrob
  rw [agents_remove] at hb
  rw [robbed_remove_sentinel s q b r d hb, Bool.or_eq_false_iff] at hrob
  rw [sentinel_remove, h b d m hb hrob.1, hrob.2]
  rfl

/-- Every step keeps unrobbed peers marked. -/
theorem marked_step (h : Marked q s) (hstep : Step q s i s') : Marked q s' := by
  cases hstep with
  | create a _ _ => exact Marked.set (s := { s with kernel := s.kernel.createMq q }) h rfl
  | «open» a m _ _ => exact h.set rfl
  | drop a m _ => exact h.set rfl
  | grant a m d fault k hold hk =>
      obtain ⟨_, _, rfl⟩ := ensureUniquePeer_eq_none_iff.mp hk
      intro b d' m' hb hrob
      rw [kernel_grant, Kernel.sentinel_setSentinel]
      by_cases hab : b = a
      · subst hab
        rw [agents_grant_self] at hb
        cases hb
        simp
      · rw [agents_grant_of_ne _ _ _ _ _ _ hab] at hb
        rw [robbed_grant_of_ne _ _ _ _ _ _ hab] at hrob
        rw [h b d' m' hb hrob, ite_self]
  | refuse a m d fault e k _ hk =>
      cases ensureUniquePeer_of_some hk
      exact h
  | constructDone a m d hcon =>
      intro b d' m' hb hrob
      by_cases hab : b = a
      · subst hab
        rw [agents_set_self] at hb
        exact h b d' m' (by rw [hcon]; exact hb) hrob
      · rw [agents_set_of_ne _ _ _ _ hab] at hb
        exact h b d' m' hb hrob
  | constructFail a m d _ => exact h.set rfl
  | close a m d _ => exact h.set rfl
  | removePersistent a _ => exact h.set rfl
  | deleterNext a m d r todo _ => exact (h.remove r).set rfl
  | cleanupNext a r todo _ => exact (h.remove r).set rfl
  | deleterDone a m d _ => exact h.set rfl
  | cleanupDone a _ => exact h.set rfl
  | crash a => exact h.set rfl

/-- Initially nobody needs marking. -/
theorem marked_initial (h : Initial q s) : Marked q s := by
  intro a d m ha
  rw [h.agents a] at ha
  cases ha

/-- Where the sentinel of a direction is missing, every attached peer of that direction has been
robbed. -/
theorem sentinel_of_attached (h : Marked q s) {a m : Nat} {d : Bool}
    (ha : (s.agents a).attached = some (d, m)) (hs : s.kernel.sentinel q d = false) :
    s.robbed a = true := by
  by_contra hrob
  rw [Bool.not_eq_true] at hrob
  rw [h a d m ha hrob] at hs
  cases hs

end FlowIpc.MqPeers
