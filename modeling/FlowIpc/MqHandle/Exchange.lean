import FlowIpc.MqHandle.Backends
import FlowIpc.PosixMq.World

/-!
# Swapping and moving handles

Whatever a caller can tell of a handle is to go with it when it is swapped or moved. What a caller can
tell is its name, and how its calls go: on what queue, and, step by step, what is seen of them
(`Object.Behaves`); a call on a handle that has no queue fails an assertion. No call is in progress on a
handle while it is swapped or moved.

* A `Posix_mq_handle` exchanges all its members, and the byte that stands for the mode stays in the pipe,
  which goes with them. It keeps the promise (`posix_carries`).
* The `swap()` of `Bipc_mq_handle` exchanges the queues and the names, and leaves the modes where they are.
  So it keeps the promise iff the modes are the same, or there is no queue in either (`bipc_carries_iff`).
  Its moves are the compiler's, member by member: the modes are copied.

A member that is left as it is in a handle that has lost its queue is nothing that a caller could tell.

Source: `posix_mq_handle.cpp` `operator=`, `swap`; `bipc_mq_handle.cpp` `operator=`, `swap`.
-/

namespace FlowIpc.MqHandle

open Lts

/-! ## What a caller can tell -/

/-- A handle between two calls. `U` is what a call uses in the system. -/
structure Object (K : Kind) (U : Type) where
  /-- `m_absolute_name` -/
  absoluteName : String
  /-- What its calls use; `none` if it has no queue. -/
  mq : Option U
  /-- What there is for the outgoing direction. -/
  snd : K.R
  /-- What there is for the incoming direction. -/
  rcv : K.R

namespace Object

variable {K : Kind} {U : Type}

/-- How calls on the handle may go: steps, each with what it uses. -/
def Behaves (o : Object K U) (tr : List (U × (Input K.E K.T × Obs))) : Prop :=
  match o.mq with
  | none => tr = []
  | some u => (∀ x ∈ tr, x.1 = u) ∧ ∃ s, Run K.Step ⟨o.snd, o.rcv, none⟩ (tr.map Prod.snd) s

/-- A caller cannot tell the two from each other. -/
structure Same (o o' : Object K U) : Prop where
  absoluteName : o.absoluteName = o'.absoluteName
  behaves tr : o.Behaves tr ↔ o'.Behaves tr

variable {o o' : Object K U}

/-- An object is the same as itself. -/
theorem Same.refl (o : Object K U) : o.Same o := ⟨rfl, fun _ => Iff.rfl⟩

/-- Two handles without a queue are the same. -/
theorem Same.of_none (hname : o.absoluteName = o'.absoluteName) (h : o.mq = none) (h' : o'.mq = none) :
    o.Same o' := by
  refine ⟨hname, fun tr => ?_⟩
  unfold Behaves
  rw [h, h']

end Object

/-- Places for handles, and what is done to handles in places. -/
structure Places (K : Kind) (U : Type) where
  /-- All the places. -/
  M : Type
  /-- The handle in a place. -/
  object : M → Nat → Option (Object K U)
  /-- `swap()` -/
  swap : Nat → Nat → M → Option M
  /-- The move assignment, to the handle in the first place. -/
  moveAssign : Nat → Nat → M → Option M
  /-- The move constructor, in the first place. -/
  moveConstruct : Nat → Nat → M → Option M

namespace Places

variable {K : Kind} {U : Type}

/-- The handle in place `i` cannot be told from `o`. -/
def Is (P : Places K U) (m : P.M) (i : Nat) (o : Object K U) : Prop :=
  ∃ c, P.object m i = some c ∧ c.Same o

/-- What is promised of two handles, `a` in place `i` and `b` in place `j`. -/
structure CarriesFor (P : Places K U) (null : Object K U) (m : P.M) (i j : Nat) (a b : Object K U) : Prop where
  /-- `swap()` exchanges them; twice, it does nothing. -/
  swap : ∃ m' m'', P.swap i j m = some m' ∧ P.swap i j m' = some m'' ∧ P.Is m' i b ∧ P.Is m' j a ∧
    ∀ k, P.object m'' k = P.object m k
  /-- What `b` is assigned to is as `b` was, and `b` is null. -/
  assign : ∃ m', P.moveAssign i j m = some m' ∧ P.Is m' i b ∧ P.Is m' j null
  /-- What is constructed from `b` is as `b` was, and `b` is null. -/
  construct : ∀ k, P.object m k = none →
    ∃ m', P.moveConstruct k j m = some m' ∧ P.Is m' k b ∧ P.Is m' j null

/-- **Swap and move carry the whole state** of the handles in places `i` and `j`, if these are two. -/
def Carries (P : Places K U) (null : Object K U) (m : P.M) (i j : Nat) : Prop :=
  ∀ a b, i ≠ j → P.object m i = some a → P.object m j = some b → P.CarriesFor null m i j a b

end Places

/-! ## `Posix_mq_handle` -/

/-- What the calls on a `Posix_mq_handle` use: the descriptors. -/
structure PosixUses where
  /-- `m_mq` -/
  mq : PosixMq.Fd
  /-- `m_epoll_hndl_snd`, `m_epoll_hndl_rcv` -/
  epollHndl : Dir → Option PosixMq.Fd
  /-- `m_interrupter_snd`, `m_interrupter_rcv` -/
  interrupter : Dir → Option PosixMq.Fd
  /-- `m_interrupt_detector_snd`, `m_interrupt_detector_rcv` -/
  interruptDetector : Dir → Option PosixMq.Fd

/-- A `Posix_mq_handle`, where there are so many bytes in the pipes. -/
def posixObject (bytes : PosixMq.Fd → Nat) (h : PosixMq.PosixMqHandle) :
    Object PosixMqHandle.kind PosixUses where
  absoluteName := h.absoluteName
  mq := h.mq.map fun mq => ⟨mq, fun d => (h.side d).epollHndl, fun d => (h.side d).interrupter,
    fun d => (h.side d).interruptDetector⟩
  snd := ⟨h.snd.interrupting, (h.snd.interruptDetector.map bytes).getD 0⟩
  rcv := ⟨h.rcv.interrupting, (h.rcv.interruptDetector.map bytes).getD 0⟩

/-- `Posix_mq_handle`s in places.
Source: `posix_mq_handle.cpp` `operator=`, `swap`, `Posix_mq_handle(Posix_mq_handle&&)` -/
def posixPlaces (bytes : PosixMq.Fd → Nat) : Places PosixMqHandle.kind PosixUses where
  M := PosixMq.World
  object w i := (w.objs i).map (posixObject bytes)
  swap := PosixMq.World.swap
  moveAssign := PosixMq.World.moveAssign
  moveConstruct i j w := w.step (.moveConstruct i j)

/-- What the default constructor makes. -/
def posixNull : Object PosixMqHandle.kind PosixUses := posixObject (fun _ => 0) .null

/-! ## `Bipc_mq_handle` -/

/-- The members of a `Bipc_mq_handle`.
Source: `bipc_mq_handle.hpp` `Bipc_mq_handle` -/
structure BipcMembers where
  /-- `m_mq` -/
  mq : Option Nat
  /-- `m_absolute_name` -/
  absoluteName : String
  /-- `m_interrupting_snd` -/
  interruptingSnd : Bool
  /-- `m_interrupting_rcv` -/
  interruptingRcv : Bool
  deriving DecidableEq

/-- A `Bipc_mq_handle`. No call is in progress, so that none of its is blocked. -/
def bipcObject (h : BipcMembers) : Object BipcMqHandle.kind Nat :=
  ⟨h.absoluteName, h.mq, ⟨h.interruptingSnd, 0⟩, ⟨h.interruptingRcv, 0⟩⟩

/-- Source: `bipc_mq_handle.cpp` `swap` -/
def bipcSwap (i j : Nat) (m : Nat → Option BipcMembers) : Option (Nat → Option BipcMembers) := do
  let h₁ ← m i
  let h₂ ← m j
  let m := Function.update m i (some { h₁ with mq := h₂.mq, absoluteName := h₂.absoluteName })
  let h₂ ← m j
  pure (Function.update m j (some { h₂ with mq := h₁.mq, absoluteName := h₁.absoluteName }))

/-- `operator=(Bipc_mq_handle&&)`, which is the compiler's: member by member, from another handle. A name or
queue that is moved from is null.
Source: `bipc_mq_handle.cpp` `operator=` -/
def bipcMoveAssign (i j : Nat) (m : Nat → Option BipcMembers) : Option (Nat → Option BipcMembers) := do
  let _ ← m i
  let src ← m j
  if i = j then pure m
  else
    let m := Function.update m i (some src)
    pure (Function.update m j (some { src with mq := none, absoluteName := "" }))

/-- `Bipc_mq_handle(Bipc_mq_handle&&)`, which is the compiler's.
Source: `bipc_mq_handle.cpp` `Bipc_mq_handle(Bipc_mq_handle&&)` -/
def bipcMoveConstruct (i j : Nat) (m : Nat → Option BipcMembers) : Option (Nat → Option BipcMembers) := do
  let src ← m j
  if m i ≠ none then none
  else
    let m := Function.update m i (some src)
    pure (Function.update m j (some { src with mq := none, absoluteName := "" }))

/-- `Bipc_mq_handle`s in places. -/
def bipcPlaces : Places BipcMqHandle.kind Nat where
  M := Nat → Option BipcMembers
  object m i := (m i).map bipcObject
  swap := bipcSwap
  moveAssign := bipcMoveAssign
  moveConstruct := bipcMoveConstruct

/-- What the default constructor makes; it leaves the modes as they come. -/
def bipcNull (interruptingSnd interruptingRcv : Bool) : Object BipcMqHandle.kind Nat :=
  bipcObject ⟨none, "", interruptingSnd, interruptingRcv⟩

/-! ## What is carried -/

/-- **`Posix_mq_handle` carries its state**, in whatever state the handles and the pipes are. -/
theorem posix_carries (bytes : PosixMq.Fd → Nat) (w : PosixMq.World) (i j : Nat) :
    (posixPlaces bytes).Carries posixNull w i j := by
  rintro _ _ hij ha hb
  obtain ⟨g₁, hi, rfl⟩ := Option.map_eq_some_iff.mp ha
  obtain ⟨g₂, hj, rfl⟩ := Option.map_eq_some_iff.mp hb
  have hji : j ≠ i := Ne.symm hij
  -- What is null cannot be told from the default.
  have hnull {g : PosixMq.PosixMqHandle} (hmq : g.mq = none) (hname : g.absoluteName = "") :
      (posixObject bytes g).Same posixNull :=
    .of_none hname (by rw [posixObject, hmq]; rfl) rfl
  refine ⟨?_, ?_, fun k hk => ?_⟩
  · have hi' : ((w.set i (some g₂)).set j (some g₁)).objs i = some g₂ := by simp [hij]
    have hj' : ((w.set i (some g₂)).set j (some g₁)).objs j = some g₁ := by simp
    refine ⟨_, _, PosixMq.World.swap_eq hi hj, PosixMq.World.swap_eq hi' hj', ?_, ?_, fun k => ?_⟩
    · exact ⟨_, congrArg (Option.map (posixObject bytes)) hi', .refl _⟩
    · exact ⟨_, congrArg (Option.map (posixObject bytes)) hj', .refl _⟩
    · refine congrArg (Option.map (posixObject bytes)) ?_
      by_cases hkj : k = j
      · simp [hkj, hj]
      · by_cases hki : k = i
        · simp [hki, hij, hi]
        · simp [hkj, hki]
  · obtain ⟨log, g, hmove, hmq, hname⟩ := PosixMq.World.moveAssign_eq hij hi hj
    have hi' : ((w.replace i (some g₂) log).set j (some g)).objs i = some g₂ := by
      simp [PosixMq.World.replace, hij]
    have hj' : ((w.replace i (some g₂) log).set j (some g)).objs j = some g := by simp
    exact ⟨_, hmove, ⟨_, congrArg (Option.map (posixObject bytes)) hi', .refl _⟩,
      ⟨_, congrArg (Option.map (posixObject bytes)) hj', hnull hmq hname⟩⟩
  · have hk : w.objs k = none := Option.map_eq_none_iff.mp hk
    have hkj : k ≠ j := by
      rintro rfl
      cases hk.symm.trans hj
    have hnew : (w.set k (some .null)).objs k = some .null := by simp
    have hold : (w.set k (some .null)).objs j = some g₂ := by simp [Ne.symm hkj, hj]
    obtain ⟨log, g, hmove, hmq, hname⟩ := PosixMq.World.moveAssign_eq hkj hnew hold
    have hk' : (((w.set k (some .null)).replace k (some g₂) log).set j (some g)).objs k = some g₂ := by
      simp [PosixMq.World.replace, hkj]
    have hj' : (((w.set k (some .null)).replace k (some g₂) log).set j (some g)).objs j = some g := by simp
    have hstep : w.step (.moveConstruct k j) = (w.set k (some .null)).moveAssign k j :=
      if_pos ⟨hk, by simp [hj]⟩
    exact ⟨_, hstep.trans hmove, ⟨_, congrArg (Option.map (posixObject bytes)) hk', .refl _⟩,
      ⟨_, congrArg (Option.map (posixObject bytes)) hj', hnull hmq hname⟩⟩

/-- The mode of a direction. -/
def BipcMembers.interrupting (h : BipcMembers) : Dir → Bool
  | .snd => h.interruptingSnd
  | .rcv => h.interruptingRcv

/-- The handles are in the same modes, or neither has a queue. -/
def SameModes (a b : BipcMembers) : Prop :=
  (a.mq = none ∧ b.mq = none) ∨ ∀ d, a.interrupting d = b.interrupting d

/-- How a switch is answered. -/
theorem bipc_step_interrupt (c : BipcMembers) (d : Dir) :
    ∃ s, Kind.Handle.step (K := BipcMqHandle.kind) ⟨⟨c.interruptingSnd, 0⟩, ⟨c.interruptingRcv, 0⟩, none⟩
      (.interrupt d) = some (s, .switched (!c.interrupting d)) := by
  obtain ⟨mq, name, snd, rcv⟩ := c
  cases d
  · cases snd <;> exact ⟨_, rfl⟩
  · cases rcv <;> exact ⟨_, rfl⟩

/-- Handles that cannot be told from each other, and have a queue, are in the same modes. -/
theorem interrupting_eq_of_same {a b : BipcMembers} {q : Nat} (hmq : b.mq = some q)
    (h : (bipcObject a).Same (bipcObject b)) (d : Dir) : a.interrupting d = b.interrupting d := by
  obtain ⟨s, hs⟩ := bipc_step_interrupt b d
  have hb : (bipcObject b).Behaves [(q, .interrupt d, .switched (!b.interrupting d))] := by
    unfold Object.Behaves bipcObject
    rw [hmq]
    exact ⟨fun x hx => congrArg Prod.fst (List.mem_singleton.mp hx), s, Run.single hs⟩
  have ha := (h.behaves _).mpr hb
  unfold Object.Behaves bipcObject at ha
  rcases hmq' : a.mq with _ | q'
  · rw [hmq'] at ha
    cases ha
  · rw [hmq'] at ha
    obtain ⟨-, t, hrun⟩ := ha
    obtain ⟨u, hu, hstep⟩ := run_snoc_iff.mp (show Run _ _ ([] ++ [_]) t from hrun)
    cases run_nil_iff.mp hu
    obtain ⟨s', hs'⟩ := bipc_step_interrupt a d
    have heq := hs'.symm.trans hstep
    simpa using congrArg (Option.map Prod.snd) heq

/-- With the members that are swapped taken from `src`. -/
def BipcMembers.taking (h src : BipcMembers) : BipcMembers :=
  { h with mq := src.mq, absoluteName := src.absoluteName }

/-- Two handles that are there exchange what they exchange. -/
theorem bipcSwap_eq {m : Nat → Option BipcMembers} {i j : Nat} {a b : BipcMembers} (hij : i ≠ j)
    (ha : m i = some a) (hb : m j = some b) :
    bipcSwap i j m = some (Function.update (Function.update m i (some (a.taking b))) j (some (b.taking a))) := by
  simp [bipcSwap, ha, hb, Function.update_of_ne (Ne.symm hij), BipcMembers.taking]

/-- Where the modes are alike, what is taken is the other object. -/
theorem taking_same {a b : BipcMembers} (h : SameModes a b) : (bipcObject (a.taking b)).Same (bipcObject b) := by
  rcases h with ⟨ha, hb⟩ | hmodes
  · exact .of_none rfl hb hb
  · have hsame : a.taking b = b := by
      obtain ⟨_, _, _, _⟩ := a
      obtain ⟨_, _, _, _⟩ := b
      cases hmodes .snd
      cases hmodes .rcv
      rfl
    rw [hsame]
    exact .refl _

/-- It does not matter which of two handles with the same modes comes first. -/
theorem SameModes.symm {a b : BipcMembers} (h : SameModes a b) : SameModes b a := by
  rcases h with ⟨ha, hb⟩ | hmodes
  · exact .inl ⟨hb, ha⟩
  · exact .inr fun d => (hmodes d).symm

/-- **`Bipc_mq_handle` carries its state** iff the handles are in the same modes, or have no queues. -/
theorem bipc_carries_iff (snd rcv : Bool) (m : Nat → Option BipcMembers) (i j : Nat) :
    bipcPlaces.Carries (bipcNull snd rcv) m i j ↔
      ∀ a b, i ≠ j → m i = some a → m j = some b → SameModes a b := by
  constructor
  · intro h a b hij ha hb
    obtain ⟨⟨m', _, hswap, -, ⟨c, hc, hcb⟩, ⟨e, he, hea⟩, -⟩, -, -⟩ :=
      h (bipcObject a) (bipcObject b) hij (congrArg (Option.map bipcObject) ha)
        (congrArg (Option.map bipcObject) hb)
    cases (bipcSwap_eq hij ha hb).symm.trans hswap
    have hi : bipcPlaces.object (Function.update (Function.update m i (some (a.taking b))) j (some (b.taking a))) i =
        some (bipcObject (a.taking b)) := by
      simp [bipcPlaces, hij]
    have hj : bipcPlaces.object (Function.update (Function.update m i (some (a.taking b))) j (some (b.taking a))) j =
        some (bipcObject (b.taking a)) := by
      simp [bipcPlaces]
    cases hi.symm.trans hc
    cases hj.symm.trans he
    rcases hmq : b.mq with _ | q
    · rcases hmq' : a.mq with _ | q
      · exact .inl ⟨hmq', hmq⟩
      · exact .inr fun d => (interrupting_eq_of_same hmq' hea d).symm
    · exact .inr fun d => interrupting_eq_of_same hmq hcb d
  · rintro h _ _ hij ha' hb'
    obtain ⟨a, ha, rfl⟩ := Option.map_eq_some_iff.mp ha'
    obtain ⟨b, hb, rfl⟩ := Option.map_eq_some_iff.mp hb'
    have hmodes := h a b hij ha hb
    have hnull (src : BipcMembers) : (bipcObject { src with mq := none, absoluteName := "" }).Same (bipcNull snd rcv) :=
      .of_none rfl rfl rfl
    have hobj {m : Nat → Option BipcMembers} {k : Nat} {c : BipcMembers} (hk : m k = some c) :
        bipcPlaces.object m k = some (bipcObject c) := congrArg (Option.map bipcObject) hk
    refine ⟨?_, ?_, fun k hk => ?_⟩
    · have hi' : Function.update (Function.update m i (some (a.taking b))) j (some (b.taking a)) i =
          some (a.taking b) := by simp [hij]
      have hj' : Function.update (Function.update m i (some (a.taking b))) j (some (b.taking a)) j =
          some (b.taking a) := by simp
      refine ⟨_, _, bipcSwap_eq hij ha hb, bipcSwap_eq hij hi' hj', ⟨_, hobj hi', taking_same hmodes⟩,
        ⟨_, hobj hj', taking_same hmodes.symm⟩, fun k => ?_⟩
      refine congrArg (Option.map bipcObject) ?_
      by_cases hkj : k = j
      · subst hkj
        simp [hb, BipcMembers.taking]
      · by_cases hki : k = i
        · subst hki
          simp [hij, ha, BipcMembers.taking]
        · simp [hkj, hki]
    · have hmove : bipcMoveAssign i j m = some (Function.update (Function.update m i (some b)) j
          (some { b with mq := none, absoluteName := "" })) := by
        simp [bipcMoveAssign, ha, hb, hij]
      exact ⟨_, hmove, ⟨_, hobj (by simp [hij]), .refl _⟩, ⟨_, hobj (by simp), hnull b⟩⟩
    · have hk : m k = none := Option.map_eq_none_iff.mp hk
      have hkj : k ≠ j := by
        rintro rfl
        cases hk.symm.trans hb
      have hmove : bipcMoveConstruct k j m = some (Function.update (Function.update m k (some b)) j
          (some { b with mq := none, absoluteName := "" })) := by
        simp [bipcMoveConstruct, hk, hb]
      exact ⟨_, hmove, ⟨_, hobj (by simp [hkj]), .refl _⟩, ⟨_, hobj (by simp), hnull b⟩⟩

/-- **Where swap and move carry the whole state**: for `Posix_mq_handle` always, for `Bipc_mq_handle` where
the handles are in the same modes, or have no queues. -/
theorem exchange_iff (bytes : PosixMq.Fd → Nat) (snd rcv : Bool) :
    (∀ w i j, (posixPlaces bytes).Carries posixNull w i j) ∧
      ∀ m i j, bipcPlaces.Carries (bipcNull snd rcv) m i j ↔
        ∀ a b, i ≠ j → m i = some a → m j = some b → SameModes a b :=
  ⟨posix_carries bytes, bipc_carries_iff snd rcv⟩

/-- A handle that is interrupting sends, and one that is not. -/
def sampleHandles : Nat → Option BipcMembers
  | 0 => some ⟨some 7, "q", true, false⟩
  | 1 => some ⟨some 8, "r", false, false⟩
  | _ => none

/-- After `swap()` the handle to queue 8 is interrupting, which it was not. -/
theorem not_exchange_interrupted : ∃ m, bipcSwap 0 1 sampleHandles = some m ∧
    m 0 = some ⟨some 8, "r", true, false⟩ ∧ m 1 = some ⟨some 7, "q", false, false⟩ ∧
    ¬ bipcPlaces.Carries (bipcNull false false) sampleHandles 0 1 := by
  refine ⟨_, rfl, rfl, rfl, fun h => ?_⟩
  obtain ⟨⟨m', _, hswap, -, ⟨c, hc, hsame⟩, -⟩, -, -⟩ := h _ _ (by decide) rfl rfl
  cases hswap
  cases hc
  have hmode := interrupting_eq_of_same (b := ⟨some 8, "r", false, false⟩) rfl hsame .snd
  cases hmode

end FlowIpc.MqHandle
