import FlowIpc.Lib.Transition
import FlowIpc.SocketStream.Directions

/-!
# The two directions and their socket

One `Native_socket_stream::Impl` sends and receives over one socket, in two threads at once. All they
share is where the socket is: `m_peer_socket`, or, once a call on it has failed, `m_peer_socket_hosed`.
Each looks there under the mutex, and calls the system under it, so that what the two do to the socket
comes in some order; apart from that they go about their business at once.

Here an operation of a direction is begun; uses the socket some times, between which the other direction
may do anything; and ends with what it comes to, given what it was told each time (`Side.next`). All the
cells that will ever come in are taken to be on the socket from the start, since what can be read of
them at a time is the system's to say.

Source: `sync_io/detail/native_socket_stream_impl.hpp` `m_peer_socket`, `m_peer_socket_hosed`,
`m_peer_socket_mutex`; `native_socket_stream_impl_snd.cpp`, `native_socket_stream_impl_rcv.cpp`.
-/

namespace FlowIpc.SocketStream

open Lts

/-! ## The socket -/

/-- Sending, or receiving. -/
inductive Dir where
  /-- `snd_*` -/
  | snd
  /-- `rcv_*` -/
  | rcv
  deriving DecidableEq

/-- What the directions share, and the calls made on the socket so far.
Source: `native_socket_stream_impl.hpp` `m_peer_socket`, `m_peer_socket_hosed` -/
structure Sockets where
  /-- `bool(m_peer_socket)` -/
  peerSocket : Bool
  /-- `bool(m_peer_socket_hosed)` -/
  peerSocketHosed : Bool
  /-- Some assertion on these has failed. -/
  assertFailed : Bool
  /-- The reads and writes that the system was called for, in order, and what they came to. -/
  calls : List (Dir × SockAnswer)
  deriving DecidableEq

namespace Sockets

/-- As the constructors leave them. -/
def ctor : Sockets := ⟨true, false, false, []⟩

/-- `assert(p)` -/
def assert (p : Sockets) (q : Prop) [Decidable q] : Sockets :=
  { p with assertFailed := p.assertFailed || !decide q }

/-- The part under the mutex of `snd_nb_write_low_lvl_payload()` and `rcv_nb_read_low_lvl_payload()`,
where the call on the socket would come to `k`; what the function finds.
Source: `native_socket_stream_impl_snd.cpp` `snd_nb_write_low_lvl_payload`,
`native_socket_stream_impl_rcv.cpp` `rcv_nb_read_low_lvl_payload` -/
def nbAccess (p : Sockets) (d : Dir) (k : SockAnswer) : SockAnswer × Sockets :=
  if p.peerSocket then
    let p := { p with calls := p.calls ++ [(d, k)] }
    match k with
    | .failed _ =>
      let p := p.assert (p.peerSocketHosed = false)
      let p := { p with peerSocketHosed := p.peerSocket, peerSocket := false }
      (k, p.assert (p.peerSocket = false))
    | _ => (k, p)
  else (.hosed, p)

end Sockets

/-! ## The directions -/

/-- An operation that has been begun. -/
structure Op (D : Direction) where
  /-- What was called, or what happened. -/
  input : D.Input
  /-- What the operation was told each time it used the socket. -/
  told : List SockAnswer
  /-- The socket had been put away by the time it was begun. -/
  late : Bool

/-- A direction, and the operation it is in, if any. -/
structure Side (D : Direction) where
  /-- Its state outside of operations. -/
  state : D.State
  /-- The operation. -/
  op : Option (Op D)

/-- What happens next in a direction. -/
inductive SideMove (ι : Type) where
  /-- An operation is begun. -/
  | begin (i : ι)
  /-- The operation uses the socket, and the call on it, if it comes to that, comes to `k`. -/
  | use (k : SockAnswer)
  /-- The operation is over. -/
  | done

namespace Side

variable {D : Direction}

/-- The last thing that an operation which is over can have found when it used the socket. What it would
be told by another use does not matter to it. -/
def probe (p : Sockets) : SockAnswer :=
  if p.peerSocket then .failed 0 else .hosed

/-- One move. An operation uses the socket if it needs to be told one thing more; it is over if it does
not. (If all it needs to know is that the socket is there, it is over as soon as it finds it there.) -/
def next (d : Dir) (p : Sockets) (x : Side D) : SideMove D.Input → Option (Sockets × Side D × List D.Obs)
  | .begin i =>
    match x.op, D.step x.state i [] with
    | none, some _ => some (p, { x with op := some ⟨i, [], !p.peerSocket⟩ }, [])
    | _, _ => none
  | .use k =>
    match x.op with
    | none => none
    | some o =>
      if k = .hosed then none
      else
        let (found, p) := p.nbAccess d k
        match D.step x.state o.input (o.told ++ [found]) with
        | some (s, _) =>
          if D.answers s = [] then some (p, { x with op := some { o with told := o.told ++ [found] } }, [])
          else none
        | none => none
  | .done =>
    match x.op with
    | none => none
    | some o =>
      match D.step x.state o.input (o.told ++ [probe p]) with
      | some (s, obs) => if D.answers s = [probe p] then some (p, ⟨s, none⟩, obs) else none
      | none => none

end Side

/-- A `Native_socket_stream::Impl` in the PEER state.
Source: `native_socket_stream_impl.hpp` `Native_socket_stream::Impl` -/
structure NativeSocketStream where
  /-- What the directions share. -/
  sockets : Sockets
  /-- The sending direction. -/
  snd : Side NativeSocketStreamSnd.direction
  /-- The receiving direction. -/
  rcv : Side NativeSocketStreamRcv.direction

namespace NativeSocketStream

/-- What happens next. -/
inductive Input where
  /-- In the sending direction. -/
  | snd (m : SideMove NativeSocketStreamSnd.Input)
  /-- In the receiving direction. -/
  | rcv (m : SideMove NativeSocketStreamRcv.Input)

/-- What can be seen. -/
abbrev Seen := NativeSocketStreamSnd.Obs ⊕ NativeSocketStreamRcv.Obs

/-- One step. -/
def next (w : NativeSocketStream) : Input → Option (NativeSocketStream × List Seen)
  | .snd m =>
    (w.snd.next .snd w.sockets m).map fun r =>
      ({ w with sockets := r.1, snd := r.2.1 }, r.2.2.map .inl)
  | .rcv m =>
    (w.rcv.next .rcv w.sockets m).map fun r =>
      ({ w with sockets := r.1, rcv := r.2.1 }, r.2.2.map .inr)

/-- The stream after a step. -/
def after (w : NativeSocketStream) (i : Input) : Option NativeSocketStream :=
  (w.next i).map Prod.fst

/-- The steps. -/
def Step (w : NativeSocketStream) (i : Input) (w' : NativeSocketStream) : Prop :=
  w.after i = some w'

/-- A stream that has just been constructed around a connected socket, on which `incoming` will come
in. -/
def ctor (incoming : List Cell) : NativeSocketStream where
  sockets := .ctor
  snd := ⟨.ctor true ⟨true, [], 0, []⟩, none⟩
  rcv := ⟨.ctor true ⟨true, incoming, 0, []⟩, none⟩

/-- Such a stream. -/
def Init (w : NativeSocketStream) : Prop :=
  ∃ incoming, w = ctor incoming

end NativeSocketStream

/-! ## The socket is put away once -/

namespace Sockets

/-- Exactly one of the pointers is not null: the second from when a call, the last one, has failed. -/
structure Ok (p : Sockets) : Prop where
  hosed_eq : p.peerSocketHosed = !p.peerSocket
  noFailure : p.assertFailed = false
  fine : p.peerSocket = true → ∀ c ∈ p.calls, c.2.Fine
  failed : p.peerSocket = false →
    ∃ cs d n, p.calls = cs ++ [(d, .failed n)] ∧ ∀ c ∈ cs, c.2.Fine

/-- A direction just constructed is in order. -/
theorem ok_ctor : ctor.Ok :=
  ⟨rfl, rfl, fun _ c hc => (by cases hc), fun h => (by cases h)⟩

variable {p p' : Sockets} {d : Dir} {k found : SockAnswer}

/-- A use of the socket finds it there, and then it is called; or it finds it put away. -/
theorem Ok.nbAccess_cases (h : p.Ok) (hk : k ≠ .hosed) (hacc : p.nbAccess d k = (found, p')) :
    p'.Ok ∧ ((p.peerSocket = true ∧ found = k ∧ k.Fine ∧ p'.peerSocket = true ∧
        p'.calls = p.calls ++ [(d, k)]) ∨
      (p.peerSocket = true ∧ ∃ n, found = .failed n ∧ p'.peerSocket = false ∧
        p'.calls = p.calls ++ [(d, .failed n)]) ∨
      (p.peerSocket = false ∧ found = .hosed ∧ p' = p)) := by
  unfold nbAccess at hacc
  split at hacc
  · rename_i halive
    have hmem : ∀ c ∈ p.calls ++ [(d, k)], k.Fine → c.2.Fine := by
      intro c hc hfine
      rcases List.mem_append.mp hc with hc | hc
      · exact h.fine halive c hc
      · rw [List.mem_singleton.mp hc]
        exact hfine
    have hgo : k.Fine → ({ p with calls := p.calls ++ [(d, k)] } : Sockets).Ok := fun hfine =>
      ⟨h.hosed_eq, h.noFailure, fun _ c hc => hmem c hc hfine,
        fun hdead => absurd hdead (by simp [halive])⟩
    cases k with
    | moves n =>
        cases hacc
        have hfine : (SockAnswer.moves n).Fine := .inr ⟨n, rfl⟩
        exact ⟨hgo hfine, .inl ⟨halive, rfl, hfine, halive, rfl⟩⟩
    | wouldBlock =>
        cases hacc
        have hfine : SockAnswer.wouldBlock.Fine := .inl rfl
        exact ⟨hgo hfine, .inl ⟨halive, rfl, hfine, halive, rfl⟩⟩
    | failed n =>
        cases hacc
        refine ⟨⟨?_, ?_, fun halive' => (by cases halive'),
          fun _ => ⟨p.calls, d, n, rfl, h.fine halive⟩⟩, .inr (.inl ⟨halive, n, rfl, rfl, rfl⟩)⟩
        · exact halive
        · simp [assert, h.noFailure, h.hosed_eq, halive]
    | hosed => exact absurd rfl hk
  · rename_i hdead
    cases hacc
    exact ⟨h, .inr (.inr ⟨by simpa using hdead, rfl, rfl⟩)⟩

end Sockets

/-! ## A direction keeps what it has found -/

namespace Side

variable {D : Direction} {P : D.State → Prop} {d : Dir} {p p' : Sockets} {x x' : Side D}
  {m : SideMove D.Input} {obs : List D.Obs}

/-- What an operation was told: the socket was there each time, up to a last time at which it failed, or
had been put away. -/
inductive Told (d : Dir) (p : Sockets) (o : Op D) : Prop where
  /-- It was there. -/
  | fine (all : ∀ k ∈ o.told, k.Fine) (late : o.late = true → p.peerSocket = false ∧ o.told = [])
  /-- At last the operation's call on it failed. -/
  | failed (us : List SockAnswer) (all : ∀ k ∈ us, k.Fine) (n : Nat) (told : o.told = us ++ [.failed n])
      (late : o.late = false)
  /-- At last it had been put away. -/
  | gone (us : List SockAnswer) (all : ∀ k ∈ us, k.Fine) (told : o.told = us ++ [.hosed])
      (dead : p.peerSocket = false) (late : o.late = true → us = [])

/-- The direction's call on the socket failed: the operation that made it is not over, or the error is
the one that is kept. -/
def Hit (x : Side D) (n : Nat) : Prop :=
  (∃ o us, x.op = some o ∧ o.told = us ++ [.failed n]) ∨ D.pendingErrCode x.state = some (.system n)

/-- What holds of a direction at any time. -/
structure Ok (P : D.State → Prop) (d : Dir) (p : Sockets) (x : Side D) : Prop where
  state : P x.state
  told : ∀ o, x.op = some o → Told d p o
  /-- A direction that keeps an error does not use the socket. -/
  unused : ∀ o, x.op = some o → D.pendingErrCode x.state ≠ none → o.told = []
  hit : ∀ n, (d, .failed n) ∈ p.calls → x.Hit n

/-- An error that is kept stays, and then no cell is moved. -/
def Keeps (x x' : Side D) : Prop :=
  D.pendingErrCode x.state ≠ none →
    D.pendingErrCode x'.state = D.pendingErrCode x.state ∧ D.moved x'.state = D.moved x.state

/-- What the end of the operation `o` comes to: an error that it was told at last is kept, and no
message is handed over then. Begun without a socket, it moves nothing either. -/
structure Ends (o : Op D) (x x' : Side D) (obs : List D.Obs) : Prop where
  failed : ∀ n, .failed n ∈ o.told → D.pendingErrCode x.state = none ∧
    D.pendingErrCode x'.state = some (.system n) ∧ ∀ o ∈ obs, D.isData o = false
  gone : .hosed ∈ o.told → D.pendingErrCode x.state = none ∧
    D.pendingErrCode x'.state = D.hosedCode.toErrorCode ∧ ∀ o ∈ obs, D.isData o = false
  late : o.late = true → D.moved x'.state = D.moved x.state ∧ ∀ o ∈ obs, D.isData o = false

/-- A direction has the error that it has. -/
theorem Keeps.refl (x : Side D) : x.Keeps x :=
  fun _ => ⟨rfl, rfl⟩

/-- An error that is kept twice is kept. -/
theorem Keeps.trans {x'' : Side D} (h : x.Keeps x') (h' : x'.Keeps x'') : x.Keeps x'' := by
  intro herr
  obtain ⟨herr', hmoved⟩ := h herr
  obtain ⟨herr'', hmoved'⟩ := h' (by rw [herr']; exact herr)
  exact ⟨herr''.trans herr', hmoved'.trans hmoved⟩

/-- What a move does to what the directions share: nothing, once the socket has been put away, and else
at most a call of the direction's own. -/
structure Uses (d : Dir) (p p' : Sockets) : Prop where
  once : p.peerSocket = false → p' = p
  own : ∀ d' n, d' ≠ d → (d', SockAnswer.failed n) ∈ p'.calls → (d', .failed n) ∈ p.calls

/-- Sockets that are left alone are as they were. -/
theorem Uses.refl (d : Dir) (p : Sockets) : Uses d p p :=
  ⟨fun _ => rfl, fun _ _ _ h => h⟩

/-- What the other direction does to what is shared makes no difference. -/
theorem Ok.of_uses {d' : Dir} (h : x.Ok P d p) (hne : d ≠ d') (huses : Uses d' p p') :
    x.Ok P d p' where
  state := h.state
  told o ho := by
    cases h.told o ho with
    | fine all late =>
        refine .fine all fun hlate => ?_
        obtain ⟨hdead, hnil⟩ := late hlate
        rw [huses.once hdead]
        exact ⟨hdead, hnil⟩
    | failed us all n told late => exact .failed us all n told late
    | gone us all told dead late => exact .gone us all told (by rw [huses.once dead, dead]) late
  unused := h.unused
  hit n hmem := h.hit n (huses.own d n hne hmem)

/-- A direction that begins to do something is in order. -/
theorem Ok.begin {i : D.Input} (h : x.Ok P d p) (hop : x.op = none) :
    Ok P d p { x with op := some ⟨i, [], !p.peerSocket⟩ } where
  state := h.state
  told o ho := by
    cases ho
    exact .fine (fun k hk => by cases hk) fun hlate => ⟨by simpa using hlate, rfl⟩
  unused o ho _ := by
    cases ho
    rfl
  hit n hmem := by
    rcases h.hit n hmem with ⟨o, us, ho, -⟩ | herr
    · rw [hop] at ho
      cases ho
    · exact .inr herr

/-- All that an operation which goes on using the socket was told before is that it was there. -/
theorem fine_of_accessed {us : List SockAnswer} {k : SockAnswer} {err : ErrorCode} {hosed : Code}
    (h : Accessed hosed [] (us ++ [k]) err) : ∀ k' ∈ us, k'.Fine := by
  intro k' hk'
  generalize hks : us ++ [k] = ks at h
  cases h with
  | fine vs all =>
      rw [List.append_nil] at hks
      exact all k' (hks ▸ List.mem_append_left _ hk')
  | failed vs all n =>
      obtain ⟨rfl, -⟩ := List.append_inj' hks rfl
      exact all k' hk'
  | gone vs all =>
      obtain ⟨rfl, -⟩ := List.append_inj' hks rfl
      exact all k' hk'

/-- An operation uses the socket. -/
theorem Ok.use {o : Op D} {k found : SockAnswer} {s : D.State} (hD : D.Lawful P) (h : x.Ok P d p)
    (hp : p.Ok) (ho : x.op = some o) (hk : k ≠ .hosed) (hacc : p.nbAccess d k = (found, p'))
    (hstep : D.step x.state o.input (o.told ++ [found]) = some (s, obs)) (hall : D.answers s = []) :
    p'.Ok ∧ Uses d p p' ∧ Ok P d p' { x with op := some { o with told := o.told ++ [found] } } := by
  obtain ⟨hp', hcases⟩ := hp.nbAccess_cases hk hacc
  -- No error is known, or no answer would have been needed.
  have herr : D.pendingErrCode x.state = none := by
    by_contra herr
    obtain ⟨-, hanswers, -⟩ := hD.latched _ _ _ _ _ h.state hstep herr
    rw [hall] at hanswers
    simp at hanswers
  obtain ⟨err, hacc', -⟩ := hD.accessed _ _ _ _ _ h.state hstep herr
  rw [hall] at hacc'
  have hfine := fine_of_accessed hacc'
  -- So the operation has not been told that a call of the direction's has failed.
  have hhit : ∀ n, (d, .failed n) ∉ p.calls := by
    intro n hmem
    rcases h.hit n hmem with ⟨o', us, ho', htold⟩ | herr'
    · rw [ho] at ho'
      cases ho'
      rcases hfine (.failed n) (by simp [htold]) with hf | ⟨m, hf⟩ <;> cases hf
    · rw [herr] at herr'
      cases herr'
  have hlate : p.peerSocket = true → o.late = false := by
    intro halive
    cases h.told o ho with
    | fine all late =>
        by_contra hlate
        rw [(late (by simpa using hlate)).1] at halive
        cases halive
    | failed us all n told late => exact late
    | gone us all told dead late =>
        rcases hfine .hosed (by simp [told]) with hf | ⟨m, hf⟩ <;> cases hf
  rcases hcases with ⟨halive, rfl, hkfine, -, hcalls⟩ | ⟨halive, n, rfl, hdead, hcalls⟩ |
    ⟨hdead, rfl, rfl⟩
  · have hlast : ∀ d' n, (d', SockAnswer.failed n) ∈ p'.calls → (d', .failed n) ∈ p.calls := by
      intro d' n hmem
      rw [hcalls] at hmem
      rcases List.mem_append.mp hmem with hmem | hmem
      · exact hmem
      · obtain ⟨-, rfl⟩ := Prod.mk.inj (List.mem_singleton.mp hmem)
        rcases hkfine with hf | ⟨m, hf⟩ <;> cases hf
    refine ⟨hp', ⟨fun hdead => by simp [halive] at hdead, fun d' n _ => hlast d' n⟩, h.state, ?_, ?_, ?_⟩
    · intro o' ho'
      cases ho'
      refine .fine (fun k' hk' => ?_) fun hl => by simp [hlate halive] at hl
      rcases List.mem_append.mp hk' with hk' | hk'
      · exact hfine k' hk'
      · rw [List.mem_singleton.mp hk']
        exact hkfine
    · intro o' _ hne
      exact absurd herr hne
    · intro n hmem
      exact absurd (hlast d n hmem) (hhit n)
  · refine ⟨hp', ⟨fun hdead => by simp [halive] at hdead, fun d' m hne hmem => ?_⟩, h.state, ?_, ?_, ?_⟩
    · rw [hcalls] at hmem
      rcases List.mem_append.mp hmem with hmem | hmem
      · exact hmem
      · exact absurd (Prod.mk.inj (List.mem_singleton.mp hmem)).1 hne
    · intro o' ho'
      cases ho'
      exact .failed o.told hfine n rfl (hlate halive)
    · intro o' _ hne
      exact absurd herr hne
    · intro m hmem
      rw [hcalls] at hmem
      rcases List.mem_append.mp hmem with hmem | hmem
      · exact absurd hmem (hhit m)
      · obtain ⟨-, hm⟩ := Prod.mk.inj (List.mem_singleton.mp hmem)
        cases hm
        exact .inl ⟨_, o.told, rfl, rfl⟩
  · refine ⟨hp', .refl d p', h.state, ?_, ?_, ?_⟩
    · intro o' ho'
      cases ho'
      refine .gone o.told hfine rfl hdead fun hl => ?_
      cases h.told o ho with
      | fine all late => exact (late hl).2
      | failed us all n told late =>
          rw [show o.late = true from hl] at late
          cases late
      | gone us all told dead late =>
          rcases hfine .hosed (by simp [told]) with hf | ⟨m, hf⟩ <;> cases hf
    · intro o' _ hne
      exact absurd herr hne
    · intro n hmem
      exact absurd hmem (hhit n)

/-- What an operation that is over was told, and the error it has come to. -/
theorem told_of_accessed {told : List SockAnswer} {k : SockAnswer} {err : ErrorCode} {hosed : Code}
    (h : Accessed hosed [k] (told ++ [k]) err) :
    ((∀ k' ∈ told, k'.Fine) ∧ err = none) ∨
      (∃ us n, told = us ++ [.failed n] ∧ (∀ k' ∈ us, k'.Fine) ∧ err = some (.system n)) ∨
      ∃ us, told = us ++ [.hosed] ∧ (∀ k' ∈ us, k'.Fine) ∧ err = hosed.toErrorCode := by
  generalize hks : told ++ [k] = ks at h
  have hsplit : ∀ us : List SockAnswer, ∀ k' : SockAnswer, us ++ k' :: [k] = us ++ [k'] ++ [k] := by
    intro us k'
    simp
  cases h with
  | fine us all =>
      obtain ⟨rfl, -⟩ := List.append_inj' hks rfl
      exact .inl ⟨all, rfl⟩
  | failed us all n =>
      rw [hsplit] at hks
      obtain ⟨rfl, -⟩ := List.append_inj' hks rfl
      exact .inr (.inl ⟨us, n, rfl, all, rfl⟩)
  | gone us all =>
      rw [hsplit] at hks
      obtain ⟨rfl, -⟩ := List.append_inj' hks rfl
      exact .inr (.inr ⟨us, rfl, all, rfl⟩)

/-- To fail is not fine. -/
theorem not_fine_failed (n : Nat) : ¬ (SockAnswer.failed n).Fine := by
  rintro (hf | ⟨m, hf⟩) <;> cases hf

/-- Nor is to have been put away. -/
theorem not_fine_hosed : ¬ SockAnswer.hosed.Fine := by
  rintro (hf | ⟨m, hf⟩) <;> cases hf

/-- Of what an operation was told only the last is not that the socket was there. -/
theorem eq_of_mem_snoc {us : List SockAnswer} {k k' : SockAnswer} (hus : ∀ k ∈ us, k.Fine)
    (hmem : k' ∈ us ++ [k]) (hk' : ¬ k'.Fine) : k' = k := by
  rcases List.mem_append.mp hmem with hmem | hmem
  · exact absurd (hus k' hmem) hk'
  · exact List.mem_singleton.mp hmem

/-- What the end of an operation comes to that has found an error. -/
theorem Ok.err_of_mem {o : Op D} {s : D.State} {k : SockAnswer} (hD : D.Lawful P) (h : x.Ok P d p)
    (ho : x.op = some o) (hstep : D.step x.state o.input (o.told ++ [probe p]) = some (s, obs))
    (hleft : D.answers s = [probe p]) (hmem : k ∈ o.told) (hk : ¬ k.Fine) :
    D.pendingErrCode x.state = none ∧
      ((∃ n, k = .failed n ∧ D.pendingErrCode s = some (.system n)) ∨
        (k = .hosed ∧ D.pendingErrCode s = D.hosedCode.toErrorCode)) := by
  have herr : D.pendingErrCode x.state = none := by
    by_contra herr
    rw [h.unused o ho herr] at hmem
    cases hmem
  obtain ⟨err, hacc, hkept⟩ := hD.accessed _ _ _ _ _ h.state hstep herr
  rw [hleft] at hacc
  refine ⟨herr, ?_⟩
  rcases told_of_accessed hacc with ⟨hall, -⟩ | ⟨us, n, htold, hus, rfl⟩ | ⟨us, htold, hus, rfl⟩
  · exact absurd (hall k hmem) hk
  · rw [htold] at hmem
    exact .inl ⟨n, eq_of_mem_snoc hus hmem hk, hkept (by simp)⟩
  · rw [htold] at hmem
    exact .inr ⟨eq_of_mem_snoc hus hmem hk, hkept (by simp)⟩

/-- An operation ends. -/
theorem Ok.done {o : Op D} {s : D.State} (hD : D.Lawful P) (h : x.Ok P d p) (ho : x.op = some o)
    (hstep : D.step x.state o.input (o.told ++ [probe p]) = some (s, obs))
    (hleft : D.answers s = [probe p]) :
    Ok P d p ⟨s, none⟩ ∧ x.Keeps ⟨s, none⟩ ∧ Ends o x ⟨s, none⟩ obs := by
  have hkeeps : x.Keeps ⟨s, none⟩ := by
    intro herr
    obtain ⟨herr', -, hmoved, -⟩ := hD.latched _ _ _ _ _ h.state hstep herr
    exact ⟨herr', hmoved⟩
  have hfailed : ∀ n, .failed n ∈ o.told → D.pendingErrCode x.state = none ∧
      D.pendingErrCode s = some (.system n) := by
    intro n hmem
    obtain ⟨herr, hcases⟩ := h.err_of_mem hD ho hstep hleft hmem (not_fine_failed n)
    rcases hcases with ⟨m, hm, herr'⟩ | ⟨hm, -⟩
    · cases hm
      exact ⟨herr, herr'⟩
    · cases hm
  have hgone : .hosed ∈ o.told → D.pendingErrCode x.state = none ∧
      D.pendingErrCode s = D.hosedCode.toErrorCode := by
    intro hmem
    obtain ⟨herr, hcases⟩ := h.err_of_mem hD ho hstep hleft hmem not_fine_hosed
    rcases hcases with ⟨m, hm, -⟩ | ⟨-, herr'⟩
    · cases hm
    · exact ⟨herr, herr'⟩
  have hdata : D.pendingErrCode s ≠ none → ∀ o ∈ obs, D.isData o = false :=
    hD.data _ _ _ _ _ h.state hstep
  refine ⟨⟨hD.keeps _ _ _ _ _ h.state hstep, by simp, by simp, ?_⟩, hkeeps, ?_, ?_, ?_⟩
  · intro n hmem
    rcases h.hit n hmem with ⟨o', us, ho', htold⟩ | herr
    · rw [ho] at ho'
      cases ho'
      exact .inr (hfailed n (by simp [htold])).2
    · exact .inr ((hkeeps (by simp [herr])).1.trans herr)
  · intro n hmem
    obtain ⟨herr, herr'⟩ := hfailed n hmem
    exact ⟨herr, herr', hdata (by simp [herr'])⟩
  · intro hmem
    obtain ⟨herr, herr'⟩ := hgone hmem
    exact ⟨herr, herr', hdata (by simp [herr'])⟩
  · -- Begun late, the operation was told of no socket at all.
    intro hlate
    apply hD.still _ _ _ _ _ h.state hstep
    intro k hk
    cases h.told o ho with
    | fine all late =>
        obtain ⟨hdead, hnil⟩ := late hlate
        rw [hnil, probe, hdead] at hk
        exact List.mem_singleton.mp hk
    | failed us all n told late =>
        rw [hlate] at late
        cases late
    | gone us all told dead late =>
        rw [told, late hlate, probe, dead] at hk
        simpa using hk

/-- What a move of a direction does. -/
theorem Ok.next (hD : D.Lawful P) (h : x.Ok P d p) (hp : p.Ok)
    (hnext : x.next d p m = some (p', x', obs)) :
    p'.Ok ∧ Uses d p p' ∧ x'.Ok P d p' ∧ x.Keeps x' ∧
      (m = .done → ∃ o, x.op = some o ∧ Ends o x x' obs) ∧ (m ≠ .done → x'.state = x.state) := by
  cases m with
  | begin i =>
      unfold Side.next at hnext
      simp only at hnext
      split at hnext
      · rename_i hop _
        cases hnext
        exact ⟨hp, .refl d p, h.begin hop, Keeps.refl x, by simp, fun _ => rfl⟩
      · cases hnext
  | use k =>
      unfold Side.next at hnext
      simp only at hnext
      split at hnext
      · cases hnext
      · rename_i o hop
        split at hnext
        · cases hnext
        · rename_i hk
          split at hnext
          · rename_i s obs' hstep
            split at hnext
            · rename_i hall
              cases hnext
              obtain ⟨hp', huses, hx'⟩ := h.use hD hp hop hk rfl hstep hall
              exact ⟨hp', huses, hx', Keeps.refl x, by simp, fun _ => rfl⟩
            · cases hnext
          · cases hnext
  | done =>
      unfold Side.next at hnext
      simp only at hnext
      split at hnext
      · cases hnext
      · rename_i o hop
        split at hnext
        · rename_i s obs' hstep
          split at hnext
          · rename_i hleft
            cases hnext
            obtain ⟨hx', hkeeps, hends⟩ := h.done hD hop hstep hleft
            exact ⟨hp, .refl d p, hx', hkeeps, fun _ => ⟨o, hop, hends⟩, fun hne => absurd rfl hne⟩
          · cases hnext
        · cases hnext

end Side

/-! ## Both directions -/

namespace NativeSocketStream

/-- What holds at any time. -/
structure Ok (w : NativeSocketStream) : Prop where
  sockets : w.sockets.Ok
  snd : w.snd.Ok NativeSocketStreamSnd.Sound .snd w.sockets
  rcv : w.rcv.Ok NativeSocketStreamRcv.Waiting .rcv w.sockets

variable {w w' : NativeSocketStream} {i : Input} {is : List Input} {seen : List Seen}

/-- A stream just constructed is in order. -/
theorem ok_ctor (incoming : List Cell) : (ctor incoming).Ok where
  sockets := Sockets.ok_ctor
  snd := by
    refine ⟨⟨⟨none, NativeSocketStreamSnd.inv_ctor rfl⟩, fun _ => rfl⟩, by simp [ctor], by simp [ctor], ?_⟩
    intro n hmem
    cases hmem
  rcv := by
    refine ⟨⟨by simp [ctor, NativeSocketStreamRcv.ctor], fun _ => rfl⟩, by simp [ctor], by simp [ctor], ?_⟩
    intro n hmem
    cases hmem

/-- What a step leaves as it was. -/
structure Keeps (w w' : NativeSocketStream) : Prop where
  /-- Once the socket has been put away, it stays there, and no call is made on it. -/
  sockets : w.sockets.peerSocket = false → w'.sockets = w.sockets
  snd : w.snd.Keeps w'.snd
  rcv : w.rcv.Keeps w'.rcv

/-- Each direction has the error that it has. -/
theorem Keeps.refl (w : NativeSocketStream) : w.Keeps w :=
  ⟨fun _ => rfl, .refl _, .refl _⟩

/-- Errors that are kept twice are kept. -/
theorem Keeps.trans {w'' : NativeSocketStream} (h : w.Keeps w') (h' : w'.Keeps w'') :
    w.Keeps w'' where
  sockets hdead := by
    have heq := h.sockets hdead
    exact (h'.sockets (by rw [heq]; exact hdead)).trans heq
  snd := h.snd.trans h'.snd
  rcv := h.rcv.trans h'.rcv

/-- What the sending direction does keeps the stream in order. -/
theorem Ok.snd_next {m : SideMove NativeSocketStreamSnd.Input} {p : Sockets}
    {x : Side NativeSocketStreamSnd.direction} {obs : List NativeSocketStreamSnd.Obs} (h : w.Ok)
    (hnext : w.snd.next .snd w.sockets m = some (p, x, obs)) :
    ({ w with sockets := p, snd := x } : NativeSocketStream).Ok ∧
      w.Keeps { w with sockets := p, snd := x } ∧
      (m = .done → ∃ o, w.snd.op = some o ∧ Side.Ends o w.snd x obs) := by
  obtain ⟨hp, huses, hx, hkeeps, hends, -⟩ :=
    h.snd.next NativeSocketStreamSnd.lawful_direction h.sockets hnext
  exact ⟨⟨hp, hx, h.rcv.of_uses (by decide) huses⟩, ⟨huses.once, hkeeps, .refl _⟩, hends⟩

/-- What the receiving direction does keeps the stream in order. -/
theorem Ok.rcv_next {m : SideMove NativeSocketStreamRcv.Input} {p : Sockets}
    {x : Side NativeSocketStreamRcv.direction} {obs : List NativeSocketStreamRcv.Obs} (h : w.Ok)
    (hnext : w.rcv.next .rcv w.sockets m = some (p, x, obs)) :
    ({ w with sockets := p, rcv := x } : NativeSocketStream).Ok ∧
      w.Keeps { w with sockets := p, rcv := x } ∧
      (m = .done → ∃ o, w.rcv.op = some o ∧ Side.Ends o w.rcv x obs) := by
  obtain ⟨hp, huses, hx, hkeeps, hends, -⟩ :=
    h.rcv.next NativeSocketStreamRcv.lawful_direction h.sockets hnext
  exact ⟨⟨hp, h.snd.of_uses (by decide) huses, hx⟩, ⟨huses.once, .refl _, hkeeps⟩, hends⟩

/-- Every step keeps the stream in order, and each error that there is. -/
theorem Ok.step (h : w.Ok) (hstep : Step w i w') : w'.Ok ∧ w.Keeps w' := by
  obtain ⟨⟨w', seen⟩, hnext, rfl⟩ := Option.map_eq_some_iff.mp hstep
  cases i with
  | snd m =>
      obtain ⟨⟨p, x, obs⟩, hside, heq⟩ := Option.map_eq_some_iff.mp hnext
      cases heq
      obtain ⟨hok, hkeeps, -⟩ := h.snd_next hside
      exact ⟨hok, hkeeps⟩
  | rcv m =>
      obtain ⟨⟨p, x, obs⟩, hside, heq⟩ := Option.map_eq_some_iff.mp hnext
      cases heq
      obtain ⟨hok, hkeeps, -⟩ := h.rcv_next hside
      exact ⟨hok, hkeeps⟩

/-- A stream is in order in every state that is reached. -/
theorem ok_of_reachable (h : Reachable Step Init w) : w.Ok := by
  refine Reachable.invariant (P := Ok) ?_ (fun w i w' hok hstep => (hok.step hstep).1) h
  rintro w ⟨incoming, rfl⟩
  exact ok_ctor incoming

/-- Over a run. -/
theorem Ok.run (h : w.Ok) (hrun : Run Step w is w') : w'.Ok ∧ w.Keeps w' := by
  refine Run.invariant (P := fun v => v.Ok ∧ w.Keeps v) ?_ hrun ⟨h, .refl w⟩
  rintro v i v' ⟨hok, hkeeps⟩ hstep
  obtain ⟨hok', hkeeps'⟩ := hok.step hstep
  exact ⟨hok', hkeeps.trans hkeeps'⟩

/-- **Hosing.** In every state that is reached: exactly one of `m_peer_socket` and
`m_peer_socket_hosed` is there, the latter from when a call on the socket, the last one, has failed; the
direction that made the call keeps its error, as soon as the operation is over. Where an operation ends
that was told of a failure, or found the socket put away, that is the error its direction keeps from
then on, and it hands over no message; one that was begun without a socket moves no cell either. And
whatever happens then: there is no other call on the socket, and a direction that keeps an error keeps
that one, and moves no cell any more. -/
theorem hosing (h : Reachable Step Init w) :
    (w.sockets.Ok ∧ (∀ n, (.snd, .failed n) ∈ w.sockets.calls → w.snd.Hit n) ∧
      ∀ n, (.rcv, .failed n) ∈ w.sockets.calls → w.rcv.Hit n) ∧
    (∀ p x obs, w.snd.next .snd w.sockets .done = some (p, x, obs) →
      ∃ o, w.snd.op = some o ∧ Side.Ends o w.snd x obs) ∧
    (∀ p x obs, w.rcv.next .rcv w.sockets .done = some (p, x, obs) →
      ∃ o, w.rcv.op = some o ∧ Side.Ends o w.rcv x obs) ∧
    ∀ is w', Run Step w is w' → w.Keeps w' := by
  have hok := ok_of_reachable h
  refine ⟨⟨hok.sockets, hok.snd.hit, hok.rcv.hit⟩, ?_, ?_, fun is w' hrun => (hok.run hrun).2⟩
  · intro p x obs hnext
    exact (hok.snd_next hnext).2.2 rfl
  · intro p x obs hnext
    exact (hok.rcv_next hnext).2.2 rfl

/-- While a message is being sent a read fails: the attempt to wait for the socket finds it gone. -/
def sampleHosing : List Input :=
  [.snd (.begin .startSendNativeHandleOps), .snd (.use (.moves 1)), .snd .done,
    .rcv (.begin .startReceiveNativeHandleOps), .rcv .done,
    .snd (.begin (.sendNativeHandle ⟨(none, [7, 8]), by simp⟩)), .snd (.use .wouldBlock),
    .rcv (.begin (.asyncReceiveBlob [0, 0] 1)), .rcv (.use (.failed 104)), .rcv .done,
    .snd (.use (.moves 0)), .snd .done]

/-- The receiver keeps the error of the system, and the sender that the socket is gone. -/
theorem hosing_sampleHosing : ∃ w, Run Step (ctor []) sampleHosing w ∧
    w.rcv.state.inp.pendingErrCode = some (.system 104) ∧
    w.snd.state.out.pendingErrCode = Code.lowLvlTransportHosedCannotSend.toErrorCode ∧
    w.sockets.Ok ∧ w.rcv.Hit 104 := by
  have hrun : ((sampleHosing.foldlM after (ctor [])).map fun w => (w.rcv.state.inp.pendingErrCode,
      w.snd.state.out.pendingErrCode, w.sockets.calls)) =
      some (some (.system 104), Code.lowLvlTransportHosedCannotSend.toErrorCode,
        [(.snd, .moves 1), (.snd, .wouldBlock), (.rcv, .failed 104)]) := by decide +kernel
  obtain ⟨w, hw, hseen⟩ := Option.map_eq_some_iff.mp hrun
  have hw := Run.of_foldlM (f := after) hw
  obtain ⟨⟨hsockets, -, hhit⟩, -⟩ := hosing ⟨ctor [], sampleHosing, ⟨[], rfl⟩, hw⟩
  have hcalls := congrArg (fun r => r.2.2) hseen
  refine ⟨w, hw, congrArg Prod.fst hseen, congrArg (fun r => r.2.1) hseen, hsockets, hhit 104 ?_⟩
  simp only at hcalls
  simp [hcalls]

end NativeSocketStream

end FlowIpc.SocketStream
