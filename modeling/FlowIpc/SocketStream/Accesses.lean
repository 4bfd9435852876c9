import FlowIpc.SocketStream.Rcv
import FlowIpc.SocketStream.SndSteps

/-!
# How a direction uses its socket

An operation of either direction finds the socket there each time it comes to use it, up to a last time
at which the socket fails, or has been put away by the other direction: that is then the error the
direction keeps, and it does not come to the socket again (`Accessed`). A direction that keeps an error
does not come to the socket at all.

Source: `sync_io/detail/native_socket_stream_impl_snd.cpp`, `native_socket_stream_impl_rcv.cpp`.
-/

namespace FlowIpc.SocketStream

open Negotiation

/-- The socket was there, and was read or written, or would have blocked. -/
def SockAnswer.Fine (k : SockAnswer) : Prop :=
  k = .wouldBlock ∨ ∃ n, k = .moves n

/-- Of the answers `ks` the last `rest` were not needed; the error, if any, is what the last of the
others came to, in a direction that says `hosed` if its socket has been put away. -/
inductive Accessed (hosed : Code) (rest : List SockAnswer) : List SockAnswer → ErrorCode → Prop where
  /-- The socket was there each time. -/
  | fine (us : List SockAnswer) (all : ∀ k ∈ us, k.Fine) : Accessed hosed rest (us ++ rest) none
  /-- At last it failed. -/
  | failed (us : List SockAnswer) (all : ∀ k ∈ us, k.Fine) (n : Nat) :
      Accessed hosed rest (us ++ .failed n :: rest) (some (.system n))
  /-- At last it had been put away. -/
  | gone (us : List SockAnswer) (all : ∀ k ∈ us, k.Fine) :
      Accessed hosed rest (us ++ .hosed :: rest) hosed.toErrorCode

variable {hosed : Code} {ks ks' rest : List SockAnswer} {err : ErrorCode}

/-- A socket that is not used needs no answers. -/
theorem Accessed.refl : Accessed hosed ks ks none :=
  .fine [] fun _ hk => (by cases hk)

/-- The socket was there for a while, and then. -/
theorem Accessed.trans (h : Accessed hosed ks' ks none) (h' : Accessed hosed rest ks' err) :
    Accessed hosed rest ks err := by
  generalize hnone : (none : ErrorCode) = e at h
  cases h with
  | failed us hus n => cases hnone
  | gone us hus => cases hnone
  | fine us hus =>
      have hall : ∀ vs : List SockAnswer, (∀ k ∈ vs, k.Fine) → ∀ k ∈ us ++ vs, k.Fine := by
        intro vs hvs k hk
        rcases List.mem_append.mp hk with hk | hk
        · exact hus k hk
        · exact hvs k hk
      cases h' with
      | fine vs hvs =>
          rw [← List.append_assoc]
          exact .fine _ (hall vs hvs)
      | failed vs hvs n =>
          rw [← List.append_assoc]
          exact .failed _ (hall vs hvs) n
      | gone vs hvs =>
          rw [← List.append_assoc]
          exact .gone _ (hall vs hvs)

/-- What is left of the answers is the last of them. -/
theorem Accessed.suffix (h : Accessed hosed rest ks err) : rest <:+ ks := by
  cases h with
  | fine us _ => exact List.suffix_append us rest
  | failed us _ n => exact (List.suffix_cons _ rest).trans (List.suffix_append us _)
  | gone us _ => exact (List.suffix_cons _ rest).trans (List.suffix_append us _)

/-- Without an error, the socket was there if any answer was used. -/
theorem Accessed.exists_fine (h : Accessed hosed rest ks none) (hlt : rest.length < ks.length) :
    ∃ k ∈ ks, k.Fine := by
  generalize hnone : (none : ErrorCode) = e at h
  cases h with
  | failed us _ n => cases hnone
  | gone us _ => cases hnone
  | fine us hus =>
      cases us with
      | nil => exact absurd hlt (Nat.lt_irrefl _)
      | cons k us => exact ⟨k, by simp, hus k List.mem_cons_self⟩

/-- One time the socket was there. -/
theorem Accessed.one {k : SockAnswer} (hk : k.Fine) : Accessed hosed ks (k :: ks) none := by
  apply Accessed.fine [k]
  intro k' hk'
  rw [List.mem_singleton.mp hk']
  exact hk

namespace PeerSocket

/-- No more is read than there is room for. -/
theorem length_of_rcvNbRead {p p' : PeerSocket} {size : Nat} {got : List Cell}
    (hread : p.rcvNbReadLowLvlPayload size = (got, err, p')) : got.length ≤ size := by
  unfold rcvNbReadLowLvlPayload readSome at hread
  simp only at hread
  split at hread
  · split at hread
    · rename_i heq
      cases hread
      split at heq
      · cases heq
        exact List.length_take_le _ _
      · cases heq
      · cases heq
        exact Nat.zero_le _
      · cases heq
        exact Nat.zero_le _
    · cases hread
      exact Nat.zero_le _
  · cases hread
    exact Nat.zero_le _

/-- What a use of a socket, or several, comes to: the answers used, and the error, after which the
socket is not there any more. Where it is not there no cell is moved. -/
structure Goes (hosed : Code) (p p' : PeerSocket) (err : ErrorCode) : Prop where
  accessed : Accessed hosed p'.answers p.answers err
  alive_iff : p'.alive = true ↔ err = none
  still : (∀ k ∈ p.answers, k = .hosed) → p'.sent = p.sent ∧ p'.received = p.received

variable {p p' p'' : PeerSocket}

/-- Nothing is done with it, and it is there still. -/
theorem Goes.refl (h : p.alive = true) : Goes hosed p p none :=
  ⟨.refl, by simp [h], fun _ => ⟨rfl, rfl⟩⟩

/-- One use after the other comes to what the later one does. -/
theorem Goes.trans (h : Goes hosed p p' none) (h' : Goes hosed p' p'' err) :
    Goes hosed p p'' err where
  accessed := h.accessed.trans h'.accessed
  alive_iff := h'.alive_iff
  still hall := by
    obtain ⟨hsent, hrcvd⟩ := h.still hall
    obtain ⟨hsent', hrcvd'⟩ := h'.still fun k hk => hall k (h.accessed.suffix.mem hk)
    exact ⟨hsent'.trans hsent, hrcvd'.trans hrcvd⟩

/-- Looking whether the socket is there. -/
theorem goes_lock (hosed : Code) (h : p.alive = true) :
    Goes hosed p p.lock (if p.lock.alive then none else hosed.toErrorCode) := by
  unfold lock
  split
  · rename_i ks hks
    refine ⟨?_, by simp, fun _ => ⟨rfl, rfl⟩⟩
    rw [hks]
    exact .gone [] fun _ hk => (by cases hk)
  · rw [if_pos h]
    exact .refl h

/-- Writing to the socket is a use of it. -/
theorem goes_sndNbWrite {hndl : NativeHandle} {blob : Blob} {n : Nat} (h : p.alive = true)
    (hwrite : p.sndNbWriteLowLvlPayload hndl blob = (n, err, p')) :
    Goes .lowLvlTransportHosedCannotSend p p' err := by
  unfold sndNbWriteLowLvlPayload lock at hwrite
  cases hks : p.answers with
  | nil =>
      simp only [hks, h, if_true, writeSome] at hwrite
      cases hwrite
      exact .refl h
  | cons k ks =>
      cases k with
      | moves n =>
          simp only [hks, h, if_true, writeSome] at hwrite
          cases hwrite
          refine ⟨?_, by simp, fun hall => by simp [hks] at hall⟩
          rw [hks]
          exact .one (.inr ⟨n, rfl⟩)
      | wouldBlock =>
          simp only [hks, h, if_true, writeSome] at hwrite
          cases hwrite
          refine ⟨?_, by simp, fun _ => ⟨rfl, rfl⟩⟩
          rw [hks]
          exact .one (.inl rfl)
      | failed n =>
          simp only [hks, h, if_true, writeSome] at hwrite
          cases hwrite
          refine ⟨?_, by simp, fun _ => ⟨rfl, rfl⟩⟩
          rw [hks]
          exact .failed [] (fun _ hk => by cases hk) n
      | hosed =>
          simp only [hks, Bool.false_eq_true, if_false] at hwrite
          cases hwrite
          refine ⟨?_, by simp, fun _ => ⟨rfl, rfl⟩⟩
          rw [hks]
          exact .gone [] fun _ hk => (by cases hk)

/-- Reading off the socket is a use of it. -/
theorem goes_rcvNbRead {size : Nat} {got : List Cell} (h : p.alive = true)
    (hread : p.rcvNbReadLowLvlPayload size = (got, err, p')) :
    Goes .lowLvlTransportHosedCannotReceive p p' err := by
  unfold rcvNbReadLowLvlPayload lock at hread
  cases hks : p.answers with
  | nil =>
      simp only [hks, h, if_true, readSome] at hread
      cases hread
      exact .refl h
  | cons k ks =>
      cases k with
      | moves n =>
          simp only [hks, h, if_true, readSome] at hread
          cases hread
          refine ⟨?_, by simp, fun hall => by simp [hks] at hall⟩
          rw [hks]
          exact .one (.inr ⟨n, rfl⟩)
      | wouldBlock =>
          simp only [hks, h, if_true, readSome] at hread
          cases hread
          refine ⟨?_, by simp, fun _ => ⟨rfl, rfl⟩⟩
          rw [hks]
          exact .one (.inl rfl)
      | failed n =>
          simp only [hks, h, if_true, readSome] at hread
          cases hread
          refine ⟨?_, by simp, fun _ => ⟨rfl, rfl⟩⟩
          rw [hks]
          exact .failed [] (fun _ hk => by cases hk) n
      | hosed =>
          simp only [hks, Bool.false_eq_true, if_false] at hread
          cases hread
          refine ⟨?_, by simp, fun _ => ⟨rfl, rfl⟩⟩
          rw [hks]
          exact .gone [] fun _ hk => (by cases hk)

end PeerSocket

/-! ## Sending -/

namespace Out

open PeerSocket

/-- What low-level writing comes to in a sender that knows of no error. -/
abbrev Goes (o o' : Out) : Prop :=
  PeerSocket.Goes .lowLvlTransportHosedCannotSend o.peerSocket o'.peerSocket o'.pendingErrCode

variable {o o' o'' : Out} {hndl : NativeHandle} {blob : Blob} {n : Nat} {avoid : Bool}

/-- Low-level writing that goes on where other such writing has left off. -/
theorem Goes.trans (h : o.Goes o') (herr : o'.pendingErrCode = none) (h' : o'.Goes o'') :
    o.Goes o'' := by
  unfold Goes at h
  rw [herr] at h
  exact PeerSocket.Goes.trans h h'

/-- It is a matter of the socket and the error only. -/
theorem goes_refl (herr : o.pendingErrCode = none) (halive : o.peerSocket.alive = true) :
    o.Goes o := by
  unfold Goes
  rw [herr]
  exact .refl halive

/-- Waiting for the socket is a use of it. -/
theorem goes_asyncWriteQHeadPayload (herr : o.pendingErrCode = none)
    (halive : o.peerSocket.alive = true) : o.Goes o.asyncWriteQHeadPayload := by
  have hgoes := goes_lock .lowLvlTransportHosedCannotSend halive
  unfold Goes asyncWriteQHeadPayload assert
  simp only
  split
  · rename_i hlock
    rw [if_pos hlock] at hgoes
    rw [herr]
    exact hgoes
  · rename_i hlock
    rw [if_neg hlock] at hgoes
    exact hgoes

/-- A payload that is queued uses the socket if it is the first to be waited for. -/
theorem goes_queuePayload (herr : o.pendingErrCode = none) (halive : o.peerSocket.alive = true) :
    o.Goes (o.queuePayload hndl blob n avoid).2 := by
  have hassert : ∀ b : Bool, (if b = true then o.assert (hndl = none) else o).peerSocket =
      o.peerSocket ∧ (if b = true then o.assert (hndl = none) else o).pendingErrCode = none := by
    intro b
    cases b <;> exact ⟨rfl, herr⟩
  obtain ⟨hsocket, herr'⟩ := hassert avoid
  unfold queuePayload
  generalize (⟨if n = 0 then hndl else none, blob.drop n⟩ : SndLowLvlPayload) = new
  simp only
  generalize (if avoid = true then o.assert (hndl = none) else o) = v at hsocket herr'
  unfold Goes
  rw [← hsocket] at halive ⊢
  split
  · exact goes_refl herr' halive
  · split
    · exact goes_asyncWriteQHeadPayload (o := { v with
        pendingPayloadsQ := v.pendingPayloadsQ ++ [new] }) herr' halive
    · exact goes_refl herr' halive

/-- A payload that is written at once, or queued, uses the socket for that. -/
theorem goes_syncWriteOrQPayload (herr : o.pendingErrCode = none)
    (halive : o.peerSocket.alive = true) : o.Goes (o.syncWriteOrQPayload hndl blob avoid).2 := by
  unfold syncWriteOrQPayload
  rw [assert_of herr]
  simp only
  split
  · rcases hwrite : o.peerSocket.sndNbWriteLowLvlPayload hndl blob with ⟨n, err, p⟩
    have hgoes := goes_sndNbWrite halive hwrite
    simp only
    split
    · exact hgoes
    · rename_i hnone
      obtain rfl : err = none := by simpa using hnone
      split
      · exact hgoes
      · let v : Out := { o with peerSocket := p, pendingErrCode := none }
        have hv : o.Goes v := hgoes
        exact hv.trans rfl (goes_queuePayload (o := v) rfl (hgoes.alive_iff.mpr rfl))
  · exact goes_queuePayload herr halive

/-- In a sender that has written without an error the socket is still there. -/
theorem Goes.alive (h : o.Goes o') (herr : o'.pendingErrCode = none) :
    o'.peerSocket.alive = true :=
  h.alive_iff.mpr herr

/-- A frame uses the socket for each of its payloads, until it fails. -/
theorem goes_writeFrame (herr : o.pendingErrCode = none) (halive : o.peerSocket.alive = true)
    (f : Frame) : o.Goes (o.writeFrame f) := by
  cases f with
  | ping => exact goes_syncWriteOrQPayload herr halive
  | endSending => exact goes_syncWriteOrQPayload herr halive
  | msg m =>
      have hhead : o.Goes (o.syncWriteOrQPayload m.hndl (lengthBytes m.blob.length) false).2 :=
        goes_syncWriteOrQPayload herr halive
      unfold writeFrame sendLowLvlPayloads
      simp only
      split
      · rename_i hblob
        exact hhead.trans hblob.2 (goes_syncWriteOrQPayload hblob.2 (hhead.alive hblob.2))
      · exact hhead

/-- What is queued uses the socket for each payload, until it fails or would block. -/
theorem goes_drain {p p' : PeerSocket} {q q' : List SndLowLvlPayload} {err : ErrorCode}
    (halive : p.alive = true) (h : drain p q = (p', q', err)) :
    PeerSocket.Goes .lowLvlTransportHosedCannotSend p p' err := by
  induction q generalizing p with
  | nil =>
      cases h
      exact .refl halive
  | cons payload q ih =>
      rw [drain] at h
      rcases hwrite : p.sndNbWriteLowLvlPayload payload.hndlOrNull payload.blob with ⟨n, err₁, p₁⟩
      have hgoes := goes_sndNbWrite halive hwrite
      rw [hwrite] at h
      cases err₁ with
      | some e =>
          cases h
          exact hgoes
      | none =>
          simp only at h
          split at h
          · exact hgoes.trans (ih (hgoes.alive_iff.mpr rfl) h)
          · split at h
            · cases h
              exact hgoes
            · cases h
              exact hgoes

/-- What is done when the socket is writable is a use of it. -/
theorem goes_onWritable (halive : o.peerSocket.alive = true) : o.Goes o.onWritable := by
  unfold onWritable
  rcases hd : drain o.peerSocket o.pendingPayloadsQ with ⟨p, q, err⟩
  have hgoes := goes_drain halive hd
  simp only
  split
  · rename_i hmore
    obtain rfl : err = none := hmore.1
    let v : Out := ⟨p, q, none, o.evWaits - 1, o.assertFailed⟩
    have hv : o.Goes v := hgoes
    exact hv.trans rfl (goes_asyncWriteQHeadPayload (o := v) rfl (hgoes.alive_iff.mpr rfl))
  · exact hgoes

end Out

/-! ## Receiving -/

/-- Something is left to be read. -/
def RcvMsgState.Left : RcvMsgState → Prop
  | .msgStart => True
  | .headPayload nLeft => nLeft ≠ 0
  | .metaBlobPayload nLeft => nLeft ≠ 0

namespace In

open PeerSocket

/-- What reading comes to in a receiver that knows of no error: the error that a use of the socket
comes to, if any, is the one it keeps. -/
structure Comes (r : In) (p : Option Result × In) : Prop where
  goes : ∃ err, Goes .lowLvlTransportHosedCannotReceive r.peerSocket p.2.peerSocket err ∧
    (err ≠ none → p.2.pendingErrCode = err)
  /-- Reading goes on only without an error. -/
  again : p.1 = none → p.2.pendingErrCode = none
  /-- Otherwise the result is would-block, or the error that is kept, if any. -/
  result : ∀ res, p.1 = some res → res.1 = wouldBlock ∨ res.1 = p.2.pendingErrCode
  waits : ∀ msgState ∈ p.2.evWaits, msgState ∈ r.evWaits ∨ msgState.Left

variable {r r' : In} {p : Option Result × In} {msgState : RcvMsgState}

/-- The socket is still there if no error is known. -/
theorem Comes.alive (h : r.Comes p) (herr : p.2.pendingErrCode = none) :
    p.2.peerSocket.alive = true := by
  obtain ⟨err, hgoes, hkept⟩ := h.goes
  apply hgoes.alive_iff.mpr
  by_contra hne
  exact hne ((hkept hne).symm.trans herr)

/-- Answers are used up, if anything. -/
theorem Comes.length_answers (h : r.Comes p) :
    p.2.peerSocket.answers.length ≤ r.peerSocket.answers.length := by
  obtain ⟨err, hgoes, -⟩ := h.goes
  exact hgoes.accessed.suffix.length_le

/-- Reading that goes on where other reading has left off. -/
theorem Comes.of_goes {s : In} (hgoes : Goes .lowLvlTransportHosedCannotReceive r.peerSocket
    s.peerSocket none) (hwaits : s.evWaits = r.evWaits) (h : s.Comes p) : r.Comes p where
  goes := by
    obtain ⟨err, hgoes', hkept⟩ := h.goes
    exact ⟨err, hgoes.trans hgoes', hkept⟩
  again := h.again
  result := h.result
  waits := by
    rw [← hwaits]
    exact h.waits

/-- Where the socket is not used. -/
theorem comes_of_peerSocket {res : Result} (halive : r.peerSocket.alive = true)
    (hsocket : r'.peerSocket = r.peerSocket) (hwaits : r'.evWaits = r.evWaits)
    (hres : res.1 = r'.pendingErrCode) : r.Comes (some res, r') where
  goes := by
    refine ⟨none, ?_, fun hne => absurd rfl hne⟩
    rw [hsocket]
    exact .refl halive
  again hnone := by cases hnone
  result res' hres' := by
    cases hres'
    exact .inr hres
  waits ms hms := .inl (by rwa [← hwaits])

/-- Likewise, where a message is to be read over. -/
theorem comes_again (halive : r.peerSocket.alive = true) (hsocket : r'.peerSocket = r.peerSocket)
    (hwaits : r'.evWaits = r.evWaits) (herr : r'.pendingErrCode = none) : r.Comes (none, r') where
  goes := by
    refine ⟨none, ?_, fun hne => absurd rfl hne⟩
    rw [hsocket]
    exact .refl halive
  again _ := herr
  result res' hres' := by cases hres'
  waits ms hms := .inl (by rwa [← hwaits])

/-- Putting off the idle timer leaves the length that has been read. -/
@[simp] theorem notIdle_metaLength : r.notIdle.metaLength = r.metaLength := by
  obtain ⟨timer, b, heq⟩ := r.notIdle_with
  rw [heq]
  rfl

@[simp] theorem assert_pendingErrCode {q : Prop} [Decidable q] :
    (r.assert q).pendingErrCode = r.pendingErrCode := rfl

@[simp] theorem assert_evWaits {q : Prop} [Decidable q] : (r.assert q).evWaits = r.evWaits := rfl

@[simp] theorem negotiate_evWaits {ver : Int} : (r.negotiate ver).evWaits = r.evWaits := rfl

/-- Waiting for the socket comes to would-block, or to the error. -/
theorem comes_asyncWait (halive : r.peerSocket.alive = true) (hleft : msgState.Left) :
    r.Comes (r.asyncWait msgState) := by
  have hgoes := goes_lock .lowLvlTransportHosedCannotReceive halive
  unfold In.asyncWait
  simp only
  split
  · rename_i hlock
    rw [if_pos hlock] at hgoes
    refine ⟨⟨none, hgoes, fun hne => absurd rfl hne⟩, by simp, ?_, ?_⟩
    · intro res hres
      cases hres
      exact .inl rfl
    · intro ms hms
      rcases List.mem_append.mp hms with hms | hms
      · exact .inl hms
      · rw [List.mem_singleton.mp hms]
        exact .inr hleft
  · rename_i hlock
    rw [if_neg hlock] at hgoes
    unfold emitErr
    rw [assert_of (by rfl)]
    refine ⟨⟨_, hgoes, fun _ => rfl⟩, by simp, ?_, fun ms hms => .inl hms⟩
    intro res hres
    cases hres
    exact .inr rfl

/-- An error found by a read is kept, and is the result. -/
theorem comes_emitErr {err : ErrorCode} (hgoes : Goes .lowLvlTransportHosedCannotReceive r.peerSocket
    r'.peerSocket err) (herr : r'.pendingErrCode = err) (hwaits : r'.evWaits = r.evWaits) :
    r.Comes r'.emitErr := by
  refine ⟨⟨err, hgoes, fun _ => herr⟩, by simp [emitErr], ?_, ?_⟩
  · intro res hres
    cases hres
    exact .inr rfl
  · intro ms hms
    rw [← hwaits]
    exact .inl hms

/-- What reading bytes comes to, given what it comes to once all have been read. -/
theorem comes_readBlobThen {onAll : In → Option Result × In} {msgState : Nat → RcvMsgState} {size : Nat}
    (hall : ∀ s : In, s.peerSocket.alive = true → s.pendingErrCode = none → s.Comes (onAll s))
    (hleft : ∀ n, n ≠ 0 → (msgState n).Left) (halive : r.peerSocket.alive = true)
    (herr : r.pendingErrCode = none) : r.Comes (readBlobThen onAll msgState r size) := by
  unfold In.readBlobThen
  rw [assert_of herr]
  simp only
  rcases hread : (r.assert (r.userRequest.isSome)).peerSocket.rcvNbReadLowLvlPayload size
    with ⟨got, err, p⟩
  have hgoes := goes_rcvNbRead halive hread
  have hlen := PeerSocket.length_of_rcvNbRead hread
  simp only
  split
  · exact comes_emitErr (by rw [store_peerSocket]; exact hgoes) (by rw [store_pendingErrCode])
      (by rw [store_evWaits]; rfl)
  · rename_i hnone
    obtain rfl : err = none := by simpa using hnone
    have hlive := hgoes.alive_iff.mpr rfl
    split
    · refine Comes.of_goes ?_ ?_ (hall _ ?_ ?_)
      · rw [store_peerSocket]
        exact hgoes
      · rw [store_evWaits]
        rfl
      · rw [store_peerSocket]
        exact hlive
      · rw [store_pendingErrCode]
    · rename_i hpart
      refine Comes.of_goes ?_ ?_ (comes_asyncWait ?_ (hleft _ (by omega)))
      · rw [store_peerSocket]
        exact hgoes
      · rw [store_evWaits]
        rfl
      · rw [store_peerSocket]
        exact hlive

/-- What is done with a blob comes to a result, or to an error that is kept. -/
theorem comes_onMetaBlobPayload (halive : r.peerSocket.alive = true)
    (herr : r.pendingErrCode = none) : r.Comes r.onMetaBlobPayload := by
  apply comes_of_peerSocket halive notIdle_peerSocket notIdle_evWaits
  rw [notIdle_pendingErrCode, herr]

/-- What is done with the head of a message comes to a result, or reading goes on, without an error. -/
theorem comes_onHeadPayload (halive : r.peerSocket.alive = true) (herr : r.pendingErrCode = none) :
    r.Comes r.onHeadPayload := by
  unfold In.onHeadPayload
  simp only
  generalize hu : (r.assert (r.userRequest.isSome)).assert
    ((r.assert (r.userRequest.isSome)).pendingErrCode = none) = u
  have hsocket : u.peerSocket = r.peerSocket := by rw [← hu]; rfl
  have herr' : u.pendingErrCode = none := by rw [← hu]; exact herr
  have hwaits : u.evWaits = r.evWaits := by rw [← hu]; rfl
  split
  · split
    · exact comes_of_peerSocket halive hsocket hwaits rfl
    · rename_i hnone
      exact comes_again halive (by simpa using hsocket) (by simpa using hwaits) (by simpa using hnone)
  · split
    · exact comes_again halive (by simpa using hsocket) (by simpa using hwaits) (by simpa using herr')
    · split
      · split
        · have hgoes : Goes .lowLvlTransportHosedCannotReceive r.peerSocket u.peerSocket none := by
            rw [hsocket]
            exact .refl halive
          refine Comes.of_goes hgoes hwaits (comes_readBlobThen (fun s => comes_onMetaBlobPayload)
            (fun n hn => hn) ?_ herr')
          rw [hsocket]
          exact halive
        · exact comes_of_peerSocket halive hsocket hwaits rfl
      · split
        · exact comes_of_peerSocket halive (by simpa using hsocket) (by simpa using hwaits) rfl
        · exact comes_of_peerSocket halive hsocket hwaits rfl

/-- What is done with a handle comes to a result, or reading goes on, without an error. -/
theorem comes_onHandleFinalized {hndl : NativeHandle} {n : Nat} (halive : r.peerSocket.alive = true)
    (herr : r.pendingErrCode = none) (hn : n ≤ 2) : r.Comes (r.onHandleFinalized hndl n) := by
  unfold In.onHandleFinalized
  simp only
  generalize hu : ((r.assert (r.userRequest.isSome)).assert
    ((r.assert (r.userRequest.isSome)).pendingErrCode = none)).assert (n ≠ 0) = u
  have hsocket : u.peerSocket = r.peerSocket := by rw [← hu]; rfl
  have herr' : u.pendingErrCode = none := by rw [← hu]; exact herr
  have hwaits : u.evWaits = r.evWaits := by rw [← hu]; rfl
  have hgoes : Goes .lowLvlTransportHosedCannotReceive r.peerSocket u.peerSocket none := by
    rw [hsocket]
    exact .refl halive
  have hlive : u.peerSocket.alive = true := by rw [hsocket, halive]
  split
  · exact comes_of_peerSocket halive hsocket hwaits rfl
  · split
    · exact comes_of_peerSocket halive hsocket hwaits rfl
    · have hstored : ∀ v : In, (if u.protocolNegotiator.negotiatedProtoVer = verUnknown then u else
          { u with userRequest := u.userRequest.map fun request =>
            { request with targetHndl := request.targetHndl.map fun _ => hndl } }) = v →
          v.peerSocket = u.peerSocket ∧ v.pendingErrCode = none ∧ v.evWaits = u.evWaits := by
        rintro v rfl
        split <;> exact ⟨rfl, herr', rfl⟩
      generalize (if u.protocolNegotiator.negotiatedProtoVer = verUnknown then u else _) = v at hstored ⊢
      obtain ⟨hsocket', herr', hwaits'⟩ := hstored v rfl
      rw [← hsocket'] at hgoes hlive
      split
      · exact Comes.of_goes hgoes (hwaits'.trans hwaits) (comes_onHeadPayload hlive herr')
      · refine Comes.of_goes hgoes (hwaits'.trans hwaits) (comes_asyncWait hlive ?_)
        change 2 - n ≠ 0
        omega

/-- The start of a message comes to a result, or reading goes on, without an error. -/
theorem comes_readMsgOnce (halive : r.peerSocket.alive = true) (herr : r.pendingErrCode = none) :
    r.Comes r.readMsgOnce := by
  unfold In.readMsgOnce
  rw [assert_of herr]
  simp only
  rcases hread : r.peerSocket.rcvNbReadLowLvlPayload 2 with ⟨got, err, p⟩
  have hgoes := goes_rcvNbRead halive hread
  have hlen := PeerSocket.length_of_rcvNbRead hread
  simp only
  split
  · exact comes_emitErr (by rw [store_peerSocket]; exact hgoes) (by rw [store_pendingErrCode])
      (by rw [store_evWaits])
  · rename_i hnone
    obtain rfl : err = none := by simpa using hnone
    have hlive := hgoes.alive_iff.mpr rfl
    split
    · refine Comes.of_goes ?_ ?_ (comes_onHandleFinalized ?_ ?_ hlen)
      · rw [store_peerSocket]
        exact hgoes
      · rw [store_evWaits]
      · rw [store_peerSocket]
        exact hlive
      · rw [store_pendingErrCode]
    · refine Comes.of_goes ?_ ?_ (comes_asyncWait ?_ ?_)
      · rw [store_peerSocket]
        exact hgoes
      · rw [store_evWaits]
      · rw [store_peerSocket]
        exact hlive
      · exact trivial

/-- Reading on, from what reading once comes to. -/
theorem comes_readOn (hread : p.1 = none → p.2.peerSocket.alive = true → p.2.pendingErrCode = none →
    p.2.Comes (some p.2.readMsg.1, p.2.readMsg.2)) (h : r.Comes p) :
    r.Comes (some (readOn p).1, (readOn p).2) := by
  obtain ⟨_ | res, s⟩ := p
  · have herr := h.again rfl
    obtain ⟨err, hgoes, hkept⟩ := h.goes
    obtain rfl : err = none := by
      by_contra hne
      exact hne ((hkept hne).symm.trans herr)
    have hs := hread rfl (h.alive herr) herr
    obtain ⟨err', hgoes', hkept'⟩ := hs.goes
    refine ⟨⟨err', hgoes.trans hgoes', hkept'⟩, by simp, hs.result, fun ms hms => ?_⟩
    rcases hs.waits ms hms with hold | hnew
    · exact h.waits ms hold
    · exact .inr hnew
  · exact h

/-- Reading a message comes to a result. -/
theorem comes_readMsg (halive : r.peerSocket.alive = true) (herr : r.pendingErrCode = none) :
    r.Comes (some r.readMsg.1, r.readMsg.2) := by
  induction hn : r.peerSocket.answers.length using Nat.strong_induction_on generalizing r with
  | _ n ih =>
    subst hn
    have honce := comes_readMsgOnce halive herr
    rw [readMsg_eq]
    rcases h : r.readMsgOnce with ⟨_ | res, s⟩
    · rw [h] at honce
      exact comes_readOn (fun _ hlive hnone => ih _ (readMsgOnce_answers h) hlive hnone rfl) honce
    · rw [h] at honce
      exact honce

/-- Reading that is resumed comes to a result. -/
theorem comes_resume (halive : r.peerSocket.alive = true) (herr : r.pendingErrCode = none) :
    r.Comes (some (r.resume msgState).1, (r.resume msgState).2) := by
  cases msgState with
  | msgStart => exact comes_readMsg halive herr
  | headPayload nLeft =>
      exact comes_readOn (fun _ hlive hnone => comes_readMsg hlive hnone)
        (comes_readBlobThen (fun s => comes_onHeadPayload) (fun n hn => hn) halive herr)
  | metaBlobPayload nLeft =>
      exact comes_readOn (fun _ hlive hnone => comes_readMsg hlive hnone)
        (comes_readBlobThen (fun s => comes_onMetaBlobPayload) (fun n hn => hn) halive herr)

/-! ### A message takes a use of the socket -/

/-- Waiting is not the end of a message. -/
theorem asyncWait_ne_success {n : Nat} : (r.asyncWait msgState).1 ≠ some (none, n) := by
  unfold In.asyncWait emitErr
  simp only
  split
  · simp
  · simp [Code.toErrorCode]

/-- Bytes that have all been read, if there were any, took an answer. -/
theorem readBlobThen_success {onAll : In → Option Result × In} {msgState : Nat → RcvMsgState}
    {size n : Nat} (hall : ∀ s : In, s.peerSocket.alive = true → s.pendingErrCode = none →
      s.Comes (onAll s)) (halive : r.peerSocket.alive = true) (hsize : size ≠ 0)
    (h : (readBlobThen onAll msgState r size).1 = some (none, n)) :
    (readBlobThen onAll msgState r size).2.peerSocket.answers.length <
      r.peerSocket.answers.length := by
  unfold In.readBlobThen at h ⊢
  simp only at h ⊢
  rcases hread : ((r.assert (r.pendingErrCode = none)).assert
    ((r.assert (r.pendingErrCode = none)).userRequest.isSome)).peerSocket.rcvNbReadLowLvlPayload size
    with ⟨got, err, p⟩
  have hgoes := goes_rcvNbRead (p := r.peerSocket) halive hread
  simp only [hread] at h ⊢
  split at h
  · rename_i hsome
    simp only [emitErr, Option.some.injEq, Prod.mk.injEq] at h
    rw [assert_pendingErrCode, store_pendingErrCode] at h
    simp only at h
    rw [h.1] at hsome
    cases hsome
  · rename_i hnone
    obtain rfl : err = none := by simpa using hnone
    split at h
    · rename_i hfull
      rw [if_neg (by simp), if_pos hfull]
      have hused := PeerSocket.rcvNbRead_answers hread (by omega)
      refine Nat.lt_of_le_of_lt ?_ hused
      refine Nat.le_trans (Comes.length_answers (hall _ ?_ ?_)) ?_
      · rw [store_peerSocket]
        exact hgoes.alive_iff.mpr rfl
      · rw [store_pendingErrCode]
      · rw [store_peerSocket]
    · exact absurd h asyncWait_ne_success

/-- A message that has been read took some answers of the socket. -/
theorem readMsgOnce_success {n : Nat} (halive : r.peerSocket.alive = true)
    (h : r.readMsgOnce.1 = some (none, n)) :
    r.readMsgOnce.2.peerSocket.answers.length < r.peerSocket.answers.length := by
  unfold In.readMsgOnce at h ⊢
  simp only at h ⊢
  rcases hread : (r.assert (r.pendingErrCode = none)).peerSocket.rcvNbReadLowLvlPayload 2
    with ⟨got, err, p⟩
  have hgoes := goes_rcvNbRead (p := r.peerSocket) halive hread
  have hlen := PeerSocket.length_of_rcvNbRead hread
  simp only [hread] at h ⊢
  split at h
  · rename_i hsome
    simp only [emitErr, Option.some.injEq, Prod.mk.injEq] at h
    rw [assert_pendingErrCode, store_pendingErrCode] at h
    simp only at h
    rw [h.1] at hsome
    cases hsome
  · rename_i hnone
    obtain rfl : err = none := by simpa using hnone
    split at h
    · rename_i hgot
      rw [if_neg (by simp), if_pos hgot]
      have hused := PeerSocket.rcvNbRead_answers hread hgot
      refine Nat.lt_of_le_of_lt ?_ hused
      refine Nat.le_trans (Comes.length_answers (comes_onHandleFinalized ?_ ?_ hlen)) ?_
      · rw [store_peerSocket]
        exact hgoes.alive_iff.mpr rfl
      · rw [store_pendingErrCode]
      · rw [store_peerSocket]
    · exact absurd h asyncWait_ne_success

/-- A message that is read on to its end took some answers, if any part of it did. -/
theorem readOn_success {n : Nat} (hcomes : r.Comes p)
    (hread : p.1 = none → p.2.peerSocket.alive = true → p.2.pendingErrCode = none →
      p.2.readMsg.1 = (none, n) →
        p.2.readMsg.2.peerSocket.answers.length < p.2.peerSocket.answers.length)
    (hnow : p.1 = some (none, n) → p.2.peerSocket.answers.length < r.peerSocket.answers.length)
    (h : (readOn p).1 = (none, n)) :
    (readOn p).2.peerSocket.answers.length < r.peerSocket.answers.length := by
  obtain ⟨_ | res, s⟩ := p
  · have herr := hcomes.again rfl
    have hlt := hread rfl (hcomes.alive herr) herr h
    exact Nat.lt_of_lt_of_le hlt hcomes.length_answers
  · exact hnow (congrArg some h)

/-- A message that has been read, and those skipped before it, took some answers. -/
theorem readMsg_success {n : Nat} (halive : r.peerSocket.alive = true)
    (herr : r.pendingErrCode = none) (h : r.readMsg.1 = (none, n)) :
    r.readMsg.2.peerSocket.answers.length < r.peerSocket.answers.length := by
  induction hn : r.peerSocket.answers.length using Nat.strong_induction_on generalizing r with
  | _ k ih =>
    subst hn
    have honce := comes_readMsgOnce halive herr
    rw [readMsg_eq] at h ⊢
    refine readOn_success honce (fun hnone hlive herr' hs => ?_) (readMsgOnce_success halive) h
    exact ih _ (readMsgOnce_answers (Prod.ext hnone rfl)) hlive herr' hs rfl

/-- Reading that is resumed where something is left to be read. -/
theorem resume_success {n : Nat} (halive : r.peerSocket.alive = true)
    (herr : r.pendingErrCode = none) (hleft : msgState.Left)
    (h : (r.resume msgState).1 = (none, n)) :
    (r.resume msgState).2.peerSocket.answers.length < r.peerSocket.answers.length := by
  cases msgState with
  | msgStart => exact readMsg_success halive herr h
  | headPayload nLeft =>
      exact readOn_success (comes_readBlobThen (fun s => comes_onHeadPayload) (fun n hn => hn) halive herr)
        (fun _ hlive hnone => readMsg_success hlive hnone)
        (readBlobThen_success (fun s => comes_onHeadPayload) halive hleft) h
  | metaBlobPayload nLeft =>
      exact readOn_success
        (comes_readBlobThen (fun s => comes_onMetaBlobPayload) (fun n hn => hn) halive herr)
        (fun _ hlive hnone => readMsg_success hlive hnone)
        (readBlobThen_success (fun s => comes_onMetaBlobPayload) halive hleft) h

end In

end FlowIpc.SocketStream
