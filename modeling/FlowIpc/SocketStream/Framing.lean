import FlowIpc.Lib.Transition
import FlowIpc.SocketStream.Directions
import FlowIpc.SocketStream.Serving

/-!
# How a stream is cut does not matter

A stream that comes in on a socket which does not fail, after a version that the receiver can speak,
gives the requests that are made what `serve` says it does: however it is cut into what each read
gets, wherever a read would block, and whenever the requests and the events come. The stream need be
none that a sender has written; only, a handle comes with the first byte of a length, if at all
(`HndlsFirst`). Timeouts are left out.

Source: `sync_io/detail/native_socket_stream_impl_rcv.cpp`.
-/

namespace FlowIpc.SocketStream

open Lts

/-! ## Streams -/

/-- Where the handles of a stream come first, so do those of a part of it. -/
theorem HndlsFirst.of_append {l more : List Cell} (h : HndlsFirst (l ++ more)) : HndlsFirst l := by
  induction hn : l.length using Nat.strong_induction_on generalizing l more with
  | _ n ih =>
    subst hn
    rcases l with _ | ⟨c, _ | ⟨d, l⟩⟩
    · exact .nil
    · exact .single c
    · rw [List.cons_append, List.cons_append] at h
      obtain ⟨hd, hrest⟩ := hndlsFirst_cons.mp h
      refine hndlsFirst_cons.mpr ⟨hd, ?_⟩
      rw [List.drop_append] at hrest
      refine ih (l.drop (blobLength (lengthOf c d))).length ?_ hrest rfl
      rw [List.length_drop, List.length_cons, List.length_cons]
      omega

/-- Answers that are of a socket that is there come to no error. -/
theorem Accessed.eq_none_of_fine {hosed : Code} {rest ks : List SockAnswer} {err : ErrorCode}
    (h : Accessed hosed rest ks err) (hall : ∀ k ∈ ks, k.Fine) : err = none := by
  cases h with
  | fine => rfl
  | failed us _ n =>
      rcases hall (.failed n) (by simp) with hk | ⟨m, hk⟩ <;> cases hk
  | gone us _ =>
      rcases hall .hosed (by simp) with hk | ⟨m, hk⟩ <;> cases hk

namespace NativeSocketStreamRcv

variable {r r' : NativeSocketStreamRcv} {tr tr' : Trace} {st : Status} {i : Input}
  {ks : List SockAnswer} {obs : List Obs} {c d : Cell} {l : List Cell}

/-- The requests accepted. -/
def requests (tr : Trace) : List Request := tr.filterMap accepted

/-- The answers given. -/
def results (tr : Trace) : List Answer := (seen tr).filterMap Obs.answer?

/-- One more step adds the request that it accepts, if any. -/
@[simp] theorem requests_snoc (tr : Trace) (x : Input × List Obs) :
    requests (tr ++ [x]) = requests tr ++ (accepted x).toList := by
  unfold requests
  rw [List.filterMap_append]
  cases h : accepted x with
  | none => simp [h]
  | some q => simp [h]

/-- One more step adds its results. -/
@[simp] theorem results_snoc (tr : Trace) (x : Input × List Obs) :
    results (tr ++ [x]) = results tr ++ x.2.filterMap Obs.answer? := by
  simp [results]

/-- A step during which the socket does not fail, and which is no timeout. -/
def Timely (_ : NativeSocketStreamRcv × Trace) (i : Input × List SockAnswer) : Prop :=
  i.1 ≠ .timerReadable ∧ ∀ k ∈ i.2, k.Fine

/-- Some run of such steps leads to this receiver and trace, where `cells` is the stream. -/
def Reading (cells : List Cell) (r : NativeSocketStreamRcv) (tr : Trace) : Prop :=
  ∃ statePeer p is, p.alive = true ∧ p.received = 0 ∧ p.sent = cells ∧
    Run (Restrict Step Timely) (ctor statePeer p, []) is (r, tr)

/-- The socket stays where it is. -/
theorem Waiting.alive_of_fine (h : r.Waiting) (halive : r.inp.peerSocket.alive = true)
    (hall : ∀ k ∈ ks, k.Fine) (hstep : r.step i ks = some (r', obs)) :
    r'.inp.peerSocket.alive = true := by
  have hdid := h.did hstep
  by_cases herr : (r.withAnswers ks).inp.pendingErrCode = none
  · obtain ⟨err, hgoes, -⟩ := hdid.goes herr
    exact hgoes.alive_iff.mpr (hgoes.accessed.eq_none_of_fine hall)
  · rw [(hdid.latched herr).2]
    exact halive

/-- What holds of a receiver that reads a stream. -/
structure Follows (cells : List Cell) (r : NativeSocketStreamRcv) (tr : Trace) (st : Status) :
    Prop where
  is : r.Is st
  begun : r.Begun
  waiting : r.Waiting
  alive : r.inp.peerSocket.alive = true
  sent : r.inp.peerSocket.sent = cells
  counts : (requests tr).length = (results tr).length + st.pending.toList.length
  serves : Serves (.idle false) (requests tr) r.inp.peerSocket.taken (results tr) st

/-- A receiver that has just been constructed. -/
theorem follows_ctor {statePeer : Bool} {p : PeerSocket} (halive : p.alive = true)
    (hp : p.received = 0) : Follows p.sent (ctor statePeer p) [] (.idle false) where
  is := is_ctor hp
  begun := .inr ⟨rfl, rfl, rfl⟩
  waiting := ⟨by simp [ctor], fun _ => halive⟩
  alive := halive
  sent := rfl
  counts := rfl
  serves := by
    have htaken : (ctor statePeer p).inp.peerSocket.taken = [] := by
      change p.sent.take p.received = []
      rw [hp]
      rfl
    rw [htaken]
    exact serves_refl _

/-- Every step goes on with the stream, if the socket does not fail. -/
theorem Follows.step (h : Follows (c :: d :: l) r tr st) (hgood : GoodVersion c d)
    (hi : i ≠ .timerReadable) (hall : ∀ k ∈ ks, k.Fine) (hstep : r.step i ks = some (r', obs)) :
    ∃ st', Follows (c :: d :: l) r' (tr ++ [(i, obs)]) st' := by
  obtain ⟨st', hdoes⟩ := h.is.step h.begun hstep
  obtain ⟨got, hreads, hserves⟩ := hdoes.serves
  have halive := h.waiting.alive_of_fine h.alive hall hstep
  have hsent := hreads.sent.trans h.sent
  have hfriendly : Friendly r'.inp.peerSocket := by
    refine ⟨halive, c, d, l, hgood, ?_⟩
    rw [← hsent]
    exact r'.inp.peerSocket.taken_prefix
  refine ⟨st', {
    is := hdoes.is
    begun := hdoes.begun
    waiting := lawful_direction.keeps r i ks r' obs h.waiting hstep
    alive := halive
    sent := hsent
    counts := ?_
    serves := ?_ }⟩
  · have hcounts := hdoes.counts
    have hbefore := h.counts
    simp only [requests_snoc, results_snoc, List.length_append]
    omega
  · rw [requests_snoc, results_snoc, hreads.taken]
    exact h.serves.trans (hserves hi hfriendly)

/-- Every run goes on with the stream, if the socket does not fail. -/
theorem Reading.follows (hgood : GoodVersion c d) (h : Reading (c :: d :: l) r tr) :
    ∃ st, Follows (c :: d :: l) r tr st := by
  obtain ⟨statePeer, p, is, halive, hp, hsent, hrun⟩ := h
  refine Run.invariant (P := fun w => ∃ st, Follows (c :: d :: l) w.1 w.2 st) ?_ hrun
    ⟨.idle false, ?_⟩
  · rintro w ⟨i, ks⟩ w' ⟨st, hfollows⟩ ⟨⟨hi, hall⟩, hstep⟩
    obtain ⟨⟨r₁, obs⟩, hr, rfl⟩ := Option.map_eq_some_iff.mp hstep
    exact hfollows.step hgood hi hall hr
  · rw [← hsent]
    exact follows_ctor halive hp

/-! ## What has been decided -/

/-- What a wait has captured decides nothing. -/
theorem nextResult_of_records {q : RcvUserRequest} {neg : Bool} {part : List Cell}
    (h : r.inp.Records q neg part) (hfirst : HndlsFirst (afterVersion neg part)) :
    nextResult q.asked (afterVersion neg part) = none := by
  cases h with
  | start => cases neg <;> rfl
  | @head _ c _ hndl =>
      cases neg with
      | false => rfl
      | true =>
          change nextResult q.asked [c] = none
          rw [nextResult, if_neg (In.accepts (hndl rfl))]
  | @blob c d l _ hndl _ left fits notPing =>
      change HndlsFirst (c :: d :: l) at hfirst
      change nextResult q.asked (c :: d :: l) = none
      have hkept := hndl (hndlsFirst_cons.mp hfirst).1
      have hne : lengthOf c d ≠ 0 := by omega
      rw [nextResult_of_fits (In.accepts hkept), if_neg notPing, if_neg hne,
        if_neg (show ¬ q.asked.size < _ from Nat.not_lt.mpr fits), if_pos left]

/-- Without more to come in there is no more to be told. -/
theorem Is.serve_nil (h : r.Is st) (hfirst : st.First []) : st.serve [] [] = [] := by
  cases h with
  | idle => rfl
  | latched => rfl
  | @busy q neg part _ _ _ records =>
      change HndlsFirst (afterVersion neg (part ++ [])) at hfirst
      change serve [q.asked] (afterVersion neg (part ++ [])) = []
      rw [List.append_nil] at hfirst ⊢
      rw [serve, nextResult_of_records records hfirst]

/-- Nor is there without a request. -/
theorem Is.serve_of_idle (h : r.Is st) (hreq : r.inp.userRequest = none) (more : List Cell) :
    st.serve [] more = [] := by
  cases h with
  | idle => rfl
  | latched => rfl
  | busy _ _ request _ =>
      rw [request] at hreq
      cases hreq

/-- What has been told is what has come in gives. -/
theorem Follows.results_eq (h : Follows (c :: d :: l) r tr st) (hfirst : HndlsFirst l) :
    results tr = serve (requests tr) (r.inp.peerSocket.taken.drop 2) := by
  have hpre : r.inp.peerSocket.taken <+: c :: d :: l := by
    rw [← h.sent]
    exact r.inp.peerSocket.taken_prefix
  have hpart : HndlsFirst (r.inp.peerSocket.taken.drop 2) := by
    obtain ⟨more, hmore⟩ := hpre.drop 2
    change _ = l at hmore
    rw [← hmore] at hfirst
    exact hfirst.of_append
  obtain ⟨hfirst', heq⟩ := h.serves [] [] (by
    rw [List.append_nil]
    exact hpart)
  rw [h.is.serve_nil hfirst', List.append_nil, List.append_nil, List.append_nil] at heq
  exact heq.symm

/-- And without a request, what the whole stream gives. -/
theorem Follows.results_eq_of_idle (h : Follows (c :: d :: l) r tr st) (hfirst : HndlsFirst l)
    (hreq : r.inp.userRequest = none) : results tr = serve (requests tr) l := by
  have hpre : r.inp.peerSocket.taken <+: c :: d :: l := by
    rw [← h.sent]
    exact r.inp.peerSocket.taken_prefix
  obtain ⟨more, hmore⟩ := hpre
  obtain ⟨-, heq⟩ := h.serves [] more (by
    rw [hmore]
    exact hfirst)
  rw [hmore, h.is.serve_of_idle hreq, List.append_nil, List.append_nil] at heq
  exact heq.symm

/-- The results so far are the first of those that serve the requests. -/
theorem Follows.prefix_serve (h : Follows (c :: d :: l) r tr st) (hfirst : HndlsFirst l) :
    results tr <+: serve (requests tr) l := by
  have hpre : r.inp.peerSocket.taken <+: c :: d :: l := by
    rw [← h.sent]
    exact r.inp.peerSocket.taken_prefix
  obtain ⟨more, hmore⟩ := hpre.drop 2
  change _ = l at hmore
  rw [h.results_eq hfirst, ← hmore]
  exact serve_append_prefix _ _ _

/-! ## The result -/

/-- **Framing.** Of a receiver that reads a stream, on a socket that does not fail, and without
timeouts, let the version be settled and the handles come first. However the stream was cut: what the
requests have been told is what it gives them, as far as it has come in, and so part of what it gives
them in all (`serve`); and each has been told, but for the one, if any, that is outstanding. So where
it was cut otherwise, and the same was requested, the same was told, as far as it has been: all of it,
where no request is outstanding, or as much has come in. -/
theorem framing (hgood : GoodVersion c d) (hfirst : HndlsFirst l) (h : Reading (c :: d :: l) r tr) :
    results tr = serve (requests tr) (r.inp.peerSocket.taken.drop 2) ∧
    results tr <+: serve (requests tr) l ∧
    (requests tr).length =
      (results tr).length + (if r.inp.userRequest.isSome then 1 else 0) ∧
    (r.inp.userRequest = none → results tr = serve (requests tr) l) ∧
    ∀ r' tr', Reading (c :: d :: l) r' tr' → requests tr' = requests tr →
      (results tr <+: results tr' ∨ results tr' <+: results tr) ∧
      (r.inp.userRequest = none → r'.inp.userRequest = none → results tr' = results tr) ∧
      (r'.inp.peerSocket.taken = r.inp.peerSocket.taken → results tr' = results tr) := by
  obtain ⟨st, hr⟩ := h.follows hgood
  refine ⟨hr.results_eq hfirst, hr.prefix_serve hfirst, ?_, hr.results_eq_of_idle hfirst, ?_⟩
  · rw [hr.counts, ← hr.is.userRequest]
    cases r.inp.userRequest <;> rfl
  · intro r' tr' h' hsame
    obtain ⟨st', hr'⟩ := h'.follows hgood
    have hpre' := hr'.prefix_serve hfirst
    rw [hsame] at hpre'
    refine ⟨List.prefix_or_prefix_of_prefix (hr.prefix_serve hfirst) hpre', ?_, ?_⟩
    · intro hreq hreq'
      rw [hr'.results_eq_of_idle hfirst hreq', hsame, hr.results_eq_of_idle hfirst hreq]
    · intro htaken
      rw [hr'.results_eq hfirst, hsame, htaken, hr.results_eq hfirst]

/-- A ping, a handle alone, and two bytes of three. -/
def sampleStream : List Cell :=
  cells none [255, 255] ++ cells (some 6) [0, 0] ++ cells none [3, 0, 7, 8]

/-- They come in byte by byte, after the version. -/
def sampleSlow : List (Input × List SockAnswer) :=
  [(.startReceiveNativeHandleOps, []), (.asyncReceiveNativeHandle none [0] 1, [.moves 0]),
    (.socketReadable (.headPayload 1), [.moves 0, .moves 0]),
    (.socketReadable (.headPayload 1), [.moves 0, .moves 0]),
    (.socketReadable (.headPayload 1), [.moves 0])]

/-- The handle is delivered. -/
theorem framing_sampleSlow : ∃ r tr, Reading (cells none [1, 0] ++ sampleStream) r tr ∧
    requests tr = [⟨true, 1⟩] ∧ results tr = [.message (some 6) []] ∧
      results tr = serve (requests tr) sampleStream := by
  have hgood : GoodVersion ⟨1, none⟩ ⟨0, none⟩ := ⟨rfl, rfl, by decide⟩
  have hfirst : HndlsFirst sampleStream :=
    .head _ _ _ rfl (.head _ _ _ rfl (.head _ _ _ rfl .nil))
  have hfold : ((sampleSlow.foldlM next
      (ctor true ⟨true, cells none [1, 0] ++ sampleStream, 0, []⟩, [])).map
        fun w => (requests w.2, results w.2, w.1.inp.userRequest)) =
      some ([⟨true, 1⟩], [.message (some 6) []], none) := by decide +kernel
  obtain ⟨⟨r, tr⟩, hw, hseen⟩ := Option.map_eq_some_iff.mp hfold
  have htimely : ∀ i ∈ sampleSlow, ∀ w, Timely w i := by
    simp [sampleSlow, Timely, SockAnswer.Fine]
  have h : Reading (cells none [1, 0] ++ sampleStream) r tr :=
    ⟨true, _, sampleSlow, rfl, rfl, rfl, (Run.of_foldlM (f := next) hw).restrict htimely⟩
  refine ⟨r, tr, h, congrArg Prod.fst hseen, congrArg (fun x => x.2.1) hseen, ?_⟩
  exact (framing hgood hfirst h).2.2.2.1 (congrArg (fun x => x.2.2) hseen)

end NativeSocketStreamRcv

end FlowIpc.SocketStream
