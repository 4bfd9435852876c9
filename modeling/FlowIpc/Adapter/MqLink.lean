import FlowIpc.Adapter.Link
import FlowIpc.Adapter.MqSndCore
import FlowIpc.MqStream.Fifo

/-!
# Blob streams over a queue, by the async-I/O pattern

`mqLink`: the two cores of a blob stream over one message queue. What they can come to by themselves is what
`MqStream.World` can come to (`CoreWorld.Reached.mqWorld`), and with that the asynchronous
`Blob_stream_mq_sender` and `Blob_stream_mq_receiver`, however their users and worker threads interleave.

**Results.** In every state that the two can come to
* (`mqAsync_simulated`) a sender and a receiver used by the `sync_io` pattern can come to the same, having
  accepted and delivered the same;
* (`mqAsync_inOrder`) the blobs that handlers are told of are the first of those accepted, in order and as
  they were, each told to the first request not answered before, and once any handler is told of the
  graceful close they are all of them, and it was asked for.

Source: `blob_stream_mq_snd_impl.hpp`, `blob_stream_mq_rcv_impl.hpp` (async-I/O), over
`sync_io/detail/blob_stream_mq_snd_impl.hpp`, `sync_io/detail/blob_stream_mq_rcv_impl.hpp`.
-/

namespace FlowIpc.Adapter

open MqStream Lts

/-- What a queue holds, with how much of it has been taken. -/
def mqContents (mq : Mq) : Nat × List Blob × Nat :=
  (mq.maxMsgSize, mq.sent, mq.received)

/-- A queue that holds this. -/
def setMqContents (mq : Mq) (t : Nat × List Blob × Nat) : Mq :=
  ⟨t.1, t.2.1, t.2.2, mq.answers⟩

/-- A blob stream's two cores on one queue. -/
def mqLink : Link where
  Snd := mqSndCore
  Rcv := mqRcvCore
  Transport := Nat × List Blob × Nat
  sndEnd s := mqContents s.out.mq
  rcvEnd r := mqContents r.inp.mq
  setSndEnd s t := { s with out := { s.out with mq := setMqContents s.out.mq t } }
  setRcvEnd r t := { r with inp := { r.inp with mq := setMqContents r.inp.mq t } }
  Init s r := ∃ n, s = .ctor ⟨n, [], 0, []⟩ ∧ r = .ctor ⟨n, [], 0, []⟩
  init_rcv s r := by
    rintro ⟨n, -, rfl⟩
    exact ⟨_, [], rfl, ⟨.inl rfl, List.not_mem_nil⟩, List.nil_prefix, rfl, rfl⟩
  setSndEnd_sndEnd _ := rfl
  setRcvEnd_rcvEnd _ := rfl
  sndEnd_setSndEnd _ _ := rfl
  rcvEnd_setRcvEnd _ _ := rfl
  setSndEnd_setSndEnd _ _ _ := rfl
  setRcvEnd_setRcvEnd _ _ _ := rfl
  outstanding_setRcvEnd _ _ := rfl
  hosed_setRcvEnd _ _ := rfl

/-! ## What is seen of an event -/

/-- A sender accepts nothing in an event. -/
theorem mqSnd_event_accepted {s s' : BlobStreamMqSender} {ev : MqSndEv} {ks : List MqAnswer}
    {obs : List BlobStreamMqSender.Obs} (hstep : s.step ev.toInput ks = some (s', obs)) :
    BlobStreamMqSender.accepted obs = [] := by
  unfold BlobStreamMqSender.step at hstep
  cases ev with
  | mqWritable =>
      simp only [MqSndEv.toInput] at hstep
      split at hstep
      · split at hstep
        · cases hstep
          rfl
        · cases hstep
          rfl
      · cases hstep
  | timerFires =>
      obtain ⟨t, -, heq⟩ := Option.map_eq_some_iff.mp hstep
      cases heq
      rfl
  | timerReadable =>
      obtain ⟨t, -, heq⟩ := Option.map_eq_some_iff.mp hstep
      cases heq
      rfl

/-- A receiver invokes one handler in an event, or none. -/
theorem mqRcv_event_obs {r r' : BlobStreamMqReceiver} {ev : MqRcvEv} {ks : List MqAnswer}
    {obs : List BlobStreamMqReceiver.Obs} (hstep : r.step ev.toInput ks = some (r', obs)) :
    ∃ g, obs = BlobStreamMqReceiver.invocations g := by
  unfold BlobStreamMqReceiver.step at hstep
  cases ev with
  | idleTimerRun timeout =>
      cases hstep
      exact ⟨none, rfl⟩
  | mqReadable =>
      simp only [MqRcvEv.toInput] at hstep
      split at hstep
      · cases hstep
        exact ⟨_, rfl⟩
      · cases hstep
  | timerFires =>
      obtain ⟨t, -, heq⟩ := Option.map_eq_some_iff.mp hstep
      cases heq
      exact ⟨none, rfl⟩
  | timerReadable =>
      obtain ⟨t, -, heq⟩ := Option.map_eq_some_iff.mp hstep
      cases heq
      exact ⟨_, rfl⟩

/-- What it is told is what the core has come to. -/
theorem mqRcv_delivered_invocations (g : Option (Nat × MqStream.Result)) :
    BlobStreamMqReceiver.delivered (BlobStreamMqReceiver.invocations g) =
      (MqRcv.result? (BlobStreamMqReceiver.invocations g)).toList.filterMap
        (AsyncAdapterReceiver.message? (C := mqRcvCore)) := by
  rcases g with _ | ⟨f, _ | e, blob⟩
  · rfl
  · rfl
  · rfl

/-- A request that is accepted finds none outstanding. -/
theorem mqRcv_idle_of_accepted {r r' : BlobStreamMqReceiver} {n : Nat} {ks : List MqAnswer}
    {res : MqStream.Result} (hcall : MqRcv.asyncReceive r n ks = (true, res, r')) :
    r.userRequest.isSome = false := by
  unfold MqRcv.asyncReceive BlobStreamMqReceiver.asyncReceiveBlob at hcall
  cases hreq : r.userRequest with
  | none => rfl
  | some q =>
      have hreq' : (r.withAnswers ks).userRequest.isSome = true := congrArg Option.isSome hreq
      simp only [hreq', if_true] at hcall
      split at hcall
      · cases hcall
      · cases hcall

/-! ## The cores are those of the `sync_io` pattern -/

/-- Two cores are the sender and the receiver of a world, but for answers that no operation will see. -/
structure IsMqWorld (c : CoreWorld mqLink) (w : World) : Prop where
  /-- The sender has told its version at least. -/
  inv : ∃ fs done, w.Inv fs done ∧ fs ≠ []
  started : w.rcv.started = true
  snd : BlobStreamMqSender.withAnswers c.snd.core [] = w.snd.withAnswers []
  rcv : c.rcv.core = w.rcv.withAnswers []
  accepted : c.snd.accepted = w.accepted
  endCalled : c.snd.endCalled = w.endCalled
  delivered : c.rcv.results.filterMap AsyncAdapterReceiver.message? = w.delivered

namespace IsMqWorld

variable {c : CoreWorld mqLink} {w : World}

/-- The receiver is in use. -/
theorem rcv_inv (h : IsMqWorld c w) : mqRcvCore.Inv c.rcv.core := by
  obtain ⟨fs, done, hinv, -⟩ := h.inv
  rw [h.rcv]
  exact MqRcv.inv_withAnswers hinv.snd.ordered hinv.rcv h.started

/-- Whatever the answers, the senders are the same during an operation. -/
theorem snd_withAnswers (h : IsMqWorld c w) (ks : List MqAnswer) :
    BlobStreamMqSender.withAnswers c.snd.core ks = w.snd.withAnswers ks :=
  congrArg (·.withAnswers ks) h.snd

/-- The receivers are the same under any answers. -/
theorem rcv_withAnswers (h : IsMqWorld c w) (ks : List MqAnswer) :
    BlobStreamMqReceiver.withAnswers c.rcv.core ks = w.rcv.withAnswers ks := by
  rw [h.rcv]
  rfl

/-- A step of the sender, as a step of the world. -/
theorem snd_step {i : BlobStreamMqSender.Input} {k : List MqAnswer} {s : BlobStreamMqSender}
    {o : List BlobStreamMqSender.Obs} {snd : SndRecord mqLink.Snd} (h : IsMqWorld c w)
    (hstep : w.snd.step i k = some (s, o)) (hcore : snd.core = s)
    (hacc : snd.accepted = w.accepted ++ BlobStreamMqSender.accepted o)
    (hend : snd.endCalled = (w.endCalled || i.isEnd)) :
    ∃ m w', w.Step m w' ∧ IsMqWorld (c.sndTo snd) w' := by
  subst hcore
  have hnext : w.Step (.snd i k) _ := Option.map_eq_some_iff.mpr ⟨(snd.core, o), hstep, rfl⟩
  obtain ⟨fs, done, hinv, hne⟩ := h.inv
  obtain ⟨new, hinv', -⟩ := hinv.snd_step hnext
  refine ⟨_, _, hnext, ?_⟩
  exact {
    inv := ⟨_, _, hinv', List.append_ne_nil_of_left_ne_nil hne new⟩
    started := h.started
    snd := rfl
    rcv := by
      unfold CoreWorld.sndTo
      simp only
      rw [h.rcv]
      rfl
    accepted := hacc
    endCalled := hend
    delivered := h.delivered }

/-- A step of the receiver, as a step of the world. -/
theorem rcv_step {i : BlobStreamMqReceiver.Input} {k : List MqAnswer} {r : BlobStreamMqReceiver}
    {o : List BlobStreamMqReceiver.Obs} {rcv : RcvRecord mqLink.Rcv} (h : IsMqWorld c w)
    (hstep : w.rcv.step i k = some (r, o)) (hcore : rcv.core = r.withAnswers [])
    (hstart : r.started = true)
    (hdel : rcv.results.filterMap AsyncAdapterReceiver.message? =
      w.delivered ++ BlobStreamMqReceiver.delivered o) :
    ∃ m w', w.Step m w' ∧ IsMqWorld (c.rcvTo rcv) w' := by
  have hnext : w.Step (.rcv i k) _ := Option.map_eq_some_iff.mpr ⟨(r, o), hstep, rfl⟩
  obtain ⟨fs, done, hinv, hne⟩ := h.inv
  obtain ⟨new, hinv'⟩ := hinv.rcv_step hnext
  refine ⟨_, _, hnext, ?_⟩
  exact {
    inv := ⟨_, _, hinv', hne⟩
    started := hstart
    snd := by
      unfold CoreWorld.rcvTo
      simp only
      rw [hcore]
      exact congrArg (fun s : BlobStreamMqSender =>
        { s with out := { s.out with mq := { r.inp.mq with answers := [] } } }) h.snd
    rcv := hcore
    accepted := h.accepted
    endCalled := h.endCalled
    delivered := hdel }

/-- A blob is accepted by the one if it is by the other. -/
theorem send_op {b : {b : Blob // b ≠ []}} {ks : List MqAnswer} {snd : SndRecord mqLink.Snd}
    (h : IsMqWorld c w) (hop : c.snd.next (.send b ks) = some snd) :
    ∃ m w', w.Step m w' ∧ IsMqWorld (c.sndTo snd) w' := by
  obtain ⟨fs, done, hinv, hne⟩ := h.inv
  have hstart := MqSnd.started_of_told (hinv.snd.withAnswers ks) hne
  have hok := MqSnd.sendBlob_ok hstart b
  rcases hcall : (w.snd.withAnswers ks).sendBlob b with ⟨ok, err, s⟩
  rw [hcall] at hok
  obtain rfl : ok = true := hok
  have hsend : mqLink.Snd.send c.snd.core b ks = (true, err, s) := by
    rw [← hcall]
    exact congrArg (fun t => BlobStreamMqSender.sendBlob t b) (h.snd_withAnswers ks)
  cases hop.symm.trans (SndRecord.next_send hsend)
  cases err with
  | none =>
      refine h.snd_step (i := .sendBlob b) (k := ks) (s := s) (o := [.accepted b]) ?_ rfl ?_ ?_
      · unfold BlobStreamMqSender.step
        simp only [hcall]
      · exact congrArg (· ++ [b]) h.accepted
      · exact h.endCalled.trans (Bool.or_false _).symm
  | some e =>
      refine h.snd_step (i := .sendBlob b) (k := ks) (s := s) (o := []) ?_ rfl ?_ ?_
      · unfold BlobStreamMqSender.step
        simp only [hcall]
      · exact h.accepted.trans (List.append_nil _).symm
      · exact h.endCalled.trans (Bool.or_false _).symm

/-- An event of the one is an event of the other. -/
theorem sndEvent_op {ev : MqSndEv} {ks : List MqAnswer} {snd : SndRecord mqLink.Snd}
    (h : IsMqWorld c w) (hop : c.snd.next (.event ev ks) = some snd) :
    ∃ m w', w.Step m w' ∧ IsMqWorld (c.sndTo snd) w' := by
  obtain ⟨⟨s, r⟩, hev, rfl⟩ := Option.map_eq_some_iff.mp hop
  obtain ⟨⟨s', obs⟩, hstep, heq⟩ := Option.map_eq_some_iff.mp hev
  cases heq
  have hsame : w.snd.step ev.toInput ks = BlobStreamMqSender.step c.snd.core ev.toInput ks := by
    unfold BlobStreamMqSender.step
    rw [h.snd_withAnswers ks]
  have hstep' := hsame.trans hstep
  apply h.snd_step hstep' rfl
  · rw [mqSnd_event_accepted hstep', List.append_nil]
    exact h.accepted
  · rw [show ev.toInput.isEnd = false by cases ev <;> rfl, Bool.or_false]
    exact h.endCalled

/-- An operation on the sender is a step of the world. -/
theorem snd_op {op : SndOp mqLink.Snd} {snd : SndRecord mqLink.Snd} (h : IsMqWorld c w)
    (hop : c.snd.next op = some snd) : ∃ m w', w.Step m w' ∧ IsMqWorld (c.sndTo snd) w' := by
  cases op with
  | send b ks => exact h.send_op hop
  | autoPing period ks =>
      cases hop
      apply h.snd_step (i := .autoPing period) (k := ks) rfl
      · exact congrArg (fun s => (BlobStreamMqSender.autoPing s period).2) (h.snd_withAnswers ks)
      · exact h.accepted.trans (List.append_nil _).symm
      · exact h.endCalled.trans (Bool.or_false _).symm
  | endSending ks =>
      cases hop
      apply h.snd_step (i := .endSending) (k := ks) rfl
      · exact congrArg (fun s => (BlobStreamMqSender.endSending s).2) (h.snd_withAnswers ks)
      · exact h.accepted.trans (List.append_nil _).symm
      · exact (Bool.or_true _).symm
  | asyncEndSending ks =>
      cases hop
      apply h.snd_step (i := .asyncEndSending 0) (k := ks) rfl
      · exact congrArg (fun s => (BlobStreamMqSender.asyncEndSending s 0).2.2) (h.snd_withAnswers ks)
      · exact h.accepted.trans (List.append_nil _).symm
      · exact (Bool.or_true _).symm
  | event ev ks => exact h.sndEvent_op hop

/-- What a request comes to at once is delivered at once. -/
theorem delivered_results (h : IsMqWorld c w) {res : Result mqLink.Rcv.Msg} :
    (if res.1 = wouldBlock then c.rcv.results else c.rcv.results ++ [res]).filterMap
        AsyncAdapterReceiver.message? =
      w.delivered ++ BlobStreamMqReceiver.delivered [.returned true 0 res] := by
  rw [← h.delivered]
  split
  · rename_i hblock
    obtain ⟨code, blob⟩ := res
    cases hblock
    exact (List.append_nil _).symm
  · rw [List.filterMap_append]
    rcases res with ⟨_ | e, blob⟩
    · rfl
    · rfl

/-- A request to the one is a request to the other. -/
theorem asyncReceive_op {n : Nat} {ks : List MqAnswer} {rcv : RcvRecord mqLink.Rcv}
    (h : IsMqWorld c w) (hop : c.rcv.next (.asyncReceive n ks) = some rcv) :
    ∃ m w', w.Step m w' ∧ IsMqWorld (c.rcvTo rcv) w' := by
  rcases hcall : (w.rcv.withAnswers ks).asyncReceiveBlob n 0 with ⟨ok, res, r⟩
  have hcall' : mqLink.Rcv.asyncReceive c.rcv.core n ks = (ok, res, r.withAnswers []) := by
    change MqRcv.asyncReceive c.rcv.core n ks = _
    unfold MqRcv.asyncReceive
    rw [h.rcv_withAnswers ks, hcall]
  cases ok with
  | false => cases hop.symm.trans (RcvRecord.next_asyncReceive_refused hcall')
  | true =>
      cases hop.symm.trans (RcvRecord.next_asyncReceive hcall')
      obtain ⟨-, hinv, -⟩ := mqRcvCore.receive_spec _ _ _ _ _ _ h.rcv_inv
        (mqRcv_idle_of_accepted hcall') hcall'
      refine h.rcv_step (i := .asyncReceiveBlob n 0) (k := ks) (r := r)
        (o := [.returned true 0 res]) ?_ rfl hinv.started h.delivered_results
      unfold BlobStreamMqReceiver.step
      simp only [hcall]

/-- An event of the one is an event of the other. -/
theorem rcvEvent_op {ev : MqRcvEv} {ks : List MqAnswer} {rcv : RcvRecord mqLink.Rcv}
    (h : IsMqWorld c w) (hop : c.rcv.next (.event ev ks) = some rcv) :
    ∃ m w', w.Step m w' ∧ IsMqWorld (c.rcvTo rcv) w' := by
  obtain ⟨⟨r, res⟩, hev, rfl⟩ := Option.map_eq_some_iff.mp hop
  obtain ⟨hinv, -⟩ := mqRcvCore.event_spec _ _ _ _ _ h.rcv_inv hev
  obtain ⟨⟨r', obs⟩, hstep, heq⟩ := Option.map_eq_some_iff.mp hev
  cases heq
  have hsame : w.rcv.step ev.toInput ks = BlobStreamMqReceiver.step c.rcv.core ev.toInput ks := by
    unfold BlobStreamMqReceiver.step
    rw [h.rcv_withAnswers ks]
  have hstep' := hsame.trans hstep
  obtain ⟨g, rfl⟩ := mqRcv_event_obs hstep'
  refine h.rcv_step hstep' rfl hinv.started ?_
  rw [mqRcv_delivered_invocations, ← h.delivered]
  exact List.filterMap_append

/-- An operation on the receiver is a step of the world. -/
theorem rcv_op {op : RcvOp mqLink.Rcv} {rcv : RcvRecord mqLink.Rcv} (h : IsMqWorld c w)
    (hop : c.rcv.next op = some rcv) : ∃ m w', w.Step m w' ∧ IsMqWorld (c.rcvTo rcv) w' := by
  cases op with
  | asyncReceive n ks => exact h.asyncReceive_op hop
  | event ev ks => exact h.rcvEvent_op hop

/-- So is any step of the two. -/
theorem step {m : CoreMove mqLink} {c' : CoreWorld mqLink} (h : IsMqWorld c w) (hstep : c.Step m c') :
    ∃ m w', w.Step m w' ∧ IsMqWorld c' w' := by
  cases m with
  | snd op =>
      obtain ⟨snd, hop, rfl⟩ := Option.map_eq_some_iff.mp hstep
      exact h.snd_op hop
  | rcv op =>
      obtain ⟨rcv, hop, rfl⟩ := Option.map_eq_some_iff.mp hstep
      exact h.rcv_op hop

end IsMqWorld

/-- Two cores that have been started are a world after two steps. -/
theorem isMqWorld_start (n : Nat) (ks : List MqAnswer) :
    ∃ w, IsMqWorld (CoreWorld.start (BlobStreamMqSender.ctor ⟨n, [], 0, []⟩)
      (BlobStreamMqReceiver.ctor ⟨n, [], 0, []⟩) ks) w ∧ w.Reached := by
  obtain ⟨w₁, h₁⟩ : ∃ w₁, (World.init n).next (.snd .startSendBlobOps ks) = some w₁ := ⟨_, rfl⟩
  obtain ⟨w₂, h₂⟩ : ∃ w₂, w₁.next (.rcv .startReceiveBlobOps []) = some w₂ := ⟨_, rfl⟩
  have hreached : w₂.Reached := by
    have hinit : (World.init n).Reached := .of_init ⟨n, rfl⟩
    exact (Reachable.snoc hinit h₁).snoc h₂
  refine ⟨w₂, ?_, hreached⟩
  obtain ⟨fs, done, hinv⟩ := hreached.inv
  cases h₁
  cases h₂
  refine ⟨⟨fs, done, hinv, ?_⟩, rfl, rfl, rfl, rfl, rfl, rfl⟩
  obtain ⟨gs, rfl, -⟩ := hinv.snd.begun rfl
  simp

/-- What the cores can come to by themselves, a world can come to. -/
theorem CoreWorld.Reached.mqWorld {c : CoreWorld mqLink} (h : c.Reached) :
    ∃ w, IsMqWorld c w ∧ w.Reached := by
  apply Reachable.simulate (R := IsMqWorld) _ _ h
  · rintro c ⟨s, r, ks, ⟨n, rfl, rfl⟩, rfl⟩
    exact isMqWorld_start n ks
  · intro c m c' w hcw _ hstep
    obtain ⟨m', w', hnext, hcw'⟩ := hcw.step hstep
    exact ⟨[m'], w', Run.single hnext, hcw'⟩

/-- And with that the cores of two adapters. -/
theorem AsyncWorld.Reached.mqWorld {a : AsyncWorld mqLink} (h : a.Reached) :
    a.rcv.Inv ∧ ∃ c w, a.Cores c ∧ IsMqWorld c w ∧ w.Reached := by
  obtain ⟨hrcv, c, hcores, hc⟩ := h.coreWorld fun c hc => hc.mqWorld.elim fun w hw => hw.1.rcv_inv
  obtain ⟨w, hcw, hw⟩ := hc.mqWorld
  exact ⟨hrcv, c, w, hcores, hcw, hw⟩

/-! ## The results -/

/-- What the two asynchronous objects can come to, a sender and a receiver used by the `sync_io` pattern
can come to: the same cores, but for answers that no operation will see, with the same blobs accepted and
delivered. -/
theorem mqAsync_simulated {a : AsyncWorld mqLink} (h : a.Reached) :
    ∃ w : World, w.Reached ∧
      BlobStreamMqSender.withAnswers a.snd.adapter.syncIo [] = w.snd.withAnswers [] ∧
      a.rcv.adapter.syncIo = w.rcv.withAnswers [] ∧
      a.snd.accepted = w.accepted ∧ a.told = w.delivered := by
  obtain ⟨hrcv, c, w, hcores, hcw, hw⟩ := h.mqWorld
  refine ⟨w, hw, ?_, ?_, ?_, ?_⟩
  · rw [← hcores.snd.core]
    exact hcw.snd
  · rw [← hcw.rcv, hcores.rcv]
    rfl
  · rw [← hcores.snd.accepted]
    exact hcw.accepted
  · rw [hcores.told_eq hrcv]
    exact hcw.delivered

/-- Three requests are pending when two blobs and the graceful close come, and are served in one go. -/
def sampleMqMoves : List (AsyncMove mqLink) :=
  [.rcv (.asyncReceive ⟨(8 : Nat), 0⟩ []), .rcv (.asyncReceive ⟨(8 : Nat), 1⟩ []),
    .rcv (.asyncReceive ⟨(8 : Nat), 2⟩ []), .snd (.send (blobOf 7 []) [.ready]),
    .snd (.send (blobOf 8 [9]) [.ready]), .snd (.asyncEndSending (some 5) [.ready, .ready]),
    .rcv (.event .mqReadable [.ready, .ready, .ready] fun _ => [.ready, .ready]),
    .rcv .runHandler]

/-- Where the run leads. -/
theorem sampleMqMoves_reaches : ∃ a : AsyncWorld mqLink, a.Reached ∧ a.told = [[7], [8, 9]] ∧
    a.rcv.completions.map (fun c => (c.1.onDoneFunc, c.2.1)) =
      [(0, none), (1, none), (2, Code.receivesFinishedCannotReceive.toErrorCode)] := by
  have hrun : (sampleMqMoves.foldlM AsyncWorld.next
      (AsyncWorld.start (L := mqLink) (.ctor ⟨8, [], 0, []⟩) (.ctor ⟨8, [], 0, []⟩) [.ready, .ready])).map
      (fun a => ((a.told : List Blob), a.rcv.completions.map (fun c => (c.1.onDoneFunc, c.2.1)))) =
      some ([[7], [8, 9]],
        [(0, none), (1, none), (2, Code.receivesFinishedCannotReceive.toErrorCode)]) := by decide +kernel
  obtain ⟨a, ha, hseen⟩ := Option.map_eq_some_iff.mp hrun
  exact ⟨a, AsyncWorld.reached_of_foldlM ⟨8, rfl, rfl⟩ ha, congrArg Prod.fst hseen,
    congrArg Prod.snd hseen⟩

/-- Two blobs are sent and delivered, and a `sync_io` pair comes to the same. -/
theorem mqAsync_simulated_sampleMqMoves : ∃ (a : AsyncWorld mqLink) (w : World),
    a.told = [[7], [8, 9]] ∧ w.Reached ∧
      BlobStreamMqSender.withAnswers a.snd.adapter.syncIo [] = w.snd.withAnswers [] ∧
      a.rcv.adapter.syncIo = w.rcv.withAnswers [] ∧
      a.snd.accepted = w.accepted ∧ a.told = w.delivered := by
  obtain ⟨a, ha, htold, -⟩ := sampleMqMoves_reaches
  obtain ⟨w, hw⟩ := mqAsync_simulated ha
  exact ⟨a, w, htold, hw⟩

/-- Blobs go from the user of the one to that of the other in order and whole. -/
theorem mqAsync_inOrder {a : AsyncWorld mqLink} (h : a.Reached) :
    a.rcv.FirstComeFirstServed ∧ a.told <+: a.snd.accepted.map Subtype.val ∧
      ((∃ c ∈ a.rcv.completions, c.2.1 = Code.receivesFinishedCannotReceive.toErrorCode) →
        a.snd.ends ≠ [] ∧ a.told = a.snd.accepted.map Subtype.val) := by
  obtain ⟨hrcv, c, w, hcores, hcw, hw⟩ := h.mqWorld
  obtain ⟨fs, done, hinv⟩ := hw.inv
  have htold : a.told = (blobs done).map Subtype.val := by
    rw [hcores.told_eq hrcv, ← hinv.delivered_eq]
    exact hcw.delivered
  have hacc : a.snd.accepted = blobs fs := by
    rw [← hinv.accepted_eq, ← hcores.snd.accepted]
    exact hcw.accepted
  have hdone := hinv.rcv.reads.done_prefix
  refine ⟨hrcv.result, ?_, ?_⟩
  · rw [htold, hacc]
    exact (blobs_mono hdone).map _
  · rintro ⟨comp, hmem, hcode⟩
    -- Only a core that has found the graceful close says so.
    have herr : w.rcv.inp.pendingErrCode = Code.receivesFinishedCannotReceive.toErrorCode := by
      have hhosed := hrcv.hosed_of_told hmem hcode (by simp) (by simp)
      rw [show a.rcv.adapter.syncIo = c.rcv.core by rw [hcores.rcv]; rfl, hcw.rcv] at hhosed
      exact hhosed
    have hend := hinv.rcv.reads.closed_of_err herr
    have hall : done = fs := hinv.snd.ordered.eq_of_end_mem hdone hend
    refine ⟨hcores.snd.endCalled ?_, ?_⟩
    · rw [hcw.endCalled]
      exact hinv.endCalled (hall ▸ hend)
    · rw [htold, hacc, hall]

/-- In that run two blobs are told of, in order. -/
theorem mqAsync_inOrder_sampleMqMoves : ∃ a : AsyncWorld mqLink, a.told = [[7], [8, 9]] ∧
    a.rcv.FirstComeFirstServed ∧ a.told <+: a.snd.accepted.map Subtype.val ∧
      ((∃ c ∈ a.rcv.completions, c.2.1 = Code.receivesFinishedCannotReceive.toErrorCode) →
        a.snd.ends ≠ [] ∧ a.told = a.snd.accepted.map Subtype.val) := by
  obtain ⟨a, ha, htold, -⟩ := sampleMqMoves_reaches
  exact ⟨a, htold, mqAsync_inOrder ha⟩

end FlowIpc.Adapter
