import FlowIpc.Lib.Handoff
import FlowIpc.MqStream.Failed
import Mathlib.Tactic.SplitIfs

/-!
# The receiver and its blocking worker

Over a queue without a native handle it is thread W that waits for the queue to be readable, in a
blocking `wait_receivable()`, and the event loop awaits the pipe that W writes a byte to. As for the
sender, here are the acts of each operation, in the order in which the source does them (`try_receive()`s,
the task posted, the wait asked for, the byte read). They account for all that is done to the queue
(`In.Does`), whatever messages are on it, and keep to the rule of a resource that is handed to a worker
(`disciplined`): a request that waits, or an error that came up meanwhile, keeps the user thread off the
queue until W is done.

Source: `sync_io/detail/blob_stream_mq_rcv_impl.hpp`.
-/

namespace FlowIpc.MqStream

open Handoff Negotiation

namespace In

/-! ## The acts of low-level reading -/

/-- The size of the buffer that `try_receive()` is given. -/
def targetSize (r : In) (userBlobSize : Nat) : Nat :=
  if r.controlState then r.mqMaxMsgSz else userBlobSize

/-- One turn of the loop of `read_msg()`.
Source: `blob_stream_mq_rcv_impl.hpp` `read_msg`, the `do`-`while` -/
def readMsgOnceActs (r : In) (userBlobSize : Nat) : List (Act Nat) :=
  .touch (r.targetSize userBlobSize) ::
    match r.mq.tryReceive (r.targetSize userBlobSize) with
    | (_, some _, _) => []
    | (some _, none, _) => []
    | (none, none, _) => [.post, .await]

/-- The loop of `read_msg()`, from some turn on.
Source: `blob_stream_mq_rcv_impl.hpp` `read_msg`, the `do`-`while` -/
def readMsgLoopActs (r : In) (userBlobSize : Nat) : List (Act Nat) :=
  match _h : r.readMsgOnce userBlobSize with
  | (some _, _) => r.readMsgOnceActs userBlobSize
  | (none, r') => r.readMsgOnceActs userBlobSize ++ r'.readMsgLoopActs userBlobSize
termination_by r.mq.answers.length
decreasing_by exact readMsgOnce_answers ‹_›

/-! ## What they account for -/

/-- The queue after the acts, of which `try_receive()` is the only one it knows. -/
def replay (mq : Mq) (as : List (Act Nat)) : Mq :=
  as.foldl (fun mq a => match a with
    | .touch size => (mq.tryReceive size).2.2
    | _ => mq) mq

/-- Reading from `r` to `r'` was done by these acts. -/
structure Does (r : In) (as : List (Act Nat)) (r' : In) : Prop where
  turn : Turn r.evWaits as r'.evWaits
  mq_eq : r'.mq = replay r.mq as

variable {r r' : In} {msg : Blob} {n : Nat}

/-- One thing is done after the other. -/
theorem Does.trans {r'' : In} {as bs : List (Act Nat)} (h : r.Does as r') (h' : r'.Does bs r'') :
    r.Does (as ++ bs) r'' where
  turn := h.turn.append h'.turn
  mq_eq := by
    rw [h'.mq_eq, h.mq_eq]
    exact (List.foldl_append).symm

/-! ### Interpreting a message -/

/-- What interpreting a message does not touch, and what errors it may come to. -/
structure Interprets (r r' : In) : Prop where
  evWaits_eq : r'.evWaits = r.evWaits
  ne_wouldBlock : r.pendingErrCode ≠ wouldBlock → r'.pendingErrCode ≠ wouldBlock

/-- Putting off the idle timer does nothing to the queue. -/
theorem interprets_notIdle (r : In) : r.Interprets r.notIdle := by
  unfold notIdle
  split
  · exact ⟨rfl, id⟩
  · simp only
    split
    · exact ⟨rfl, id⟩
    · exact ⟨rfl, id⟩

/-- Negotiating does nothing to the queue. -/
theorem interprets_negotiate (r : In) (ver : Int) : r.Interprets (r.negotiate ver) := by
  refine ⟨rfl, fun herr => ?_⟩
  unfold negotiate ProtocolNegotiator.computeNegotiatedProtoVer
  simp only
  change (if _ then _ else _ : Bool × ErrorCode × ProtocolNegotiator).2.1 ≠ wouldBlock
  split_ifs <;> first | exact herr | simp

/-- A command does nothing to the queue. -/
theorem interprets_onCtlCmd (r : In) (msg : Blob) : r.Interprets (r.onCtlCmd msg) := by
  have hfail : ∀ c : Code, c ≠ .syncIoWouldBlock →
      r.Interprets { r with pendingErrCode := c.toErrorCode } := by
    intro c hc
    exact ⟨rfl, fun _ => by simpa using hc⟩
  unfold onCtlCmd
  split
  · simp only
    split
    · exact r.interprets_negotiate _
    · split
      · exact hfail _ (by simp)
      · split
        · exact hfail _ (by simp)
        · split
          · exact r.interprets_notIdle
          · exact ⟨rfl, id⟩
  · exact hfail _ (by simp)

/-- What is emitted with a message is the error there is. -/
structure Emits (res : Option Result) (r' : In) : Prop where
  again : res = none → r'.pendingErrCode = none
  code : ∀ x, res = some x → x.1 = r'.pendingErrCode

/-- What is emitted is a message or the error. -/
theorem emits_emit (r : In) (msg : Blob) : Emits (r.emit msg).1 (r.emit msg).2 where
  again h := by cases h
  code x h := by
    cases h
    rfl

/-- Nothing is done to the queue to interpret a message. -/
theorem interprets_onMsg {res : Option Result} (herr : r.pendingErrCode = none)
    (hcall : r.onMsg msg = (res, r')) : r.Interprets r' ∧ Emits res r' := by
  unfold onMsg at hcall
  split at hcall
  · have hctl : r.Interprets ({ r with controlState := false }.onCtlCmd msg) := by
      obtain ⟨hw, hne⟩ := interprets_onCtlCmd { r with controlState := false } msg
      exact ⟨hw, hne⟩
    simp only at hcall
    split at hcall
    · obtain rfl : _ = r' := congrArg Prod.snd hcall
      obtain rfl : _ = res := congrArg Prod.fst hcall
      exact ⟨⟨hctl.evWaits_eq, hctl.ne_wouldBlock⟩, emits_emit _ _⟩
    · rename_i hnone
      cases hcall
      refine ⟨hctl, fun _ => by simpa using hnone, fun x h => ?_⟩
      cases h
  · split at hcall
    · cases hcall
      refine ⟨⟨rfl, id⟩, fun _ => herr, fun x h => ?_⟩
      cases h
    · split at hcall
      · obtain ⟨hw, hne⟩ := r.interprets_negotiate verUnknown
        obtain rfl : _ = r' := congrArg Prod.snd hcall
        obtain rfl : _ = res := congrArg Prod.fst hcall
        exact ⟨⟨hw, hne⟩, emits_emit _ _⟩
      · obtain ⟨hw, hne⟩ := r.interprets_notIdle
        obtain rfl : _ = r' := congrArg Prod.snd hcall
        obtain rfl : _ = res := congrArg Prod.fst hcall
        exact ⟨⟨hw, hne⟩, emits_emit _ _⟩

/-! ### The loop -/

/-- Where reading leaves off with a result: the queue is waited for exactly if that is to come later, and
then there is no error. -/
def Ends (res : Result) (r' : In) : Prop :=
  if res.1 = wouldBlock then r'.pendingErrCode = none ∧ r'.evWaits = 1 else r'.evWaits = 0

/-- A turn of the loop receives once, and waits if it would block. -/
theorem Does.readMsgOnce {res : Option Result} (hzero : r.evWaits = 0)
    (hcall : r.readMsgOnce n = (res, r')) :
    r.Does (r.readMsgOnceActs n) r' ∧
      (res = none → r'.pendingErrCode = none ∧ r'.evWaits = 0) ∧ ∀ x, res = some x → Ends x r' := by
  unfold In.readMsgOnce at hcall
  unfold readMsgOnceActs
  rw [← targetSize] at hcall
  rcases htry : r.mq.tryReceive (r.targetSize n) with ⟨m, err, mq⟩
  have hreplay : ∀ as, replay r.mq (.touch (r.targetSize n) :: as) = replay mq as := by
    intro as
    simp [replay, htry]
  have hkept : Turn 0 [Act.touch (r.targetSize n)] 0 := .kept [_]
  rw [htry] at hcall
  rcases err with - | e
  · rcases m with - | msg
    · cases hcall
      refine ⟨⟨?_, (hreplay [.post, .await]).symm⟩, ?_, ?_⟩
      · simp only [hzero]
        exact .handed [_]
      · rintro ⟨⟩
      · rintro x ⟨⟩
        exact (if_pos rfl).mpr ⟨rfl, by simp [hzero]⟩
    · simp only at hcall
      obtain ⟨⟨hw, hne⟩, hagain, hcode⟩ :=
        interprets_onMsg (r := { r with mq := mq, pendingErrCode := none }) rfl hcall
      have hmq : r'.mq = mq := by
        have := congrArg (fun p => p.2.mq) hcall
        simpa using this.symm
      have hw : r'.evWaits = 0 := hw.trans hzero
      refine ⟨⟨?_, hmq.trans (hreplay []).symm⟩, fun hres => ⟨hagain hres, hw⟩, fun x hx => ?_⟩
      · rw [hzero, hw]
        exact hkept
      · have hx : x.1 ≠ wouldBlock := by
          rw [hcode x hx]
          exact hne (by simp)
        exact (if_neg hx).mpr hw
  · cases hcall
    refine ⟨⟨?_, (hreplay []).symm⟩, ?_, ?_⟩
    · change Turn r.evWaits _ r.evWaits
      rw [hzero]
      exact hkept
    · rintro ⟨⟩
    · rintro x ⟨⟩
      have hx : some e ≠ wouldBlock := by
        obtain ⟨q, rfl⟩ := Mq.tryReceive_err htry
        exact q.genuine_toErr.1
      exact (if_neg hx).mpr hzero

/-- The loop goes on like that until there is something to tell. -/
theorem Does.readMsgLoop {res : Result} (hzero : r.evWaits = 0)
    (hcall : r.readMsgLoop n = (res, r')) : r.Does (r.readMsgLoopActs n) r' ∧ Ends res r' := by
  induction r using readMsgLoop.induct n with
  | case1 r x r₁ honce =>
      obtain ⟨hdoes, -, hends⟩ := Does.readMsgOnce hzero honce
      rw [In.readMsgLoop, honce] at hcall
      rw [readMsgLoopActs, honce]
      cases hcall
      exact ⟨hdoes, hends _ rfl⟩
  | case2 r r₁ honce ih =>
      obtain ⟨hdoes, hagain, -⟩ := Does.readMsgOnce hzero honce
      rw [In.readMsgLoop, honce] at hcall
      rw [readMsgLoopActs, honce]
      obtain ⟨hrest, hends⟩ := ih (hagain rfl).2 hcall
      exact ⟨hdoes.trans hrest, hends⟩

end In

namespace BlobStreamMqReceiver

/-! ## The acts of the operations -/

/-- `read_msg()`
Source: `blob_stream_mq_rcv_impl.hpp` `read_msg` -/
def readMsgActs (r : BlobStreamMqReceiver) : List (Act Nat) :=
  r.inp.readMsgLoopActs ((r.userRequest.map (·.targetBlobSize)).getD 0)

/-- `async_receive_blob()`
Source: `blob_stream_mq_rcv_impl.hpp` `async_receive_blob` -/
def asyncReceiveBlobActs (r : BlobStreamMqReceiver) (targetBlobSize : Nat) (onDoneFunc : Nat) :
    List (Act Nat) :=
  if r.started = false then []
  else if r.userRequest.isSome then []
  else if r.inp.pendingErrCode.isSome then []
  else if targetBlobSize < r.inp.mqMaxMsgSz then []
  else { r with userRequest := some ⟨targetBlobSize, onDoneFunc⟩ }.readMsgActs

/-- The event: the byte is read, and then messages, unless an error has come up.
Source: `blob_stream_mq_rcv_impl.hpp` `read_msg`, the event -/
def onEvMqReadableActs (r : BlobStreamMqReceiver) : List (Act Nat) :=
  .consume :: if r.inp.pendingErrCode.isSome then [] else r.readMsgActs

/-- The acts of a step. Neither `idle_timer_run()` nor the timer does anything to the queue. -/
def acts (r : BlobStreamMqReceiver) (i : Input) (ks : List MqAnswer) : List (Act Nat) :=
  let r := r.withAnswers ks
  match i with
  | .startReceiveBlobOps => []
  | .asyncReceiveBlob size f => r.asyncReceiveBlobActs size f
  | .idleTimerRun _ => []
  | .mqReadable => { r with inp := { r.inp with evWaits := r.inp.evWaits - 1 } }.onEvMqReadableActs
  | .timerFires => []
  | .timerReadable => []

/-- Why the queue is waited for: for a request, or, where that has been answered by an error meanwhile,
for nothing any more. Without a wait there is no request. -/
structure Waits (r : BlobStreamMqReceiver) : Prop where
  le_one : r.inp.evWaits ≤ 1
  waited : r.inp.evWaits = 1 → r.userRequest.isSome ∨ r.inp.pendingErrCode.isSome
  requested : r.userRequest.isSome → r.inp.pendingErrCode = none ∧ r.inp.evWaits = 1

variable {r r' : BlobStreamMqReceiver} {n f : Nat}

/-- A step was done by these acts, and leaves a receiver that waits as it should. -/
structure Does (r : BlobStreamMqReceiver) (as : List (Act Nat)) (r' : BlobStreamMqReceiver) : Prop where
  waits : r'.Waits
  inp : r.inp.Does as r'.inp

/-- A step that leaves alone the queue, the wait for it, the request, and the error. -/
theorem Waits.does_nil (h : r.Waits) (hmq : r'.inp.mq = r.inp.mq)
    (hw : r'.inp.evWaits = r.inp.evWaits) (hreq : r'.userRequest = r.userRequest)
    (herr : r'.inp.pendingErrCode = r.inp.pendingErrCode) : r.Does [] r' where
  waits := by
    refine ⟨?_, ?_, ?_⟩
    · rw [hw]
      exact h.le_one
    · rw [hw, hreq, herr]
      exact h.waited
    · rw [hw, hreq, herr]
      exact h.requested
  inp := by
    refine ⟨?_, hmq⟩
    rw [hw]
    exact .nil h.le_one

/-- Where reading leaves off, the request is left exactly if the queue is waited for. -/
theorem waits_of_ends {res : Result} {inp : In} (hreq : r.userRequest.isSome)
    (hends : In.Ends res inp) :
    (if res.1 ≠ wouldBlock then { r with inp := inp, userRequest := none }
      else { r with inp := inp } : BlobStreamMqReceiver).Waits := by
  unfold In.Ends at hends
  by_cases hres : res.1 = wouldBlock
  · rw [if_pos hres] at hends
    rw [if_neg (not_not.mpr hres)]
    exact ⟨by simp [hends.2], fun _ => .inl hreq, fun _ => hends⟩
  · rw [if_neg hres] at hends
    rw [if_pos hres]
    refine ⟨by simp [hends], fun hone => ?_, fun hreq => by cases hreq⟩
    simp [hends] at hone

/-- Reading for a request, where the queue is not waited for yet. -/
theorem does_readMsg {res : Result} (hreq : r.userRequest.isSome)
    (herr : r.inp.pendingErrCode = none) (hzero : r.inp.evWaits = 0) (hcall : r.readMsg = (res, r')) :
    ∃ inp, r' = { r with inp := inp } ∧ r.inp.Does r.readMsgActs inp ∧ In.Ends res inp := by
  unfold readMsg at hcall
  simp only at hcall
  rw [assert_of (by exact hreq), assert_of (by exact herr)] at hcall
  rcases hread : r.inp.readMsgLoop ((r.userRequest.map (·.targetBlobSize)).getD 0) with ⟨res', inp⟩
  obtain ⟨hdoes, hends⟩ := In.Does.readMsgLoop hzero hread
  rw [hread] at hcall
  cases hcall
  exact ⟨inp, rfl, hdoes, hends⟩

/-- A request does what the loop does. -/
theorem Waits.asyncReceiveBlob (h : r.Waits) :
    r.Does (r.asyncReceiveBlobActs n f) (r.asyncReceiveBlob n f).2.2 := by
  unfold asyncReceiveBlobActs BlobStreamMqReceiver.asyncReceiveBlob
  split
  · exact h.does_nil rfl rfl rfl rfl
  · split
    · exact h.does_nil rfl rfl rfl rfl
    · rename_i hnoreq
      have hnone : r.userRequest = none := by simpa using hnoreq
      -- A request that is answered at once is not kept.
      have hsame : ∀ c : Prop, [Decidable c] →
          (if c then { r with userRequest := none } else r : BlobStreamMqReceiver) = r := by
        intro c hc
        split
        · rw [← hnone]
        · rfl
      split
      · simp only [hsame]
        exact h.does_nil rfl rfl rfl rfl
      · rename_i hnoerr
        have hnoerr : r.inp.pendingErrCode = none := by simpa using hnoerr
        have hzero : r.inp.evWaits = 0 := by
          have hle := h.le_one
          have hwaited := h.waited
          simp only [hnone, hnoerr, Option.isSome_none, Bool.false_eq_true, or_self, imp_false] at hwaited
          omega
        split
        · simp only [hsame]
          exact h.does_nil rfl rfl rfl rfl
        · let u : BlobStreamMqReceiver := { r with userRequest := some ⟨n, f⟩ }
          rcases hread : u.readMsg with ⟨res, r₁⟩
          obtain ⟨inp, rfl, hdoes, hends⟩ := does_readMsg (r := u) rfl hnoerr hzero hread
          have hwaits := waits_of_ends (r := u) rfl hends
          simp only
          refine ⟨hwaits, ?_⟩
          split
          · exact hdoes
          · exact hdoes

/-- The event: once the byte is read, and the wait for it over, there is a request to go on with, or an
error that has answered it. -/
theorem Waits.onEvMqReadable (h : r.Waits) (hone : r.inp.evWaits = 1) {u : BlobStreamMqReceiver}
    (hu : u = { r with inp := { r.inp with evWaits := 0 } }) :
    ∃ as, u.onEvMqReadableActs = .consume :: as ∧ u.Does as u.onEvMqReadable.1 := by
  have huerr : u.inp.pendingErrCode = r.inp.pendingErrCode := by rw [hu]
  have hureq : u.userRequest = r.userRequest := by rw [hu]
  have huzero : u.inp.evWaits = 0 := by rw [hu]
  unfold BlobStreamMqReceiver.onEvMqReadable onEvMqReadableActs
  by_cases herr : u.inp.pendingErrCode.isSome
  · have hnone : u.userRequest = none := by
      by_contra hreq
      have hreq := Option.isSome_iff_ne_none.mpr hreq
      rw [hureq] at hreq
      rw [huerr, (h.requested hreq).1] at herr
      cases herr
    rw [if_pos herr, if_pos herr, assert_of hnone]
    refine ⟨[], rfl, ⟨by simp [huzero], fun hw => ?_, fun hreq => ?_⟩, ?_, rfl⟩
    · rw [huzero] at hw
      cases hw
    · simp [hnone] at hreq
    · rw [huzero]
      exact .kept []
  · have hnone : u.inp.pendingErrCode = none := by simpa using herr
    have hreq : u.userRequest.isSome := by
      have hwaited := h.waited hone
      rw [← huerr, ← hureq, hnone] at hwaited
      simpa using hwaited
    rw [if_neg herr, if_neg herr, assert_of hreq]
    refine ⟨_, rfl, ?_⟩
    rcases hread : u.readMsg with ⟨res, r₁⟩
    obtain ⟨inp, rfl, hdoes, hends⟩ := does_readMsg hreq hnone huzero hread
    have hwaits := waits_of_ends hreq hends
    simp only [hread]
    by_cases hres : res.1 = wouldBlock
    · rw [if_pos hres]
      rw [if_neg (not_not.mpr hres)] at hwaits
      exact ⟨hwaits, hdoes⟩
    · rw [if_neg hres]
      rw [if_pos hres] at hwaits
      exact ⟨hwaits, hdoes⟩

/-! ## Steps -/

/-- A call, or an event of the timer. -/
theorem does_step {i : Input} {ks : List MqAnswer} {obs : List Obs} (h : r.Waits)
    (hi : i ≠ .mqReadable) (hstep : r.step i ks = some (r', obs)) :
    (r.withAnswers ks).Does (r.acts i ks) r' := by
  have hwaits : (r.withAnswers ks).Waits := ⟨h.le_one, h.waited, h.requested⟩
  unfold BlobStreamMqReceiver.step at hstep
  unfold acts
  generalize r.withAnswers ks = u at hwaits hstep ⊢
  cases i with
  | startReceiveBlobOps =>
      cases hstep
      unfold startReceiveBlobOps
      simp only
      split
      · exact hwaits.does_nil rfl rfl rfl rfl
      · exact hwaits.does_nil rfl rfl rfl rfl
  | asyncReceiveBlob n f =>
      cases hstep
      exact hwaits.asyncReceiveBlob
  | idleTimerRun timeout =>
      cases hstep
      unfold idleTimerRun
      simp only
      split_ifs <;> exact hwaits.does_nil rfl rfl rfl rfl
  | mqReadable => exact absurd rfl hi
  | timerFires =>
      simp only [Option.map_eq_some_iff] at hstep
      obtain ⟨t, -, heq⟩ := hstep
      cases heq
      exact hwaits.does_nil rfl rfl rfl rfl
  | timerReadable =>
      simp only [Option.map_eq_some_iff] at hstep
      obtain ⟨t, -, heq⟩ := hstep
      cases heq
      unfold onEvIdleTimerFired
      simp only
      split
      · exact hwaits.does_nil rfl rfl rfl rfl
      · -- The timeout answers the request, and W goes on waiting.
        refine ⟨⟨hwaits.le_one, fun _ => .inr rfl, fun hreq => by cases hreq⟩, .nil hwaits.le_one, rfl⟩

/-- The event of the pipe being readable. -/
theorem does_mqReadable (h : r.Waits) (hone : r.inp.evWaits = 1) (ks : List MqAnswer) :
    ∃ r' obs as, r.step .mqReadable ks = some (r', obs) ∧ r.acts .mqReadable ks = .consume :: as ∧
      ({ (r.withAnswers ks).inp with evWaits := 0 } : In).Does as r'.inp ∧ r'.Waits := by
  have hwaits : (r.withAnswers ks).Waits := ⟨h.le_one, h.waited, h.requested⟩
  have hone' : (r.withAnswers ks).inp.evWaits = 1 := hone
  unfold BlobStreamMqReceiver.step acts
  generalize r.withAnswers ks = u at hwaits hone' ⊢
  obtain ⟨as, has, hdoes⟩ := hwaits.onEvMqReadable hone' rfl
  simp only [hone', Nat.zero_lt_one, if_true, Nat.sub_self]
  exact ⟨_, _, as, rfl, has, hdoes.inp, hdoes.waits⟩

/-- The receiver as the user thread of its worker; each turn comes with the answers of the queue. -/
def user : User BlobStreamMqReceiver (Input × List MqAnswer) Nat where
  waits r := r.inp.evWaits
  isReady i := decide (i.1 = .mqReadable)
  turn r i := (r.step i.1 i.2).map fun t => (t.1, r.acts i.1 i.2)

/-- It keeps to the rule. -/
theorem disciplined : user.Disciplined Waits where
  call {r r' i as} h hready hturn := by
    obtain ⟨⟨t, obs⟩, hstep, heq⟩ := Option.map_eq_some_iff.mp hturn
    cases heq
    have hdoes := does_step h (by simpa [user] using hready) hstep
    exact ⟨hdoes.waits, hdoes.inp.turn⟩
  ready {r i} h hone hready := by
    obtain ⟨i, ks⟩ := i
    obtain rfl : i = .mqReadable := by simpa [user] using hready
    obtain ⟨t, obs, as, hstep, has, hdoes, hwaits⟩ := does_mqReadable h hone ks
    refine ⟨t, as, ?_, hwaits, hdoes.turn⟩
    simp only [user, hstep, has, Option.map_some]

/-- A receiver as a constructor leaves it. -/
def Constructed (r : BlobStreamMqReceiver) : Prop :=
  (∃ mq, r = ctor mq) ∨ ∃ mq n e, r = ctorFailed mq n e

/-- A receiver just constructed waits for nothing. -/
theorem Constructed.waits (h : r.Constructed) : r.Waits ∧ user.waits r = 0 := by
  rcases h with ⟨mq, rfl⟩ | ⟨mq, n, e, rfl⟩
  · refine ⟨⟨Nat.zero_le 1, ?_, ?_⟩, rfl⟩
    · rintro ⟨⟩
    · rintro ⟨⟩
  · refine ⟨⟨Nat.zero_le 1, ?_, ?_⟩, rfl⟩
    · rintro ⟨⟩
    · rintro ⟨⟩

end BlobStreamMqReceiver

end FlowIpc.MqStream
