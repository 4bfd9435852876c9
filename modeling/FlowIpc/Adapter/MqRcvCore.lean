import FlowIpc.Adapter.RcvCore
import FlowIpc.MqStream.RcvInv

/-!
# The queue stream's receiver as a core

`mqRcvCore`: `Blob_stream_mq_receiver_impl` is a core that an `Async_adapter_receiver` can wrap. The
messages that a sender will put on the queue are all there from the start; that some have not arrived
yet is an answer of the queue's, that it would block.
-/

namespace FlowIpc.Adapter

open MqStream PrefixCode

/-- What happens to a receiver besides requests. -/
inductive MqRcvEv where
  /-- `idle_timer_run()`; the contract asks for a positive timeout. -/
  | idleTimerRun (timeout : {n : Nat // 0 < n})
  /-- The queue is reported readable. -/
  | mqReadable
  /-- The idle timer fires in its worker thread. -/
  | timerFires
  /-- The signal pipe of the idle timer is reported readable. -/
  | timerReadable

/-- The step of the receiver that it is. -/
def MqRcvEv.toInput : MqRcvEv → BlobStreamMqReceiver.Input
  | idleTimerRun timeout => .idleTimerRun timeout
  | mqReadable => .mqReadable
  | timerFires => .timerFires
  | timerReadable => .timerReadable

namespace MqRcv

/-- The result that the handler was invoked with, if it was. -/
def result? : List BlobStreamMqReceiver.Obs → Option MqStream.Result
  | .invoked _ res :: _ => some res
  | _ => none

/-- `async_receive_blob()`, during which the queue gives the answers `ks`. -/
def asyncReceive (r : BlobStreamMqReceiver) (targetBlobSize : Nat) (ks : List MqAnswer) :
    Bool × MqStream.Result × BlobStreamMqReceiver :=
  let (ok, res, r) := (r.withAnswers ks).asyncReceiveBlob targetBlobSize 0
  (ok, res, r.withAnswers [])

/-- An event, during which the queue gives the answers `ks`. -/
def event (r : BlobStreamMqReceiver) (ev : MqRcvEv) (ks : List MqAnswer) :
    Option (BlobStreamMqReceiver × Option MqStream.Result) :=
  (r.step ev.toInput ks).map fun (r, obs) => (r.withAnswers [], result? obs)

/-- A receiver in use, between calls. -/
structure Inv (r : BlobStreamMqReceiver) : Prop where
  reading : ∃ fs done, Ordered fs ∧ r.Inv fs done
  started : r.started = true
  answers : r.inp.mq.answers = []

/-- A receiver is in use with any answers to come. -/
theorem inv_withAnswers {r : BlobStreamMqReceiver} {fs done : List Frame} (hord : Ordered fs)
    (h : r.Inv fs done) (hstart : r.started = true) : Inv (r.withAnswers []) :=
  ⟨⟨fs, done, hord, h.withAnswers []⟩, hstart, rfl⟩

/-- Between calls no answer is left. -/
theorem Inv.withAnswers_eq {r : BlobStreamMqReceiver} (h : Inv r) (ks : List MqAnswer) :
    (r.withAnswers ks).withAnswers [] = r := by
  unfold BlobStreamMqReceiver.withAnswers
  simp only
  rw [← h.answers]

/-- A turn of reading is a completion, unless the request is left outstanding. -/
theorem completes_of_turn {r r' : BlobStreamMqReceiver} {inp : In} {res : MqStream.Result}
    {fs done new : List Frame} (herr : r.inp.pendingErrCode = none)
    (hreads : inp.Reads fs (done ++ new)) (hturn : In.Turn 0 inp (some res) new)
    (hreq : r'.userRequest = none) (herr' : r'.inp.pendingErrCode = inp.pendingErrCode)
    (hne : res.1 ≠ wouldBlock) :
    Completes (fun r : BlobStreamMqReceiver => r.userRequest.isSome) (·.inp.pendingErrCode) []
      r r' res := by
  have hidle : r'.userRequest.isSome = false := by rw [hreq]; rfl
  cases hturn with
  | got b err _ _ => exact .message b.val herr (herr'.trans err) hidle
  | failed e err _ _ =>
      have hexp := hreads.expected e err
      refine .hosed e hexp.genuine ?_ (.inl herr) (herr'.trans err) hidle
      rintro rfl
      exact hexp.ne_invalid rfl
  | wouldBlock _ _ _ => exact absurd rfl hne

/-- A request, where there is none, would block, and is then outstanding, or completes at once. -/
theorem receive_spec (r : BlobStreamMqReceiver) (n : Nat) (ks : List MqAnswer) (ok : Bool)
    (res : MqStream.Result) (r' : BlobStreamMqReceiver) (h : Inv r)
    (hidle : r.userRequest.isSome = false) (hcall : asyncReceive r n ks = (ok, res, r')) :
    ok = true ∧ Inv r' ∧
      ((res = (wouldBlock, []) ∧ r'.userRequest.isSome = true ∧ r'.inp.pendingErrCode = none ∧
          r.inp.pendingErrCode = none) ∨
        (res.1 ≠ wouldBlock ∧
          Completes (fun r : BlobStreamMqReceiver => r.userRequest.isSome) (·.inp.pendingErrCode) []
            r r' res)) := by
  obtain ⟨fs, done, hord, hinv⟩ := h.reading
  unfold asyncReceive at hcall
  rcases hrcv : (r.withAnswers ks).asyncReceiveBlob n 0 with ⟨ok₁, res₁, r₁⟩
  rw [hrcv] at hcall
  cases hcall
  have hout := (hinv.withAnswers ks).asyncReceiveBlob_cases hord hrcv
  obtain ⟨new, hinv₁⟩ := hout.inv (hinv.withAnswers ks)
  cases hout with
  | refused _ why =>
      rcases why with why | why
      · have hstart := h.started
        rw [show r.started = false from why] at hstart
        cases hstart
      · rw [show r.userRequest.isSome = true from why] at hidle
        cases hidle
  | latched e err =>
      have hexp := hinv.reads.expected e err
      refine ⟨rfl, inv_withAnswers hord hinv₁ h.started, .inr ⟨hexp.genuine.1, ?_⟩⟩
      exact .hosed e hexp.genuine hexp.ne_invalid (.inr err) err hidle
  | invalid err size =>
      refine ⟨rfl, inv_withAnswers hord hinv₁ h.started, .inr ⟨by simp, ?_⟩⟩
      exact .invalid err (h.withAnswers_eq ks)
  | read res inp new' err size sent reads turn =>
      refine ⟨rfl, inv_withAnswers hord hinv₁ h.started, ?_⟩
      by_cases hblock : res.1 = wouldBlock
      · left
        cases turn with
        | got b _ _ _ => cases hblock
        | failed e err' _ _ => exact absurd hblock (reads.expected e err').genuine.1
        | wouldBlock err' _ _ => exact ⟨rfl, rfl, err', err⟩
      · right
        refine ⟨hblock, completes_of_turn err reads turn ?_ rfl hblock⟩
        simp [BlobStreamMqReceiver.withAnswers, hblock]

/-- An event leaves the receiver in use, and answers an outstanding request or leaves it be. -/
theorem event_spec (r : BlobStreamMqReceiver) (ev : MqRcvEv) (ks : List MqAnswer)
    (r' : BlobStreamMqReceiver) (res : Option MqStream.Result) (h : Inv r)
    (hev : event r ev ks = some (r', res)) :
    Inv r' ∧ EventEffect (fun r : BlobStreamMqReceiver => r.userRequest.isSome)
      (·.inp.pendingErrCode) [] r r' res := by
  obtain ⟨fs, done, hord, hinv₀⟩ := h.reading
  have hinv := hinv₀.withAnswers ks
  unfold event at hev
  simp only [Option.map_eq_some_iff] at hev
  obtain ⟨⟨r₁, obs⟩, hstep, heq⟩ := hev
  cases heq
  unfold BlobStreamMqReceiver.step at hstep
  cases ev with
  | idleTimerRun timeout =>
      cases hstep
      obtain ⟨-, hinv', hstart, hreq, herr⟩ := hinv.idleTimerRun timeout
      refine ⟨inv_withAnswers hord hinv' (hstart.trans h.started), .silent ?_ (.inr herr)⟩
      exact congrArg Option.isSome hreq
  | mqReadable =>
      simp only [MqRcvEv.toInput] at hstep
      split at hstep
      · rename_i hw
        rcases hcall : BlobStreamMqReceiver.onEvMqReadable
          { (r.withAnswers ks) with
            inp := { (r.withAnswers ks).inp with
              evWaits := (r.withAnswers ks).inp.evWaits - 1 } } with ⟨r₂, g⟩
        have hout := hinv.onEvMqReadable_cases hord hw hcall
        obtain ⟨new, hinv'⟩ := hout.inv hinv
        simp only [hcall] at hstep
        cases hstep
        cases hout with
        | late err => exact ⟨inv_withAnswers hord hinv' h.started, .silent rfl (.inr rfl)⟩
        | read q res inp new' err request sent reads turn =>
            by_cases hblock : res.1 = wouldBlock
            · simp only [hblock, if_true] at hinv' ⊢
              refine ⟨inv_withAnswers hord hinv' h.started, .silent ?_ (.inl err)⟩
              exact (congrArg Option.isSome request).symm
            · simp only [hblock, if_false] at hinv' ⊢
              refine ⟨inv_withAnswers hord hinv' h.started, .answered res ?_ ?_ ?_⟩
              · exact congrArg Option.isSome request
              · cases turn with
                | got b _ _ _ => simp
                | failed e err' _ _ =>
                    simpa using (reads.expected e err').ne_invalid
                | wouldBlock _ _ _ => simp
              · exact completes_of_turn err reads turn rfl rfl hblock
      · cases hstep
  | timerFires =>
      simp only [MqRcvEv.toInput, Option.map_eq_some_iff] at hstep
      obtain ⟨t, hfire, heq⟩ := hstep
      cases heq
      exact ⟨inv_withAnswers hord (hinv.timerFires hfire) h.started, .silent rfl (.inr rfl)⟩
  | timerReadable =>
      simp only [MqRcvEv.toInput, Option.map_eq_some_iff] at hstep
      obtain ⟨t, htake, heq⟩ := hstep
      rcases hcall : BlobStreamMqReceiver.onEvIdleTimerFired
        { (r.withAnswers ks) with
          inp := { (r.withAnswers ks).inp with idleTimer := t } } with ⟨r₂, g⟩
      rw [hcall] at heq
      cases heq
      obtain ⟨hinv', -, hstart, hcases⟩ := hinv.onEvIdleTimerFired htake hcall
      have hinv'' := inv_withAnswers hord hinv' (hstart.trans h.started)
      rcases hcases with ⟨rfl, hreq, herr⟩ | ⟨hopen, hreq, herr, rfl⟩
      · exact ⟨hinv'', .silent (congrArg Option.isSome hreq) (.inr herr)⟩
      · refine ⟨hinv'', ?_⟩
        cases hq : (r.withAnswers ks).userRequest with
        | none => exact .silent (congrArg Option.isSome (hreq.trans hq.symm)) (.inl hopen)
        | some q =>
            refine .answered _ (congrArg Option.isSome hq) (by simp) ?_
            exact .hosed _ (by simp) (by simp) (.inl hopen) herr (congrArg Option.isSome hreq)

/-- A receiver just constructed on a queue on which nothing but the messages of some frames, in their
order, will ever be found. -/
def Init (r : BlobStreamMqReceiver) : Prop :=
  ∃ mq fs, r = .ctor mq ∧ Ordered fs ∧ mq.sent <+: stream Frame.enc fs ∧ mq.received = 0 ∧
    mq.answers = []

/-- Receiving is started, with nothing outstanding and no error. -/
theorem inv_start (r : BlobStreamMqReceiver) (h : Init r) :
    r.startReceiveBlobOps.1 = true ∧ Inv r.startReceiveBlobOps.2 ∧
      r.startReceiveBlobOps.2.userRequest.isSome = false ∧
      r.startReceiveBlobOps.2.inp.pendingErrCode = none := by
  obtain ⟨mq, fs, rfl, hord, hsent, hrcvd, hks⟩ := h
  have hinv := (BlobStreamMqReceiver.inv_ctor hrcvd hsent).startReceiveBlobOps
  exact ⟨rfl, ⟨⟨fs, [], hord, hinv⟩, rfl, hks⟩, rfl, rfl⟩

end MqRcv

/-- The core of a `Blob_stream_mq_receiver`. -/
def mqRcvCore : RcvCore where
  State := BlobStreamMqReceiver
  Req := Nat
  Msg := Blob
  sz := List.length
  noMsg := []
  Ev := MqRcvEv
  Ans := List MqAnswer
  Init := MqRcv.Init
  startReceiveOps := BlobStreamMqReceiver.startReceiveBlobOps
  asyncReceive := MqRcv.asyncReceive
  event := MqRcv.event
  outstanding r := r.userRequest.isSome
  hosed r := r.inp.pendingErrCode
  Inv := MqRcv.Inv
  sz_noMsg := rfl
  inv_start := MqRcv.inv_start
  idle_of_hosed r h hhosed := by
    obtain ⟨fs, done, -, hinv⟩ := h.reading
    cases hreq : r.userRequest with
    | none => rfl
    | some q => exact absurd (hinv.request (by rw [hreq]; rfl)) hhosed
  receive_spec := MqRcv.receive_spec
  event_spec := MqRcv.event_spec

/-! ## The check of the buffer size -/

namespace MqRcv

/-- A request is seen to have one of three outcomes before anything is read: an earlier error, the
fault of its buffer, or none. -/
theorem asyncReceive_cases {r r' : BlobStreamMqReceiver} {n : Nat} {ks : List MqAnswer} {ok : Bool}
    {res : MqStream.Result} (h : Inv r) (hidle : r.userRequest.isSome = false)
    (hcall : asyncReceive r n ks = (ok, res, r')) :
    (∃ e, r.inp.pendingErrCode = some e ∧ ok = true ∧ res = (some e, []) ∧ r' = r) ∨
      (r.inp.pendingErrCode = none ∧ n < r.inp.mqMaxMsgSz ∧ ok = true ∧
        res = (Code.invalidArgument.toErrorCode, []) ∧ r' = r) ∨
      (r.inp.pendingErrCode = none ∧ r.inp.mqMaxMsgSz ≤ n ∧
        res.1 ≠ Code.invalidArgument.toErrorCode) := by
  obtain ⟨fs, done, hord, hinv⟩ := h.reading
  unfold asyncReceive at hcall
  rcases hrcv : (r.withAnswers ks).asyncReceiveBlob n 0 with ⟨ok₁, res₁, r₁⟩
  rw [hrcv] at hcall
  cases hcall
  have hout := (hinv.withAnswers ks).asyncReceiveBlob_cases hord hrcv
  cases hout with
  | refused _ why =>
      rcases why with why | why
      · have hstart := h.started
        rw [show r.started = false from why] at hstart
        cases hstart
      · rw [show r.userRequest.isSome = true from why] at hidle
        cases hidle
  | latched e err => exact .inl ⟨e, err, rfl, rfl, h.withAnswers_eq ks⟩
  | invalid err size => exact .inr (.inl ⟨err, size, rfl, rfl, h.withAnswers_eq ks⟩)
  | read res inp new err size sent reads turn =>
      refine .inr (.inr ⟨err, size, ?_⟩)
      cases turn with
      | got b _ _ _ => simp
      | failed e err' _ _ => simpa using (reads.expected e err').ne_invalid
      | wouldBlock _ _ _ => simp

/-- A request leaves the size limit as it is. -/
theorem asyncReceive_mqMaxMsgSz {r : BlobStreamMqReceiver} {n : Nat} {ks : List MqAnswer} :
    (asyncReceive r n ks).2.2.inp.mqMaxMsgSz = r.inp.mqMaxMsgSz :=
  BlobStreamMqReceiver.asyncReceiveBlob_mqMaxMsgSz (r := r.withAnswers ks)

/-- So does an event. -/
theorem event_mqMaxMsgSz {r r' : BlobStreamMqReceiver} {ev : MqRcvEv} {ks : List MqAnswer}
    {res : Option MqStream.Result} (hev : event r ev ks = some (r', res)) :
    r'.inp.mqMaxMsgSz = r.inp.mqMaxMsgSz := by
  unfold event at hev
  simp only [Option.map_eq_some_iff] at hev
  obtain ⟨⟨r₁, obs⟩, hstep, heq⟩ := hev
  have hsame := BlobStreamMqReceiver.step_mqMaxMsgSz hstep
  rw [← (Prod.mk.inj heq).1]
  exact hsame

/-- The buffer has room for the largest message. -/
def fits (r : BlobStreamMqReceiver) (targetBlobSize : Nat) : Bool :=
  decide (r.inp.mqMaxMsgSz ≤ targetBlobSize)

/-- A request fits if any message would. -/
theorem fits_iff {r : BlobStreamMqReceiver} {n : Nat} : fits r n = true ↔ r.inp.mqMaxMsgSz ≤ n :=
  decide_eq_true_iff

/-- Which requests fit goes by the size limit alone. -/
theorem fits_congr {r r' : BlobStreamMqReceiver} (h : r'.inp.mqMaxMsgSz = r.inp.mqMaxMsgSz) :
    fits r' = fits r := by
  funext n
  rw [fits, fits, h]

end MqRcv

/-- `async_receive_blob()` turns a buffer down that is smaller than the largest message. -/
def mqRequestCheck : RequestCheck mqRcvCore where
  fits := MqRcv.fits
  fits_receive _ _ _ := MqRcv.fits_congr MqRcv.asyncReceive_mqMaxMsgSz
  fits_event _ _ _ _ _ hev := MqRcv.fits_congr (MqRcv.event_mqMaxMsgSz hev)
  receive_hosed r n ks e h he := by
    have hidle := mqRcvCore.idle_of_hosed r h (by simp [he])
    rcases hcall : MqRcv.asyncReceive r n ks with ⟨ok, res, r'⟩
    rcases MqRcv.asyncReceive_cases h hidle hcall with ⟨e', he', rfl, rfl, rfl⟩ | ⟨hopen, -⟩ | ⟨hopen, -⟩
    · cases (show some e = some e' from he.symm.trans he')
      exact hcall
    · cases (show some e = none from he.symm.trans hopen)
    · cases (show some e = none from he.symm.trans hopen)
  receive_unfit r n ks h hidle hopen hfit := by
    rcases hcall : MqRcv.asyncReceive r n ks with ⟨ok, res, r'⟩
    rcases MqRcv.asyncReceive_cases h hidle hcall with ⟨e, he, -⟩ | ⟨-, -, rfl, rfl, rfl⟩ | ⟨-, hsize, -⟩
    · cases (show some e = none from he.symm.trans hopen)
    · exact hcall
    · have hfits := MqRcv.fits_iff.mpr hsize
      rw [show MqRcv.fits r n = false from hfit] at hfits
      cases hfits
  receive_fit r n ks h hidle hfit := by
    rcases hcall : MqRcv.asyncReceive r n ks with ⟨ok, res, r'⟩
    have hres : (mqRcvCore.asyncReceive r n ks).2.1 = res := congrArg (·.2.1) hcall
    rw [hres]
    obtain ⟨fs, done, -, hinv⟩ := h.reading
    rcases MqRcv.asyncReceive_cases h hidle hcall with ⟨e, he, -, rfl, -⟩ | ⟨-, hsize, -⟩ | ⟨-, -, hne⟩
    · simpa using (hinv.reads.expected e he).ne_invalid
    · exact absurd (MqRcv.fits_iff.mp hfit) (Nat.not_le.mpr hsize)
    · exact hne
  hosed_ne r h he := by
    obtain ⟨fs, done, -, hinv⟩ := h.reading
    exact (hinv.reads.expected _ he).ne_invalid rfl

end FlowIpc.Adapter
