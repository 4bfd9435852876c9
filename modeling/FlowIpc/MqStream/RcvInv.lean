import FlowIpc.MqStream.Frames
import FlowIpc.MqStream.Rcv

/-!
# The receiver reads the frames in order

`In.Reads r fs done`: of the frames `fs`, which its queue carries, the receiver has read exactly the
first, `done`, and the escape of the next if it is in the control state. A turn of the reading loop
keeps this for the same frames or one more, and what it emits is the blob if that frame is one
(`Reads.readMsgOnce`); so does the whole loop (`Reads.readMsgLoop`). The only errors that come up are
those of the queue, the graceful close and the idle timeout: none of the protocol.
-/

namespace FlowIpc.MqStream

open Negotiation PrefixCode

namespace In

/-- The errors a receiver may come to. -/
def Expected (e : Err) : Prop :=
  e = .code .receivesFinishedCannotReceive ∨ e = .code .receiverIdleTimeout ∨
    ∃ q : MqErr, e = q.toErr

/-- None of them is for those who wait. -/
theorem Expected.genuine {e : Err} (h : Expected e) : Genuine (some e) := by
  rcases h with rfl | rfl | ⟨q, rfl⟩
  · simp
  · simp
  · exact q.genuine_toErr

/-- Nor the code of a request that is at fault itself. -/
theorem Expected.ne_invalid {e : Err} (h : Expected e) : e ≠ .code .invalidArgument := by
  rcases h with rfl | rfl | ⟨q, rfl⟩
  · simp
  · simp
  · cases q <;> simp [MqErr.toErr]

/-- What holds of a receiver that has read the frames `done` of `fs`, whether or not it is in the
middle of the next. -/
structure Sound (r : In) (fs done : List Frame) : Prop where
  noFailure : r.assertFailed = false
  mqOk : r.mq.Ok
  sent_prefix : r.mq.sent <+: stream Frame.enc fs
  done_prefix : done <+: fs
  range_eq : r.protocolNegotiator.range = BlobStreamMqSender.versionOne
  /-- The version is settled by the first frame. -/
  negotiated : r.pendingErrCode = none →
    (r.protocolNegotiator.negotiatedProtoVer = verUnknown ↔ done = [])
  /-- The graceful close is an error, and that error is the graceful close. -/
  closed : .endSending ∈ done → r.pendingErrCode.isSome
  closed_of_err : r.pendingErrCode = Code.receivesFinishedCannotReceive.toErrorCode →
    .endSending ∈ done
  expected : ∀ e, r.pendingErrCode = some e → Expected e
  timer : r.idleTimer.Ok
  timer_off : r.idleTimeout = 0 → r.idleTimer.evWaits = 0

/-- The messages taken by a receiver that has read the frames `done`. -/
def readMsgs (r : In) (done : List Frame) : List Blob :=
  stream Frame.enc done ++ if r.controlState then [[]] else []

/-- Of the frames `fs` the receiver has read `done`, and is in the control state where it has also
read the escape of the next. -/
structure Reads (r : In) (fs done : List Frame) : Prop extends r.Sound fs done where
  taken_eq : r.pendingErrCode = none → r.mq.taken = r.readMsgs done

variable {r r' : In} {fs done : List Frame} {msg : Blob}

/-! ## One message -/

/-- What a turn of the reading loop comes to, or several together, where the queue was being waited
for `w` times; the frames read meanwhile are `new`. -/
inductive Turn (w : Nat) (r' : In) : Option Result → List Frame → Prop where
  /-- Nothing to emit yet. -/
  | again {new : List Frame} (err : r'.pendingErrCode = none) (waits : r'.evWaits = w)
      (noBlob : blobs new = []) : Turn w r' none new
  /-- The last frame was a blob. -/
  | got {new : List Frame} (b : {b : Blob // b ≠ []}) (err : r'.pendingErrCode = none)
      (waits : r'.evWaits = w) (blob : blobs new = [b]) : Turn w r' (some (none, b.val)) new
  /-- An error was found. -/
  | failed {new : List Frame} (e : Err) (err : r'.pendingErrCode = some e)
      (waits : r'.evWaits = w) (noBlob : blobs new = []) : Turn w r' (some (some e, [])) new
  /-- There is nothing more to read, and the queue is waited for. -/
  | wouldBlock {new : List Frame} (err : r'.pendingErrCode = none)
      (waits : r'.evWaits = w + 1) (noBlob : blobs new = []) :
      Turn w r' (some (FlowIpc.wouldBlock, [])) new

/-- Turns add up. -/
theorem Turn.trans {w : Nat} {r₁ : In} {res : Option Result} {new new' : List Frame}
    (h : Turn w r₁ none new) (h' : Turn r₁.evWaits r' res new') : Turn w r' res (new ++ new') := by
  cases h with
  | again err waits noBlob =>
      cases h' with
      | again err' waits' noBlob' =>
          exact .again err' (waits'.trans waits) (by simp [noBlob, noBlob'])
      | got b err' waits' blob => exact .got b err' (waits'.trans waits) (by simp [noBlob, blob])
      | failed e err' waits' noBlob' =>
          exact .failed e err' (waits'.trans waits) (by simp [noBlob, noBlob'])
      | wouldBlock err' waits' noBlob' =>
          exact .wouldBlock err' (by rw [waits', waits]) (by simp [noBlob, noBlob'])

/-- An error ends the reading, and the last message is left out. -/
theorem emit_of_err {e : Err} (herr : r.pendingErrCode = some e) :
    r.emit msg = (some (some e, []), r) := by
  simp [emit, herr]

/-- A message that is no command is emitted. -/
theorem emit_of_msg (herr : r.pendingErrCode = none) (hctl : r.controlState = false)
    (hmsg : msg ≠ []) : r.emit msg = (some (none, msg), r) := by
  simp [emit, herr, hctl, hmsg]

/-- The version that the sender announces is the one the receiver settles on. -/
theorem Sound.negotiate_one (h : r.Sound fs done) (herr : r.pendingErrCode = none)
    (hneg : r.protocolNegotiator.negotiatedProtoVer = verUnknown) :
    r.negotiate 1 =
      { r with protocolNegotiator := { r.protocolNegotiator with negotiatedProtoVer := 1 } } := by
  have hcode : ProtocolNegotiator.emittedCode BlobStreamMqSender.versionOne 1 = none := by decide
  have hver : ProtocolNegotiator.negotiatedVer BlobStreamMqSender.versionOne 1 = 1 := by decide
  unfold negotiate
  rw [herr, ProtocolNegotiator.compute_of_unknown _ _ hneg, h.range_eq, hcode, hver]
  simp only
  rw [assert_of trivial, ← herr, ← h.range_eq]

/-- One more frame is read, which is not the graceful close. -/
theorem Sound.readFrame {f : Frame} (h : r.Sound fs done) (herr : r.pendingErrCode = none)
    (hf : done ++ [f] <+: fs) (hend : f ≠ .endSending)
    (hneg : r.protocolNegotiator.negotiatedProtoVer ≠ verUnknown) : r.Sound fs (done ++ [f]) :=
  { h with
    done_prefix := hf
    negotiated := fun _ => by simp [hneg]
    closed := fun hmem => by
      rcases List.mem_append.mp hmem with hmem | hmem
      · exact h.closed hmem
      · exact absurd (List.mem_singleton.mp hmem).symm hend
    closed_of_err := fun hcode => by simp [herr] at hcode }

/-- The timer is no part of what was read. -/
theorem Sound.setTimer {t : Timer} (h : r.Sound fs done) (ht : t.Ok)
    (hoff : r.idleTimeout = 0 → t.evWaits = 0) : ({ r with idleTimer := t } : In).Sound fs done :=
  { h with timer := ht, timer_off := hoff }

/-- An error that is no graceful close can come at any time. -/
theorem Sound.fail {e : Err} (h : r.Sound fs done) (he : Expected e)
    (hne : e ≠ .code .receivesFinishedCannotReceive) :
    ({ r with pendingErrCode := some e } : In).Sound fs done :=
  { h with
    negotiated := fun hnone => by cases hnone
    closed := fun _ => rfl
    closed_of_err := fun hcode => absurd (Option.some.inj hcode) hne
    expected := fun e' he' => by
      cases he'
      exact he }

/-- The command of a frame, read as one: it settles the version, is a ping, or closes. -/
theorem Sound.onCtlCmd {f : Frame} {c : Int} (h : r.Sound fs done) (hord : Ordered fs)
    (herr : r.pendingErrCode = none) (hf : done ++ [f] <+: fs) (hc : f.rawCmd = some c) :
    (r.onCtlCmd (ctlBytes c)).Sound fs (done ++ [f]) ∧
      (r.onCtlCmd (ctlBytes c)).evWaits = r.evWaits ∧
      (r.onCtlCmd (ctlBytes c)).controlState = r.controlState ∧
      ((r.onCtlCmd (ctlBytes c)).pendingErrCode = none ∨
        (r.onCtlCmd (ctlBytes c)).pendingErrCode =
          Code.receivesFinishedCannotReceive.toErrorCode) := by
  have hver := hord.eq_version_iff hf
  have hneg := h.negotiated herr
  unfold In.onCtlCmd
  rw [if_pos (length_ctlBytes c)]
  simp only
  cases f with
  | blob b => cases hc
  | version =>
      cases hc
      have hnil : done = [] := hver.mp rfl
      have hcmd : toProtoVer (-LittleEndian.decodeInt (ctlBytes (-1))) = 1 := by decide
      rw [if_pos (hneg.mpr hnil), hcmd, h.negotiate_one herr (hneg.mpr hnil)]
      refine ⟨?_, rfl, rfl, .inl herr⟩
      exact {
        h with
        done_prefix := hf
        negotiated := fun _ => by simp [verUnknown]
        closed := fun hmem => by
          rw [hnil] at hmem
          simp at hmem
        closed_of_err := fun hcode => by simp [herr] at hcode }
  | ping =>
      cases hc
      have hcmd : LittleEndian.decodeInt (ctlBytes ctlPing) = ctlPing := by decide
      have hneg' : r.protocolNegotiator.negotiatedProtoVer ≠ verUnknown := by
        intro hunk
        exact absurd (hver.mpr (hneg.mp hunk)) (by simp)
      rw [if_neg hneg', hcmd, if_neg (by decide), if_neg (by decide), if_pos rfl]
      rw [notIdle_eq h.timer]
      exact ⟨h.readFrame herr hf (by simp) hneg', rfl, rfl, .inl herr⟩
  | endSending =>
      cases hc
      have hcmd : LittleEndian.decodeInt (ctlBytes ctlEndSending) = ctlEndSending := by decide
      have hneg' : r.protocolNegotiator.negotiatedProtoVer ≠ verUnknown := by
        intro hunk
        exact absurd (hver.mpr (hneg.mp hunk)) (by simp)
      rw [if_neg hneg', hcmd, if_neg (by decide), if_pos rfl]
      refine ⟨?_, rfl, rfl, .inr rfl⟩
      exact {
        h with
        done_prefix := hf
        negotiated := fun hnone => by cases hnone
        closed := fun _ => rfl
        closed_of_err := fun _ => by simp
        expected := fun e he => by
          cases he
          exact .inl rfl }

/-- A message is read as what it was sent as: a blob, an escape, or the command after one. -/
theorem Sound.onMsg {res : Option Result} (h : r.Sound fs done) (hord : Ordered fs)
    (herr : r.pendingErrCode = none) (htaken : r.mq.taken = r.readMsgs done ++ [msg])
    (hcall : r.onMsg msg = (res, r')) :
    ∃ new, r'.Reads fs (done ++ new) ∧ Turn r.evWaits r' res new := by
  have hpre : r.readMsgs done ++ [msg] <+: stream Frame.enc fs := by
    rw [← htaken]
    exact (Mq.taken_prefix _).trans h.sent_prefix
  unfold In.onMsg at hcall
  unfold readMsgs at htaken hpre
  split at hcall
  · rename_i hctl
    rw [hctl, if_pos rfl] at htaken hpre
    obtain ⟨f, c, hf, hc, rfl⟩ := next_ctlCmd h.done_prefix hpre
    let u : In := { r with controlState := false }
    have hu : u.Sound fs done := { h with }
    obtain ⟨hs, hw, hctl', herr'⟩ := hu.onCtlCmd hord herr hf hc
    have hmq : (u.onCtlCmd (ctlBytes c)).mq = r.mq := onCtlCmd_mq
    simp only at hcall
    change (if (u.onCtlCmd (ctlBytes c)).pendingErrCode.isSome then
      (u.onCtlCmd (ctlBytes c)).emit (ctlBytes c) else (none, u.onCtlCmd (ctlBytes c))) = _ at hcall
    generalize u.onCtlCmd (ctlBytes c) = v at hs hw hctl' herr' hmq hcall
    have hreads : v.Reads fs (done ++ [f]) := by
      refine ⟨hs, fun _ => ?_⟩
      rw [hmq, htaken, readMsgs, hctl', stream_append, stream_singleton, Frame.enc_of_rawCmd hc]
      simp
    have hblob : blobs [f] = [] := by simp [blobs, Frame.blob?_of_rawCmd hc]
    rcases herr' with herr' | herr'
    · simp only [herr', Option.isSome_none, Bool.false_eq_true, if_false] at hcall
      cases hcall
      exact ⟨[f], hreads, .again herr' hw hblob⟩
    · simp only [herr', Option.isSome_some, if_true] at hcall
      rw [emit_of_err herr'] at hcall
      cases hcall
      exact ⟨[f], hreads, .failed _ herr' hw hblob⟩
  · rename_i hctl
    have hctl : r.controlState = false := by simpa using hctl
    rw [hctl, if_neg (by simp), List.append_nil] at htaken hpre
    obtain ⟨f, hf, hcases⟩ := next_msg h.done_prefix hpre
    rcases hcases with ⟨b, rfl, rfl⟩ | ⟨rfl, c, hc⟩
    · rw [if_neg (by simpa using b.property)] at hcall
      have hneg : r.protocolNegotiator.negotiatedProtoVer ≠ verUnknown := by
        intro hunk
        exact absurd ((hord.eq_version_iff hf).mpr ((h.negotiated herr).mp hunk)) (by simp)
      rw [if_neg hneg, notIdle_eq h.timer, emit_of_msg herr hctl b.property] at hcall
      cases hcall
      refine ⟨[.blob b], ⟨h.readFrame herr hf (by simp) hneg, fun _ => ?_⟩, .got b herr rfl rfl⟩
      rw [htaken, readMsgs, hctl, stream_append, stream_singleton]
      simp [Frame.enc]
    · simp only [List.length_nil, if_true] at hcall
      cases hcall
      refine ⟨[], ⟨?_, fun _ => ?_⟩, .again herr rfl rfl⟩
      · rw [List.append_nil]
        exact { h with }
      · simpa [readMsgs] using htaken

/-! ## The loop -/

/-- A turn of the loop takes in whole frames, and tells of them rightly. -/
theorem Reads.readMsgOnce {res : Option Result} {n : Nat} (h : r.Reads fs done)
    (hord : Ordered fs) (herr : r.pendingErrCode = none) (hcall : r.readMsgOnce n = (res, r')) :
    ∃ new, r'.Reads fs (done ++ new) ∧ Turn r.evWaits r' res new := by
  unfold In.readMsgOnce at hcall
  rcases htry : r.mq.tryReceive (if r.controlState then r.mqMaxMsgSz else n) with ⟨m, err, mq⟩
  obtain ⟨-, hsent, hok, hcases⟩ := Mq.tryReceive_cases h.mqOk htry
  rw [htry] at hcall
  -- Only the queue has changed, and there only how far it has been read.
  have hu : ({ r with mq := mq } : In).Sound fs done :=
    { h with
      mqOk := hok
      sent_prefix := by
        rw [hsent]
        exact h.sent_prefix }
  have hnone : ({ r with mq := mq, pendingErrCode := none } : In) = { r with mq := mq } := by
    rw [← herr]
  rcases hcases with ⟨e, rfl, rfl, -⟩ | ⟨rfl, rfl, htaken⟩ | ⟨msg, rfl, rfl, htaken⟩
  · have hne : e.toErr ≠ .code .receivesFinishedCannotReceive := by cases e <;> simp [MqErr.toErr]
    have hfail := hu.fail (.inr (.inr ⟨e, rfl⟩)) hne
    simp only at hcall
    rw [emit_of_err rfl] at hcall
    cases hcall
    refine ⟨[], ⟨?_, fun hnone => by cases hnone⟩, .failed _ rfl rfl rfl⟩
    rw [List.append_nil]
    exact hfail
  · simp only at hcall
    cases hcall
    refine ⟨[], ⟨?_, fun _ => ?_⟩, .wouldBlock rfl rfl rfl⟩
    · rw [List.append_nil, ← herr]
      exact { hu with }
    · rw [List.append_nil]
      exact htaken.trans (h.taken_eq herr)
  · simp only [hnone] at hcall
    apply hu.onMsg hord herr _ hcall
    rw [htaken, h.taken_eq herr]
    rfl

/-- What the loop comes to is never to go around again. -/
theorem Reads.readMsgLoop {res : Result} {n : Nat} (h : r.Reads fs done) (hord : Ordered fs)
    (herr : r.pendingErrCode = none) (hcall : r.readMsgLoop n = (res, r')) :
    ∃ new, r'.Reads fs (done ++ new) ∧ Turn r.evWaits r' (some res) new := by
  induction r using In.readMsgLoop.induct n generalizing done with
  | case1 r res₁ r₁ honce =>
      obtain ⟨new, hreads, hturn⟩ := h.readMsgOnce hord herr honce
      rw [In.readMsgLoop, honce] at hcall
      cases hcall
      exact ⟨new, hreads, hturn⟩
  | case2 r r₁ honce ih =>
      obtain ⟨new, hreads, hturn⟩ := h.readMsgOnce hord herr honce
      rw [In.readMsgLoop, honce] at hcall
      have herr₁ : r₁.pendingErrCode = none := by
        cases hturn with
        | again err _ _ => exact err
      obtain ⟨new', hreads', hturn'⟩ := ih hreads herr₁ hcall
      rw [List.append_assoc] at hreads'
      exact ⟨new ++ new', hreads', hturn.trans hturn'⟩

/-- Reading puts nothing on the queue. -/
theorem Reads.readMsgOnce_sent {res : Option Result} {n : Nat} (h : r.Reads fs done)
    (hcall : r.readMsgOnce n = (res, r')) : r'.mq.sent = r.mq.sent := by
  unfold In.readMsgOnce at hcall
  rcases htry : r.mq.tryReceive (if r.controlState then r.mqMaxMsgSz else n) with ⟨m, err, mq⟩
  obtain ⟨-, hsent, -⟩ := Mq.tryReceive_cases h.mqOk htry
  rw [htry] at hcall
  have hmq : r'.mq = mq := by
    have := congrArg (fun p => p.2.mq) hcall
    cases err with
    | some e => simpa using this.symm
    | none =>
        cases m with
        | some msg => simpa using this.symm
        | none => simpa using this.symm
  rw [hmq, hsent]

/-- Reading puts nothing on the queue. -/
theorem Reads.readMsgLoop_sent {res : Result} {n : Nat} (h : r.Reads fs done) (hord : Ordered fs)
    (herr : r.pendingErrCode = none) (hcall : r.readMsgLoop n = (res, r')) :
    r'.mq.sent = r.mq.sent := by
  induction r using In.readMsgLoop.induct n generalizing done with
  | case1 r res₁ r₁ honce =>
      have hsent := h.readMsgOnce_sent honce
      rw [In.readMsgLoop, honce] at hcall
      cases hcall
      exact hsent
  | case2 r r₁ honce ih =>
      have hsent := h.readMsgOnce_sent honce
      obtain ⟨new, hreads, hturn⟩ := h.readMsgOnce hord herr honce
      rw [In.readMsgLoop, honce] at hcall
      cases hturn with
      | again err _ _ => rw [ih hreads err hcall, hsent]

/-- The queue may grow meanwhile, and more frames be sent. -/
theorem Reads.grow {gs : List Frame} {mq : Mq} (h : r.Reads fs done) (hfs : fs <+: gs)
    (hpre : r.mq.sent <+: mq.sent) (hsent : mq.sent <+: stream Frame.enc gs)
    (hrcvd : mq.received = r.mq.received) : ({ r with mq := mq } : In).Reads gs done where
  noFailure := h.noFailure
  mqOk := by
    unfold Mq.Ok
    rw [hrcvd]
    exact h.mqOk.trans hpre.length_le
  sent_prefix := hsent
  done_prefix := h.done_prefix.trans hfs
  range_eq := h.range_eq
  negotiated := h.negotiated
  closed := h.closed
  closed_of_err := h.closed_of_err
  expected := h.expected
  timer := h.timer
  timer_off := h.timer_off
  taken_eq herr := by
    have htaken : mq.taken = r.mq.taken := by
      obtain ⟨rest, hrest⟩ := hpre
      rw [Mq.taken, Mq.taken, hrcvd, ← hrest, List.take_append_of_le_length h.mqOk]
    exact htaken.trans (h.taken_eq herr)

end In

/-! ## The receiver -/

namespace BlobStreamMqReceiver

/-- Of the frames `fs` the receiver has read `done`, and it waits for its queue exactly while a
request is outstanding. -/
structure Inv (r : BlobStreamMqReceiver) (fs done : List Frame) : Prop where
  reads : r.inp.Reads fs done
  waits : r.inp.pendingErrCode = none → r.inp.evWaits = if r.userRequest.isSome then 1 else 0
  request : r.userRequest.isSome → r.inp.pendingErrCode = none

variable {r r' : BlobStreamMqReceiver} {fs done : List Frame}

/-- No assertion has failed. -/
theorem Inv.noFailure (h : r.Inv fs done) : r.inp.assertFailed = false :=
  h.reads.noFailure

/-- A receiver that has just been constructed has read nothing. -/
theorem inv_ctor {mq : Mq} (hrcvd : mq.received = 0) (hsent : mq.sent <+: stream Frame.enc fs) :
    (ctor mq).Inv fs [] where
  reads := {
    noFailure := rfl
    mqOk := by simp [ctor, Mq.Ok, hrcvd]
    sent_prefix := hsent
    done_prefix := List.nil_prefix
    range_eq := rfl
    negotiated := fun _ => by simp [ctor, ProtocolNegotiator.ctor]
    closed := fun hmem => by simp at hmem
    closed_of_err := fun hcode => by cases hcode
    expected := fun e he => by cases he
    timer := Timer.ok_inactive
    timer_off := fun _ => rfl
    taken_eq := fun _ => by simp [ctor, Mq.taken, In.readMsgs, hrcvd] }
  waits _ := rfl
  request hreq := by cases hreq

/-- What `read_msg()` does for an outstanding request. -/
theorem readMsg_turn {res : Result} (h : r.inp.Reads fs done) (hord : Ordered fs)
    (herr : r.inp.pendingErrCode = none) (hreq : r.userRequest.isSome)
    (hcall : r.readMsg = (res, r')) :
    ∃ inp new, r' = { r with inp := inp } ∧ inp.mq.sent = r.inp.mq.sent ∧
      inp.Reads fs (done ++ new) ∧ In.Turn r.inp.evWaits inp (some res) new := by
  unfold BlobStreamMqReceiver.readMsg at hcall
  rw [assert_of (by exact herr)] at hcall
  simp only at hcall
  rw [assert_of hreq] at hcall
  rcases hloop : r.inp.readMsgLoop ((r.userRequest.map (·.targetBlobSize)).getD 0) with ⟨res', inp⟩
  simp only [hloop] at hcall
  cases hcall
  obtain ⟨new, hreads, hturn⟩ := h.readMsgLoop hord herr hloop
  exact ⟨inp, new, rfl, h.readMsgLoop_sent hord herr hloop, hreads, hturn⟩

/-- What a turn leaves of the request `q` that it was taken for. -/
theorem Inv.of_turn {inp : In} {res : Result} {new : List Frame} {q : UserRequest}
    (hreads : inp.Reads fs (done ++ new)) (hturn : In.Turn 0 inp (some res) new) :
    ({ r with inp := inp, userRequest := if res.1 = wouldBlock then some q else none } :
      BlobStreamMqReceiver).Inv fs (done ++ new) := by
  cases hturn with
  | got b err waits _ => exact ⟨hreads, fun _ => waits, fun _ => err⟩
  | failed e err waits _ =>
      rw [if_neg (hreads.expected e err).genuine.1]
      exact ⟨hreads, fun _ => waits, fun hreq => by cases hreq⟩
  | wouldBlock err waits _ => exact ⟨hreads, fun _ => waits, fun _ => err⟩

/-- What a call of `async_receive_blob()` can come to. -/
inductive RequestOutcome (r : BlobStreamMqReceiver) (fs done : List Frame) (n f : Nat) :
    Bool → Result → BlobStreamMqReceiver → Prop where
  /-- It is not the time to call it. -/
  | refused (res : Result) (why : r.started = false ∨ r.userRequest.isSome) :
      RequestOutcome r fs done n f false res r
  /-- The pipe has been hosed before. -/
  | latched (e : Err) (err : r.inp.pendingErrCode = some e) :
      RequestOutcome r fs done n f true (some e, []) r
  /-- The buffer is too small for what the queue might hold. -/
  | invalid (err : r.inp.pendingErrCode = none) (size : n < r.inp.mqMaxMsgSz) :
      RequestOutcome r fs done n f true (Code.invalidArgument.toErrorCode, []) r
  /-- It was read for. -/
  | read (res : Result) (inp : In) (new : List Frame) (err : r.inp.pendingErrCode = none)
      (size : r.inp.mqMaxMsgSz ≤ n) (sent : inp.mq.sent = r.inp.mq.sent)
      (reads : inp.Reads fs (done ++ new)) (turn : In.Turn 0 inp (some res) new) :
      RequestOutcome r fs done n f true res
        { r with inp := inp, userRequest := if res.1 = wouldBlock then some ⟨n, f⟩ else none }

/-- A request is refused, would block, or completes at once. -/
theorem Inv.asyncReceiveBlob_cases {n f : Nat} {ok : Bool} {res : Result} (h : r.Inv fs done)
    (hord : Ordered fs) (hcall : r.asyncReceiveBlob n f = (ok, res, r')) :
    RequestOutcome r fs done n f ok res r' := by
  unfold BlobStreamMqReceiver.asyncReceiveBlob at hcall
  split at hcall
  · rename_i hstart
    cases hcall
    exact .refused _ (.inl hstart)
  · split at hcall
    · rename_i hreq
      cases hcall
      exact .refused _ (.inr hreq)
    · rename_i hreq
      have hreq : r.userRequest = none := by simpa using hreq
      have hsame : ({ r with userRequest := none } : BlobStreamMqReceiver) = r := by rw [← hreq]
      simp only at hcall
      split at hcall
      · rename_i herr
        obtain ⟨e, he⟩ := Option.isSome_iff_exists.mp herr
        have hne : r.inp.pendingErrCode ≠ wouldBlock := by
          rw [he]
          exact (h.reads.expected e he).genuine.1
        rw [if_pos hne, hsame, he] at hcall
        cases hcall
        exact .latched e he
      · rename_i herr
        have herr : r.inp.pendingErrCode = none := by simpa using herr
        split at hcall
        · rename_i hsize
          rw [if_pos (by simp), hsame] at hcall
          cases hcall
          exact .invalid herr hsize
        · rename_i hsize
          let u : BlobStreamMqReceiver := { r with userRequest := some ⟨n, f⟩ }
          have hw : u.inp.evWaits = 0 := by simpa [hreq] using h.waits herr
          rcases hread : u.readMsg with ⟨res₁, r₁⟩
          obtain ⟨inp, new, rfl, hsent, hreads, hturn⟩ :=
            readMsg_turn (r := u) h.reads hord herr rfl hread
          rw [hw] at hturn
          rw [hread] at hcall
          cases hcall
          have houtcome := RequestOutcome.read (r := r) (n := n) (f := f) res₁ inp new herr
            (Nat.le_of_not_lt hsize) hsent hreads hturn
          by_cases hblock : res₁.1 = wouldBlock
          · simpa [hblock] using houtcome
          · simpa [hblock] using houtcome

/-- In each case the receiver stays in order. -/
theorem RequestOutcome.inv {n f : Nat} {ok : Bool} {res : Result} (h : r.Inv fs done)
    (hout : RequestOutcome r fs done n f ok res r') : ∃ new, r'.Inv fs (done ++ new) := by
  cases hout with
  | read res inp new err size sent reads turn => exact ⟨new, Inv.of_turn reads turn⟩
  | _ => exact ⟨[], by rw [List.append_nil]; exact h⟩

/-- Asking for the idle timer reads nothing. -/
theorem Inv.idleTimerRun (h : r.Inv fs done) (timeout : {n : Nat // 0 < n}) :
    (r.idleTimerRun timeout).2.inp.mq = r.inp.mq ∧ (r.idleTimerRun timeout).2.Inv fs done ∧
      (r.idleTimerRun timeout).2.started = r.started ∧
      (r.idleTimerRun timeout).2.userRequest = r.userRequest ∧
      (r.idleTimerRun timeout).2.inp.pendingErrCode = r.inp.pendingErrCode := by
  have hne : timeout.val ≠ 0 := by
    have := timeout.property
    omega
  unfold BlobStreamMqReceiver.idleTimerRun
  rw [assert_of timeout.property]
  simp only
  split
  · exact ⟨rfl, h, rfl, rfl, rfl⟩
  · split
    · exact ⟨rfl, h, rfl, rfl, rfl⟩
    · rename_i hoff
      have hzero := h.reads.timer_off (by simpa using hoff)
      have hreads : ∀ t : Timer, t.Ok →
          ({ r.inp with idleTimeout := timeout, idleTimer := t } : In).Reads fs done := by
        intro t ht
        exact { h.reads with timer := ht, timer_off := fun h₀ => absurd h₀ hne }
      split
      · exact ⟨rfl, ⟨hreads _ h.reads.timer, h.waits, h.request⟩, rfl, rfl, rfl⟩
      · exact ⟨rfl, ⟨hreads _ (h.reads.timer.schedule hzero), h.waits, h.request⟩, rfl, rfl, rfl⟩

/-- The idle timeout is an error like another, unless there has been one. -/
theorem Inv.onEvIdleTimerFired {t : Timer} {g : Option (Nat × Result)} (h : r.Inv fs done)
    (ht : r.inp.idleTimer.takeEvent = some t)
    (hcall : { r with inp := { r.inp with idleTimer := t } }.onEvIdleTimerFired = (r', g)) :
    r'.Inv fs done ∧ r'.inp.mq = r.inp.mq ∧ r'.started = r.started ∧
      ((g = none ∧ r'.userRequest = r.userRequest ∧
          r'.inp.pendingErrCode = r.inp.pendingErrCode) ∨
        (r.inp.pendingErrCode = none ∧ r'.userRequest = none ∧
          r'.inp.pendingErrCode = Code.receiverIdleTimeout.toErrorCode ∧
          g = r.userRequest.map fun q => (q.onDoneFunc, Code.receiverIdleTimeout.toErrorCode, []))) := by
  obtain ⟨hok, hzero⟩ := h.reads.timer.takeEvent ht
  let inp : In := { r.inp with idleTimer := t.consumeTimerFiringSignal }
  have hinp : inp.Reads fs done := ⟨h.reads.setTimer hok fun _ => hzero, h.reads.taken_eq⟩
  unfold BlobStreamMqReceiver.onEvIdleTimerFired at hcall
  simp only at hcall
  split at hcall
  · cases hcall
    exact ⟨⟨hinp, h.waits, h.request⟩, rfl, rfl, .inl ⟨rfl, rfl, rfl⟩⟩
  · rename_i herr
    cases hcall
    have hfail := hinp.fail (.inr (.inl rfl)) (by simp)
    refine ⟨⟨⟨hfail, ?_⟩, ?_, ?_⟩, rfl, rfl, .inr ⟨by simpa using herr, rfl, rfl, rfl⟩⟩
    · intro hnone
      cases hnone
    · intro hnone
      cases hnone
    · intro hreq
      cases hreq

/-- What the readable event can come to. -/
inductive ReadableOutcome (r : BlobStreamMqReceiver) (fs done : List Frame) :
    Option (Nat × Result) → BlobStreamMqReceiver → Prop where
  /-- The pipe has been hosed meanwhile, by the idle timeout. -/
  | late (err : r.inp.pendingErrCode.isSome) :
      ReadableOutcome r fs done none
        { r with inp := { r.inp with evWaits := r.inp.evWaits - 1 } }
  /-- It was read for the request outstanding. -/
  | read (q : UserRequest) (res : Result) (inp : In) (new : List Frame)
      (err : r.inp.pendingErrCode = none) (request : r.userRequest = some q)
      (sent : inp.mq.sent = r.inp.mq.sent) (reads : inp.Reads fs (done ++ new))
      (turn : In.Turn 0 inp (some res) new) :
      ReadableOutcome r fs done (if res.1 = wouldBlock then none else some (q.onDoneFunc, res))
        { r with inp := inp, userRequest := if res.1 = wouldBlock then some q else none }

/-- When the queue is readable, the request completes or goes on. -/
theorem Inv.onEvMqReadable_cases {g : Option (Nat × Result)} (h : r.Inv fs done)
    (hord : Ordered fs) (hw : 0 < r.inp.evWaits)
    (hcall : { r with inp := { r.inp with evWaits := r.inp.evWaits - 1 } }.onEvMqReadable =
      (r', g)) : ReadableOutcome r fs done g r' := by
  let inp₀ : In := { r.inp with evWaits := r.inp.evWaits - 1 }
  have hinp₀ : inp₀.Reads fs done := { h.reads with }
  unfold BlobStreamMqReceiver.onEvMqReadable at hcall
  split at hcall
  · rename_i herr
    have hreq : r.userRequest = none := by
      cases hreq : r.userRequest with
      | none => rfl
      | some _ =>
          have hnone := h.request (by rw [hreq]; rfl)
          simp [hnone] at herr
    rw [assert_of hreq] at hcall
    cases hcall
    exact .late herr
  · rename_i herr
    have herr : r.inp.pendingErrCode = none := by simpa using herr
    have hwaits := h.waits herr
    have hreq : r.userRequest.isSome := by
      by_contra hreq
      rw [if_neg hreq] at hwaits
      omega
    rw [if_pos hreq] at hwaits
    simp only at hcall
    rw [assert_of (by exact hreq)] at hcall
    let u : BlobStreamMqReceiver := { r with inp := inp₀ }
    rcases hread : u.readMsg with ⟨res, r₁⟩
    obtain ⟨inp, new, rfl, hsent, hreads, hturn⟩ := readMsg_turn (r := u) hinp₀ hord herr hreq hread
    have hw₀ : u.inp.evWaits = 0 := by
      change r.inp.evWaits - 1 = 0
      omega
    rw [hw₀] at hturn
    obtain ⟨q, hq⟩ := Option.isSome_iff_exists.mp hreq
    have houtcome := ReadableOutcome.read q res inp new herr hq hsent hreads hturn
    rw [hread] at hcall
    by_cases hblock : res.1 = wouldBlock
    · simp only [hblock, if_true] at hcall houtcome
      cases hcall
      rw [← hq] at houtcome
      exact houtcome
    · simp only [hblock, if_false] at hcall houtcome
      cases hcall
      have huq : u.userRequest = some q := hq
      rw [huq]
      exact houtcome

/-- In either case the receiver stays in order. -/
theorem ReadableOutcome.inv {g : Option (Nat × Result)} (h : r.Inv fs done)
    (hout : ReadableOutcome r fs done g r') : ∃ new, r'.Inv fs (done ++ new) := by
  cases hout with
  | late err =>
      refine ⟨[], ?_⟩
      rw [List.append_nil]
      refine ⟨{ h.reads with }, fun hnone => ?_, h.request⟩
      rw [hnone] at err
      cases err
  | read q res inp new _ _ _ reads turn => exact ⟨new, Inv.of_turn reads turn⟩

/-- Answers make no difference to what has been read. -/
theorem Inv.withAnswers (h : r.Inv fs done) (ks : List MqAnswer) :
    (r.withAnswers ks).Inv fs done where
  reads := { h.reads with }
  waits := h.waits
  request := h.request

/-- Starting the operations reads nothing. -/
theorem Inv.startReceiveBlobOps (h : r.Inv fs done) : r.startReceiveBlobOps.2.Inv fs done := by
  unfold BlobStreamMqReceiver.startReceiveBlobOps
  split
  · exact h
  · exact { h with }

/-- When the idle timer fires nothing is read. -/
theorem Inv.timerFires {t : Timer} (h : r.Inv fs done) (hfire : r.inp.idleTimer.fire = some t) :
    ({ r with inp := { r.inp with idleTimer := t } } : BlobStreamMqReceiver).Inv fs done := by
  refine ⟨⟨h.reads.setTimer (h.reads.timer.fire hfire) ?_, h.reads.taken_eq⟩, h.waits, h.request⟩
  intro hoff
  rw [Timer.fire_evWaits hfire]
  exact h.reads.timer_off hoff

/-! ## What is seen of it -/

/-- The blob that an answer to a request consists in, if it does. -/
def Obs.delivered? : Obs → Option Blob
  | .returned true _ (none, blob) => some blob
  | .invoked _ (none, blob) => some blob
  | _ => none

/-- The blobs delivered. -/
def delivered (obs : List Obs) : List Blob :=
  obs.filterMap Obs.delivered?

/-- An answer to a request is the graceful close. -/
def Obs.IsClose : Obs → Prop
  | .returned ok _ res => ok = true ∧ res.1 = Code.receivesFinishedCannotReceive.toErrorCode
  | .invoked _ res => res.1 = Code.receivesFinishedCannotReceive.toErrorCode

instance : DecidablePred Obs.IsClose
  | .returned ok _ res =>
    inferInstanceAs (Decidable (ok = true ∧ res.1 = Code.receivesFinishedCannotReceive.toErrorCode))
  | .invoked _ res =>
    inferInstanceAs (Decidable (res.1 = Code.receivesFinishedCannotReceive.toErrorCode))

/-- What a step shows of the frames `new` read in it: their blobs, and the graceful close only once it
is among those read. -/
def Shows (obs : List Obs) (done new : List Frame) : Prop :=
  delivered obs = (blobs new).map Subtype.val ∧
    (∀ o ∈ obs, o.IsClose → .endSending ∈ done ++ new)

/-- What is shown of a turn that is reported, unless it leaves the request outstanding. -/
theorem shows_of_turn {w : Nat} {inp : In} {res : Result} {new : List Frame} {obs : List Obs}
    (hturn : In.Turn w inp (some res) new) (hreads : inp.Reads fs (done ++ new)) {f : Nat}
    (hobs : obs = [.returned true f res] ∨ obs = [.invoked f res] ∨
      (obs = [] ∧ res = (wouldBlock, []))) : Shows obs done new := by
  -- Whichever way a result is reported, it is seen as what it is.
  have hdel : delivered obs = (Obs.invoked f res).delivered?.toList := by
    rcases hobs with rfl | rfl | ⟨rfl, rfl⟩
    · rcases res with ⟨_ | e, blob⟩ <;> rfl
    · rcases res with ⟨_ | e, blob⟩ <;> rfl
    · rfl
  have hclose : (∃ o ∈ obs, o.IsClose) → res.1 = Code.receivesFinishedCannotReceive.toErrorCode := by
    rintro ⟨o, ho, hisclose⟩
    rcases hobs with rfl | rfl | ⟨rfl, -⟩
    · rw [List.mem_singleton.mp ho] at hisclose
      exact hisclose.2
    · rw [List.mem_singleton.mp ho] at hisclose
      exact hisclose
    · cases ho
  refine ⟨?_, fun o ho hisclose => ?_⟩
  · rw [hdel]
    cases hturn with
    | got b _ _ hblob => simp [hblob, Obs.delivered?]
    | failed e _ _ hblob => simp [hblob, Obs.delivered?]
    | wouldBlock _ _ hblob => simp [hblob, Obs.delivered?]
  · have hcode := hclose ⟨o, ho, hisclose⟩
    cases hturn with
    | got b _ _ _ => cases hcode
    | failed e herr _ _ => exact hreads.closed_of_err (herr.trans hcode)
    | wouldBlock _ _ _ => exact absurd hcode (by simp)

/-- Where nothing is read nothing need be shown. -/
theorem shows_nil : Shows [] done [] :=
  ⟨rfl, fun _ ho => by cases ho⟩

/-- A request shows its user what has been taken in. -/
theorem RequestOutcome.shows {n f : Nat} {ok : Bool} {res : Result} (h : r.Inv fs done)
    (hout : RequestOutcome r fs done n f ok res r') :
    r'.inp.mq.sent = r.inp.mq.sent ∧ ∃ new, r'.Inv fs (done ++ new) ∧
      Shows [.returned ok f res] done new := by
  have hsame : r.Inv fs (done ++ []) := by
    rw [List.append_nil]
    exact h
  cases hout with
  | refused res why =>
      refine ⟨rfl, [], hsame, rfl, fun o ho hisclose => ?_⟩
      rw [List.mem_singleton.mp ho] at hisclose
      cases hisclose.1
  | latched e err =>
      refine ⟨rfl, [], hsame, rfl, fun o ho hisclose => ?_⟩
      rw [List.mem_singleton.mp ho] at hisclose
      rw [List.append_nil]
      exact h.reads.closed_of_err (err.trans hisclose.2)
  | invalid err size =>
      refine ⟨rfl, [], hsame, rfl, fun o ho hisclose => ?_⟩
      rw [List.mem_singleton.mp ho] at hisclose
      exact absurd hisclose.2 (by simp)
  | read res inp new err size sent reads turn =>
      exact ⟨sent, new, Inv.of_turn reads turn, shows_of_turn turn reads (.inl rfl)⟩

/-- The queue's event shows its user what has been taken in. -/
theorem ReadableOutcome.shows {g : Option (Nat × Result)} (h : r.Inv fs done)
    (hout : ReadableOutcome r fs done g r') :
    r'.inp.mq.sent = r.inp.mq.sent ∧ ∃ new, r'.Inv fs (done ++ new) ∧
      Shows (invocations g) done new := by
  cases hout with
  | late err =>
      refine ⟨rfl, [], ?_, shows_nil⟩
      rw [List.append_nil]
      refine ⟨{ h.reads with }, fun hnone => ?_, h.request⟩
      rw [hnone] at err
      cases err
  | read q res inp new _ _ sent reads turn =>
      refine ⟨sent, new, Inv.of_turn reads turn, ?_⟩
      by_cases hblock : res.1 = wouldBlock
      · rw [if_pos hblock]
        apply shows_of_turn (f := 0) turn reads (.inr (.inr ⟨rfl, ?_⟩))
        cases turn with
        | got b _ _ _ => cases hblock
        | failed e err _ _ => exact absurd hblock (reads.expected e err).genuine.1
        | wouldBlock _ _ _ => rfl
      · rw [if_neg hblock]
        exact shows_of_turn turn reads (.inr (.inl rfl))

/-! ## Steps -/

/-- A step reads some more frames, and shows their blobs; it puts nothing on the queue. -/
theorem Inv.step {i : Input} {ks : List MqAnswer} {obs : List Obs} (h : r.Inv fs done)
    (hord : Ordered fs) (hstep : r.step i ks = some (r', obs)) :
    r'.inp.mq.sent = r.inp.mq.sent ∧ ∃ new, r'.Inv fs (done ++ new) ∧ Shows obs done new := by
  have hr := h.withAnswers ks
  have hsent₀ : (r.withAnswers ks).inp.mq.sent = r.inp.mq.sent := rfl
  unfold BlobStreamMqReceiver.step at hstep
  rw [← hsent₀]
  generalize r.withAnswers ks = u at hr hstep
  cases i with
  | startReceiveBlobOps =>
      cases hstep
      refine ⟨?_, [], ?_, shows_nil⟩
      · unfold BlobStreamMqReceiver.startReceiveBlobOps
        split
        · rfl
        · rfl
      · rw [List.append_nil]
        exact hr.startReceiveBlobOps
  | asyncReceiveBlob n f =>
      rcases hcall : u.asyncReceiveBlob n f with ⟨ok, res, r₁⟩
      simp only [hcall] at hstep
      cases hstep
      exact (hr.asyncReceiveBlob_cases hord hcall).shows hr
  | idleTimerRun timeout =>
      cases hstep
      obtain ⟨hmq, hinv, -⟩ := hr.idleTimerRun timeout
      exact ⟨by rw [hmq], [], by rw [List.append_nil]; exact hinv, shows_nil⟩
  | mqReadable =>
      simp only at hstep
      split at hstep
      · rename_i hw
        rcases hcall : BlobStreamMqReceiver.onEvMqReadable
          { u with inp := { u.inp with evWaits := u.inp.evWaits - 1 } } with ⟨r₁, g⟩
        simp only [hcall] at hstep
        cases hstep
        exact (hr.onEvMqReadable_cases hord hw hcall).shows hr
      · cases hstep
  | timerFires =>
      simp only [Option.map_eq_some_iff] at hstep
      obtain ⟨t, hfire, heq⟩ := hstep
      cases heq
      refine ⟨rfl, [], ?_, shows_nil⟩
      rw [List.append_nil]
      exact hr.timerFires hfire
  | timerReadable =>
      simp only [Option.map_eq_some_iff] at hstep
      obtain ⟨t, htake, heq⟩ := hstep
      rcases hcall : BlobStreamMqReceiver.onEvIdleTimerFired
        { u with inp := { u.inp with idleTimer := t } } with ⟨r₁, g⟩
      rw [hcall] at heq
      cases heq
      obtain ⟨hinv, hmq, -, hcases⟩ := hr.onEvIdleTimerFired htake hcall
      refine ⟨by rw [hmq], [], by rw [List.append_nil]; exact hinv, ?_⟩
      rcases hcases with ⟨rfl, -⟩ | ⟨-, -, -, rfl⟩
      · exact shows_nil
      · cases u.userRequest with
        | none => exact shows_nil
        | some q =>
            refine ⟨rfl, fun o ho hisclose => ?_⟩
            rw [List.mem_singleton.mp ho] at hisclose
            exact absurd hisclose (by simp [Obs.IsClose])

end BlobStreamMqReceiver

end FlowIpc.MqStream
