import FlowIpc.MqStream.RcvInv

/-!
# What a receiver makes of the message after an escape

The message after an escape is to be a control command: eight bytes, a signed integer. The first one is
the negation of the opposing side's highest version; any later one is a value of `Control_cmd`.

* **Later commands.** The code rejects what is not eight bytes long, and values from the sentinel of the
  enumeration up, and then switches on the value. No case of the switch is for a negative one, so that
  it is neither a command nor rejected: reading goes on as if nothing had been there (`onCtlCmd_negative`).
  The grammar is kept to for all other messages, and for these only (`keepsGrammar_iff`).
* **The first command.** Its negation is passed on as a version, which is an `int16_t`. Of a value whose
  negation is none only the 16 low bits count, and a version may come of these. What is announced is
  what is decoded exactly for those that fit (`decodes_iff`).

Source: `sync_io/detail/blob_stream_mq_rcv_impl.hpp` `read_msg`.
-/

namespace FlowIpc.MqStream.In

open Negotiation

/-- The value of the command in a message of eight bytes. -/
abbrev rawCmd (msg : Blob) : Int :=
  LittleEndian.decodeInt msg

/-- A receiver in the control state, without an error; `after` says whether the version has been
negotiated. -/
structure Escaped (r : In) (after : Prop) : Prop where
  controlState : r.controlState = true
  noError : r.pendingErrCode = none
  negotiated : (r.protocolNegotiator.negotiatedProtoVer ≠ verUnknown) ↔ after

/-- The next message is `msg`, and `mq` is the queue without it. -/
def Gives (r : In) (n : Nat) (msg : Blob) (mq : Mq) : Prop :=
  r.mq.tryReceive (if r.controlState then r.mqMaxMsgSz else n) = (some msg, none, mq)

variable {r : In} {msg : Blob} {n : Nat} {mq : Mq}

/-! ## One message -/

/-- The command is passed on to be interpreted, and if there is an error then, it is emitted. -/
theorem onMsg_of_control (h : r.controlState = true) :
    r.onMsg msg =
      if ({ r with controlState := false }.onCtlCmd msg).pendingErrCode.isSome then
        ({ r with controlState := false }.onCtlCmd msg).emit msg
      else (none, { r with controlState := false }.onCtlCmd msg) := by
  unfold onMsg
  rw [if_pos h]

/-- An error that comes of the command ends the reading. -/
theorem onMsg_of_err {e : Err} (h : r.controlState = true)
    (he : ({ r with controlState := false }.onCtlCmd msg).pendingErrCode = some e) :
    r.onMsg msg = (some (some e, []), { r with controlState := false }.onCtlCmd msg) := by
  rw [onMsg_of_control h, he, if_pos (by rfl), emit_of_err he]

/-- Otherwise the next message is read. -/
theorem onMsg_of_none (h : r.controlState = true)
    (he : ({ r with controlState := false }.onCtlCmd msg).pendingErrCode = none) :
    r.onMsg msg = (none, { r with controlState := false }.onCtlCmd msg) := by
  rw [onMsg_of_control h, he, if_neg (by simp)]

/-- Where the queue gives a message, the turn of the loop is to interpret it. -/
theorem readMsgOnce_of_msg (h : r.Gives n msg mq) :
    r.readMsgOnce n = { r with mq := mq, pendingErrCode := none }.onMsg msg := by
  unfold readMsgOnce
  rw [h]

/-! ## Later commands -/

/-- A ping is registered, and nothing else comes of it. -/
theorem onCtlCmd_ping (hneg : r.protocolNegotiator.negotiatedProtoVer ≠ verUnknown)
    (hlen : msg.length = 8) (hcmd : rawCmd msg = ctlPing) : r.onCtlCmd msg = r.notIdle := by
  unfold onCtlCmd
  rw [if_pos hlen]
  simp only [hcmd, ctlPing, ctlEndSentinel, ctlEndSending]
  rw [if_neg hneg, if_neg (by decide), if_neg (by decide), if_pos trivial]

/-- The end of sending is the graceful close. -/
theorem onCtlCmd_endSending (hneg : r.protocolNegotiator.negotiatedProtoVer ≠ verUnknown)
    (hlen : msg.length = 8) (hcmd : rawCmd msg = ctlEndSending) :
    r.onCtlCmd msg =
      { r with pendingErrCode := Code.receivesFinishedCannotReceive.toErrorCode } := by
  unfold onCtlCmd
  rw [if_pos hlen]
  simp only [hcmd, ctlEndSentinel, ctlEndSending]
  rw [if_neg hneg, if_neg (by decide), if_pos trivial]

/-- What is not eight bytes long is rejected, and what is above the commands. -/
theorem onCtlCmd_bad (hneg : r.protocolNegotiator.negotiatedProtoVer ≠ verUnknown)
    (hbad : msg.length ≠ 8 ∨ ctlEndSentinel ≤ rawCmd msg) :
    r.onCtlCmd msg =
      { r with pendingErrCode := Code.blobStreamMqReceiverBadCtlCmd.toErrorCode } := by
  unfold onCtlCmd
  by_cases hlen : msg.length = 8
  · rw [if_pos hlen]
    simp only
    rw [if_neg hneg, if_pos (hbad.resolve_left (not_not.mpr hlen))]
  · rw [if_neg hlen]

/-- What is below them is not noticed. -/
theorem onCtlCmd_negative (hneg : r.protocolNegotiator.negotiatedProtoVer ≠ verUnknown)
    (hlen : msg.length = 8) (hcmd : rawCmd msg < 0) : r.onCtlCmd msg = r := by
  have hsentinel : ¬ ctlEndSentinel ≤ rawCmd msg := by
    unfold ctlEndSentinel
    omega
  have hend : rawCmd msg ≠ ctlEndSending := by
    unfold ctlEndSending
    omega
  have hping : rawCmd msg ≠ ctlPing := by
    unfold ctlPing
    omega
  unfold onCtlCmd
  rw [if_pos hlen]
  simp only
  rw [if_neg hneg, if_neg hsentinel, if_neg hend, if_neg hping]

/-- The control grammar, in the turn of the loop that reads `msg`: a ping is registered and reading goes
on, the end of sending is the graceful close, and anything else is a bad command; either error is kept,
and emitted. -/
structure KeepsGrammar (r : In) (n : Nat) (msg : Blob) (mq : Mq) : Prop where
  ping : msg.length = 8 → rawCmd msg = ctlPing →
    r.readMsgOnce n = (none, ({ r with mq := mq, controlState := false } : In).notIdle)
  endSending : msg.length = 8 → rawCmd msg = ctlEndSending →
    r.readMsgOnce n = (some (Code.receivesFinishedCannotReceive.toErrorCode, []),
      { r with
        mq := mq
        controlState := false
        pendingErrCode := Code.receivesFinishedCannotReceive.toErrorCode })
  other : ¬ (msg.length = 8 ∧ (rawCmd msg = ctlPing ∨ rawCmd msg = ctlEndSending)) →
    r.readMsgOnce n = (some (Code.blobStreamMqReceiverBadCtlCmd.toErrorCode, []),
      { r with
        mq := mq
        controlState := false
        pendingErrCode := Code.blobStreamMqReceiverBadCtlCmd.toErrorCode })

/-- The receiver as it interprets the message. -/
theorem Escaped.readMsgOnce {p : Prop} (h : r.Escaped p) (hgives : r.Gives n msg mq) :
    ∃ u : In, u = { r with mq := mq, controlState := false } ∧ u.pendingErrCode = none ∧
      (∀ e, (u.onCtlCmd msg).pendingErrCode = some e →
        r.readMsgOnce n = (some (some e, []), u.onCtlCmd msg)) ∧
      ((u.onCtlCmd msg).pendingErrCode = none → r.readMsgOnce n = (none, u.onCtlCmd msg)) := by
  have hsame : ({ r with mq := mq, pendingErrCode := none } : In) = { r with mq := mq } := by
    rw [← h.noError]
  rw [readMsgOnce_of_msg hgives, hsame]
  exact ⟨_, rfl, h.noError, fun e he => onMsg_of_err h.controlState he,
    fun he => onMsg_of_none h.controlState he⟩

/-- **The grammar is kept to exactly for what is no negative command.** -/
theorem keepsGrammar_iff (h : r.Escaped True) (hgives : r.Gives n msg mq) :
    r.KeepsGrammar n msg mq ↔ ¬ (msg.length = 8 ∧ rawCmd msg < 0) := by
  obtain ⟨u, rfl, hnone, herr, hnoerr⟩ := h.readMsgOnce hgives
  have hneg : r.protocolNegotiator.negotiatedProtoVer ≠ verUnknown := h.negotiated.mpr trivial
  constructor
  · rintro hkeeps ⟨hlen, hcmd⟩
    have hskip := onCtlCmd_negative (r := { r with mq := mq, controlState := false }) hneg hlen hcmd
    rw [hskip] at hnoerr
    have hother := hkeeps.other fun hboth => by
      unfold ctlPing ctlEndSending at hboth
      omega
    rw [hnoerr hnone] at hother
    cases hother
  · intro hcmd
    refine ⟨fun hlen hping => ?_, fun hlen hend => ?_, fun hother => ?_⟩
    · have heq := onCtlCmd_ping (r := { r with mq := mq, controlState := false }) hneg hlen hping
      rw [heq] at hnoerr
      exact hnoerr (notIdle_pendingErrCode.trans hnone)
    · have heq := onCtlCmd_endSending (r := { r with mq := mq, controlState := false }) hneg hlen hend
      rw [heq] at herr
      exact herr _ rfl
    · have hbad : msg.length ≠ 8 ∨ ctlEndSentinel ≤ rawCmd msg := by
        unfold ctlPing ctlEndSending at hother
        unfold ctlEndSentinel
        omega
      have heq := onCtlCmd_bad (r := { r with mq := mq, controlState := false }) hneg hbad
      rw [heq] at herr
      exact herr _ rfl

/-! ## The first command -/

/-- The first command is passed on to the negotiator, as an opposing maximum. -/
theorem onCtlCmd_negotiates (hneg : r.protocolNegotiator.negotiatedProtoVer = verUnknown)
    (herr : r.pendingErrCode = none) (hlen : msg.length = 8) :
    ((r.onCtlCmd msg).pendingErrCode, (r.onCtlCmd msg).protocolNegotiator) =
      (r.protocolNegotiator.computeNegotiatedProtoVer (toProtoVer (-rawCmd msg)) none).2 := by
  unfold onCtlCmd
  rw [if_pos hlen]
  simp only
  rw [if_pos hneg, negotiate, herr]
  rfl

/-- What is emitted of the first command is the negotiator's code. -/
theorem onCtlCmd_first (hneg : r.protocolNegotiator.negotiatedProtoVer = verUnknown)
    (herr : r.pendingErrCode = none) (hlen : msg.length = 8) :
    (r.onCtlCmd msg).pendingErrCode =
      ProtocolNegotiator.emittedCode r.protocolNegotiator.range (toProtoVer (-rawCmd msg)) := by
  have hboth := onCtlCmd_negotiates hneg herr hlen
  rw [ProtocolNegotiator.compute_of_unknown _ _ hneg] at hboth
  exact congrArg Prod.fst hboth

/-- A value that is an `int16_t` is kept by the narrowing to one. -/
theorem toProtoVer_of_fits {z : Int} (hlo : -(2 ^ 15) ≤ z) (hhi : z < 2 ^ 15) : toProtoVer z = z := by
  unfold toProtoVer
  apply Int.bmod_eq_of_le_mul_two
  · omega
  · omega

/-- The result of a narrowing is an `int16_t`. -/
theorem toProtoVer_range (z : Int) : -(2 ^ 15) ≤ toProtoVer z ∧ toProtoVer z < 2 ^ 15 := by
  unfold toProtoVer
  have hlo := Int.le_bmod (x := z) (m := 2 ^ 16) (by decide)
  have hhi := Int.bmod_lt (x := z) (m := 2 ^ 16) (by decide)
  omega

/-- The command announces a version that the range can do with. -/
def Announces (range : VersionRange) (c : Int) : Prop :=
  ∃ v, 1 ≤ v ∧ v < 2 ^ 15 ∧ range.min ≤ min range.max v ∧ c = -v

/-- The first command is taken for what it announces, in the turn of the loop that reads `msg`. -/
structure Takes (r : In) (n : Nat) (msg : Blob) : Prop where
  /-- Reading goes on iff it announces a version that can be spoken. -/
  accepts : (∃ r', r.readMsgOnce n = (none, r')) ↔
    Announces r.protocolNegotiator.range (rawCmd msg)
  /-- The opposing maximum used is the version announced: it is what is decoded, and what becomes of the
  negotiator, and of the error, is what computing with it makes of them. -/
  uses : ∀ v, 1 ≤ v → v < 2 ^ 15 → rawCmd msg = -v →
    toProtoVer (-rawCmd msg) = v ∧
      ((r.readMsgOnce n).2.pendingErrCode, (r.readMsgOnce n).2.protocolNegotiator) =
        (r.protocolNegotiator.computeNegotiatedProtoVer v none).2
  /-- Otherwise an error of the negotiation is emitted. -/
  rejects : ¬ Announces r.protocolNegotiator.range (rawCmd msg) →
    ∃ r', r.readMsgOnce n =
        (some (Code.protocolNegotiationOpposingVerInvalid.toErrorCode, []), r') ∨
      r.readMsgOnce n = (some (Code.protocolNegotiationOpposingVerTooOld.toErrorCode, []), r')

/-- Neither the negation, of an `int64_t`, nor the narrowing, to an `int16_t`, overflows. -/
structure Fits (c : Int) : Prop where
  negation : -(2 ^ 63) ≤ -c ∧ -c < 2 ^ 63
  narrowing : toProtoVer (-c) = -c

/-- The low bits of the negation are a version that can be spoken, though the negation is not. -/
def Aliases (range : VersionRange) (c : Int) : Prop :=
  ¬ (-(2 ^ 15) ≤ -c ∧ -c < 2 ^ 15) ∧ range.min ≤ min range.max (toProtoVer (-c))

/-- The negotiator accepts the version it is given iff the range can do with it. -/
theorem emittedCode_eq_none_iff (range : VersionRange) (opp : Int) :
    ProtocolNegotiator.emittedCode range opp = none ↔ range.min ≤ min range.max opp := by
  have hpos := range.min_pos
  have hle := range.min_le_max
  unfold ProtocolNegotiator.emittedCode
  rw [le_min_iff]
  split_ifs with hopp hcan
  · simp only [false_iff, not_and]
    omega
  · simp only [true_iff]
    omega
  · simp only [false_iff, not_and]
    omega

/-- A command announces a version if its negation is an `int16_t` that the range can do with. -/
theorem announces_iff (range : VersionRange) (c : Int) :
    Announces range c ↔ (-(2 ^ 15) ≤ -c ∧ -c < 2 ^ 15) ∧ range.min ≤ min range.max (-c) := by
  have hpos := range.min_pos
  unfold Announces
  simp only [le_min_iff]
  constructor
  · rintro ⟨v, hv, hv', hmin, rfl⟩
    simp only [neg_neg]
    exact ⟨⟨by omega, hv'⟩, hmin⟩
  · rintro ⟨⟨-, hhi⟩, hmax, hmin⟩
    exact ⟨-c, by omega, hhi, ⟨hmax, hmin⟩, by omega⟩

/-- The turn of the loop goes by whether the narrowed value can be spoken. -/
theorem Escaped.takes_iff_narrowed (h : r.Escaped False) (hgives : r.Gives n msg mq) (hlen : msg.length = 8) :
    r.Takes n msg ↔
      (r.protocolNegotiator.range.min ≤
          min r.protocolNegotiator.range.max (toProtoVer (-rawCmd msg)) ↔
        Announces r.protocolNegotiator.range (rawCmd msg)) := by
  have hneg : r.protocolNegotiator.negotiatedProtoVer = verUnknown := by
    by_contra hne
    exact h.negotiated.mp hne
  obtain ⟨u, hu, hnone, herr, hnoerr⟩ := h.readMsgOnce hgives
  have hrange : u.protocolNegotiator = r.protocolNegotiator := by rw [hu]
  have hcode := onCtlCmd_first (r := u) (hrange ▸ hneg) hnone hlen
  have hboth := onCtlCmd_negotiates (r := u) (hrange ▸ hneg) hnone hlen
  rw [hrange] at hcode hboth
  have hiff := emittedCode_eq_none_iff r.protocolNegotiator.range (toProtoVer (-rawCmd msg))
  -- Reading goes on iff the code emitted is none.
  have hgoes : (∃ r', r.readMsgOnce n = (none, r')) ↔ ProtocolNegotiator.emittedCode
      r.protocolNegotiator.range (toProtoVer (-rawCmd msg)) = none := by
    constructor
    · rintro ⟨r', honce⟩
      by_contra hne
      obtain ⟨e, he⟩ := Option.ne_none_iff_exists'.mp hne
      rw [herr e (hcode.trans he)] at honce
      cases honce
    · intro hno
      exact ⟨_, hnoerr (hcode.trans hno)⟩
  constructor
  · intro htakes
    rw [← hiff, ← hgoes]
    exact htakes.accepts
  · intro heq
    have hafter : (r.readMsgOnce n).2 = u.onCtlCmd msg := by
      cases he : (u.onCtlCmd msg).pendingErrCode with
      | none => rw [hnoerr he]
      | some e => rw [herr e he]
    refine ⟨by rw [hgoes, hiff, heq], fun v hv hv' hc => ?_, fun hnot => ?_⟩
    · have hver : toProtoVer (-rawCmd msg) = v := by
        rw [hc, neg_neg]
        exact toProtoVer_of_fits (by omega) hv'
      refine ⟨hver, ?_⟩
      rw [hafter, hboth, hver]
    · refine ⟨u.onCtlCmd msg, ?_⟩
      rw [← heq, ← hiff] at hnot
      unfold ProtocolNegotiator.emittedCode at hcode hnot
      split_ifs at hcode hnot
      · exact .inl (herr _ hcode)
      · exact absurd rfl hnot
      · exact .inr (herr _ hcode)

/-- A version announced by a sender is the version decoded.
Source: `blob_stream_mq_snd_impl.hpp` `start_send_blob_ops` -/
theorem toProtoVer_ctlBytes {v : Int} (hv : 1 ≤ v) (hv' : v < 2 ^ 15) :
    toProtoVer (-rawCmd (ctlBytes (-v))) = v := by
  have hcmd : rawCmd (ctlBytes (-v)) = -v := by
    apply LittleEndian.decodeInt_encodeInt
    · norm_num
      omega
    · norm_num
      omega
  rw [hcmd, neg_neg]
  exact toProtoVer_of_fits (by omega) hv'

/-- **What is announced is what is taken**, unless the low bits of something else are a version that can
be spoken; and without an overflow exactly for what is the negation of an `int16_t`. What a sender
announces is decoded as it was. -/
theorem takes_iff (h : r.Escaped False) (hgives : r.Gives n msg mq) (hlen : msg.length = 8) :
    (r.Takes n msg ↔ ¬ Aliases r.protocolNegotiator.range (rawCmd msg)) ∧
      (r.Takes n msg ∧ Fits (rawCmd msg) ↔ -(2 ^ 15) < rawCmd msg ∧ rawCmd msg ≤ 2 ^ 15) ∧
      ∀ v : Int, 1 ≤ v → v < 2 ^ 15 → toProtoVer (-rawCmd (ctlBytes (-v))) = v := by
  have htakes := h.takes_iff_narrowed hgives hlen
  have hann := announces_iff r.protocolNegotiator.range (rawCmd msg)
  have hiff : r.Takes n msg ↔ ¬ Aliases r.protocolNegotiator.range (rawCmd msg) := by
    rw [htakes, hann]
    unfold Aliases
    by_cases hfits : -(2 ^ 15) ≤ -rawCmd msg ∧ -rawCmd msg < 2 ^ 15
    · rw [toProtoVer_of_fits hfits.1 hfits.2]
      exact iff_of_true (and_iff_right hfits).symm fun halias => halias.1 hfits
    · simp only [hfits, false_and, iff_false, not_false_eq_true, true_and]
  refine ⟨hiff, ?_, fun v hv hv' => toProtoVer_ctlBytes hv hv'⟩
  rw [hiff]
  constructor
  · rintro ⟨-, -, hnarrow⟩
    obtain ⟨hlo, hhi⟩ := toProtoVer_range (-rawCmd msg)
    rw [hnarrow] at hlo hhi
    omega
  · rintro ⟨hlo, hhi⟩
    refine ⟨fun halias => halias.1 (by omega), ⟨by omega, by omega⟩, ?_⟩
    exact toProtoVer_of_fits (by omega) (by omega)

/-! ## What goes wrong -/

/-- A receiver that has read an escape, with `msg` next on the queue; `ver` is the version negotiated. -/
def afterEscape (ver : Int) (msg : Blob) : In :=
  { (BlobStreamMqReceiver.ctor ⟨8, [[], msg], 1, [.ready]⟩).inp with
    controlState := true
    protocolNegotiator := ⟨BlobStreamMqSender.versionOne, false, ver⟩ }

/-- The message is what the queue gives next. -/
theorem gives_afterEscape (ver : Int) (msg : Blob) :
    (afterEscape ver msg).Gives 8 msg ⟨8, [[], msg], 2, []⟩ := by
  rfl

/-- A grammatical message after the negotiation: a ping. -/
theorem keepsGrammar_iff_ping :
    (afterEscape 1 (ctlBytes ctlPing)).Escaped True ∧
      ((afterEscape 1 (ctlBytes ctlPing)).KeepsGrammar 8 (ctlBytes ctlPing)
          ⟨8, [[], ctlBytes ctlPing], 2, []⟩ ↔
        ¬ ((ctlBytes ctlPing).length = 8 ∧ rawCmd (ctlBytes ctlPing) < 0)) := by
  have hescaped : (afterEscape 1 (ctlBytes ctlPing)).Escaped True := ⟨rfl, rfl, by decide⟩
  exact ⟨hescaped, keepsGrammar_iff hescaped (gives_afterEscape _ _)⟩

/-- The command -1, after the negotiation, is passed over in silence. -/
theorem not_keepsGrammar_minusOne :
    ¬ (afterEscape 1 (ctlBytes (-1))).KeepsGrammar 8 (ctlBytes (-1))
      ⟨8, [[], ctlBytes (-1)], 2, []⟩ := by
  intro hkeeps
  have hother := hkeeps.other (by decide)
  have honce : ((afterEscape 1 (ctlBytes (-1))).readMsgOnce 8).1 = none := by decide +kernel
  rw [hother] at honce
  cases honce

/-- A first command that announces version 1. -/
theorem takes_iff_versionOne :
    (afterEscape verUnknown (ctlBytes (-1))).Escaped False ∧
      ((afterEscape verUnknown (ctlBytes (-1))).Takes 8 (ctlBytes (-1)) ↔
          ¬ Aliases BlobStreamMqSender.versionOne (rawCmd (ctlBytes (-1)))) ∧
      ((afterEscape verUnknown (ctlBytes (-1))).Takes 8 (ctlBytes (-1)) ∧
          Fits (rawCmd (ctlBytes (-1))) ↔
        -(2 ^ 15) < rawCmd (ctlBytes (-1)) ∧ rawCmd (ctlBytes (-1)) ≤ 2 ^ 15) ∧
      ∀ v : Int, 1 ≤ v → v < 2 ^ 15 → toProtoVer (-rawCmd (ctlBytes (-v))) = v := by
  have hescaped : (afterEscape verUnknown (ctlBytes (-1))).Escaped False := ⟨rfl, rfl, by decide⟩
  exact ⟨hescaped, takes_iff hescaped (gives_afterEscape _ _) (by decide)⟩

/-- The first command -65537, which announces nothing, is taken for version 1. -/
theorem not_takes_alias :
    ¬ (afterEscape verUnknown (ctlBytes (-65537))).Takes 8 (ctlBytes (-65537)) := by
  intro htakes
  have honce : ((afterEscape verUnknown (ctlBytes (-65537))).readMsgOnce 8).1 = none := by
    decide +kernel
  obtain ⟨v, hv, hv', -, hc⟩ := htakes.accepts.mp ⟨_, Prod.ext honce rfl⟩
  have hcmd : rawCmd (ctlBytes (-65537)) = -65537 := by decide +kernel
  rw [hcmd] at hc
  omega

end FlowIpc.MqStream.In
