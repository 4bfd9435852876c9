import FlowIpc.SocketStream.RcvSteps

/-!
# What is in the target for the handle

A request may come with a target for the handle (`given`, with what is in there). When a message begins the
handle that came with it, or none, is put there, unless the version is still to be settled. It is not the
last thing done for the request: the message may fail to come in, and after a ping another message is read.
So there is always to say what the request holds by then, `held`.

* `Serves` is what is true of a receiver in the midst of serving a request.
* `Yields` is what one read leads to; `Serves.onRead_start` and the lemmas about the other parts of a message say
  that it does, and where the request fails although it holds a handle.

Source: `sync_io/detail/native_socket_stream_impl_rcv.cpp` `rcv_on_handle_finalized`.
-/

namespace FlowIpc.SocketStream

open Negotiation AsioSocket

/-- The request comes to an end with an error. -/
def Next.Fails : Next → Prop
  | .done res => res.1 ≠ none ∧ res.1 ≠ wouldBlock
  | _ => False

/-- To read is not to fail. -/
@[simp] theorem Next.not_fails_reads {msgState : RcvMsgState} : ¬ (Next.reads msgState).Fails := id

/-- Nor is to look whether the socket is there. -/
@[simp] theorem Next.not_fails_locks {msgState : RcvMsgState} : ¬ (Next.locks msgState).Fails := id

namespace In

variable {r r' : In} {given : Option NativeHandle} {held hndl : NativeHandle} {msgState : RcvMsgState}
  {read : NbRead} {n : ℕ}

/-! ## Fields that are left alone -/

/-- Putting off the idle timer leaves the request as it is. -/
@[simp] theorem notIdle_userRequest : r.notIdle.userRequest = r.userRequest := by
  obtain ⟨timer, b, heq⟩ := r.notIdle_with
  rw [heq]

/-- Putting off the idle timer leaves the version as it is. -/
@[simp] theorem notIdle_protocolNegotiator : r.notIdle.protocolNegotiator = r.protocolNegotiator := by
  obtain ⟨timer, b, heq⟩ := r.notIdle_with
  rw [heq]

/-- Putting off the idle timer leaves the target of the handle as it is. -/
@[simp] theorem notIdle_targetHndl : r.notIdle.targetHndl = r.targetHndl := by
  unfold targetHndl
  rw [notIdle_userRequest]

/-- Storing bytes leaves the version as it is. -/
@[simp] theorem store_protocolNegotiator {bytes : Blob} :
    (r.store msgState bytes).protocolNegotiator = r.protocolNegotiator := by
  cases msgState <;> rfl

/-- Storing bytes leaves it as it is whether there is a request. -/
@[simp] theorem store_isSome {bytes : Blob} :
    (r.store msgState bytes).userRequest.isSome = r.userRequest.isSome := by
  cases msgState with
  | metaBlobPayload nLeft => exact Option.isSome_map
  | msgStart => rfl
  | headPayload nLeft => rfl

/-- Storing bytes leaves the target of the handle as it is. -/
@[simp] theorem store_targetHndl {bytes : Blob} : (r.store msgState bytes).targetHndl = r.targetHndl := by
  cases msgState with
  | metaBlobPayload nLeft => cases hreq : r.userRequest <;> simp [store, targetHndl, hreq]
  | msgStart => rfl
  | headPayload nLeft => rfl

/-! ## Serving a request -/

/-- The version is still to be settled. -/
def Negotiating (r : In) : Prop := r.protocolNegotiator.negotiatedProtoVer = verUnknown

/-- What is held is in the target. -/
def Put (r : In) (given : Option NativeHandle) (held : NativeHandle) : Prop :=
  r.targetHndl = given.map (fun _ => held) ∧ (given = none → held = none)

/-- Nothing has been put in the target. -/
def Untouched (r : In) (given : Option NativeHandle) (held : NativeHandle) : Prop :=
  r.targetHndl = given ∧ held = none

/-- If nothing is held the target is null, or as it was given. -/
theorem targetHndl_of_not_held (htarget : r.Put given held ∨ r.Untouched given held) (hheld : held = none) :
    r.targetHndl.join = none ∨ r.targetHndl = given := by
  rcases htarget with hput | huntouched
  · left
    rw [hput.1, hheld]
    cases given <;> rfl
  · exact .inr huntouched.1

/-- A request is being served, and this part of a message is being read for it. -/
structure Serves (r : In) (given : Option NativeHandle) (held : NativeHandle) (msgState : RcvMsgState) : Prop where
  err : r.pendingErrCode = none
  request : r.userRequest.isSome
  negotiating : r.Negotiating → held = none
  target : r.Put given held ∨ r.Untouched given held
  put : match msgState with
    | .msgStart => True
    | .headPayload _ => ¬ r.Negotiating → r.Put given held
    | .metaBlobPayload _ => r.Put given held
  left nLeft : msgState = .headPayload nLeft → nLeft ≠ 0

/-- What comes of a request that is being served. -/
inductive Yields (given : Option NativeHandle) (held : NativeHandle) : Next × In → Prop where
  /-- Something is read. -/
  | reads {r : In} {msgState : RcvMsgState} (serves : r.Serves given held msgState) (waits : r.evWaits = []) :
      Yields given held (.reads msgState, r)
  /-- The socket is looked for. -/
  | locks {r : In} {msgState : RcvMsgState} (serves : r.Serves given held msgState) (waits : r.evWaits = []) :
      Yields given held (.locks msgState, r)
  /-- There is a wait for the socket. -/
  | sleeps {r : In} {msgState : RcvMsgState} (serves : r.Serves given held msgState)
      (waits : r.evWaits = [msgState]) : Yields given held (.done (wouldBlock, 0), r)
  /-- It fails. -/
  | fails {r : In} {err : ErrorCode} (some_err : err.isSome) (ne_wouldBlock : err ≠ wouldBlock)
      (pending : r.pendingErrCode = err) (target : r.Put given held ∨ r.Untouched given held) :
      Yields given held (.done (err, 0), r)
  /-- It succeeds. -/
  | succeeds {r : In} {n : ℕ} (err : r.pendingErrCode = none) (waits : r.evWaits = []) (put : r.Put given held) :
      Yields given held (.done (none, n), r)

/-- What a request holds depends on little. -/
theorem Serves.of_eq (h : r.Serves given held msgState) (herr : r'.pendingErrCode = none)
    (hreq : r'.userRequest.isSome = r.userRequest.isSome)
    (hneg : r'.protocolNegotiator = r.protocolNegotiator) (htarget : r'.targetHndl = r.targetHndl) :
    r'.Serves given held msgState := by
  have hneg' : r'.Negotiating ↔ r.Negotiating := by rw [Negotiating, Negotiating, hneg]
  have hput : r'.Put given held ↔ r.Put given held := by rw [Put, Put, htarget]
  have huntouched : r'.Untouched given held ↔ r.Untouched given held := by rw [Untouched, Untouched, htarget]
  refine ⟨herr, hreq.trans h.request, fun hn => h.negotiating (hneg'.mp hn), ?_, ?_, h.left⟩
  · rw [hput, huntouched]
    exact h.target
  · have := h.put
    cases msgState with
    | msgStart => trivial
    | headPayload nLeft => exact fun hn => hput.mpr (this (mt hneg'.mpr hn))
    | metaBlobPayload nLeft => exact hput.mpr this

/-- A message is started over, whatever is held. -/
theorem Serves.start (h : r.Serves given held msgState) : r.Serves given held .msgStart :=
  ⟨h.err, h.request, h.negotiating, h.target, trivial, by rintro _ ⟨⟩⟩

/-- An error ends it. -/
theorem yields_emitErrNext {e : Err} (herr : r.pendingErrCode = some e) (hne : some e ≠ wouldBlock)
    (htarget : r.Put given held ∨ r.Untouched given held) :
    Yields given held r.emitErrNext ∧ r.emitErrNext.1.Fails := by
  have hsome : r.pendingErrCode.isSome := by
    rw [herr]
    rfl
  rw [emitErrNext, assert_of hsome, herr]
  exact ⟨.fails rfl hne herr htarget, by simp, hne⟩

/-- The socket is there, and a wait for it is asked for; or it has been put away. -/
theorem Serves.onLock (h : r.Serves given held msgState) (hwaits : r.evWaits = []) :
    Yields given held (r.onLock msgState) ∧ ((r.onLock msgState).1.Fails ↔ r.peerSocket.alive = false) := by
  unfold In.onLock
  by_cases halive : r.peerSocket.alive = true
  · rw [if_pos halive]
    refine ⟨.sleeps (h.of_eq h.err rfl rfl rfl) ?_, fun hfails => absurd rfl hfails.2, fun hdead => ?_⟩
    · rw [hwaits, List.nil_append]
    · rw [halive] at hdead
      cases hdead
  · rw [if_neg halive]
    obtain ⟨hyields, hfails⟩ := yields_emitErrNext (r := { r with
      pendingErrCode := Code.lowLvlTransportHosedCannotReceive.toErrorCode }) rfl (by simp) h.target
    exact ⟨hyields, fun _ => Bool.eq_false_iff.mpr halive, fun _ => hfails⟩

/-! ## The head of a message -/

/-- What is said of the length of the blob: there is none, or it is a ping, or there is room for it. -/
def HeadFits (r : In) : Prop := r.metaLength = metaBlobLengthPingSentinel ∨ r.metaLength ≤ r.userTargetSize

/-- The version is computed; the request is as it was. -/
theorem Serves.negotiate (h : r.Serves given held msgState) (hneg : r.Negotiating) (ver : ℤ) :
    (r.negotiate ver).pendingErrCode = ProtocolNegotiator.emittedCode r.protocolNegotiator.range ver ∧
      (r.negotiate ver).userRequest = r.userRequest ∧ (r.negotiate ver).evWaits = r.evWaits := by
  unfold In.negotiate
  rw [h.err, ProtocolNegotiator.compute_of_unknown _ _ hneg]
  simp only
  rw [assert_of trivial]
  exact ⟨rfl, rfl, rfl⟩

/-- No version makes the negotiation block. -/
theorem emittedCode_ne_wouldBlock {range : VersionRange} {ver : ℤ} :
    ProtocolNegotiator.emittedCode range ver ≠ wouldBlock := by
  unfold ProtocolNegotiator.emittedCode
  split
  · simp
  · split <;> simp

/-- All of the head has been read: a handle is lost only where there is no room for the blob. -/
theorem Serves.onHeadPayloadNext (h : r.Serves given held (.headPayload n)) (hwaits : r.evWaits = []) :
    Yields given held r.onHeadPayloadNext ∧
      (held ≠ none → (r.onHeadPayloadNext.1.Fails ↔ ¬ r.HeadFits)) := by
  unfold In.onHeadPayloadNext
  simp only [assert_of h.request, assert_of h.err]
  by_cases hneg : r.protocolNegotiator.negotiatedProtoVer = verUnknown
  · rw [if_pos hneg]
    have hheld : held = none := h.negotiating hneg
    refine ⟨?_, fun hne => absurd hheld hne⟩
    obtain ⟨herr, hreq, hwaits'⟩ := h.negotiate hneg (toProtoVer r.metaLength)
    have hne : (r.negotiate (toProtoVer r.metaLength)).pendingErrCode ≠ wouldBlock :=
      herr ▸ emittedCode_ne_wouldBlock
    generalize r.negotiate (toProtoVer r.metaLength) = u at herr hreq hwaits' hne ⊢
    have htarget : u.targetHndl = r.targetHndl := by rw [targetHndl, targetHndl, hreq]
    by_cases hsome : u.pendingErrCode.isSome = true
    · rw [if_pos hsome]
      refine .fails hsome hne rfl ?_
      rw [Put, Untouched, htarget]
      exact h.target
    · rw [if_neg hsome]
      refine .reads ⟨?_, ?_, fun _ => hheld, ?_, trivial, by rintro _ ⟨⟩⟩ ?_
      · rw [notIdle_pendingErrCode]
        exact Option.not_isSome_iff_eq_none.mp hsome
      · rw [notIdle_userRequest, hreq]
        exact h.request
      · rw [Put, Untouched, notIdle_targetHndl, htarget]
        exact h.target
      · rw [notIdle_evWaits, hwaits', hwaits]
  · rw [if_neg hneg]
    have hput : r.Put given held := h.put hneg
    have hidle {ms : RcvMsgState} (hserves : r.Serves given held ms) : r.notIdle.Serves given held ms :=
      hserves.of_eq (by rw [notIdle_pendingErrCode, h.err]) (by rw [notIdle_userRequest])
        notIdle_protocolNegotiator notIdle_targetHndl
    have hidle_waits : r.notIdle.evWaits = [] := by rw [notIdle_evWaits, hwaits]
    by_cases hping : r.metaLength = metaBlobLengthPingSentinel
    · rw [if_pos hping]
      exact ⟨.reads (hidle h.start) hidle_waits,
        fun _ => ⟨fun hfails => absurd hfails Next.not_fails_reads, fun hfits => absurd (.inl hping) hfits⟩⟩
    rw [if_neg hping]
    by_cases hzero : r.metaLength ≠ 0
    · rw [if_pos hzero]
      by_cases hroom : r.metaLength ≤ r.userTargetSize
      · rw [if_pos hroom]
        exact ⟨.reads ⟨h.err, h.request, h.negotiating, h.target, hput, by rintro _ ⟨⟩⟩ hwaits,
          fun _ => ⟨fun hfails => absurd hfails Next.not_fails_reads, fun hfits => absurd (.inr hroom) hfits⟩⟩
      · rw [if_neg hroom]
        refine ⟨.fails rfl (by simp) rfl h.target, fun _ => ⟨fun _ hfits => ?_, fun _ => ⟨by simp, by simp⟩⟩⟩
        rcases hfits with hping' | hroom'
        · exact hping hping'
        · exact hroom hroom'
    · rw [if_neg hzero]
      have hlength : r.metaLength = 0 := not_not.mp hzero
      have hfits : r.HeadFits := .inr (hlength ▸ Nat.zero_le _)
      by_cases hhndl : r.targetHndl.join ≠ none
      · rw [if_pos hhndl, notIdle_pendingErrCode, h.err]
        refine ⟨.succeeds ?_ hidle_waits ?_,
          fun _ => ⟨fun hfails => absurd rfl hfails.1, fun hno => absurd hfits hno⟩⟩
        · rw [notIdle_pendingErrCode, h.err]
        · rw [Put, notIdle_targetHndl]
          exact hput
      · rw [if_neg hhndl]
        refine ⟨.fails rfl (by simp) rfl h.target, fun hne => absurd ?_ hhndl⟩
        rw [hput.1]
        cases hgiven : given with
        | none => exact absurd (hput.2 hgiven) hne
        | some g => exact hne

/-! ## The start of a message -/

/-- A handle that comes is put in the target. -/
def TakesHndl (r : In) : Prop := ¬ r.Negotiating ∧ r.targetHndl ≠ none

instance : Decidable r.TakesHndl :=
  inferInstanceAs (Decidable (r.protocolNegotiator.negotiatedProtoVer ≠ verUnknown ∧ _))

/-- There is a target for the handle exactly if the request has one. -/
theorem Serves.targetHndl_eq_none_iff (h : r.Serves given held msgState) : r.targetHndl = none ↔ given = none := by
  rcases h.target with hput | huntouched
  · rw [hput.1, Option.map_eq_none_iff]
  · rw [huntouched.1]

/-- Nothing is held if a handle would not be taken. -/
theorem Serves.held_eq_none (h : r.Serves given held msgState) (hno : ¬ r.TakesHndl) : held = none := by
  by_cases hneg : r.Negotiating
  · exact h.negotiating hneg
  · have htarget : r.targetHndl = none := by_contra fun ht => hno ⟨hneg, ht⟩
    rcases h.target with hput | huntouched
    · exact hput.2 (h.targetHndl_eq_none_iff.mp htarget)
    · exact huntouched.2

/-- The handle, or none, has been put in the target. -/
theorem Serves.put_hndl (h : r.Serves given held msgState) (hnull : given = none → hndl = none) :
    ({ r with
      userRequest := r.userRequest.map fun request =>
        { request with targetHndl := request.targetHndl.map fun _ => hndl } } : In).Put given hndl := by
  refine ⟨?_, hnull⟩
  have hmap : (r.targetHndl.map fun _ => hndl) = given.map fun _ => hndl := by
    rcases h.target with hput | huntouched
    · rw [hput.1, Option.map_map]
      rfl
    · rw [huntouched.1]
  rw [← hmap]
  cases hreq : r.userRequest <;> simp [targetHndl, hreq]

/-- A handle has come, or none. Where it is put in the target, it is lost only if all of the head has come with
it and there is no room for the blob. -/
theorem Serves.onHandleFinalizedNext (h : r.Serves given held .msgStart) (hndl : NativeHandle)
    (hwaits : r.evWaits = []) (hn : n ≠ 0) (hle : n ≤ 2) :
    Yields given (if r.TakesHndl then hndl else held) (r.onHandleFinalizedNext hndl n) ∧
      (r.TakesHndl → hndl ≠ none → ((r.onHandleFinalizedNext hndl n).1.Fails ↔ n = 2 ∧ ¬ r.HeadFits)) := by
  unfold In.onHandleFinalizedNext
  simp only [assert_of h.request, assert_of h.err, assert_of hn]
  by_cases hneg : r.protocolNegotiator.negotiatedProtoVer = verUnknown
  · have hno : ¬ r.TakesHndl := fun htakes => htakes.1 hneg
    rw [if_neg hno]
    refine ⟨?_, fun htakes => absurd htakes hno⟩
    by_cases hnull : hndl = none
    · rw [if_neg (fun hboth => hboth.2 hnull), if_neg (fun hboth => hboth.1 hnull), if_pos hneg]
      have hhead (m : ℕ) (hm : m ≠ 0) : r.Serves given held (.headPayload m) := by
        refine ⟨h.err, h.request, h.negotiating, h.target, fun hno => absurd hneg hno, ?_⟩
        rintro _ ⟨⟩
        exact hm
      by_cases htwo : n = 2
      · rw [if_pos htwo]
        exact ((hhead 2 (by decide)).onHeadPayloadNext hwaits).1
      · rw [if_neg htwo]
        exact .locks (hhead _ (by omega)) hwaits
    · rw [if_pos ⟨hneg, hnull⟩]
      obtain ⟨herr, hreq, -⟩ := h.negotiate hneg verUnknown
      have htarget : (r.negotiate verUnknown).targetHndl = r.targetHndl := by rw [targetHndl, targetHndl, hreq]
      refine (yields_emitErrNext herr (by simp) ?_).1
      rw [Put, Untouched, htarget]
      exact h.target
  · have hsettled : ¬ (r.protocolNegotiator.negotiatedProtoVer = verUnknown ∧ hndl ≠ none) :=
      fun hboth => hneg hboth.1
    rw [if_neg hsettled]
    by_cases hrefuse : hndl ≠ none ∧ r.targetHndl = none
    · have hno : ¬ r.TakesHndl := fun htakes => htakes.2 hrefuse.2
      rw [if_pos hrefuse, if_neg hno]
      refine ⟨(yields_emitErrNext rfl (by simp) ?_).1, fun htakes => absurd htakes hno⟩
      exact h.target
    · rw [if_neg hrefuse, if_neg hneg]
      have hnull (hgiven : given = none) : hndl = none :=
        by_contra fun hne => hrefuse ⟨hne, h.targetHndl_eq_none_iff.mpr hgiven⟩
      have hput := h.put_hndl hnull
      have hheld : (if r.TakesHndl then hndl else held) = hndl := by
        by_cases htakes : r.TakesHndl
        · rw [if_pos htakes]
        · rw [if_neg htakes, h.held_eq_none htakes]
          exact (hnull (h.targetHndl_eq_none_iff.mp (by_contra fun ht => htakes ⟨hneg, ht⟩))).symm
      have hroom : ({ r with
          userRequest := r.userRequest.map fun request =>
            { request with targetHndl := request.targetHndl.map fun _ => hndl } } : In).HeadFits ↔ r.HeadFits := by
        simp only [HeadFits, metaLength, userTargetSize, Option.map_map]
        rfl
      have hhead (m : ℕ) (hm : m ≠ 0) : ({ r with
          userRequest := r.userRequest.map fun request =>
            { request with targetHndl := request.targetHndl.map fun _ => hndl } } : In).Serves given hndl
              (.headPayload m) := by
        refine ⟨h.err, Option.isSome_map.trans h.request, fun hno => absurd hno hneg, .inl hput, fun _ => hput, ?_⟩
        rintro _ ⟨⟩
        exact hm
      rw [hheld]
      by_cases htwo : n = 2
      · rw [if_pos htwo]
        obtain ⟨hyields, hfails⟩ := (hhead 2 (by decide)).onHeadPayloadNext hwaits
        refine ⟨hyields, fun _ hne => (hfails hne).trans ?_⟩
        rw [hroom]
        exact ⟨fun hno => ⟨htwo, hno⟩, And.right⟩
      · rw [if_neg htwo]
        exact ⟨.locks (hhead _ (by omega)) hwaits,
          fun _ _ => ⟨fun hfails => absurd hfails Next.not_fails_locks, fun hboth => absurd hboth.1 htwo⟩⟩

/-! ## One read -/

/-- The handle that has been read is put in the target. -/
def Takes (r : In) (read : NbRead) : Prop := read.errCode = none ∧ read.nRcvd ≠ 0 ∧ r.TakesHndl

instance : Decidable (r.Takes read) := inferInstanceAs (Decidable (_ ∧ _ ∧ _))

/-- The bytes read are in their place. -/
theorem Serves.store (h : r.Serves given held msgState) (herr : read.errCode = none) (ms : RcvMsgState) :
    ({ r with pendingErrCode := read.errCode }.store ms read.written).Serves given held msgState :=
  h.of_eq (by rw [store_pendingErrCode, herr]) (by rw [store_isSome]) (by rw [store_protocolNegotiator])
    (by rw [store_targetHndl]; rfl)

/-- A read has failed. -/
theorem Serves.yields_failed (h : r.Serves given held msgState) (hsome : read.errCode ≠ none)
    (hne : read.errCode ≠ wouldBlock) (ms : RcvMsgState) :
    Yields given held ({ r with pendingErrCode := read.errCode }.store ms read.written).emitErrNext ∧
      ({ r with pendingErrCode := read.errCode }.store ms read.written).emitErrNext.1.Fails := by
  obtain ⟨e, he⟩ := Option.ne_none_iff_exists'.mp hsome
  refine yields_emitErrNext (e := e) ?_ (he ▸ hne) ?_
  · rw [store_pendingErrCode, he]
  · rw [Put, Untouched, store_targetHndl]
    exact h.target

/-- The start of a message has been read, or not. -/
theorem Serves.onRead_start (h : r.Serves given held .msgStart) (hwaits : r.evWaits = [])
    (hne : read.errCode ≠ wouldBlock) (hle : read.nRcvd ≤ 2) :
    Yields given (if r.Takes read then read.hndl else held) (r.onRead .msgStart read) ∧
      (read.errCode ≠ none → (r.onRead .msgStart read).1.Fails) ∧
      (read.errCode = none → read.nRcvd = 0 → ¬ (r.onRead .msgStart read).1.Fails) ∧
      (r.Takes read → read.hndl ≠ none → ((r.onRead .msgStart read).1.Fails ↔
        read.nRcvd = 2 ∧ ¬ (r.store .msgStart read.written).HeadFits)) := by
  unfold onRead
  simp only [assert_of h.err]
  by_cases herr : read.errCode = none
  · have hsome : ¬ read.errCode.isSome := by simp [herr]
    rw [if_neg hsome]
    have hstore := h.store herr .msgStart
    have hwaits' : ({ r with pendingErrCode := read.errCode }.store .msgStart read.written).evWaits = [] := by
      rw [store_evWaits, hwaits]
    by_cases hn : read.nRcvd ≠ 0
    · rw [if_pos hn]
      have htakes : ({ r with pendingErrCode := read.errCode }.store .msgStart read.written).TakesHndl ↔
          r.Takes read := ⟨fun ht => ⟨herr, hn, ht⟩, fun ht => ht.2.2⟩
      obtain ⟨hyields, hfails⟩ := hstore.onHandleFinalizedNext read.hndl hwaits' hn hle
      simp only [htakes] at hyields hfails
      exact ⟨hyields, fun hno => absurd herr hno, fun _ hzero => absurd hzero hn, hfails⟩
    · rw [if_neg hn, if_neg (fun ht : r.Takes read => hn ht.2.1)]
      exact ⟨.locks hstore hwaits', fun hno => absurd herr hno, fun _ _ => id, fun ht => absurd ht.2.1 hn⟩
  · rw [if_pos (Option.isSome_iff_ne_none.mpr herr), if_neg (fun ht : r.Takes read => herr ht.1)]
    obtain ⟨hyields, hfails⟩ := h.yields_failed herr hne .msgStart
    exact ⟨hyields, fun _ => hfails, fun hno => absurd hno herr, fun ht => absurd ht.1 herr⟩

/-- So has the rest of the head. -/
theorem Serves.onRead_head (h : r.Serves given held (.headPayload n)) (hwaits : r.evWaits = [])
    (hne : read.errCode ≠ wouldBlock) (hle : read.nRcvd ≤ n) :
    Yields given held (r.onRead (.headPayload n) read) ∧
      (read.errCode ≠ none → (r.onRead (.headPayload n) read).1.Fails) ∧
      (read.errCode = none → held ≠ none → ((r.onRead (.headPayload n) read).1.Fails ↔
        read.nRcvd = n ∧ ¬ (r.store (.headPayload n) read.written).HeadFits)) := by
  unfold onRead onReadBlob
  simp only [assert_of h.err, assert_of h.request]
  by_cases herr : read.errCode = none
  · have hsome : ¬ read.errCode.isSome := by simp [herr]
    rw [if_neg hsome]
    have hstore := h.store herr (.headPayload n)
    have hwaits' : ({ r with pendingErrCode := read.errCode }.store (.headPayload n) read.written).evWaits = [] := by
      rw [store_evWaits, hwaits]
    by_cases hn : read.nRcvd = n
    · rw [if_pos hn]
      obtain ⟨hyields, hfails⟩ := hstore.onHeadPayloadNext hwaits'
      exact ⟨hyields, fun hno => absurd herr hno,
        fun _ hheld => (hfails hheld).trans ⟨fun hno => ⟨hn, hno⟩, And.right⟩⟩
    · rw [if_neg hn]
      refine ⟨.locks ⟨hstore.err, hstore.request, hstore.negotiating, hstore.target, hstore.put, ?_⟩ hwaits',
        fun hno => absurd herr hno,
        fun _ _ => ⟨fun hfails => absurd hfails Next.not_fails_locks, fun hboth => absurd hboth.1 hn⟩⟩
      rintro _ ⟨⟩
      omega
  · rw [if_pos (Option.isSome_iff_ne_none.mpr herr)]
    obtain ⟨hyields, hfails⟩ := h.yields_failed herr hne (.headPayload n)
    exact ⟨hyields, fun _ => hfails, fun hno => absurd hno herr⟩

/-- And so has the rest of the blob, which is the last. -/
theorem Serves.onRead_blob (h : r.Serves given held (.metaBlobPayload n)) (hwaits : r.evWaits = [])
    (hne : read.errCode ≠ wouldBlock) :
    Yields given held (r.onRead (.metaBlobPayload n) read) ∧
      ((r.onRead (.metaBlobPayload n) read).1.Fails ↔ read.errCode ≠ none) := by
  unfold onRead onReadBlob
  simp only [assert_of h.err, assert_of h.request]
  by_cases herr : read.errCode = none
  · have hsome : ¬ read.errCode.isSome := by simp [herr]
    rw [if_neg hsome]
    have hstore := h.store herr (.metaBlobPayload n)
    have hwaits' :
        ({ r with pendingErrCode := read.errCode }.store (.metaBlobPayload n) read.written).evWaits = [] := by
      rw [store_evWaits, hwaits]
    by_cases hn : read.nRcvd = n
    · rw [if_pos hn]
      refine ⟨.succeeds ?_ ?_ ?_, fun hfails => absurd rfl hfails.1, fun hno => absurd herr hno⟩
      · rw [notIdle_pendingErrCode, hstore.err]
      · rw [notIdle_evWaits, hwaits']
      · rw [Put, notIdle_targetHndl]
        exact hstore.put
    · rw [if_neg hn]
      refine ⟨.locks ⟨hstore.err, hstore.request, hstore.negotiating, hstore.target, hstore.put, ?_⟩ hwaits',
        fun hfails => absurd hfails Next.not_fails_locks, fun hno => absurd herr hno⟩
      rintro _ ⟨⟩
  · rw [if_pos (Option.isSome_iff_ne_none.mpr herr)]
    obtain ⟨hyields, hfails⟩ := h.yields_failed herr hne (.metaBlobPayload n)
    exact ⟨hyields, fun _ => herr, fun _ => hfails⟩

/-- Whatever has been tried to read: where that has failed, so does the request. -/
theorem Serves.onRead_fails (h : r.Serves given held msgState) (hwaits : r.evWaits = []) (herr : read.errCode ≠ none)
    (hne : read.errCode ≠ wouldBlock) (hzero : read.nRcvd = 0) : (r.onRead msgState read).1.Fails := by
  have hle (size : ℕ) : read.nRcvd ≤ size := hzero ▸ Nat.zero_le size
  cases msgState with
  | msgStart =>
      obtain ⟨-, hfails, -, -⟩ := h.onRead_start hwaits hne (hle 2)
      exact hfails herr
  | headPayload nLeft =>
      obtain ⟨-, hfails, -⟩ := h.onRead_head hwaits hne (hle nLeft)
      exact hfails herr
  | metaBlobPayload nLeft =>
      obtain ⟨-, hfails⟩ := h.onRead_blob hwaits hne
      exact hfails.mpr herr

/-! ## Low-level reads -/

/-- A low-level read leaves all alone but the socket. -/
theorem nbReadLowLvlPayload_with {read' : NbRead} (hlow : r.nbReadLowLvlPayload read = (read', r')) :
    ∃ p b, r' = { r with peerSocket := p, assertFailed := b } := by
  unfold nbReadLowLvlPayload at hlow
  split at hlow
  · simp only at hlow
    split at hlow
    · cases hlow
      exact ⟨_, _, rfl⟩
    · split at hlow
      · cases hlow
        exact ⟨_, _, rfl⟩
      · cases hlow
        exact ⟨_, _, rfl⟩
  · cases hlow
    exact ⟨_, _, rfl⟩

/-- It has read what there was to read from the socket, if that is there; and would-block is no error. -/
theorem nbReadLowLvlPayload_fst (r : In) (read : NbRead) : (r.nbReadLowLvlPayload read).1 =
    if r.peerSocket.alive then
      if read.errCode = some asioWouldBlock then { read with errCode := none } else read
    else ⟨[], 0, none, Code.lowLvlTransportHosedCannotReceive.toErrorCode⟩ := by
  unfold nbReadLowLvlPayload
  split
  · simp only
    split
    · rfl
    · split <;> rfl
  · rfl

/-- The request is served as before. -/
theorem Serves.nbReadLowLvlPayload {read' : NbRead} (h : r.Serves given held msgState)
    (hlow : r.nbReadLowLvlPayload read = (read', r')) :
    r'.Serves given held msgState ∧ r'.evWaits = r.evWaits ∧ (r'.TakesHndl ↔ r.TakesHndl) ∧
      ∀ ms bytes, (r'.store ms bytes).HeadFits ↔ (r.store ms bytes).HeadFits := by
  obtain ⟨p, b, rfl⟩ := nbReadLowLvlPayload_with hlow
  refine ⟨h.of_eq h.err rfl rfl rfl, rfl, Iff.rfl, fun ms bytes => ?_⟩
  cases ms <;> exact Iff.rfl

end In

end FlowIpc.SocketStream
