import FlowIpc.SocketStream.Receiving

/-!
# What becomes of descriptors that are received

Each step of a receiver keeps what is true of it (`Inv.step`), and nothing is lost by it iff it is `Ok`: at
most one descriptor comes, if any it is taken, and no request fails that holds one. There is a lemma for each
event.

* `accounts_iff`: in a run the descriptors are accounted for in the end iff all its steps are so. What is lost
  stays lost.
* `not_accounts_two_descriptors`: there is room in the control buffer for two, and the second is lost.

Source: `asio_local_stream_socket.cpp` `nb_read_some_with_native_handle`;
`sync_io/detail/native_socket_stream_impl_rcv.cpp`.
-/

namespace FlowIpc.SocketStream

open Negotiation AsioSocket Custody Lts

namespace Receiving

variable {s s' : Receiving} {fds : List ℕ}

/-! ## Steps -/

/-- What is being read. -/
theorem Inv.executes {msgState : RcvMsgState} (h : s.Inv)
    (hnext : s.next = some (.reads msgState) ∨ s.next = some (.locks msgState)) :
    s.rcv.inp.evWaits = [] ∧ s.rcv.inp.Serves s.given s.held msgState := by
  cases h.phase with
  | executing hnext' hwaits hserves =>
      rcases hnext with hnext | hnext <;> rcases hnext' with hnext' | hnext' <;> cases hnext.symm.trans hnext' <;>
        exact ⟨hwaits, hserves⟩
  | asleep hnone => rcases hnext with hnext | hnext <;> cases hnone.symm.trans hnext
  | free hnone => rcases hnext with hnext | hnext <;> cases hnone.symm.trans hnext

/-- Where a message starts, what is installed is held or lost, and what is held then is lost if the request
fails. -/
theorem Inv.lowLvlRead_start {read read' : NbRead} {r : In} (h : s.Inv) (hnext : s.next = some (.reads .msgStart))
    (hnodup : fds.Nodup) (hfresh : ∀ fd ∈ fds, fd ∉ s.installed)
    (hlow : s.rcv.inp.nbReadLowLvlPayload read = (read', r)) (hmem : ∀ fd, read'.hndl = some fd → fd ∈ fds)
    (hne : read'.errCode ≠ wouldBlock) (hle : read'.nRcvd ≤ 2) :
    (s.lowLvlRead .msgStart fds read).Inv ∧
      Book.LosesUnless s.book (s.lowLvlRead .msgStart fds read).book
        ((if r.Takes read' then s.held = none ∧ fds = read'.hndl.toList else fds = []) ∧
          ((r.onRead .msgStart read').1.Fails → (if r.Takes read' then read'.hndl else s.held) = none)) := by
  obtain ⟨hwaits, hserves⟩ := h.executes (.inl hnext)
  obtain ⟨hserves', hwaits', -, -⟩ := hserves.nbReadLowLvlPayload hlow
  obtain ⟨hyields, -⟩ := hserves'.onRead_start (hwaits'.trans hwaits) hne hle
  unfold Receiving.lowLvlRead
  rw [hlow]
  simp only [true_and]
  obtain ⟨htallied, hinstall⟩ := h.tallied.install hnodup hfresh hmem (r.Takes read')
    { s with
      held := if r.Takes read' then read'.hndl else s.held
      arrived := s.arrived ++ fds
      installed := s.installed ++ fds } rfl rfl rfl rfl
  obtain ⟨hinv, hgoOn⟩ := htallied.goOn hyields
  exact ⟨hinv, hinstall.trans hgoOn⟩

/-- Where no operation is being executed there is a wait for the socket, or no request. -/
theorem Inv.idle (h : s.Inv) (hnext : s.next = none) :
    (∃ msgState, s.rcv.inp.evWaits = [msgState] ∧ s.rcv.inp.Serves s.given s.held msgState) ∨
      (s.rcv.inp.userRequest = none ∧ s.held = none ∧ s.arrived = [] ∧
        (s.rcv.inp.pendingErrCode = none → s.rcv.inp.evWaits = [])) := by
  cases h.phase with
  | executing hnext' => rcases hnext' with hnext' | hnext' <;> cases hnext.symm.trans hnext'
  | asleep _ hwaits hserves => exact .inl ⟨_, hwaits, hserves⟩
  | free _ hrequest hheld harrived hwaits => exact .inr ⟨hrequest, hheld, harrived, hwaits⟩

/-- Elsewhere nothing is installed, and what is held is lost if the request fails. -/
theorem Inv.lowLvlRead_rest {msgState : RcvMsgState} {read read' : NbRead} {r : In} (h : s.Inv)
    (hnext : s.next = some (.reads msgState)) (hrest : msgState ≠ .msgStart)
    (hlow : s.rcv.inp.nbReadLowLvlPayload read = (read', r)) (hne : read'.errCode ≠ wouldBlock)
    (hle : read'.nRcvd ≤ msgState.size) :
    (s.lowLvlRead msgState [] read).Inv ∧ Book.LosesUnless s.book (s.lowLvlRead msgState [] read).book
      ((r.onRead msgState read').1.Fails → s.held = none) := by
  obtain ⟨hwaits, hserves⟩ := h.executes (.inl hnext)
  obtain ⟨hserves', hwaits', -, -⟩ := hserves.nbReadLowLvlPayload hlow
  have hyields : In.Yields s.given s.held (r.onRead msgState read') := by
    cases msgState with
    | msgStart => exact absurd rfl hrest
    | headPayload nLeft => exact (hserves'.onRead_head (hwaits'.trans hwaits) hne hle).1
    | metaBlobPayload nLeft => exact (hserves'.onRead_blob (hwaits'.trans hwaits) hne).1
  unfold Receiving.lowLvlRead
  rw [hlow]
  simp only [hrest, false_and, if_false, List.append_nil]
  exact h.tallied.goOn hyields

/-- Where a read fails, all that has been installed is lost, and what is held. -/
theorem Inv.lowLvlRead_fails {msgState : RcvMsgState} {read read' : NbRead} {r : In} (h : s.Inv)
    (hnext : s.next = some (.reads msgState)) (hnodup : fds.Nodup) (hfresh : ∀ fd ∈ fds, fd ∉ s.installed)
    (hrest : msgState ≠ .msgStart → fds = []) (hlow : s.rcv.inp.nbReadLowLvlPayload read = (read', r))
    (herr : read'.errCode ≠ none) (hne : read'.errCode ≠ wouldBlock) (hzero : read'.nRcvd = 0)
    (hnull : read'.hndl = none) :
    (s.lowLvlRead msgState fds read).Inv ∧
      Book.LosesUnless s.book (s.lowLvlRead msgState fds read).book (fds = [] ∧ s.held = none) := by
  obtain ⟨hwaits, hserves⟩ := h.executes (.inl hnext)
  obtain ⟨hserves', hwaits', -, -⟩ := hserves.nbReadLowLvlPayload hlow
  have hfails := hserves'.onRead_fails (hwaits'.trans hwaits) herr hne hzero
  have hle (size : ℕ) : read'.nRcvd ≤ size := hzero ▸ Nat.zero_le size
  by_cases hstart : msgState = .msgStart
  · subst hstart
    have hno : ¬ r.Takes read' := fun ht => herr ht.1
    have hmem (fd : ℕ) (hfd : read'.hndl = some fd) : fd ∈ fds := by cases hnull.symm.trans hfd
    obtain ⟨hinv, hloses⟩ := h.lowLvlRead_start hnext hnodup hfresh hlow hmem hne (hle 2)
    rw [if_neg hno, if_neg hno] at hloses
    exact ⟨hinv, hloses.congr (and_congr_right fun _ => ⟨fun hheld => hheld hfails, fun hheld _ => hheld⟩)⟩
  · obtain rfl : fds = [] := hrest hstart
    obtain ⟨hinv, hloses⟩ := h.lowLvlRead_rest hnext hstart hlow hne (hle _)
    exact ⟨hinv, hloses.congr ⟨fun hheld => ⟨rfl, hheld hfails⟩, fun hheld _ => hheld.2⟩⟩

/-- The start of a message is read, or some of it: a handle may have come, which is to have a place to go to. -/
theorem Inv.recvmsg_received {k : RecvmsgResult} (h : s.Inv) (hnext : s.next = some (.reads .msgStart))
    (halive : s.rcv.inp.peerSocket.alive = true) (hnodup : k.installed.Nodup)
    (hfresh : ∀ fd ∈ k.installed, fd ∉ s.installed) (hblock : ¬ k.WouldBlock) (hpos : (k.rcvd 2).length ≠ 0)
    (hread : nbReadSomeWithNativeHandle 2 k = ⟨k.rcvd 2, (k.rcvd 2).length, k.installed.head?, none⟩) :
    (s.lowLvlRead .msgStart k.installed (nbReadSomeWithNativeHandle 2 k)).Inv ∧
      Book.LosesUnless s.book (s.lowLvlRead .msgStart k.installed (nbReadSomeWithNativeHandle 2 k)).book
        (s.Ok (.recvmsg k)) := by
  obtain ⟨hwaits, hserves⟩ := h.executes (.inl hnext)
  have hproper : k.Proper ↔ k.installed = (nbReadSomeWithNativeHandle 2 k).hndl.toList := proper_iff
  rw [hread] at hproper ⊢
  rcases hlow : s.rcv.inp.nbReadLowLvlPayload ⟨k.rcvd 2, (k.rcvd 2).length, k.installed.head?, none⟩ with ⟨read', r⟩
  have hfst := s.rcv.inp.nbReadLowLvlPayload_fst ⟨k.rcvd 2, (k.rcvd 2).length, k.installed.head?, none⟩
  rw [hlow, if_pos halive, if_neg nofun] at hfst
  obtain rfl : read' = _ := hfst
  obtain ⟨hserves', hwaits', htakes, hfits⟩ := hserves.nbReadLowLvlPayload hlow
  have hle : (k.rcvd 2).length ≤ 2 := by
    cases k with
    | received byte bytes control msgFlags => exact List.length_take_le _ _
    | eof => exact Nat.zero_le _
    | failed errno => exact Nat.zero_le _
  have hhead : k.installed.head? ≠ none ↔ k.installed ≠ [] := List.head?_eq_none_iff.not
  have htakes' : r.Takes ⟨k.rcvd 2, (k.rcvd 2).length, k.installed.head?, none⟩ ↔ s.rcv.inp.TakesHndl :=
    ⟨fun ht => htakes.mp ht.2.2, fun ht => ⟨rfl, hpos, htakes.mpr ht⟩⟩
  have hne : (NbRead.mk (k.rcvd 2) (k.rcvd 2).length k.installed.head? none).errCode ≠ wouldBlock := nofun
  obtain ⟨-, -, -, hfails⟩ := hserves'.onRead_start (hwaits'.trans hwaits) hne hle
  obtain ⟨hinv, hloses⟩ :=
    h.lowLvlRead_start hnext hnodup hfresh hlow (fun fd hfd => List.mem_of_head? hfd) hne hle
  refine ⟨hinv, hloses.congr ?_⟩
  by_cases ht : r.Takes ⟨k.rcvd 2, (k.rcvd 2).length, k.installed.head?, none⟩
  · have hfails' := hfails ht
    rw [hfits] at hfails'
    rw [if_pos ht, if_pos ht, ← hproper]
    constructor
    · rintro ⟨⟨hheld, hk⟩, hlost⟩
      refine ⟨hk, .inr hheld, fun hne => ⟨htakes'.mp ht, fun htwo => by_contra fun hno => ?_⟩⟩
      exact hhead.mpr hne (hlost ((hfails' (hhead.mpr hne)).mpr ⟨htwo, hno⟩))
    · rintro ⟨hk, hheld, hroom⟩
      refine ⟨⟨hheld.resolve_left hblock, hk⟩, fun hlost => by_contra fun hne => ?_⟩
      obtain ⟨htwo, hno⟩ := (hfails' hne).mp hlost
      exact hno ((hroom (hhead.mp hne)).2 htwo)
  · have hheld : s.held = none := hserves.held_eq_none (mt htakes'.mpr ht)
    rw [if_neg ht, if_neg ht]
    constructor
    · rintro ⟨hnone, -⟩
      refine ⟨hproper.mpr ?_, .inr hheld, fun hne => absurd hnone hne⟩
      rw [hnone]
      rfl
    · rintro ⟨-, -, hroom⟩
      exact ⟨by_contra fun hne => ht (htakes'.mpr (hroom hne).1), fun _ => hheld⟩

/-- The start of a message is tried to read. -/
theorem Inv.recvmsg {k : RecvmsgResult} (h : s.Inv) (hnext : s.next = some (.reads .msgStart))
    (halive : s.rcv.inp.peerSocket.alive = true) (hnodup : k.installed.Nodup)
    (hfresh : ∀ fd ∈ k.installed, fd ∉ s.installed) :
    (s.lowLvlRead .msgStart k.installed (nbReadSomeWithNativeHandle 2 k)).Inv ∧
      Book.LosesUnless s.book (s.lowLvlRead .msgStart k.installed (nbReadSomeWithNativeHandle 2 k)).book
        (s.Ok (.recvmsg k)) := by
  obtain ⟨hwaits, hserves⟩ := h.executes (.inl hnext)
  have hproper : k.Proper ↔ k.installed = (nbReadSomeWithNativeHandle 2 k).hndl.toList := proper_iff
  rcases hlow : s.rcv.inp.nbReadLowLvlPayload (nbReadSomeWithNativeHandle 2 k) with ⟨read', r⟩
  have hfst := s.rcv.inp.nbReadLowLvlPayload_fst (nbReadSomeWithNativeHandle 2 k)
  rw [hlow, if_pos halive] at hfst
  rcases nbRead_cases 2 k with ⟨hblock, hnone, hread⟩ | ⟨e, hblock, hne, hne', -, hread⟩ | ⟨hblock, hsome, -, hread⟩
  · -- Nothing was there, and nothing is lost.
    rw [hread] at hproper hfst
    obtain rfl : NbRead.mk [] 0 none none = read' := (hfst.trans (if_pos rfl)).symm
    obtain ⟨hserves', hwaits', -, -⟩ := hserves.nbReadLowLvlPayload hlow
    have hno : ¬ r.Takes ⟨[], 0, none, none⟩ := fun ht => ht.2.1 rfl
    have hne : (NbRead.mk [] 0 none none).errCode ≠ wouldBlock := nofun
    obtain ⟨-, -, hblocks, -⟩ := hserves'.onRead_start (hwaits'.trans hwaits) hne (Nat.zero_le _)
    obtain ⟨hinv, hloses⟩ := h.lowLvlRead_start hnext hnodup hfresh hlow nofun hne (Nat.zero_le _)
    rw [if_neg hno, if_neg hno] at hloses
    refine ⟨hinv, hloses.congr ⟨fun _ => ?_, fun _ => ⟨hnone, fun hfails => ?_⟩⟩⟩
    · exact ⟨hproper.mpr hnone, .inl hblock, fun hsome => absurd hnone hsome⟩
    · exact absurd hfails (hblocks rfl rfl)
  · rw [hread] at hproper hfst
    obtain rfl : NbRead.mk (k.rcvd 2) 0 none (some e) = read' :=
      (hfst.trans (if_neg fun heq => hne (Option.some.inj heq))).symm
    have herr : (some e : ErrorCode) ≠ wouldBlock := fun heq => hne' (Option.some.inj heq)
    obtain ⟨hinv, hloses⟩ :=
      h.lowLvlRead_fails hnext hnodup hfresh (absurd rfl) hlow nofun herr rfl rfl
    refine ⟨hinv, hloses.congr ⟨fun ⟨hnone, hheld⟩ => ?_, fun ⟨hk, hheld, _⟩ => ?_⟩⟩
    · exact ⟨hproper.mpr hnone, .inr hheld, fun hsome => absurd hnone hsome⟩
    · exact ⟨hproper.mp hk, hheld.resolve_left hblock⟩
  · have hpos : (k.rcvd 2).length ≠ 0 := fun hzero => hsome (by decide) (List.eq_nil_of_length_eq_zero hzero)
    exact h.recvmsg_received hnext halive hnodup hfresh hblock hpos hread

/-- Where would-block is no error, it has failed, or some of what was there has been read. -/
theorem nbRead_of_plainRead (size : ℕ) (k : PlainRead) {read : NbRead}
    (hread : read = if (k.nbRead size).errCode = some asioWouldBlock then { k.nbRead size with errCode := none }
      else k.nbRead size) :
    (k.Fails ∧ read.errCode ≠ none ∧ read.errCode ≠ wouldBlock ∧ read.nRcvd = 0 ∧ read.hndl = none) ∨
      (¬ k.Fails ∧ read = ⟨k.bytes.take size, (k.bytes.take size).length, none, none⟩) := by
  rcases k with ⟨byte, bytes⟩ | _ | errno
  · exact .inr ⟨id, hread.trans (if_neg nofun)⟩
  · have heof : read = ⟨[], 0, none, some asioEof⟩ := hread.trans (if_neg (show some asioEof ≠ _ by decide))
    rw [heof]
    exact .inl ⟨trivial, nofun, nofun, rfl, rfl⟩
  · by_cases herrno : (errno : ℕ) = eagain
    · refine .inr ⟨fun hno => hno herrno, (hread.trans (if_pos ?_)).trans ?_⟩
      · exact congrArg (some ∘ Err.system) herrno
      · simp [PlainRead.nbRead, PlainRead.bytes]
    · have hfailed : read = ⟨[], 0, none, some (.system errno)⟩ :=
        hread.trans (if_neg fun heq => herrno (Err.system.inj (Option.some.inj heq)))
      rw [hfailed]
      exact .inl ⟨herrno, nofun, nofun, rfl, rfl⟩

/-- The rest of a part of a message is read. -/
theorem Inv.readSome {msgState : RcvMsgState} {k : PlainRead} (h : s.Inv)
    (hnext : s.next = some (.reads msgState)) (halive : s.rcv.inp.peerSocket.alive = true)
    (hrest : msgState ≠ .msgStart) :
    (s.lowLvlRead msgState [] (k.nbRead msgState.size)).Inv ∧
      Book.LosesUnless s.book (s.lowLvlRead msgState [] (k.nbRead msgState.size)).book (s.Ok (.readSome k)) := by
  obtain ⟨hwaits, hserves⟩ := h.executes (.inl hnext)
  rcases hlow : s.rcv.inp.nbReadLowLvlPayload (k.nbRead msgState.size) with ⟨read, r⟩
  have hfst := s.rcv.inp.nbReadLowLvlPayload_fst (k.nbRead msgState.size)
  rw [hlow, if_pos halive] at hfst
  obtain ⟨hserves', hwaits', -, hfits⟩ := hserves.nbReadLowLvlPayload hlow
  have hok : s.Ok (.readSome k) ↔ s.held = none ∨ (¬ k.Fails ∧ ∀ nLeft, msgState = .headPayload nLeft →
      nLeft ≤ k.bytes.length → (s.rcv.inp.store (.headPayload nLeft) (k.bytes.take nLeft)).HeadFits) := by
    rw [Receiving.Ok, hnext]
    simp only [Option.some.injEq, Next.reads.injEq]
  rw [hok]
  rcases nbRead_of_plainRead msgState.size k hfst with ⟨hk, herr, hne, hzero, hnull⟩ | ⟨hk, rfl⟩
  · obtain ⟨hinv, hloses⟩ := h.lowLvlRead_fails hnext List.nodup_nil nofun (fun _ => rfl) hlow herr hne hzero hnull
    exact ⟨hinv, hloses.congr ⟨fun hheld => .inl hheld.2, fun hheld => ⟨rfl, hheld.resolve_right fun hno => hno.1 hk⟩⟩⟩
  · have hle : (k.bytes.take msgState.size).length ≤ msgState.size := List.length_take_le _ _
    have hne : (NbRead.mk (k.bytes.take msgState.size) (k.bytes.take msgState.size).length none none).errCode ≠
        wouldBlock := nofun
    obtain ⟨hinv, hloses⟩ := h.lowLvlRead_rest hnext hrest hlow hne hle
    refine ⟨hinv, hloses.congr ?_⟩
    rw [and_iff_right hk]
    by_cases hheld : s.held = none
    · exact ⟨fun _ => .inl hheld, fun _ _ => hheld⟩
    rw [or_iff_right hheld]
    cases msgState with
    | msgStart => exact absurd rfl hrest
    | headPayload nLeft =>
        have hall : (k.bytes.take nLeft).length = nLeft ↔ nLeft ≤ k.bytes.length := by
          rw [List.length_take, min_eq_left_iff]
        obtain ⟨-, -, hfails⟩ := hserves'.onRead_head (hwaits'.trans hwaits) hne hle
        have hfails' := hfails rfl hheld
        rw [hfits] at hfails'
        rw [hfails']
        constructor
        · rintro hlost _ ⟨⟩ hlength
          exact by_contra fun hno => hheld (hlost ⟨hall.mpr hlength, hno⟩)
        · rintro hroom ⟨hlength, hno⟩
          exact absurd (hroom nLeft rfl (hall.mp hlength)) hno
    | metaBlobPayload nLeft =>
        obtain ⟨-, hfails⟩ := hserves'.onRead_blob (hwaits'.trans hwaits) hne
        exact ⟨fun _ => nofun, fun _ hlost => absurd rfl (hfails.mp hlost)⟩

/-- The socket is to be read from, and is not there any more. -/
theorem Inv.findsHosed {msgState : RcvMsgState} (h : s.Inv) (hnext : s.next = some (.reads msgState))
    (hdead : ¬ s.rcv.inp.peerSocket.alive = true) :
    (s.lowLvlRead msgState [] ⟨[], 0, none, none⟩).Inv ∧
      Book.LosesUnless s.book (s.lowLvlRead msgState [] ⟨[], 0, none, none⟩).book (s.held = none) := by
  rcases hlow : s.rcv.inp.nbReadLowLvlPayload ⟨[], 0, none, none⟩ with ⟨read, r⟩
  have hfst := s.rcv.inp.nbReadLowLvlPayload_fst ⟨[], 0, none, none⟩
  rw [hlow, if_neg hdead] at hfst
  obtain rfl : _ = read := hfst.symm
  obtain ⟨hinv, hloses⟩ :=
    h.lowLvlRead_fails hnext List.nodup_nil nofun (fun _ => rfl) hlow nofun (by simp) rfl rfl
  exact ⟨hinv, hloses.congr ⟨And.right, fun hheld => ⟨rfl, hheld⟩⟩⟩

/-- The socket is looked for, to wait for it. -/
theorem Inv.locks {msgState : RcvMsgState} (h : s.Inv) (hnext : s.next = some (.locks msgState)) :
    (s.goOn (s.rcv.inp.onLock msgState)).Inv ∧
      Book.LosesUnless s.book (s.goOn (s.rcv.inp.onLock msgState)).book
        (s.rcv.inp.peerSocket.alive ∨ s.held = none) := by
  obtain ⟨hwaits, hserves⟩ := h.executes (.inr hnext)
  obtain ⟨hyields, hfails⟩ := hserves.onLock hwaits
  obtain ⟨hinv, hloses⟩ := h.tallied.goOn hyields
  refine ⟨hinv, hloses.congr ?_⟩
  rw [hfails, Bool.eq_false_iff, or_iff_not_imp_left]

/-- What is told of descriptors has to do with some parts of a receiver only. -/
theorem Inv.of_rcv (h : s.Inv) (rcv : NativeSocketStreamRcv)
    (herr : rcv.inp.pendingErrCode = s.rcv.inp.pendingErrCode)
    (hreq : rcv.inp.userRequest = s.rcv.inp.userRequest)
    (hneg : rcv.inp.protocolNegotiator = s.rcv.inp.protocolNegotiator)
    (hwaits : rcv.inp.evWaits = s.rcv.inp.evWaits) : ({ s with rcv := rcv } : Receiving).Inv := by
  have hserves {msgState : RcvMsgState} (hs : s.rcv.inp.Serves s.given s.held msgState) :
      rcv.inp.Serves s.given s.held msgState :=
    hs.of_eq (herr.trans hs.err) (congrArg _ hreq) hneg (by rw [In.targetHndl, In.targetHndl, hreq])
  refine ⟨h.tallied.of_rcv _ _ _, ?_⟩
  cases h.phase with
  | executing hnext hw hs => exact .executing hnext (hwaits.trans hw) (hserves hs)
  | asleep hnext hw hs => exact .asleep hnext (hwaits.trans hw) (hserves hs)
  | free hnext hr hheld harrived hw =>
      exact .free hnext (hreq.trans hr) hheld harrived fun hno => hwaits.trans (hw (herr.symm.trans hno))

/-- A request is made: it is refused, or fails at once, or something is read for it. -/
theorem Inv.asyncReceive {hndl : Option NativeHandle} {blob : Blob} {f : ℕ} (h : s.Inv) (hnext : s.next = none) :
    (s.asyncReceiveNativeHandleImpl hndl blob f).Inv ∧
      Book.LosesUnless s.book (s.asyncReceiveNativeHandleImpl hndl blob f).book True := by
  unfold Receiving.asyncReceiveNativeHandleImpl
  by_cases hidle : s.rcv.started = false ∨ s.rcv.statePeer = false
  · rw [if_pos hidle]
    exact ⟨h, .refl _⟩
  rw [if_neg hidle]
  by_cases hbusy : s.rcv.inp.userRequest.isSome = true
  · rw [if_pos hbusy]
    exact ⟨h, .refl _⟩
  rw [if_neg hbusy]
  by_cases herr : s.rcv.inp.pendingErrCode.isSome = true
  · rw [if_pos herr]
    have herr' : s.rcv.inp.pendingErrCode ≠ none := Option.isSome_iff_ne_none.mp herr
    have hbook : Receiving.book { s with
        rcv := s.rcv.resetRequest
        dones := s.dones ++ [⟨hndl, [], ⟨s.rcv.inp.pendingErrCode, hndl, []⟩⟩] } = s.book := by
      refine congrArg (Book.mk s.installed []) (funext fun o => funext fun fd => propext ?_)
      cases o with
      | request => exact Iff.rfl
      | receive k => exact delivers_append.trans (or_iff_left fun hno => herr' hno.2.1)
    refine ⟨⟨⟨?_, h.tallied.nodup, ?_, ?_⟩, ?_⟩, ?_⟩
    · rw [hbook]
      exact h.tallied.accounted
    · rw [hbook]
      exact h.tallied.arrived
    · rw [hbook]
      intro d hd
      rcases List.mem_append.mp hd with hd | hd
      · exact h.tallied.dones d hd
      · cases List.mem_singleton.mp hd
        exact .inl ⟨fun _ => .inr rfl, fun hno => absurd hno herr'⟩
    · rcases h.idle hnext with ⟨_, -, hs⟩ | ⟨-, hheld, harrived, hw⟩
      · exact absurd hs.request hbusy
      · exact .free hnext rfl hheld harrived hw
    · rw [hbook]
      exact .refl _
  · rw [if_neg herr]
    have herr' : s.rcv.inp.pendingErrCode = none := Option.not_isSome_iff_eq_none.mp herr
    refine ⟨⟨h.tallied.of_rcv _ _ _, ?_⟩, .refl _⟩
    rcases h.idle hnext with ⟨_, -, hs⟩ | ⟨-, hheld, -, hw⟩
    · exact absurd hs.request hbusy
    · exact .executing (.inl rfl) (hw herr') ⟨herr', rfl, fun _ => hheld, .inr ⟨rfl, hheld⟩, trivial, nofun⟩

/-- The socket may be read from. -/
theorem Inv.socketReadable {msgState : RcvMsgState} (h : s.Inv) (hnext : s.next = none)
    (hmem : msgState ∈ s.rcv.inp.evWaits) :
    ((s.withInp { s.rcv.inp with evWaits := s.rcv.inp.evWaits.erase msgState })
      |>.onEvPeerSocketReadableOrError msgState).Inv ∧
      Book.LosesUnless s.book
        ((s.withInp { s.rcv.inp with evWaits := s.rcv.inp.evWaits.erase msgState })
          |>.onEvPeerSocketReadableOrError msgState).book True := by
  unfold Receiving.onEvPeerSocketReadableOrError
  rcases h.idle hnext with ⟨msgState', hw, hs⟩ | ⟨hr, hheld, harrived, hw⟩
  · rw [hw, List.mem_singleton] at hmem
    subst hmem
    have hidle : ¬ (s.withInp { s.rcv.inp with
        evWaits := s.rcv.inp.evWaits.erase msgState }).rcv.inp.pendingErrCode.isSome = true := by
      rw [Option.not_isSome_iff_eq_none]
      exact hs.err
    rw [if_neg hidle]
    refine ⟨⟨h.tallied.of_rcv _ _ _, ?_⟩, .refl _⟩
    refine .executing (.inl rfl) ?_ (hs.of_eq hs.err rfl rfl rfl)
    change s.rcv.inp.evWaits.erase msgState = []
    rw [hw, List.erase_cons_head]
  · have herr : s.rcv.inp.pendingErrCode ≠ none := fun hno => by
      rw [hw hno] at hmem
      cases hmem
    have hsome : (s.withInp { s.rcv.inp with
        evWaits := s.rcv.inp.evWaits.erase msgState }).rcv.inp.pendingErrCode.isSome = true :=
      Option.isSome_iff_ne_none.mpr herr
    rw [if_pos hsome]
    refine ⟨⟨h.tallied.of_rcv _ _ _, ?_⟩, .refl _⟩
    exact .free hnext hr hheld harrived fun hno => absurd hno herr

/-- What the idle timer comes to, in a receiver that knows of an error and in one that does not. -/
theorem onEvIdleTimerFired_cases (r : NativeSocketStreamRcv) :
    (r.inp.pendingErrCode ≠ none ∧ ∃ timer,
        r.onEvIdleTimerFired = ({ r with inp := { r.inp with idleTimer := timer } }, none)) ∨
      (r.inp.pendingErrCode = none ∧ ∃ rcv found, rcv.inp.pendingErrCode ≠ none ∧ rcv.inp.userRequest = none ∧
        found.err ≠ none ∧ found.hndl = r.inp.targetHndl ∧
        r.onEvIdleTimerFired = (rcv, r.inp.userRequest.map fun q => (q.onDoneFunc, found))) := by
  unfold NativeSocketStreamRcv.onEvIdleTimerFired
  by_cases herr : r.inp.pendingErrCode.isSome = true
  · exact .inl ⟨Option.isSome_iff_ne_none.mp herr, _, if_pos herr⟩
  · have hcode : Code.receiverIdleTimeout.toErrorCode ≠ none := nofun
    exact .inr ⟨Option.not_isSome_iff_eq_none.mp herr, _, _, hcode, rfl, hcode, rfl, if_neg herr⟩

/-- The idle timer has fired: a request being served fails, and what it holds is lost. -/
theorem Inv.timerReadable (h : s.Inv) (hnext : s.next = none) (timer : Timer) :
    (s.withInp { s.rcv.inp with idleTimer := timer } |>.onEvIdleTimerFired).Inv ∧
      Book.LosesUnless s.book (s.withInp { s.rcv.inp with idleTimer := timer } |>.onEvIdleTimerFired).book
        (s.held = none) := by
  unfold Receiving.onEvIdleTimerFired
  have hkept {u : Receiving} (hu : u.Inv) (hbook : u.book = s.book) (hheld : s.held = none) :
      u.Inv ∧ Book.LosesUnless s.book u.book (s.held = none) := by
    rw [hbook]
    exact ⟨hu, (Book.LosesUnless.refl _).congr ⟨fun _ => hheld, fun _ => trivial⟩⟩
  rcases onEvIdleTimerFired_cases (s.withInp { s.rcv.inp with idleTimer := timer }).rcv with
    ⟨herr, timer', heq⟩ | ⟨herr, rcv, found, hpending, hnone, hfailed, hhndl, heq⟩
  · rw [heq]
    rcases h.idle hnext with ⟨_, -, hs⟩ | ⟨-, hheld, -, -⟩
    · exact absurd hs.err herr
    · exact hkept (h.of_rcv _ rfl rfl rfl rfl) rfl hheld
  · rw [heq]
    rcases h.idle hnext with ⟨_, -, hs⟩ | ⟨hr, hheld, harrived, -⟩
    · obtain ⟨q, hq⟩ := Option.isSome_iff_exists.mp hs.request
      have hq' : (s.withInp { s.rcv.inp with idleTimer := timer }).rcv.inp.userRequest = some q := hq
      rw [hq', Option.map_some]
      have htarget (hheld : s.held = none) : found.hndl.join = none ∨ found.hndl = s.given := by
        rw [hhndl]
        exact In.targetHndl_of_not_held hs.target hheld
      obtain ⟨htallied, hloses⟩ := h.tallied.record found (fun hno => absurd hno hfailed) fun _ => htarget
      refine ⟨⟨htallied.of_rcv _ _ _, ?_⟩, hloses.congr ?_⟩
      · exact .free hnext hnone rfl rfl fun hno => absurd hno hpending
      · exact ⟨fun hheld => hheld hfailed, fun hheld _ => hheld⟩
    · have hr' : (s.withInp { s.rcv.inp with idleTimer := timer }).rcv.inp.userRequest = none := hr
      rw [hr', Option.map_none]
      refine hkept ⟨h.tallied.of_rcv _ _ _, ?_⟩ rfl hheld
      exact .free hnext hnone hheld harrived fun hno => absurd hno hpending

/-- Whether the idle timer runs is not told here. -/
theorem Inv.idleTimerRun (h : s.Inv) (timeout : ℕ) :
    ({ s with rcv := (s.rcv.idleTimerRun timeout).2 } : Receiving).Inv := by
  unfold NativeSocketStreamRcv.idleTimerRun
  simp only
  split
  · exact h.of_rcv _ rfl rfl rfl rfl
  · split
    · exact h.of_rcv _ rfl rfl rfl rfl
    · split
      · exact h.of_rcv _ rfl rfl rfl rfl
      · exact h.of_rcv _ rfl rfl rfl rfl

/-- Starting the operations keeps the descriptors where they are. -/
theorem Inv.startReceiveNativeHandleOps (h : s.Inv) :
    ({ s with rcv := s.rcv.startReceiveNativeHandleOps.2 } : Receiving).Inv := by
  unfold NativeSocketStreamRcv.startReceiveNativeHandleOps
  split
  · exact h
  · exact h.of_rcv _ rfl rfl rfl rfl

/-- **A step** keeps the invariant, and nothing is lost by it iff it is one by which the descriptors remain
accounted for. -/
theorem Inv.step {e : Event} (h : s.Inv) (hstep : Step s e s') :
    s'.Inv ∧ Book.LosesUnless s.book s'.book (s.Ok e) := by
  unfold Step Receiving.step at hstep
  split at hstep
  · cases hstep
    exact ⟨h.of_rcv _ rfl rfl rfl rfl, .refl _⟩
  · cases hstep
    exact ⟨h.startReceiveNativeHandleOps, .refl _⟩
  · cases hstep
    exact h.asyncReceive ‹_›
  · cases hstep
    exact ⟨h.idleTimerRun _, .refl _⟩
  · split at hstep
    · cases hstep
      exact h.socketReadable ‹_› ‹_›
    · cases hstep
  · obtain ⟨timer, -, rfl⟩ := Option.map_eq_some_iff.mp hstep
    exact h.timerReadable ‹_› timer
  · obtain ⟨timer, -, rfl⟩ := Option.map_eq_some_iff.mp hstep
    exact ⟨h.of_rcv _ rfl rfl rfl rfl, .refl _⟩
  · cases hstep
    exact ⟨h.of_rcv _ rfl rfl rfl rfl, .refl _⟩
  · split at hstep
    · rename_i hcan
      cases hstep
      exact h.recvmsg ‹_› hcan.1 hcan.2.1 hcan.2.2
    · cases hstep
  · split at hstep
    · rename_i hcan
      cases hstep
      exact h.readSome ‹_› hcan.1 hcan.2
    · cases hstep
  · split at hstep
    · cases hstep
    · cases hstep
      exact h.findsHosed ‹_› ‹_›
  · cases hstep
    exact h.locks ‹_›
  · cases hstep

/-! ## Runs -/

/-- There are none at first. -/
theorem inv_init (statePeer : Bool) : (init statePeer).Inv where
  tallied :=
    { accounted := fun fd => by
        refine ⟨.fresh, List.not_mem_nil, List.not_mem_nil, ?_⟩
        rintro (_ | k) hholds
        · cases hholds
        · obtain ⟨d, hd, -⟩ := hholds
          cases hd
      nodup := List.nodup_nil
      arrived := nofun
      dones := nofun }
  phase := .free rfl rfl rfl rfl fun _ => rfl

/-- The descriptors are accounted for iff none is lost. -/
theorem Inv.accounts_iff_none_lost (h : s.Inv) : s.Accounts ↔ ∀ fd, ¬ s.book.Has fd .lost := by
  rw [← h.tallied.accounted.kept_iff]
  refine ⟨Accounts.kept, fun hkept => ?_⟩
  have hfair (d : Done) (hd : d ∈ s.dones) : Fair d :=
    (h.tallied.dones d hd).resolve_right fun ⟨fd, hfd⟩ => h.tallied.accounted.kept_iff.mp hkept fd hfd
  refine ⟨hkept, fun hnone fd hfd => ?_, fun d hd => (hfair d hd).failed, fun d hd => (hfair d hd).succeeded⟩
  have hheld : s.held = none := by
    cases h.phase with
    | executing _ _ hs =>
        have := hs.request
        rw [hnone] at this
        cases this
    | asleep _ _ hs =>
        have := hs.request
        rw [hnone] at this
        cases this
    | free _ _ hheld _ _ => exact hheld
  rcases hkept.held_or_released fd hfd with ⟨⟨o, ho, huniq⟩, -⟩ | ⟨hclosed, -⟩
  · cases o with
    | request => cases hheld.symm.trans ho
    | receive k => exact .inl ⟨k, ho, fun k' hk' => Holder.receive.inj (huniq _ hk')⟩
  · exact .inr hclosed

/-- The receiver after an event is determined. -/
theorem step_det (s : Receiving) (e : Event) (t u : Receiving) (ht : Step s e t) (hu : Step s e u) : t = u :=
  Option.some.inj (ht.symm.trans hu)

/-- The books are in order in every run. -/
theorem inv_run {statePeer : Bool} {es : List Event} (hrun : Run Step (init statePeer) es s) : s.Inv :=
  hrun.invariant (fun _ _ _ hs hstep => (hs.step hstep).1) (inv_init statePeer)

/-- **The descriptors are accounted for** in a run iff they remain so at each of its steps. -/
theorem accounts_iff (statePeer : Bool) (es : List Event) (s : Receiving) (hrun : Run Step (init statePeer) es s) :
    s.Accounts ↔ Run (Restrict Step Ok) (init statePeer) es s := by
  rw [(inv_run hrun).accounts_iff_none_lost]
  induction hrun with
  | nil =>
      refine ⟨fun _ => Run.nil _, fun _ fd => ?_⟩
      rintro ⟨hcount, -⟩
      cases hcount
  | @snoc t u es e hrun hstep ih =>
      rw [((inv_run hrun).step hstep).2.none_lost_iff, ih, run_snoc_iff]
      constructor
      · rintro ⟨hgood, hok⟩
        exact ⟨t, hgood, hok, hstep⟩
      · rintro ⟨t', hgood, hok, -⟩
        cases hgood.of_restrict.det step_det hrun
        exact ⟨hgood, hok⟩

/-- The version is received; a handle comes with the first byte of a message, and is delivered with the blob; then
the connection is closed. -/
def sampleEvents : List Event :=
  [.startReceiveNativeHandleOps, .asyncReceive (some none) [0, 0] 0, .recvmsg (.received 1 [0] [] 0),
    .recvmsg (.failed ⟨11, by decide⟩), .locks, .socketReadable .msgStart, .recvmsg (.received 2 [] [.rights 7 []] 0),
    .locks, .socketReadable (.headPayload 1), .readSome (.got 0 []), .readSome (.got 5 [6]),
    .asyncReceive none [0] 1, .recvmsg .eof]

/-- A receive succeeds with a descriptor, another one fails at the end of the stream, and nothing is lost. -/
theorem accounts_iff_sampleEvents : ∃ s, Run Step (init true) sampleEvents s ∧ s.installed = [7] ∧
    s.dones = [⟨some none, [7], ⟨none, some (some 7), [5, 6]⟩⟩, ⟨none, [], ⟨some asioEof, none, []⟩⟩] ∧
    (s.Accounts ↔ Run (Restrict Step Ok) (init true) sampleEvents s) ∧ s.Accounts := by
  have hrun : ∃ s, Run Step (init true) sampleEvents s ∧ s.installed = [7] ∧
      s.dones = [⟨some none, [7], ⟨none, some (some 7), [5, 6]⟩⟩, ⟨none, [], ⟨some asioEof, none, []⟩⟩] :=
    ⟨_, Run.of_foldlM rfl, by decide, by decide⟩
  obtain ⟨s, hrun, hinstalled, hdones⟩ := hrun
  have hiff := accounts_iff true sampleEvents s hrun
  refine ⟨s, hrun, hinstalled, hdones, hiff, (inv_run hrun).accounts_iff_none_lost.mpr ?_⟩
  rintro fd ⟨hcount, -, hnone⟩
  have hmem : fd ∈ s.installed := Book.mem_of_count_eq_one hcount
  rw [hinstalled, List.mem_singleton] at hmem
  subst hmem
  refine hnone (.receive 0) ⟨⟨some none, [7], ⟨none, some (some 7), [5, 6]⟩⟩, ?_, rfl, rfl⟩
  rw [hdones]
  rfl

/-- Two descriptors come in one message, for which there is room in the control buffer. The receive succeeds, with
the first; nobody has the second. -/
theorem not_accounts_two_descriptors : (RecvmsgResult.received 1 [0] [.rights 7 [8]] 0).Fits ∧
    ∃ s, Run Step (init true)
        [.startReceiveNativeHandleOps, .asyncReceive (some none) [0] 0, .recvmsg (.received 1 [0] [] 0),
          .recvmsg (.received 1 [0] [.rights 7 [8]] 0), .readSome (.got 5 [])] s ∧
      s.dones = [⟨some none, [7, 8], ⟨none, some (some 7), [5]⟩⟩] ∧
      8 ∈ s.book.acquired ∧ (∀ o, ¬ s.book.holds o 8) ∧ 8 ∉ s.book.released ∧ ¬ s.Accounts := by
  have hrun : ∃ s, Run Step (init true)
      [.startReceiveNativeHandleOps, .asyncReceive (some none) [0] 0, .recvmsg (.received 1 [0] [] 0),
        .recvmsg (.received 1 [0] [.rights 7 [8]] 0), .readSome (.got 5 [])] s ∧
      s.dones = [⟨some none, [7, 8], ⟨none, some (some 7), [5]⟩⟩] ∧ s.installed = [7, 8] ∧ s.held = none :=
    ⟨_, Run.of_foldlM rfl, by decide, by decide, by decide⟩
  obtain ⟨s, hrun, hdones, hinstalled, hheld⟩ := hrun
  refine ⟨by decide, s, hrun, hdones, ?_, ?_, List.not_mem_nil, fun haccounts => ?_⟩
  · change 8 ∈ s.installed
    rw [hinstalled]
    decide
  · rintro (_ | k) hholds
    · cases hheld.symm.trans hholds
    · obtain ⟨d, hd, -, hfd⟩ := hholds
      rw [hdones] at hd
      rcases k with _ | k
      · cases hd
        cases hfd
      · cases hd
  · have hle := haccounts.succeeded _ (by rw [hdones]; exact List.mem_cons_self) rfl
    exact absurd hle (by decide)

end Receiving

end FlowIpc.SocketStream
