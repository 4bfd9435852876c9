import FlowIpc.SocketStream.EndSending
import FlowIpc.SocketStream.SndSteps

/-!
# The out-queue of a sender

While no error is known, what the sender has been told is in two places: the socket has a first part
of it, and the queue the rest. The cut between them is in the middle of some payload, the head of the
queue, or between two (`Cut`): in the first case that payload has lost the bytes that were written, and
with the first of them its handle. Whichever of the two ways the cut moves, by a write that is tried at
once or by the writable event's loop, it only moves ahead.

Source: `sync_io/detail/native_socket_stream_impl_snd.cpp` `snd_sync_write_or_q_payload`,
`snd_on_ev_peer_socket_writable_or_error`.
-/

namespace FlowIpc.SocketStream

open Lts PrefixCode

/-! ## Payloads -/

/-- The payloads of a frame. -/
def Frame.payloads (f : Frame) : List SndLowLvlPayload :=
  ⟨f.head.1, lengthBytes f.head.2⟩ :: if f.tail = [] then [] else [⟨none, f.tail⟩]

/-- The payloads of what has been told: that of the version, and those of some frames. -/
def payloads (fs : List Frame) : List SndLowLvlPayload :=
  ⟨none, lengthBytes 1⟩ :: fs.flatMap Frame.payloads

/-- The cells of two queues are those of the one and then those of the other. -/
@[simp] theorem queued_append (q q' : List SndLowLvlPayload) :
    queued (q ++ q') = queued q ++ queued q' :=
  List.flatMap_append

/-- The payloads of a frame are its cells. -/
theorem Frame.queued_payloads (f : Frame) : queued f.payloads = f.enc := by
  unfold payloads enc
  split
  · rename_i hnil
    rw [hnil]
    rfl
  · simp

/-- One more frame adds its payloads. -/
theorem payloads_snoc (fs : List Frame) (f : Frame) :
    payloads (fs ++ [f]) = payloads fs ++ f.payloads := by
  simp [payloads]

/-- The payloads of what has been told are, as cells, what has been told. -/
theorem queued_payloads (fs : List Frame) : queued (payloads fs) = wire (some fs) := by
  induction fs using List.reverseRecOn with
  | nil => rfl
  | append_singleton fs f ih =>
      rw [payloads_snoc, queued_append, ih, f.queued_payloads, wire_snoc]

/-- No payload is empty. -/
def Filled (ps : List SndLowLvlPayload) : Prop :=
  ∀ p ∈ ps, p.blob ≠ []

/-- No payload of a frame is empty. -/
theorem Frame.filled_payloads (f : Frame) : Filled f.payloads := by
  intro p hp
  unfold payloads at hp
  split at hp
  · rw [List.mem_singleton.mp hp]
    exact lengthBytes_ne_nil _
  · rename_i htail
    rcases List.mem_cons.mp hp with rfl | hp
    · exact lengthBytes_ne_nil _
    · rw [List.mem_singleton.mp hp]
      exact htail

/-- No payload of several frames is. -/
theorem filled_payloads (fs : List Frame) : Filled (payloads fs) := by
  intro p hp
  rcases List.mem_cons.mp hp with rfl | hp
  · exact lengthBytes_ne_nil 1
  · obtain ⟨f, -, hp⟩ := List.mem_flatMap.mp hp
    exact f.filled_payloads p hp

/-! ## The cut -/

/-- Of the payloads `ps` the socket has the cells `sent`, and `q` is queued. -/
inductive Cut (ps : List SndLowLvlPayload) : List Cell → List SndLowLvlPayload → Prop where
  /-- Everything was written. -/
  | flushed : Cut ps (queued ps) []
  /-- Of the payload `p` the first `k` bytes were, and of the others those before it. The handle of `p`
  is kept exactly if `k` is 0. -/
  | within (done : List SndLowLvlPayload) (p : SndLowLvlPayload) (rest : List SndLowLvlPayload) (k : Nat)
      (eq : ps = done ++ p :: rest) (lt : k < p.blob.length) :
      Cut ps (queued done ++ (cells p.hndlOrNull p.blob).take k)
        (⟨if k = 0 then p.hndlOrNull else none, p.blob.drop k⟩ :: rest)

variable {ps ps' q : List SndLowLvlPayload} {sent : List Cell}

/-- Between two payloads. -/
theorem Cut.between (hps : Filled ps) {done rest : List SndLowLvlPayload} (heq : ps = done ++ rest) :
    Cut ps (queued done) rest := by
  cases rest with
  | nil =>
      rw [heq, List.append_nil]
      exact .flushed
  | cons p rest =>
      have hpos : 0 < p.blob.length := by
        apply List.length_pos_iff.mpr
        exact hps p (by simp [heq])
      simpa using Cut.within done p rest 0 heq hpos

/-- What was written and what is queued are everything. -/
theorem Cut.append_queued (h : Cut ps sent q) : sent ++ queued q = queued ps := by
  cases h with
  | flushed => simp
  | within done p rest k heq hlt =>
      rw [heq, queued_append, queued_cons, queued_cons, Out.queued_rest, List.append_assoc,
        ← List.append_assoc (List.take _ _), List.take_append_drop]

/-- No payload queued is empty. -/
theorem Cut.filled (hps : Filled ps) (h : Cut ps sent q) : Filled q := by
  cases h with
  | flushed => simp [Filled]
  | within done p rest k heq hlt =>
      intro p' hp'
      rcases List.mem_cons.mp hp' with rfl | hp'
      · intro hnil
        have hlen := congrArg List.length hnil
        simp only [List.length_drop, List.length_nil] at hlen
        omega
      · exact hps p' (by simp [heq, hp'])

/-- More payloads are queued behind others. -/
theorem Cut.append (h : Cut ps sent q) (hq : q ≠ []) (ps' : List SndLowLvlPayload) :
    Cut (ps ++ ps') sent (q ++ ps') := by
  cases h with
  | flushed => exact absurd rfl hq
  | within done p rest k heq hlt =>
      apply Cut.within done p (rest ++ ps') k _ hlt
      rw [heq, List.append_assoc, List.cons_append]

/-- Where nothing is queued, some first bytes of one more payload are written. -/
theorem Cut.write (h : Cut ps sent []) (p : SndLowLvlPayload) {n : Nat} (hn : n < p.blob.length) :
    Cut (ps ++ [p]) (sent ++ (cells p.hndlOrNull p.blob).take n)
      [⟨if n = 0 then p.hndlOrNull else none, p.blob.drop n⟩] := by
  cases h with
  | flushed => exact Cut.within ps p [] n rfl hn

/-- Where nothing is queued, one more payload is written. -/
theorem Cut.writeAll (h : Cut ps sent []) (p : SndLowLvlPayload) :
    Cut (ps ++ [p]) (sent ++ cells p.hndlOrNull p.blob) [] := by
  cases h with
  | flushed =>
      have heq : queued (ps ++ [p]) = queued ps ++ cells p.hndlOrNull p.blob := by simp
      rw [← heq]
      exact Cut.flushed

/-- The head of the queue is written. -/
theorem Cut.pop {p : SndLowLvlPayload} (hps : Filled ps) (h : Cut ps sent (p :: q)) :
    Cut ps (sent ++ cells p.hndlOrNull p.blob) q := by
  generalize hl : p :: q = l at h
  cases h with
  | flushed => cases hl
  | within done p₀ rest k heq hlt =>
      cases hl
      rw [Out.queued_rest, List.append_assoc, List.take_append_drop,
        show queued done ++ cells p₀.hndlOrNull p₀.blob = queued (done ++ [p₀]) by simp]
      apply Cut.between hps
      rw [heq, List.append_assoc, List.singleton_append]

/-- Some first bytes of the head of the queue are written: with the first its handle goes. -/
theorem Cut.shorten {p : SndLowLvlPayload} {n : Nat} (h : Cut ps sent (p :: q)) (hn₀ : n ≠ 0)
    (hn : n < p.blob.length) :
    Cut ps (sent ++ (cells p.hndlOrNull p.blob).take n) (⟨none, p.blob.drop n⟩ :: q) := by
  generalize hl : p :: q = l at h
  cases h with
  | flushed => cases hl
  | within done p₀ rest k heq hlt =>
      cases hl
      simp only [List.length_drop] at hn
      have hcut := Cut.within done p₀ q (k + n) heq (by omega)
      rw [if_neg (by omega), List.take_add, ← List.append_assoc, ← Out.queued_rest,
        ← List.drop_drop] at hcut
      exact hcut

/-- The handles that travel with cells. -/
def handles (l : List Cell) : List Nat :=
  l.filterMap Cell.hndl

/-- The handles of two stretches are those of the one and then those of the other. -/
@[simp] theorem handles_append (l l' : List Cell) : handles (l ++ l') = handles l ++ handles l' :=
  List.filterMap_append

/-- The handles kept with payloads. -/
def kept (q : List SndLowLvlPayload) : List Nat :=
  q.filterMap SndLowLvlPayload.hndlOrNull

/-- A handle travels with the first byte, and with no other. -/
theorem handles_cells (hndl : NativeHandle) {blob : Blob} (hblob : blob ≠ []) :
    handles (cells hndl blob) = hndl.toList := by
  have hnone : ∀ bs : Blob, handles (bs.map fun b => ⟨b, none⟩) = [] := by
    intro bs
    rw [handles, List.filterMap_map]
    exact List.filterMap_eq_nil_iff.mpr fun _ _ => rfl
  cases blob with
  | nil => exact absurd rfl hblob
  | cons b bs =>
      rw [cells, ← List.singleton_append, handles_append, hnone, List.append_nil]
      cases hndl with
      | none => rfl
      | some h => rfl

/-- The handles that are to travel are those kept with payloads. -/
theorem Filled.handles_queued (h : Filled q) : handles (queued q) = kept q := by
  induction q with
  | nil => rfl
  | cons p q ih =>
      have hp := h p (List.mem_cons_self)
      rw [queued_cons, handles_append, handles_cells _ hp,
        ih fun p' hp' => h p' (List.mem_cons_of_mem p hp')]
      unfold kept
      cases hh : p.hndlOrNull with
      | none => simp [hh]
      | some a => simp [hh]

/-- Each handle has gone to the socket, once, or is kept with its payload. -/
theorem Cut.handles_append_kept (hps : Filled ps) (h : Cut ps sent q) :
    handles sent ++ kept q = kept ps := by
  rw [← (h.filled hps).handles_queued, ← hps.handles_queued, ← h.append_queued, handles_append]

/-! ## Writing -/

namespace Out

variable {o o' : Out} {hndl : NativeHandle} {blob : Blob} {n : Nat} {avoid flushed : Bool}

/-- What queuing does to the queue: what is left of the payload is put behind it, unless that is the
whole of it and need not be. -/
theorem queuePayload_queue (h : o.queuePayload hndl blob n avoid = (flushed, o')) :
    o'.peerSocket.sent = o.peerSocket.sent ∧
      ((avoid = true ∧ n = 0 ∧ o'.pendingPayloadsQ = o.pendingPayloadsQ) ∨
        o'.pendingPayloadsQ =
          o.pendingPayloadsQ ++ [⟨if n = 0 then hndl else none, blob.drop n⟩]) := by
  have hassert : ∀ b : Bool, (if b = true then o.assert (hndl = none) else o).peerSocket =
      o.peerSocket ∧ (if b = true then o.assert (hndl = none) else o).pendingPayloadsQ =
        o.pendingPayloadsQ := by
    intro b
    cases b <;> exact ⟨rfl, rfl⟩
  obtain ⟨hsocket, hq⟩ := hassert avoid
  unfold queuePayload at h
  generalize (⟨if n = 0 then hndl else none, blob.drop n⟩ : SndLowLvlPayload) = new at h ⊢
  simp only at h
  generalize (if avoid = true then o.assert (hndl = none) else o) = v at hsocket hq h
  split at h
  · rename_i hdrop
    cases h
    exact ⟨congrArg PeerSocket.sent hsocket, .inl ⟨hdrop.1, hdrop.2, hq⟩⟩
  · split at h
    · cases h
      unfold asyncWriteQHeadPayload assert
      simp only
      rw [← hsocket, ← hq]
      split
      · exact ⟨PeerSocket.lock_sent, .inr rfl⟩
      · exact ⟨PeerSocket.lock_sent, .inr rfl⟩
    · cases h
      rw [← hsocket, ← hq]
      exact ⟨rfl, .inr rfl⟩

/-- Where the cut is, of the payloads `ps`. -/
def Cuts (o : Out) (ps : List SndLowLvlPayload) : Prop :=
  Cut ps o.peerSocket.sent o.pendingPayloadsQ

/-- One more payload moves the cut ahead, or nothing, if it may be dropped and no byte of it was
written. -/
theorem cut_syncWriteOrQPayload (hcut : o.Cuts ps)
    (herr : (o.syncWriteOrQPayload hndl blob avoid).2.pendingErrCode = none) :
    (o.syncWriteOrQPayload hndl blob avoid).2.Cuts (ps ++ [⟨hndl, blob⟩]) ∨
      (avoid = true ∧ (o.syncWriteOrQPayload hndl blob avoid).2.Cuts ps) := by
  rcases h : o.syncWriteOrQPayload hndl blob avoid with ⟨flushed, o'⟩
  rw [h] at herr
  unfold Cuts at hcut ⊢
  simp only at herr ⊢
  unfold syncWriteOrQPayload at h
  simp only at h
  split at h
  · rename_i hq
    have hq : o.pendingPayloadsQ = [] := hq
    rw [hq] at hcut
    rcases hwrite : o.peerSocket.sndNbWriteLowLvlPayload hndl blob with ⟨n, err, p⟩
    obtain ⟨-, hle, hsent, -⟩ := PeerSocket.sndNbWrite_cases hwrite
    simp only [assert, hwrite] at h
    split at h
    · rename_i hsome
      cases h
      simp only at herr
      rw [herr] at hsome
      cases hsome
    · split at h
      · rename_i hfull
        cases h
        left
        simp only [hq, hsent]
        rw [hfull, List.take_of_length_le (by simp)]
        exact hcut.writeAll ⟨hndl, blob⟩
      · rename_i hpart
        obtain ⟨hsent', ⟨havoid, rfl, hq'⟩ | hq'⟩ := queuePayload_queue h
        · right
          simp only [hsent, List.take_zero, List.append_nil] at hsent'
          rw [hsent', hq', hq]
          exact ⟨havoid, hcut⟩
        · left
          rw [hsent', hq', hsent, hq]
          exact hcut.write ⟨hndl, blob⟩ (by simp only; omega)
  · rename_i hq
    have hq : o.pendingPayloadsQ ≠ [] := hq
    obtain ⟨hsent', ⟨havoid, -, hq'⟩ | hq'⟩ := queuePayload_queue h
    · right
      rw [hsent', hq']
      exact ⟨havoid, hcut⟩
    · left
      rw [hsent', hq']
      exact hcut.append hq [⟨hndl, blob⟩]

/-- An error once found out stays. -/
theorem sendLowLvlPayloads_eq (o : Out) (hndl : NativeHandle) (blob : Blob) :
    o.sendLowLvlPayloads hndl blob =
      if blob ≠ [] ∧ (o.syncWriteOrQPayload hndl (lengthBytes blob.length) false).2.pendingErrCode = none
      then ((o.syncWriteOrQPayload hndl (lengthBytes blob.length) false).2.syncWriteOrQPayload none
        blob false).2
      else (o.syncWriteOrQPayload hndl (lengthBytes blob.length) false).2 := by
  unfold sendLowLvlPayloads
  simp [List.length_eq_zero_iff]

variable {fs : List Frame} {f : Frame}

/-- One more frame moves the cut ahead, or nothing, if it is a ping. -/
theorem cut_writeFrame (hcut : o.Cuts (payloads fs)) (herr : (o.writeFrame f).pendingErrCode = none) :
    (o.writeFrame f).Cuts (payloads (fs ++ [f])) ∨
      (f = .ping ∧ (o.writeFrame f).Cuts (payloads fs)) := by
  rw [payloads_snoc]
  cases f with
  | ping =>
      rcases cut_syncWriteOrQPayload hcut herr with hcut' | ⟨-, hcut'⟩
      · exact .inl hcut'
      · exact .inr ⟨rfl, hcut'⟩
  | endSending =>
      rcases cut_syncWriteOrQPayload hcut herr with hcut' | ⟨havoid, -⟩
      · exact .inl hcut'
      · cases havoid
  | msg m =>
      left
      unfold writeFrame at herr ⊢
      simp only at herr ⊢
      rw [sendLowLvlPayloads_eq] at herr ⊢
      have hhead : ∀ {fl}, (o.syncWriteOrQPayload m.hndl (lengthBytes m.blob.length) false).2 = fl →
          fl.pendingErrCode = none →
            fl.Cuts (payloads fs ++ [⟨m.hndl, lengthBytes m.blob.length⟩]) := by
        rintro fl rfl herr
        rcases cut_syncWriteOrQPayload hcut herr with hcut' | ⟨havoid, -⟩
        · exact hcut'
        · cases havoid
      generalize (o.syncWriteOrQPayload m.hndl (lengthBytes m.blob.length) false).2 = o₁ at herr hhead ⊢
      split at herr
      · rename_i hblob
        rw [if_pos hblob]
        rcases cut_syncWriteOrQPayload (hhead rfl hblob.2) herr with hcut' | ⟨havoid, -⟩
        · have heq : (Frame.msg m).payloads =
              [⟨m.hndl, lengthBytes m.blob.length⟩] ++ [⟨none, m.blob⟩] := by
            simp [Frame.payloads, Frame.head, Frame.tail, hblob.1]
          rw [heq, ← List.append_assoc]
          exact hcut'
        · cases havoid
      · rename_i hblob
        rw [if_neg hblob]
        have hnil : m.blob = [] := by
          by_contra hne
          exact hblob ⟨hne, herr⟩
        have heq : (Frame.msg m).payloads = [⟨m.hndl, lengthBytes m.blob.length⟩] := by
          simp [Frame.payloads, Frame.head, Frame.tail, hnil]
        rw [heq]
        exact hhead rfl herr

/-- The writable event's loop moves the cut ahead. -/
theorem cut_drain {p p' : PeerSocket} {q q' : List SndLowLvlPayload} {err : ErrorCode}
    (hps : Filled ps) (hcut : Cut ps p.sent q) (h : drain p q = (p', q', err)) :
    Cut ps p'.sent q' := by
  induction q generalizing p with
  | nil =>
      cases h
      exact hcut
  | cons payload q ih =>
      rw [drain] at h
      rcases hwrite : p.sndNbWriteLowLvlPayload payload.hndlOrNull payload.blob with ⟨n, err₁, p₁⟩
      rw [hwrite] at h
      obtain ⟨-, hle, hsent, -, hzero⟩ := PeerSocket.sndNbWrite_cases hwrite
      cases err₁ with
      | some e =>
          obtain ⟨rfl, -⟩ := hzero rfl
          cases h
          rw [hsent, List.take_zero, List.append_nil]
          exact hcut
      | none =>
          simp only at h
          split at h
          · rename_i hfull
            apply ih _ h
            rw [hsent, hfull, List.take_of_length_le (by simp)]
            exact hcut.pop hps
          · split at h
            · rename_i hne hpart
              cases h
              rw [hsent]
              exact hcut.shorten hpart (by omega)
            · rename_i hnot
              have hn : n = 0 := by simpa using hnot
              cases h
              rw [hsent, hn, List.take_zero, List.append_nil]
              exact hcut

/-- What is done when the socket is writable leaves the queue cut out of the payloads. -/
theorem cut_onWritable (hps : Filled ps) (hcut : o.Cuts ps) : o.onWritable.Cuts ps := by
  unfold onWritable
  rcases hd : drain o.peerSocket o.pendingPayloadsQ with ⟨p, q, err⟩
  have hcut' := cut_drain hps hcut hd
  simp only
  split
  · unfold asyncWriteQHeadPayload assert Cuts
    simp only
    split
    · simpa using hcut'
    · simpa using hcut'
  · exact hcut'

end Out

/-! ## Runs -/

namespace NativeSocketStreamSnd

/-- A step's input, and the frame that it told, if any. -/
abbrev Telling := Input × Option Frame

/-- The frames told. -/
def framesOf (ts : List Telling) : List Frame :=
  ts.filterMap Prod.snd

/-- The steps on the inputs `is` told each what it was asked to, or nothing. -/
structure Answers (is : List (Input × List SockAnswer)) (ts : List Telling) : Prop where
  inputs : ts.map Prod.fst = is.map Prod.fst
  tells : ∀ i f, (i, some f) ∈ ts → i.Tells f

/-- What is kept by every step: before sending is started nothing was written; from then on, while no
error is known, the frames told answer the calls accepted, and the cut is somewhere in them. -/
structure Queues (is : List (Input × List SockAnswer)) (s : NativeSocketStreamSnd) (obs : List Obs) :
    Prop where
  inv : ∃ told, s.Inv told
  fresh : s.started = false → s.out.peerSocket.sent = [] ∧ calls obs = []
  cut : s.started = true → s.out.pendingErrCode = none → ∃ ts, Answers is ts ∧
    (framesOf ts).filterMap call? = calls obs ∧ s.out.Cuts (payloads (framesOf ts))

variable {s s' u : NativeSocketStreamSnd} {obs obs' : List Obs} {is : List (Input × List SockAnswer)}
  {i : Input} {ks : List SockAnswer} {ts : List Telling}

/-- Steps that tell nothing are accounted for. -/
theorem answers_none (is : List (Input × List SockAnswer)) :
    Answers is (is.map fun i => (i.1, none)) where
  inputs := by simp [Function.comp_def]
  tells i f hmem := by simp at hmem

/-- Steps that tell nothing have no frames. -/
@[simp] theorem framesOf_none (is : List (Input × List SockAnswer)) :
    framesOf (is.map fun i => (i.1, none)) = [] := by
  simp [framesOf]

/-- One more step is, with what it tells. -/
theorem Answers.snoc (h : Answers is ts) {f? : Option Frame} (hf : ∀ f, f? = some f → i.Tells f) :
    Answers (is ++ [(i, ks)]) (ts ++ [(i, f?)]) where
  inputs := by simp [h.inputs]
  tells j f hmem := by
    rcases List.mem_append.mp hmem with hmem | hmem
    · exact h.tells j f hmem
    · obtain ⟨rfl, rfl⟩ := Prod.mk.inj (List.mem_singleton.mp hmem)
      exact hf f rfl

/-- A step that tells nothing. -/
theorem Answers.silent {k : List SockAnswer} (h : Answers is ts) :
    ∃ ts', Answers (is ++ [(i, k)]) ts' ∧ framesOf ts' = framesOf ts := by
  refine ⟨ts ++ [(i, none)], h.snoc ?_, by simp [framesOf]⟩
  intro f hf
  cases hf

/-- A step that tells a frame. -/
theorem Answers.frame {k : List SockAnswer} (h : Answers is ts) {f : Frame} (hf : i.Tells f) :
    ∃ ts', Answers (is ++ [(i, k)]) ts' ∧ framesOf ts' = framesOf ts ++ [f] := by
  refine ⟨ts ++ [(i, some f)], h.snoc ?_, by simp [framesOf]⟩
  intro g hg
  cases hg
  exact hf

/-- Nothing is queued at first. -/
theorem queues_ctor {statePeer : Bool} {p : PeerSocket} (hsent : p.sent = []) :
    Queues [] (ctor statePeer p) [] where
  inv := ⟨none, inv_ctor hsent⟩
  fresh _ := ⟨hsent, rfl⟩
  cut hstart := by cases hstart

/-- Before sending is started the cut is in front of everything. -/
theorem Queues.cuts_nil (h : Queues is s obs) (hstart : s.started = false) : s.out.Cuts [] := by
  obtain ⟨told, hinv⟩ := h.inv
  have hq := (hinv.fresh hstart).2.2.2.1
  rw [Out.Cuts, (h.fresh hstart).1, hq]
  exact Cut.flushed

/-- What a step writes goes behind what is queued. -/
theorem Queues.wrote (h : Queues is u obs) (hinv : ∃ told, s'.Inv told) (hw : Wrote u i obs' s') :
    Queues (is ++ [(i, ks)]) s' (obs ++ obs') := by
  refine ⟨hinv, ?_, ?_⟩
  · intro hstart
    cases hw with
    | nothing hout hst hcalls =>
        rw [hst] at hstart
        obtain ⟨told, hu⟩ := h.inv
        obtain ⟨hsent, hnil⟩ := h.fresh hstart
        rw [hout, calls_append, hnil, hcalls (hu.fresh hstart).2.2.1]
        exact ⟨hsent, rfl⟩
    | version _ hst _ _ =>
        rw [hst] at hstart
        cases hstart
    | frame f _ _ hst _ _ =>
        rw [hst] at hstart
        cases hstart
    | queue hwait hst _ _ =>
        rw [hst] at hstart
        obtain ⟨told, hu⟩ := h.inv
        exact absurd (hu.fresh hstart).2.2.2.1 (hu.of_evWaits hwait).2.1
  · intro hstart herr
    cases hw with
    | nothing hout hst hcalls =>
        rw [hst] at hstart
        rw [hout] at herr
        obtain ⟨ts, hts, hfs, hcut⟩ := h.cut hstart herr
        obtain ⟨ts', hts', heq⟩ := hts.silent (i := i) (k := ks)
        refine ⟨ts', hts', ?_, ?_⟩
        · rw [heq, hfs, calls_append, hcalls herr, List.append_nil]
        · rw [heq, hout]
          exact hcut
    | version hbefore _ hout hcalls =>
        rw [hout] at herr
        refine ⟨_, answers_none _, ?_, ?_⟩
        · rw [framesOf_none, calls_append, (h.fresh hbefore).2, hcalls]
          rfl
        · rw [framesOf_none, hout]
          rcases Out.cut_syncWriteOrQPayload (h.cuts_nil hbefore) herr with hcut | ⟨havoid, -⟩
          · exact hcut
          · cases havoid
    | frame f htells hsending _ hout hcalls =>
        obtain ⟨ts, hts, hfs, hcut⟩ := h.cut hsending.started hsending.noError
        rw [calls_append, hcalls herr]
        rw [hout] at herr ⊢
        rcases Out.cut_writeFrame hcut herr with hcut | ⟨rfl, hcut⟩
        · obtain ⟨ts', hts', heq⟩ := hts.frame (k := ks) htells
          refine ⟨ts', hts', ?_, heq ▸ hcut⟩
          rw [heq, List.filterMap_append, hfs]
          cases hf : call? f with
          | none => simp [hf]
          | some c => simp [hf]
        · obtain ⟨ts', hts', heq⟩ := hts.silent (i := i) (k := ks)
          refine ⟨ts', hts', ?_, heq ▸ hcut⟩
          rw [heq, hfs]
          exact (List.append_nil _).symm
    | queue hwait hst hout hcalls =>
        rw [hst] at hstart
        obtain ⟨told, hu⟩ := h.inv
        obtain ⟨ts, hts, hfs, hcut⟩ := h.cut hstart (hu.of_evWaits hwait).1
        obtain ⟨ts', hts', heq⟩ := hts.silent (i := i) (k := ks)
        refine ⟨ts', hts', ?_, ?_⟩
        · rw [heq, hfs, calls_append, hcalls, List.append_nil]
        · rw [heq, hout]
          exact Out.cut_onWritable (filled_payloads _) hcut

/-- What is queued does not depend on what the socket will answer. -/
theorem Queues.withAnswers (h : Queues is s obs) (ks : List SockAnswer) :
    Queues is (s.withAnswers ks) obs where
  inv := by
    obtain ⟨told, hinv⟩ := h.inv
    exact ⟨told, hinv.withAnswers ks⟩
  fresh := h.fresh
  cut := h.cut

/-- Every step keeps the queue what it is to be. -/
theorem Queues.step (h : Queues is s obs) (hstep : s.step i ks = some (s', obs')) :
    Queues (is ++ [(i, ks)]) s' (obs ++ obs') := by
  obtain ⟨told, hinv⟩ := h.inv
  obtain ⟨-, told', hinv', -⟩ := hinv.step hstep
  exact (h.withAnswers ks).wrote ⟨told', hinv'⟩ (hinv.wrote hstep)

/-- Every run keeps the queue what it is to be. -/
theorem queues_of_run {w : NativeSocketStreamSnd × List Obs} (hw : Init w)
    (h : Run Step w is (s, obs)) : Queues is s obs := by
  obtain ⟨statePeer, p, hsent, rfl⟩ := hw
  refine Run.history (P := fun is w => Queues is w.1 w.2) ?_ h (queues_ctor hsent)
  rintro is w ⟨i, ks⟩ w' hq hstep
  obtain ⟨r, hr, rfl⟩ := Option.map_eq_some_iff.mp hstep
  exact hq.step hr

/-- **The wire and the out-queue.** In every state that a run leads to, sending having been started and
no error being known: each step told what it was asked to, or nothing, and the calls accepted, in
order, are those so answered (so that a ping is there or not); what was sent, with the cells of the
payloads queued behind it, are the version and the cells of these frames, cut at one place (`Cut`), so
that a handle has gone with the first byte of its payload, once, or is kept; no payload queued is empty;
and there is one exactly if the socket is being waited for, once. Before sending is started nothing was
sent, nothing is queued, and no call was accepted. -/
theorem wire_outQueue {w : NativeSocketStreamSnd × List Obs} (hw : Init w)
    (h : Run Step w is (s, obs)) (herr : s.out.pendingErrCode = none) :
    (s.started = true → ∃ ts, Answers is ts ∧ (framesOf ts).filterMap call? = calls obs ∧
      s.out.peerSocket.sent ++ queued s.out.pendingPayloadsQ =
        verCells ++ stream Frame.enc (framesOf ts) ∧
      Cut (payloads (framesOf ts)) s.out.peerSocket.sent s.out.pendingPayloadsQ ∧
      handles s.out.peerSocket.sent ++ kept s.out.pendingPayloadsQ = kept (payloads (framesOf ts))) ∧
    (s.started = false →
      s.out.peerSocket.sent = [] ∧ s.out.pendingPayloadsQ = [] ∧ calls obs = []) ∧
    (∀ p ∈ s.out.pendingPayloadsQ, p.blob ≠ []) ∧
    (s.out.pendingPayloadsQ ≠ [] ↔ s.out.evWaits = 1) ∧ s.out.evWaits ≤ 1 := by
  have hq := queues_of_run hw h
  obtain ⟨told, hinv⟩ := hq.inv
  have hwaits := hinv.carries.ok.evWaits_eq
  simp only [herr, true_and] at hwaits
  refine ⟨?_, ?_, ?_, ?_, ?_⟩
  · intro hstart
    obtain ⟨ts, hts, hfs, hcut⟩ := hq.cut hstart herr
    refine ⟨ts, hts, hfs, ?_, hcut, hcut.handles_append_kept (filled_payloads _)⟩
    rw [hcut.append_queued, queued_payloads]
    rfl
  · intro hstart
    exact ⟨(hq.fresh hstart).1, (hinv.fresh hstart).2.2.2.1, (hq.fresh hstart).2⟩
  · cases hstart : s.started with
    | false => simp [(hinv.fresh hstart).2.2.2.1]
    | true =>
        obtain ⟨ts, -, -, hcut⟩ := hq.cut hstart herr
        exact hcut.filled (filled_payloads _)
  · rw [hwaits]
    split <;> simp_all
  · rw [hwaits]
    split <;> omega

/-- A message of a handle and three bytes, of which one is written, and a ping that is dropped. -/
def sampleSends : List (Input × List SockAnswer) :=
  [(.startSendNativeHandleOps, [.moves 1]),
    (.sendNativeHandle ⟨(some 5, [1, 2, 3]), .inl (by decide)⟩, [.moves 1, .moves 0]),
    (.autoPing ⟨1, by decide⟩, [])]

/-- Two bytes are queued. -/
theorem wire_outQueue_sampleSends :
    ∃ s obs, Run Step (ctor true ⟨true, [], 0, []⟩, []) sampleSends (s, obs) ∧
      s.out.pendingPayloadsQ = [⟨none, [2, 3]⟩] ∧
      ((∀ p ∈ s.out.pendingPayloadsQ, p.blob ≠ []) ∧
        (s.out.pendingPayloadsQ ≠ [] ↔ s.out.evWaits = 1)) := by
  have hrun := Run.of_foldlM (f := next)
    (show sampleSends.foldlM next (ctor true ⟨true, [], 0, []⟩, []) = some _ from rfl)
  have h := wire_outQueue ⟨true, ⟨true, [], 0, []⟩, rfl, rfl⟩ hrun rfl
  exact ⟨_, _, hrun, rfl, h.2.2.1, h.2.2.2.1⟩

end NativeSocketStreamSnd

end FlowIpc.SocketStream
