import FlowIpc.Timers.Resets

/-!
# Pings keep a queue stream from idling

What `auto_ping()` and `idle_timer_run()` are for, together: a receiver whose peer is there does not come to the
idle timeout. This is a matter of time, so that here the two ends of a queue stream have a clock (`Clocked`): time
passes between steps, which take none; each timer is known by when it was last set to expire, and does not fire
before that.

How much time passes is up to the system, and what is asked of it is asked of each state of a run
(`Clocked.OnTime`):
* the event of the ping timer is handled within `late` of when the timer expires;
* each message is read within `latency` of being put on the queue, which is never full;
* `idle_timer_run()` comes after `auto_ping()`, and its timeout is longer than the period of the pings and both of
  these together.

**Result** (`keepsAlive`). Then the idle timer does not fire, as long as the receiver knows of no error, whatever
the user sends and whenever sending is finished; so that the idle timeout is never its error.

The reason is that at any time either the ping timer will expire early enough, or a message is on the queue that
will be read early enough (`Clocked.Fed`).

Source: `blob_stream_mq_snd_impl.hpp`, `blob_stream_mq_rcv_impl.hpp`; `native_handle_transport.hpp`
`Native_handle_sender::auto_ping`, `Native_handle_receiver::idle_timer_run`.
-/

namespace FlowIpc.KeepAlive

open MqStream Timers Lts PrefixCode

/-! ## Clocks -/

/-- A sender and a receiver, the time, and what the timers are set to. -/
structure Clocked where
  /-- The sender, the receiver, and the queue. -/
  world : World
  /-- The time. -/
  now : Nat
  /-- When the ping timer expires, or did. -/
  pingExpiry : Nat
  /-- When the idle timer expires, or did. -/
  idleExpiry : Nat
  /-- When each message was put on the queue, oldest first. -/
  sentAt : List Nat

/-- What happens next. -/
inductive Tick where
  /-- Time passes. -/
  | passes (d : Nat)
  /-- A step of the sender or of the receiver. -/
  | moves (m : Move)

/-- Whether `m_auto_ping_timer.expires_after()` is called in a step.
Source: `blob_stream_mq_snd_impl.hpp` `send_blob`, `auto_ping`, `on_ev_auto_ping_now_timer_fired` -/
def setsPingTimer (w : World) (m : Move) (w' : World) : Bool :=
  match m with
  | .snd (.sendBlob _) _ => w.accepted.length < w'.accepted.length ∧ w.snd.autoPingPeriod ≠ 0
  | .snd (.autoPing _) _ =>
    w.snd.autoPingPeriod = 0 ∧ w'.snd.autoPingPeriod ≠ 0 ∧ w'.snd.out.pendingErrCode = none
  | .snd .timerReadable _ => w'.snd.out.pendingErrCode = none ∧ w'.snd.finished = false
  | _ => false

/-- Whether `m_idle_timer.expires_after()` is. -/
def setsIdleTimer (w : World) (m : Move) (w' : World) : Bool :=
  match m with
  | .rcv i ks => w.rcv.setsIdleTimer i ks w'.rcv
  | _ => false

namespace Clocked

/-- A sender and a receiver just constructed on an empty queue. -/
def init (maxMsgSize : Nat) : Clocked := ⟨World.init maxMsgSize, 0, 0, 0, []⟩

/-- A timer that has not expired does not fire. -/
def tooEarly (x : Clocked) : Move → Bool
  | .snd .timerFires _ => x.now < x.pingExpiry
  | .rcv .timerFires _ => x.now < x.idleExpiry
  | _ => false

/-- The step `m` has led to the world `w`. -/
def moved (x : Clocked) (m : Move) (w : World) : Clocked where
  world := w
  now := x.now
  pingExpiry := if setsPingTimer x.world m w then x.now + w.snd.autoPingPeriod else x.pingExpiry
  idleExpiry := if setsIdleTimer x.world m w then x.now + w.rcv.inp.idleTimeout else x.idleExpiry
  sentAt := x.sentAt ++ List.replicate (w.snd.out.mq.sent.length - x.world.snd.out.mq.sent.length) x.now

/-- What comes next. -/
def next (x : Clocked) : Tick → Option Clocked
  | .passes d => some { x with now := x.now + d }
  | .moves m => if x.tooEarly m then none else (x.world.next m).map (x.moved m)

/-- Nothing is late. -/
structure OnTime (late latency : Nat) (x : Clocked) : Prop where
  /-- The event of the ping timer has been handled, if the timer expired long ago. -/
  pings : MqPinging x.world.snd → x.now ≤ x.pingExpiry + late
  /-- Messages that have long been on the queue have been read. -/
  reads : x.world.rcv.inp.idleTimeout ≠ 0 → x.world.rcv.inp.pendingErrCode = none →
    ∀ τ ∈ x.sentAt.drop x.world.rcv.inp.mq.received, x.now ≤ τ + latency
  /-- The timeout leaves time for all this. -/
  enough : x.world.rcv.inp.idleTimeout ≠ 0 → x.world.snd.autoPingPeriod ≠ 0 ∧
    x.world.snd.autoPingPeriod + late + latency < x.world.rcv.inp.idleTimeout

instance (late latency : Nat) (x : Clocked) : Decidable (x.OnTime late latency) :=
  have : Decidable (MqPinging x.world.snd) := inferInstanceAs (Decidable (_ ∧ _))
  decidable_of_iff
    ((MqPinging x.world.snd → x.now ≤ x.pingExpiry + late) ∧
      (x.world.rcv.inp.idleTimeout ≠ 0 → x.world.rcv.inp.pendingErrCode = none →
        ∀ τ ∈ x.sentAt.drop x.world.rcv.inp.mq.received, x.now ≤ τ + latency) ∧
      (x.world.rcv.inp.idleTimeout ≠ 0 → x.world.snd.autoPingPeriod ≠ 0 ∧
        x.world.snd.autoPingPeriod + late + latency < x.world.rcv.inp.idleTimeout))
    ⟨fun h => ⟨h.1, h.2.1, h.2.2⟩, fun h => ⟨h.pings, h.reads, h.enough⟩⟩

end Clocked

/-- The queue is not full. -/
def Tick.Roomy : Tick → Prop
  | .moves (.snd _ ks) => ks = [.ready, .ready]
  | _ => True

instance : DecidablePred Tick.Roomy
  | .passes _ => inferInstanceAs (Decidable True)
  | .moves (.snd _ ks) => inferInstanceAs (Decidable (ks = [.ready, .ready]))
  | .moves (.rcv _ _) => inferInstanceAs (Decidable True)

namespace Clocked

/-- What comes next, if the queue is not full and nothing is late then. -/
def nextOnTime (late latency : Nat) (x : Clocked) (m : Tick) : Option Clocked :=
  if m.Roomy then (x.next m).filter fun x' => x'.OnTime late latency else none

/-- The step relation. -/
def Step (late latency : Nat) (x : Clocked) (m : Tick) (x' : Clocked) : Prop :=
  x.nextOnTime late latency m = some x'

/-- A step is one on a queue that is not full, after which nothing is late. -/
theorem step_iff {late latency : Nat} {x x' : Clocked} {m : Tick} :
    Step late latency x m x' ↔ m.Roomy ∧ x.next m = some x' ∧ x'.OnTime late latency := by
  unfold Step nextOnTime
  split_ifs with hroomy
  · simp [Option.filter_eq_some_iff, hroomy]
  · simp [hroomy]

/-! ## What keeps the receiver from idling -/

variable {late latency : Nat} {x x' : Clocked}

/-- The idle timer will not fire: before it expires a ping is put on the queue and read, or a message that is
there is read. -/
inductive Fed (late latency : Nat) (x : Clocked) : Prop where
  /-- The ping timer expires early enough. -/
  | pinging (on : MqPinging x.world.snd) (early : x.pingExpiry + late + latency < x.idleExpiry)
  /-- A message was put on the queue early enough, which is neither an escape nor of the first frame. -/
  | unread (k τ : Nat) (unread : x.world.rcv.inp.mq.received ≤ k) (later : 2 ≤ k) {msg : Blob}
      (sent : x.world.snd.out.mq.sent[k]? = some msg) (ne : msg ≠ []) (at' : x.sentAt[k]? = some τ)
      (early : τ + latency < x.idleExpiry)

/-- What holds of every state of a run in which nothing is late. -/
structure Kept (late latency : Nat) (x : Clocked) : Prop where
  account : ∃ fs done, x.world.Account fs done
  unblocked : x.world.snd.Unblocked
  onTime : x.OnTime late latency
  length_sentAt : x.sentAt.length = x.world.snd.out.mq.sent.length
  sentAt_le : ∀ τ ∈ x.sentAt, τ ≤ x.now
  pingExpiry_le : MqPinging x.world.snd → x.pingExpiry ≤ x.now + x.world.snd.autoPingPeriod
  /-- The idle timer has not fired. -/
  unfired : x.world.rcv.inp.pendingErrCode = none → x.world.rcv.inp.idleTimer.signals = 0
  fed : x.world.rcv.inp.idleTimeout ≠ 0 → x.world.rcv.inp.pendingErrCode = none → x.Fed late latency
  notTimedOut : x.world.rcv.inp.pendingErrCode ≠ Code.receiverIdleTimeout.toErrorCode

/-- What was put on the queue early enough is read early enough, and so is the next ping. -/
theorem Fed.not_expired (h : x.Fed late latency) (hon : x.OnTime late latency)
    (hidling : x.world.rcv.inp.idleTimeout ≠ 0) (herr : x.world.rcv.inp.pendingErrCode = none) :
    x.now < x.idleExpiry := by
  cases h with
  | pinging on early =>
      have hpings := hon.pings on
      omega
  | unread k τ unread later sent ne at' early =>
      have hmem : τ ∈ x.sentAt.drop x.world.rcv.inp.mq.received := by
        apply List.mem_of_getElem? (i := k - x.world.rcv.inp.mq.received)
        rw [List.getElem?_drop, Nat.add_sub_cancel' unread]
        exact at'
      have hreads := hon.reads hidling herr τ hmem
      omega

variable {w : World} {fs done : List Frame} {i : BlobStreamMqSender.Input} {j : BlobStreamMqReceiver.Input}
  {ks : List MqAnswer}

/-- Who has been started has put the first frame on the queue. -/
theorem two_le_length (hacc : w.Account fs done) (hunblocked : w.snd.Unblocked) (hstart : w.snd.started = true) :
    2 ≤ w.snd.out.mq.sent.length := by
  obtain ⟨gs, rfl, -⟩ := hacc.inv.snd.begun hstart
  rw [hacc.inv.snd.carries.sent_eq hunblocked.noError hunblocked.flushed, stream_cons, List.length_append]
  exact Nat.le_add_right 2 _

/-- Sending that is finished leaves a message for a receiver that knows of no error: the last. -/
theorem exists_unread_of_finished (hacc : w.Account fs done) (hunblocked : w.snd.Unblocked)
    (hfin : w.snd.finished = true) (hstart : w.snd.started = true) (herr : w.rcv.inp.pendingErrCode = none) :
    ∃ k msg, w.rcv.inp.mq.received ≤ k ∧ 2 ≤ k ∧ w.snd.out.mq.sent[k]? = some msg ∧ msg ≠ [] := by
  have hend := hacc.ended hfin hunblocked.noError
  have hsent := hacc.inv.snd.carries.sent_eq hunblocked.noError hunblocked.flushed
  have hmore : w.rcv.inp.mq.received < w.snd.out.mq.sent.length := by
    by_contra hall
    rw [← hacc.inv.sent_eq] at hall
    -- Who has read all has read the graceful close.
    have hdone := hacc.done_eq hunblocked.noError herr hunblocked.flushed (Nat.le_of_not_lt hall)
    have hsome := hacc.inv.rcv.reads.closed (hdone ▸ hend)
    rw [herr] at hsome
    cases hsome
  obtain ⟨gs, hgs⟩ := eq_snoc_of_mem hend hacc.inv.snd.last
  have htail : w.snd.out.mq.sent = (stream Frame.enc gs ++ [[]]) ++ [ctlBytes ctlEndSending] := by
    rw [hsent, hgs, stream_append, stream_singleton, List.append_assoc]
    rfl
  have hgs_ne : 2 ≤ (stream Frame.enc gs).length := by
    obtain ⟨hs, hfs, -⟩ := hacc.inv.snd.begun hstart
    rw [hgs] at hfs
    cases gs with
    | nil => cases hfs
    | cons g gs =>
        cases hfs
        rw [stream_cons, List.length_append]
        exact Nat.le_add_right 2 _
  refine ⟨(stream Frame.enc gs ++ [[]]).length, ctlBytes ctlEndSending, ?_, ?_, ?_, by simp [← List.length_pos_iff]⟩
  · rw [htail, List.length_append] at hmore
    exact Nat.le_of_lt_succ hmore
  · rw [List.length_append]
    exact hgs_ne.trans (Nat.le_add_right _ _)
  · rw [htail, List.getElem?_concat_length]

/-- A timer that has just been set does not fire. -/
theorem fed_of_set (hacc : x.world.Account fs done) (hunblocked : x.world.snd.Unblocked)
    (hon : x.OnTime late latency) (hlength : x.sentAt.length = x.world.snd.out.mq.sent.length)
    (hle : ∀ τ ∈ x.sentAt, τ ≤ x.now)
    (hping : MqPinging x.world.snd → x.pingExpiry ≤ x.now + x.world.snd.autoPingPeriod)
    (hidling : x.world.rcv.inp.idleTimeout ≠ 0) (herr : x.world.rcv.inp.pendingErrCode = none)
    (hset : x.idleExpiry = x.now + x.world.rcv.inp.idleTimeout) : x.Fed late latency := by
  obtain ⟨hperiod, henough⟩ := hon.enough hidling
  cases hfin : x.world.snd.finished with
  | false =>
      have hpinging : MqPinging x.world.snd := ⟨hperiod, hunblocked.noError, hfin⟩
      have hexpiry := hping hpinging
      apply Fed.pinging hpinging
      omega
  | true =>
      have hstart : x.world.snd.started = true := by
        by_contra hfresh
        exact hperiod (hacc.inv.snd.fresh (by simpa using hfresh)).2.2.2.2
      obtain ⟨k, msg, hunread, hlate, hsent, hne⟩ :=
        exists_unread_of_finished hacc hunblocked hfin hstart herr
      obtain ⟨hlt, -⟩ := List.getElem?_eq_some_iff.mp hsent
      have hat : x.sentAt[k]? = some x.sentAt[k] := List.getElem?_eq_getElem (hlength ▸ hlt)
      have hbefore := hle _ (List.mem_of_getElem? hat)
      apply Fed.unread k _ hunread hlate hsent hne hat
      omega

/-! ## Steps of the sender -/

section Sender

open BlobStreamMqSender (Puts accepted Obs)

variable {w' : World} {obs : List Obs} {msgs : List Blob}

/-- Where pings go on, the ping timer has been set, or they went on before. -/
theorem set_or_pinging (ks : List MqAnswer) (hputs : Puts w.snd i obs w'.snd msgs)
    (haccepted : w'.accepted = w.accepted ++ accepted obs)
    (hunblocked : w.snd.Unblocked) (hon : MqPinging w'.snd) : setsPingTimer w (.snd i ks) w' = true ∨
      MqPinging w.snd ∧ w'.snd.autoPingPeriod = w.snd.autoPingPeriod := by
  obtain ⟨hperiod, herr, hfin⟩ := hon
  cases hputs with
  | none period finished _ _ => exact .inr ⟨⟨period ▸ hperiod, hunblocked.noError, finished.symm.trans hfin⟩, period⟩
  | version _ _ period => exact absurd period hperiod
  | blob b input acc _ period _ =>
      subst input
      refine .inl (decide_eq_true ⟨?_, period ▸ hperiod⟩)
      rw [haccepted, acc, List.length_append]
      exact Nat.lt_succ_self _
  | ended _ _ finished =>
      rw [hfin] at finished
      cases finished
  | ping _ _ _ input =>
      left
      rcases input with ⟨⟨period, rfl⟩, hoff⟩ | ⟨rfl, -⟩
      · exact decide_eq_true ⟨hoff, hperiod, herr⟩
      · exact decide_eq_true ⟨herr, hfin⟩

/-- Where pings went on, they still do, or a message was put on the queue. -/
theorem pinging_or_put (ks : List MqAnswer) (hputs : Puts w.snd i obs w'.snd msgs)
    (haccepted : w'.accepted = w.accepted ++ accepted obs)
    (hunblocked : w'.snd.Unblocked) (hon : MqPinging w.snd) :
    MqPinging w'.snd ∧ setsPingTimer w (.snd i ks) w' = false ∨ ∃ pre msg, msgs = pre ++ [msg] ∧ msg ≠ [] := by
  have hctl : ∀ c, ctlBytes c ≠ [] := by
    intro c hnil
    have hlength := congrArg List.length hnil
    rw [length_ctlBytes] at hlength
    cases hlength
  obtain ⟨hperiod, -, hfin⟩ := hon
  cases hputs with
  | none period finished refused undue =>
      refine .inl ⟨⟨period.symm ▸ hperiod, hunblocked.noError, finished.trans hfin⟩, ?_⟩
      cases i with
      | sendBlob b =>
          apply decide_eq_false
          rintro ⟨hlt, -⟩
          rw [haccepted, refused, List.append_nil] at hlt
          exact Nat.lt_irrefl _ hlt
      | autoPing p => exact decide_eq_false fun h => hperiod h.1
      | timerReadable =>
          have hdone := finished.symm.trans (undue rfl)
          rw [hfin] at hdone
          cases hdone
      | _ => rfl
  | version _ off _ => exact absurd off hperiod
  | blob b _ _ _ _ _ => exact .inr ⟨[], b.val, rfl, b.property⟩
  | ended _ _ _ => exact .inr ⟨[[]], _, rfl, hctl _⟩
  | ping _ _ _ _ => exact .inr ⟨[[]], _, rfl, hctl _⟩

end Sender

/-- The sender does not set the idle timer. -/
theorem moved_idleExpiry_snd : (x.moved (.snd i ks) w).idleExpiry = x.idleExpiry := rfl

/-- A timer that is set expires a period from now. -/
theorem moved_pingExpiry_le {m : Move} (hle : x.pingExpiry ≤ x.now + w.snd.autoPingPeriod) :
    (x.moved m w).pingExpiry ≤ x.now + w.snd.autoPingPeriod := by
  unfold Clocked.moved
  dsimp only
  split
  · exact Nat.le_refl _
  · exact hle

/-- A step of the sender keeps the receiver fed. -/
theorem Kept.snd_step (h : x.Kept late latency) (hks : ks = [.ready, .ready])
    (hstep : x.world.Step (.snd i ks) w) (hon : (x.moved (.snd i ks) w).OnTime late latency) :
    (x.moved (.snd i ks) w).Kept late latency := by
  subst hks
  obtain ⟨fs, done, hacc⟩ := h.account
  obtain ⟨new, hacc'⟩ := hacc.snd_step hstep
  obtain ⟨⟨s, obs⟩, hsnd, heq⟩ := Option.map_eq_some_iff.mp hstep
  -- The receiver is as it was, but for the queue.
  have hrcv : w.rcv = { x.world.rcv with inp := { x.world.rcv.inp with mq := s.out.mq } } := by rw [← heq]
  have haccepted : w.accepted = x.world.accepted ++ BlobStreamMqSender.accepted obs := by rw [← heq]
  obtain rfl : w.snd = s := by rw [← heq]
  clear heq
  obtain ⟨msgs, ⟨hunblocked, hsent, hreceived⟩, hputs⟩ := h.unblocked.step hacc.inv.snd hsnd
  have hreceived' : w.rcv.inp.mq.received = x.world.rcv.inp.mq.received := by
    rw [hacc'.inv.received_eq, hreceived, hacc.inv.received_eq]
  have hsentAt : (x.moved (.snd i [.ready, .ready]) w).sentAt = x.sentAt ++ List.replicate msgs.length x.now := by
    unfold Clocked.moved
    rw [hsent, List.length_append, Nat.add_sub_cancel_left]
  have hsame : w.rcv.inp.idleTimeout = x.world.rcv.inp.idleTimeout ∧
      w.rcv.inp.pendingErrCode = x.world.rcv.inp.pendingErrCode ∧
        w.rcv.inp.idleTimer = x.world.rcv.inp.idleTimer := by
    rw [hrcv]
    exact ⟨rfl, rfl, rfl⟩
  obtain ⟨htimeout, herr_eq, htimer⟩ := hsame
  refine ⟨⟨_, _, hacc'⟩, hunblocked, hon, ?_, ?_, ?_, ?_, ?_, ?_⟩
  · rw [hsentAt, List.length_append, List.length_replicate, h.length_sentAt]
    exact List.length_append.symm.trans (congrArg List.length hsent.symm)
  · intro τ hτ
    rw [hsentAt] at hτ
    rcases List.mem_append.mp hτ with hτ | hτ
    · exact h.sentAt_le τ hτ
    · exact Nat.le_of_eq (List.eq_of_mem_replicate hτ)
  · intro hpinging
    rcases set_or_pinging [.ready, .ready] hputs haccepted h.unblocked hpinging with
      hsets | ⟨hpinging', hperiod⟩
    · exact Nat.le_of_eq (if_pos hsets)
    · have hle := h.pingExpiry_le hpinging'
      rw [← hperiod] at hle
      exact moved_pingExpiry_le hle
  · intro herr
    change w.rcv.inp.pendingErrCode = none at herr
    change w.rcv.inp.idleTimer.signals = 0
    rw [herr_eq] at herr
    rw [htimer]
    exact h.unfired herr
  · intro hidling herr
    change w.rcv.inp.idleTimeout ≠ 0 at hidling
    change w.rcv.inp.pendingErrCode = none at herr
    rw [htimeout] at hidling
    rw [herr_eq] at herr
    cases h.fed hidling herr with
    | pinging on early =>
        rcases pinging_or_put [.ready, .ready] hputs haccepted hunblocked on with
          ⟨on', hsets⟩ | ⟨pre, msg, rfl, hne⟩
        · apply Fed.pinging on'
          have hexpiry : (x.moved (.snd i [.ready, .ready]) w).pingExpiry = x.pingExpiry :=
            if_neg (by rw [hsets]; exact Bool.false_ne_true)
          rw [hexpiry, moved_idleExpiry_snd]
          exact early
        · -- The message just put there will be read early enough.
          have hstart : x.world.snd.started = true := by
            by_contra hfresh
            exact on.1 (hacc.inv.snd.fresh (by simpa using hfresh)).2.2.2.2
          have htwo := two_le_length hacc h.unblocked hstart
          have hread : x.world.rcv.inp.mq.received ≤ x.world.snd.out.mq.sent.length := by
            rw [← hacc.inv.sent_eq]
            exact hacc.inv.rcv.reads.mqOk
          have hnow := h.onTime.pings on
          refine Fed.unread (x.world.snd.out.mq.sent.length + pre.length) x.now ?_ ?_ ?_ hne ?_ ?_
          · change w.rcv.inp.mq.received ≤ _
            rw [hreceived']
            exact hread.trans (Nat.le_add_right _ _)
          · exact htwo.trans (Nat.le_add_right _ _)
          · change w.snd.out.mq.sent[_]? = some msg
            rw [hsent, ← List.append_assoc, ← List.length_append, List.getElem?_concat_length]
          · rw [hsentAt, List.getElem?_append_right (by rw [h.length_sentAt]; exact Nat.le_add_right _ _),
              h.length_sentAt, Nat.add_sub_cancel_left, List.getElem?_replicate, if_pos]
            rw [List.length_append]
            exact Nat.lt_succ_self _
          · rw [moved_idleExpiry_snd]
            omega
    | unread k τ unread hlater sent ne hat early =>
        obtain ⟨hlt, -⟩ := List.getElem?_eq_some_iff.mp sent
        refine Fed.unread k τ ?_ hlater ?_ ne ?_ ?_
        · change w.rcv.inp.mq.received ≤ k
          rw [hreceived']
          exact unread
        · change w.snd.out.mq.sent[k]? = _
          rw [hsent, List.getElem?_append_left hlt]
          exact sent
        · rw [hsentAt, List.getElem?_append_left (h.length_sentAt.symm ▸ hlt)]
          exact hat
        · rw [moved_idleExpiry_snd]
          exact early
  · change w.rcv.inp.pendingErrCode ≠ _
    rw [herr_eq]
    exact h.notTimedOut

/-! ## Steps of the receiver -/

/-- A step of the receiver keeps it fed. -/
theorem Kept.rcv_step (h : x.Kept late latency) (hdue : x.tooEarly (.rcv j ks) = false)
    (hstep : x.world.Step (.rcv j ks) w) (hon : (x.moved (.rcv j ks) w).OnTime late latency) :
    (x.moved (.rcv j ks) w).Kept late latency := by
  obtain ⟨fs, done, hacc⟩ := h.account
  obtain ⟨new, hacc'⟩ := hacc.rcv_step hstep
  obtain ⟨⟨r, obs⟩, hrcv, heq⟩ := Option.map_eq_some_iff.mp hstep
  -- The sender is as it was, but for the queue.
  have hsnd : w.snd = { x.world.snd with out := { x.world.snd.out with mq := r.inp.mq } } := by rw [← heq]
  obtain rfl : w.rcv = r := by rw [← heq]
  clear heq
  have hsent : w.snd.out.mq.sent = x.world.snd.out.mq.sent := by
    rw [← hacc'.inv.sent_eq, ← hacc.inv.sent_eq]
    exact (hacc.inv.rcv.step hacc.inv.snd.ordered hrcv).1
  have hsentAt : (x.moved (.rcv j ks) w).sentAt = x.sentAt := by
    unfold Clocked.moved
    rw [hsent, Nat.sub_self]
    exact List.append_nil _
  have hpinging : MqPinging w.snd ↔ MqPinging x.world.snd := by
    rw [hsnd]
    rfl
  have hperiod : w.snd.autoPingPeriod = x.world.snd.autoPingPeriod := by rw [hsnd]
  have hunblocked : w.snd.Unblocked := by
    refine ⟨?_, ?_, ?_, ?_⟩
    · rw [hsnd]
      exact h.unblocked.flushed
    · rw [hsnd]
      exact h.unblocked.noError
    · rw [← hacc'.queue, hacc.waits.step_maxMsgSize hrcv, hacc.queue]
      exact h.unblocked.fits
    · exact hacc'.sndLimit
  have hlength : (x.moved (.rcv j ks) w).sentAt.length = w.snd.out.mq.sent.length := by
    rw [hsentAt, hsent]
    exact h.length_sentAt
  have hle : ∀ τ ∈ (x.moved (.rcv j ks) w).sentAt, τ ≤ x.now := by
    rw [hsentAt]
    exact h.sentAt_le
  have hpingExpiry : MqPinging w.snd → x.pingExpiry ≤ x.now + w.snd.autoPingPeriod := by
    rw [hpinging, hperiod]
    exact h.pingExpiry_le
  -- The idle timer does not fire, since it has not expired.
  have hquiet : w.rcv.inp.pendingErrCode = none → x.world.rcv.inp.pendingErrCode = none ∧
      w.rcv.inp.idleTimer.signals = 0 ∧ (w.rcv.inp.idleTimeout ≠ 0 →
        x.world.rcv.inp.idleTimeout = w.rcv.inp.idleTimeout ∨ setsIdleTimer x.world (.rcv j ks) w = true) := by
    intro herr'
    obtain ⟨herr, htimer⟩ := hacc.inv.rcv.step_idleTimer hrcv herr'
    have hzero := h.unfired herr
    cases htimer with
    | kept timeout timer => exact ⟨herr, by rw [timer]; exact hzero, fun _ => .inl timeout.symm⟩
    | engaged timeout input off on timer =>
        subst input
        exact ⟨herr, by rw [timer]; exact hzero, fun _ => .inr (decide_eq_true ⟨off, on, herr'⟩)⟩
    | fires input fire =>
        exfalso
        subst input
        by_cases hidling : x.world.rcv.inp.idleTimeout = 0
        · have hoff := hacc.inv.rcv.reads.timer_off hidling
          have hok := hacc.inv.rcv.reads.timer.1
          unfold Timer.fire at fire
          rw [if_neg (by omega)] at fire
          cases fire
        · have hlt := (h.fed hidling herr).not_expired h.onTime hidling herr
          exact absurd hlt (of_decide_eq_false hdue)
  refine ⟨⟨_, _, hacc'⟩, hunblocked, hon, hlength, hle, hpingExpiry, fun herr' => (hquiet herr').2.1, ?_, ?_⟩
  · intro hidling' herr'
    obtain ⟨herr, -, hcases⟩ := hquiet herr'
    by_cases hsets : setsIdleTimer x.world (.rcv j ks) w = true
    · exact fed_of_set hacc' hunblocked hon hlength hle hpingExpiry hidling' herr' (if_pos hsets)
    · have htimeout := (hcases hidling').resolve_right hsets
      have hidling : x.world.rcv.inp.idleTimeout ≠ 0 := by
        rw [htimeout]
        exact hidling'
      have hexpiry : (x.moved (.rcv j ks) w).idleExpiry = x.idleExpiry := if_neg hsets
      cases h.fed hidling herr with
      | pinging on early =>
          apply Fed.pinging (hpinging.mpr on)
          rw [hexpiry]
          exact early
      | unread k τ unread hlater sent ne hat early =>
          -- It has not been read, or else the timer would have been set.
          have hunread : w.rcv.inp.mq.received ≤ k := by
            by_contra hread
            have hi : j ≠ .timerReadable := by
              rintro rfl
              obtain ⟨t, -, -, -, hsome⟩ := mqReceiver_readable hrcv
              rw [show w.rcv.inp.pendingErrCode = none from herr'] at hsome
              cases hsome
            apply hsets
            refine (hacc.inv.rcv.step_resets hacc.inv.snd.ordered hrcv hi).2 herr' hidling k unread
              (Nat.lt_of_not_le hread) hlater ?_
            rw [hacc.inv.sent_eq, sent]
            exact fun heq => ne (Option.some.inj heq)
          refine Fed.unread k τ hunread hlater ?_ ne ?_ ?_
          · exact hsent ▸ sent
          · rw [hsentAt]
            exact hat
          · rw [hexpiry]
            exact early
  · change w.rcv.inp.pendingErrCode ≠ _
    by_cases hi : j = .timerReadable
    · subst hi
      obtain ⟨hfired, hkept⟩ := BlobStreamMqReceiver.step_timerReadable hrcv
      have hsome : x.world.rcv.inp.pendingErrCode.isSome := by
        rw [Option.isSome_iff_ne_none]
        intro herr
        exact absurd (h.unfired herr) (Nat.ne_of_gt hfired)
      rw [hkept hsome]
      exact h.notTimedOut
    · intro hcode
      exact h.notTimedOut ((hacc.inv.rcv.step_resets hacc.inv.snd.ordered hrcv hi).1 hcode)

/-- The receiver is kept fed when time passes, as long as nothing is late. -/
theorem Kept.passes (h : x.Kept late latency) {d : Nat}
    (hon : ({ x with now := x.now + d } : Clocked).OnTime late latency) :
    ({ x with now := x.now + d } : Clocked).Kept late latency where
  account := h.account
  unblocked := h.unblocked
  onTime := hon
  length_sentAt := h.length_sentAt
  sentAt_le τ hτ := (h.sentAt_le τ hτ).trans (Nat.le_add_right _ _)
  pingExpiry_le hpinging := by
    have hle := h.pingExpiry_le hpinging
    show x.pingExpiry ≤ x.now + d + x.world.snd.autoPingPeriod
    omega
  unfired := h.unfired
  fed hidling herr := by
    cases h.fed hidling herr with
    | pinging on early => exact .pinging on early
    | unread k τ unread later sent ne at' early => exact .unread k τ unread later sent ne at' early
  notTimedOut := h.notTimedOut

/-! ## The result -/

/-- The receiver is fed at the start. -/
theorem kept_init {n : Nat} (hn : 8 ≤ n) : (init n).Kept late latency where
  account := ⟨[], [], World.account_init n⟩
  unblocked := ⟨rfl, rfl, hn, rfl⟩
  onTime := ⟨fun hon => absurd rfl hon.1, fun hidling => absurd rfl hidling, fun hidling => absurd rfl hidling⟩
  length_sentAt := rfl
  sentAt_le τ hτ := by cases hτ
  pingExpiry_le _ := Nat.zero_le _
  unfired _ := rfl
  fed hidling := absurd rfl hidling
  notTimedOut hcode := by cases hcode

/-- Every step keeps the receiver fed. -/
theorem Kept.step {m : Tick} (h : x.Kept late latency) (hstep : Step late latency x m x') :
    x'.Kept late latency := by
  obtain ⟨hroomy, hnext, hon⟩ := step_iff.mp hstep
  cases m with
  | passes d =>
      cases hnext
      exact h.passes hon
  | moves m =>
      unfold Clocked.next at hnext
      dsimp only at hnext
      split at hnext
      · cases hnext
      · rename_i hdue
        obtain ⟨w, hw, rfl⟩ := Option.map_eq_some_iff.mp hnext
        cases m with
        | snd i ks => exact h.snd_step hroomy hw hon
        | rcv j ks => exact h.rcv_step (by simpa using hdue) hw hon

/-- **Pings keep a queue stream from idling.** In every run in which nothing is late the idle timer does not fire
as long as the receiver knows of no error, and the idle timeout is never its error. -/
theorem keepsAlive {n : Nat} (hn : 8 ≤ n) {ms : List Tick} (hrun : Run (Step late latency) (init n) ms x) :
    (x.world.rcv.inp.pendingErrCode = none → x.world.rcv.inp.idleTimer.signals = 0) ∧
      x.world.rcv.inp.pendingErrCode ≠ Code.receiverIdleTimeout.toErrorCode := by
  have hkept : x.Kept late latency := hrun.invariant (fun _ _ _ h hstep => h.step hstep) (kept_init hn)
  exact ⟨hkept.unfired, hkept.notTimedOut⟩

/-- The ping timer fires after the period, and the ping is read one later. -/
def pingTicks : List Tick :=
  [.passes 4, .moves (.snd .timerFires [.ready, .ready]), .moves (.snd .timerReadable [.ready, .ready]), .passes 1,
    .moves (.rcv .mqReadable [.ready, .ready])]

/-- Pings every 4, a timeout of 10, and three pings. -/
def sampleTicks : List Tick :=
  [.moves (.snd .startSendBlobOps [.ready, .ready]), .moves (.rcv .startReceiveBlobOps []),
    .moves (.snd (.autoPing (Nat.succPNat 3)) [.ready, .ready]), .moves (.rcv (.idleTimerRun (Nat.succPNat 9)) []),
    .moves (.rcv (.asyncReceiveBlob 8 0) [.ready, .ready, .ready, .ready])] ++ pingTicks ++ pingTicks ++ pingTicks

/-- After more than the timeout, and without a message of the user's, the receiver still waits for one. -/
theorem keepsAlive_sampleTicks : ∃ x, Run (Step 1 1) (init 8) sampleTicks x ∧ x.now = 15 ∧
    x.world.rcv.inp.idleTimeout = 10 ∧ x.world.rcv.inp.pendingErrCode = none ∧
      (x.world.rcv.inp.pendingErrCode = none → x.world.rcv.inp.idleTimer.signals = 0) ∧
        x.world.rcv.inp.pendingErrCode ≠ Code.receiverIdleTimeout.toErrorCode := by
  have hrun : ((sampleTicks.foldlM (nextOnTime 1 1) (init 8)).map
      fun x => (x.now, x.world.rcv.inp.idleTimeout, x.world.rcv.inp.pendingErrCode)) = some (15, 10, none) := by
    decide +kernel
  obtain ⟨x, hx, hseen⟩ := Option.map_eq_some_iff.mp hrun
  have hrun : Run (Step 1 1) (init 8) sampleTicks x := .of_foldlM hx
  exact ⟨x, hrun, congrArg (·.1) hseen, congrArg (·.2.1) hseen, congrArg (·.2.2) hseen,
    keepsAlive (Nat.le_refl 8) hrun⟩

end Clocked

end FlowIpc.KeepAlive
