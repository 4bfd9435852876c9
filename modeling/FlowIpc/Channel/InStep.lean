import FlowIpc.Channel.Joint
import FlowIpc.MqStream.Progress
import FlowIpc.SocketStream.Progress
import FlowIpc.Timers.Idle

/-!
# A channel over queues and a socket

A `Mqs_socket_stream_channel`: its blobs pipe is a queue stream, its handles pipe a socket stream. Both keep the
contract of `Pipe`: each takes a call once, after the direction has been started, whatever its transport does in
the meantime (`mq_takes`, `socket_takes`), and nothing else that is done with it takes a call back
(`mq_keeps`, `socket_keeps`).

**Result** (`inStep`). In every run in which what is called of both is called through the channel alone,
* the assertion that the handles pipe accepts what the blobs pipe does fails at a call in a direction that has
  been started in the blobs pipe alone, and at no other;
* unless it has, the two have been ended together, ping alike and have the same idle timeout;
* and then a graceful close that either pipe reports is one of both.

Source: `channel.hpp` `Mqs_socket_stream_channel`, `Channel::end_sending`, `Channel::async_end_sending`,
`Channel::auto_ping`, `Channel::idle_timer_run`.
-/

namespace FlowIpc.ChannelJoint

open Lts Timers

/-- Both ways to end the sending are taken alike. -/
theorem Flags.Takes.async {x x' : Flags} {ok : Bool} (h : x.Takes .endSending ok x') (f : Nat) :
    x.Takes (.asyncEndSending f) ok x' := by
  cases h with
  | accepted h => exact Flags.Takes.accepted (c := .asyncEndSending f) h
  | refused h => exact Flags.Takes.refused (c := .asyncEndSending f) h

/-! ## The queue stream -/

section Mq

open MqStream

/-- What calls of a queue stream go by. -/
def mqFlags (s : BlobStreamMqSender) (r : BlobStreamMqReceiver) : Flags :=
  ⟨s.started, s.finished, s.autoPingPeriod, r.started, r.inp.idleTimeout⟩

/-- The step that a call is. -/
def mqMove (c : Call) (ks : List MqAnswer) : MqStream.Move :=
  match c with
  | .endSending => .snd .endSending ks
  | .asyncEndSending f => .snd (.asyncEndSending f) ks
  | .autoPing period => .snd (.autoPing period) ks
  | .idleTimerRun timeout => .rcv (.idleTimerRun timeout) ks

/-- What a call returns.
Source: `blob_stream_mq_snd_impl.hpp` `end_sending`, `async_end_sending`, `auto_ping`; `blob_stream_mq_rcv_impl.hpp`
`idle_timer_run` -/
def mqReturns (w : MqStream.World) (c : Call) (ks : List MqAnswer) : Bool :=
  match c with
  | .endSending => (w.snd.withAnswers ks).endSending.1
  | .asyncEndSending f => ((w.snd.withAnswers ks).asyncEndSending f).1
  | .autoPing period => ((w.snd.withAnswers ks).autoPing period).1
  | .idleTimerRun timeout => ((w.rcv.withAnswers ks).idleTimerRun timeout).1

/-- A call, with what it returns. -/
def mqCall (w : MqStream.World) (c : Call) (ks : List MqAnswer) : Bool × MqStream.World :=
  (mqReturns w c ks, (w.next (mqMove c ks)).getD w)

/-- The step is such a call. -/
def mqIsCall : MqStream.Move → Bool
  | .snd .endSending _ => true
  | .snd (.asyncEndSending _) _ => true
  | .snd (.autoPing _) _ => true
  | .rcv (.idleTimerRun _) _ => true
  | _ => false

variable {s s' : BlobStreamMqSender} {r r' : BlobStreamMqReceiver} {fs done : List Frame}

/-- Only `auto_ping()` sets the period. -/
theorem mq_period {i : BlobStreamMqSender.Input} {ks : List MqAnswer} {obs : List BlobStreamMqSender.Obs}
    (h : s.Inv fs) (hstep : s.step i ks = some (s', obs)) (hi : ∀ period, i ≠ .autoPing period) :
    s'.autoPingPeriod = s.autoPingPeriod := by
  have hu := h.withAnswers ks
  change s'.autoPingPeriod = (s.withAnswers ks).autoPingPeriod
  unfold BlobStreamMqSender.step at hstep
  generalize s.withAnswers ks = u at hu hstep ⊢
  cases i with
  | startSendBlobOps =>
      cases hstep
      exact congrArg Prod.fst mqFrame_startSendBlobOps
  | sendBlob b =>
      rcases hcall : u.sendBlob b with ⟨ok, err, t⟩
      have hframe : t.autoPingPeriod = u.autoPingPeriod :=
        congrArg Prod.fst (mqFrame_sendBlob hu b.property hcall).1
      simp only [hcall] at hstep
      split at hstep
      · rename_i heq
        cases heq
        cases hstep
        exact hframe
      · rename_i heq
        cases heq
        cases hstep
        exact hframe
  | endSending =>
      cases hstep
      exact congrArg Prod.fst mqFrame_asyncEndSendingImpl.1
  | asyncEndSending f =>
      cases hstep
      exact congrArg Prod.fst mqFrame_asyncEndSendingImpl.1
  | autoPing period => exact absurd rfl (hi period)
  | mqWritable =>
      have hframe := mqFrame_onEvMqWritable
        (s := { u with out := { u.out with evWaits := u.out.evWaits - 1 } })
      simp only [Option.ite_none_right_eq_some] at hstep
      obtain ⟨-, hstep⟩ := hstep
      split at hstep
      · rename_i hcall
        rw [hcall] at hframe
        cases hstep
        exact congrArg Prod.fst hframe
      · rename_i hcall
        rw [hcall] at hframe
        cases hstep
        exact congrArg Prod.fst hframe
  | timerFires =>
      simp only [Option.map_eq_some_iff] at hstep
      obtain ⟨t, -, heq⟩ := hstep
      cases heq
      rfl
  | timerReadable =>
      simp only [Option.map_eq_some_iff] at hstep
      obtain ⟨t, -, heq⟩ := hstep
      cases heq
      unfold BlobStreamMqSender.onEvAutoPingNowTimerFired
      dsimp only
      split_ifs <;> rfl

/-- Only `idle_timer_run()` sets the timeout. -/
theorem mq_timeout {i : BlobStreamMqReceiver.Input} {ks : List MqAnswer} {obs : List BlobStreamMqReceiver.Obs}
    (hok : r.inp.idleTimer.Ok) (hstep : r.step i ks = some (r', obs)) (hi : ∀ timeout, i ≠ .idleTimerRun timeout) :
    r'.inp.idleTimeout = r.inp.idleTimeout := by
  have hu : (r.withAnswers ks).inp.idleTimer.Ok := hok
  change r'.inp.idleTimeout = (r.withAnswers ks).inp.idleTimeout
  cases i with
  | startReceiveBlobOps =>
      cases hstep
      unfold BlobStreamMqReceiver.startReceiveBlobOps
      split <;> rfl
  | asyncReceiveBlob n f =>
      cases hstep
      exact congrArg Prod.fst (mqIdleFrame_asyncReceiveBlob hu).1
  | idleTimerRun timeout => exact absurd rfl (hi timeout)
  | mqReadable =>
      dsimp only [BlobStreamMqReceiver.step] at hstep
      split at hstep
      · cases hstep
        exact congrArg Prod.fst (mqIdleFrame_onEvMqReadable (r := { r.withAnswers ks with
          inp := { (r.withAnswers ks).inp with evWaits := (r.withAnswers ks).inp.evWaits - 1 } }) hu).1
      · cases hstep
  | timerFires =>
      dsimp only [BlobStreamMqReceiver.step] at hstep
      obtain ⟨t, -, heq⟩ := Option.map_eq_some_iff.1 hstep
      cases heq
      rfl
  | timerReadable =>
      obtain ⟨t, -, -, htimeout, -⟩ := mqReceiver_readable hstep
      exact htimeout

/-- Whatever else is done with a queue stream, it has accepted the calls that it has. -/
theorem mq_keeps {w w' : MqStream.World} {m : MqStream.Move} (h : w.Reached) (hm : mqIsCall m = false)
    (hnext : w.next m = some w') : (mqFlags w.snd w.rcv).Keeps (mqFlags w'.snd w'.rcv) := by
  obtain ⟨fs, done, hinv⟩ := h.inv
  cases m with
  | snd i ks =>
      simp only [MqStream.World.next, Option.map_eq_some_iff] at hnext
      obtain ⟨⟨s', obs⟩, hstep, rfl⟩ := hnext
      refine ⟨?_, ?_, rfl⟩
      · apply (BlobStreamMqSender.keeps_step hinv.snd hstep).finished_eq
        cases i with
        | endSending => cases hm
        | asyncEndSending f => cases hm
        | _ => rfl
      · apply mq_period hinv.snd hstep
        rintro period rfl
        cases hm
  | rcv i ks =>
      simp only [MqStream.World.next, Option.map_eq_some_iff] at hnext
      obtain ⟨⟨r', obs⟩, hstep, rfl⟩ := hnext
      refine ⟨rfl, rfl, ?_⟩
      apply mq_timeout hinv.rcv.reads.timer hstep
      rintro timeout rfl
      cases hm

/-- A queue stream takes the end of sending once. -/
theorem mq_takes_end (s : BlobStreamMqSender) (r : BlobStreamMqReceiver) (f : Option Nat) :
    (mqFlags s r).Takes .endSending (s.asyncEndSendingImpl f).1 (mqFlags (s.asyncEndSendingImpl f).2.2 r) := by
  unfold BlobStreamMqSender.asyncEndSendingImpl
  split
  · rename_i hstart
    exact .refused fun h => by cases hstart.symm.trans h.1
  split
  · rename_i hfin
    exact .refused fun h => by cases hfin.symm.trans h.2
  rename_i hstart hfin
  have htakes := Flags.Takes.accepted (x := mqFlags s r) (c := .endSending)
    ⟨Bool.eq_true_of_not_eq_false hstart, Bool.eq_false_of_not_eq_true hfin⟩
  dsimp only
  split
  · exact htakes
  · split_ifs <;> exact htakes

/-- A queue stream takes a period for pings once, before it is ended. -/
theorem mq_takes_autoPing (s : BlobStreamMqSender) (r : BlobStreamMqReceiver) (period : {n : Nat // 0 < n}) :
    (mqFlags s r).Takes (.autoPing period) (s.autoPing period).1 (mqFlags (s.autoPing period).2 r) := by
  unfold BlobStreamMqSender.autoPing
  rw [BlobStreamMqSender.assert_of period.property]
  split
  · rename_i hstart
    exact .refused fun h => by cases hstart.symm.trans h.1
  dsimp only
  split
  · rename_i hfin
    exact .refused fun h => by cases hfin.symm.trans h.2.1
  split
  · rename_i hon
    exact .refused fun h => hon h.2.2
  rename_i hstart hfin hoff
  have htakes := Flags.Takes.accepted (x := mqFlags s r) (c := .autoPing period)
    ⟨Bool.eq_true_of_not_eq_false hstart, Bool.eq_false_of_not_eq_true hfin, of_not_not hoff⟩
  split
  · exact htakes
  split
  · exact htakes
  · exact htakes

/-- A queue stream takes an idle timeout once. -/
theorem mq_takes_idleTimerRun (s : BlobStreamMqSender) (r : BlobStreamMqReceiver) (timeout : {n : Nat // 0 < n}) :
    (mqFlags s r).Takes (.idleTimerRun timeout) (r.idleTimerRun timeout).1
      (mqFlags s (r.idleTimerRun timeout).2) := by
  unfold BlobStreamMqReceiver.idleTimerRun
  rw [BlobStreamMqReceiver.assert_of timeout.property]
  dsimp only
  split
  · rename_i hstart
    exact .refused fun h => by cases hstart.symm.trans h.1
  split
  · rename_i hon
    exact .refused fun h => hon h.2
  rename_i hstart hoff
  have htakes := Flags.Takes.accepted (x := mqFlags s r) (c := .idleTimerRun timeout)
    ⟨Bool.eq_true_of_not_eq_false hstart, of_not_not hoff⟩
  split
  · exact htakes
  · exact htakes

/-- A queue stream takes a call once, after the direction has been started. -/
theorem mq_takes (w : MqStream.World) (c : Call) (ks : List MqAnswer) :
    (mqFlags w.snd w.rcv).Takes c (mqCall w c ks).1 (mqFlags (mqCall w c ks).2.snd (mqCall w c ks).2.rcv) := by
  cases c with
  | endSending => exact mq_takes_end (w.snd.withAnswers ks) w.rcv none
  | asyncEndSending f => exact (mq_takes_end (w.snd.withAnswers ks) w.rcv (some f)).async f
  | autoPing period => exact mq_takes_autoPing (w.snd.withAnswers ks) w.rcv period
  | idleTimerRun timeout => exact mq_takes_idleTimerRun w.snd (w.rcv.withAnswers ks) timeout

/-- A queue stream is a pipe. -/
def mqPipe : Pipe where
  State := MqStream.World
  Move := {m : MqStream.Move // mqIsCall m = false}
  Answers := List MqAnswer
  Init w := ∃ n, w = MqStream.World.init n
  next w m := w.next m.val
  call := mqCall
  flags w := mqFlags w.snd w.rcv
  Holds := MqStream.World.Reached
  init_holds _ h := .of_init h
  init_flags := by
    rintro w ⟨n, rfl⟩
    exact ⟨rfl, rfl, rfl⟩
  next_holds _ _ _ h hnext := h.snoc hnext
  next_keeps _ m _ h hnext := mq_keeps h m.property hnext
  call_holds w c ks h := by
    cases c with
    | endSending => exact h.snoc (i := mqMove .endSending ks) rfl
    | asyncEndSending f => exact h.snoc (i := mqMove (.asyncEndSending f) ks) rfl
    | autoPing period => exact h.snoc (i := mqMove (.autoPing period) ks) rfl
    | idleTimerRun timeout => exact h.snoc (i := mqMove (.idleTimerRun timeout) ks) rfl
  call_takes w c ks _ := mq_takes w c ks

end Mq

/-! ## The socket stream -/

section Socket

open SocketStream

/-- What calls of a socket stream go by: without a peer nothing counts as started. -/
def socketFlags (s : NativeSocketStreamSnd) (r : NativeSocketStreamRcv) : Flags :=
  ⟨s.started && s.statePeer, s.finished, s.autoPingPeriod, r.started && r.statePeer, r.inp.idleTimeout⟩

/-- The step that a call is. -/
def socketMove (c : Call) (ks : List SockAnswer) : SocketStream.Move :=
  match c with
  | .endSending => .snd .endSending ks
  | .asyncEndSending f => .snd (.asyncEndSending f) ks
  | .autoPing period => .snd (.autoPing period) ks
  | .idleTimerRun timeout => .rcv (.idleTimerRun timeout) ks

/-- What a call returns.
Source: `native_socket_stream_impl_snd.cpp` `end_sending`, `async_end_sending`, `auto_ping`;
`native_socket_stream_impl_rcv.cpp` `idle_timer_run` -/
def socketReturns (w : SocketStream.World) (c : Call) (ks : List SockAnswer) : Bool :=
  match c with
  | .endSending => (w.snd.withAnswers ks).endSending.1
  | .asyncEndSending f => ((w.snd.withAnswers ks).asyncEndSending f).1
  | .autoPing period => ((w.snd.withAnswers ks).autoPing period).1
  | .idleTimerRun timeout => ((w.rcv.withAnswers ks).idleTimerRun timeout).1

/-- A call, with what it returns. -/
def socketCall (w : SocketStream.World) (c : Call) (ks : List SockAnswer) : Bool × SocketStream.World :=
  (socketReturns w c ks, (w.next (socketMove c ks)).getD w)

/-- The step is such a call. -/
def socketIsCall : SocketStream.Move → Bool
  | .snd .endSending _ => true
  | .snd (.asyncEndSending _) _ => true
  | .snd (.autoPing _) _ => true
  | .rcv (.idleTimerRun _) _ => true
  | _ => false

variable {s s' : NativeSocketStreamSnd} {r r' : NativeSocketStreamRcv} {told : Option (List Frame)}

/-- Only `auto_ping()` sets the period. -/
theorem socket_period {i : NativeSocketStreamSnd.Input} {ks : List SockAnswer}
    {obs : List NativeSocketStreamSnd.Obs} (h : s.Inv told) (hstep : s.step i ks = some (s', obs))
    (hi : ∀ period, i ≠ .autoPing period) : s'.autoPingPeriod = s.autoPingPeriod := by
  have hu := h.withAnswers ks
  change s'.autoPingPeriod = (s.withAnswers ks).autoPingPeriod
  unfold NativeSocketStreamSnd.step at hstep
  generalize s.withAnswers ks = u at hu hstep ⊢
  cases i with
  | connected =>
      cases hstep
      rfl
  | startSendNativeHandleOps =>
      cases hstep
      exact congrArg Prod.fst socketFrame_startSendNativeHandleOps
  | sendNativeHandle m =>
      rcases hcall : u.sendNativeHandle m.val.1 m.val.2 with ⟨ok, err, t⟩
      have hframe : t.autoPingPeriod = u.autoPingPeriod :=
        congrArg Prod.fst (socketFrame_sendNativeHandle hu hcall).1
      simp only [hcall] at hstep
      split at hstep
      · rename_i heq
        cases heq
        cases hstep
        exact hframe
      · rename_i heq
        cases heq
        cases hstep
        exact hframe
  | endSending =>
      cases hstep
      exact congrArg Prod.fst socketFrame_asyncEndSendingImpl.1
  | asyncEndSending f =>
      cases hstep
      exact congrArg Prod.fst socketFrame_asyncEndSendingImpl.1
  | autoPing period => exact absurd rfl (hi period)
  | socketWritable =>
      have hframe := socketFrame_onEvPeerSocketWritableOrError
        (s := { u with out := { u.out with evWaits := u.out.evWaits - 1 } })
      simp only [Option.ite_none_right_eq_some] at hstep
      obtain ⟨-, hstep⟩ := hstep
      cases hstep
      exact congrArg Prod.fst hframe
  | timerFires =>
      obtain ⟨t, -, heq⟩ := Option.map_eq_some_iff.mp hstep
      cases heq
      rfl
  | timerReadable =>
      obtain ⟨t, -, heq⟩ := Option.map_eq_some_iff.mp hstep
      cases heq
      unfold NativeSocketStreamSnd.onEvAutoPingNowTimerFired
      dsimp only
      split_ifs <;> rfl

/-- Only `idle_timer_run()` sets the timeout. -/
theorem socket_timeout {i : NativeSocketStreamRcv.Input} {ks : List SockAnswer}
    {obs : List NativeSocketStreamRcv.Obs} (hok : r.inp.idleTimer.Ok) (hstep : r.step i ks = some (r', obs))
    (hi : ∀ timeout, i ≠ .idleTimerRun timeout) : r'.inp.idleTimeout = r.inp.idleTimeout := by
  have hu : (r.withAnswers ks).inp.idleTimer.Ok := hok
  change r'.inp.idleTimeout = (r.withAnswers ks).inp.idleTimeout
  cases i with
  | connected =>
      cases hstep
      rfl
  | startReceiveNativeHandleOps =>
      cases hstep
      unfold NativeSocketStreamRcv.startReceiveNativeHandleOps
      split <;> rfl
  | asyncReceiveNativeHandle hndl buf f =>
      cases hstep
      exact congrArg Prod.fst (socketIdleFrame_asyncReceive hu (some hndl) buf f).1
  | asyncReceiveBlob buf f =>
      cases hstep
      exact congrArg Prod.fst (socketIdleFrame_asyncReceive hu none buf f).1
  | idleTimerRun timeout => exact absurd rfl (hi timeout)
  | socketReadable msgState =>
      dsimp only [NativeSocketStreamRcv.step] at hstep
      split at hstep
      · cases hstep
        exact congrArg Prod.fst (socketIdleFrame_onEvReadable (r := { r.withAnswers ks with
          inp := { (r.withAnswers ks).inp with
            evWaits := (r.withAnswers ks).inp.evWaits.erase msgState } }) hu msgState).1
      · cases hstep
  | timerFires =>
      obtain ⟨t, -, heq⟩ := Option.map_eq_some_iff.mp hstep
      cases heq
      rfl
  | timerReadable =>
      obtain ⟨t, -, -, htimeout, -⟩ := socketReceiver_readable hstep
      exact htimeout

/-- Whatever else is done with a socket stream, it has accepted the calls that it has. -/
theorem socket_keeps {w w' : SocketStream.World} {m : SocketStream.Move} (h : w.Reached)
    (hm : socketIsCall m = false) (hnext : w.next m = some w') :
    (socketFlags w.snd w.rcv).Keeps (socketFlags w'.snd w'.rcv) := by
  obtain ⟨told, done, hinv⟩ := h.inv
  cases m with
  | snd i ks =>
      simp only [SocketStream.World.next, Option.map_eq_some_iff] at hnext
      obtain ⟨⟨s', obs⟩, hstep, rfl⟩ := hnext
      refine ⟨?_, ?_, rfl⟩
      · apply NativeSocketStreamSnd.finished_step hinv.snd hstep
        cases i with
        | endSending => cases hm
        | asyncEndSending f => cases hm
        | _ => rfl
      · apply socket_period hinv.snd hstep
        rintro period rfl
        cases hm
  | rcv i ks =>
      simp only [SocketStream.World.next, Option.map_eq_some_iff] at hnext
      obtain ⟨⟨r', obs⟩, hstep, rfl⟩ := hnext
      refine ⟨rfl, rfl, ?_⟩
      apply socket_timeout hinv.rcv.sound.timer hstep
      rintro timeout rfl
      cases hm

/-- Started, and with a peer. -/
theorem started_and_iff {started statePeer : Bool} :
    (started && statePeer) = true ↔ ¬ (started = false ∨ statePeer = false) := by
  cases started <;> cases statePeer <;> decide

/-- A socket stream takes the end of sending once. -/
theorem socket_takes_end (s : NativeSocketStreamSnd) (r : NativeSocketStreamRcv) (f : Option Nat) :
    (socketFlags s r).Takes .endSending (s.asyncEndSendingImpl f).1
      (socketFlags (s.asyncEndSendingImpl f).2.2 r) := by
  unfold NativeSocketStreamSnd.asyncEndSendingImpl
  split
  · rename_i hstart
    exact .refused fun h => started_and_iff.mp h.1 hstart
  split
  · rename_i hfin
    exact .refused fun h => by cases hfin.symm.trans h.2
  rename_i hstart hfin
  have htakes := Flags.Takes.accepted (x := socketFlags s r) (c := .endSending)
    ⟨started_and_iff.mpr hstart, Bool.eq_false_of_not_eq_true hfin⟩
  dsimp only
  split
  · exact htakes
  · split_ifs <;> exact htakes

/-- A socket stream takes a period for pings once, before it is ended. -/
theorem socket_takes_autoPing (s : NativeSocketStreamSnd) (r : NativeSocketStreamRcv)
    (period : {n : Nat // 0 < n}) :
    (socketFlags s r).Takes (.autoPing period) (s.autoPing period).1 (socketFlags (s.autoPing period).2 r) := by
  unfold NativeSocketStreamSnd.autoPing
  rw [NativeSocketStreamSnd.assert_of period.property]
  split
  · rename_i hstart
    exact .refused fun h => started_and_iff.mp h.1 hstart
  dsimp only
  split
  · rename_i hfin
    exact .refused fun h => by cases hfin.symm.trans h.2.1
  split
  · rename_i hon
    exact .refused fun h => hon h.2.2
  rename_i hstart hfin hoff
  have htakes := Flags.Takes.accepted (x := socketFlags s r) (c := .autoPing period)
    ⟨started_and_iff.mpr hstart, Bool.eq_false_of_not_eq_true hfin, of_not_not hoff⟩
  split
  · exact htakes
  split
  · exact htakes
  · exact htakes

/-- A socket stream takes an idle timeout once. -/
theorem socket_takes_idleTimerRun (s : NativeSocketStreamSnd) (r : NativeSocketStreamRcv)
    (timeout : {n : Nat // 0 < n}) :
    (socketFlags s r).Takes (.idleTimerRun timeout) (r.idleTimerRun timeout).1
      (socketFlags s (r.idleTimerRun timeout).2) := by
  unfold NativeSocketStreamRcv.idleTimerRun
  rw [NativeSocketStreamRcv.assert_of timeout.property]
  dsimp only
  split
  · rename_i hstart
    exact .refused fun h => started_and_iff.mp h.1 hstart
  split
  · rename_i hon
    exact .refused fun h => hon h.2
  rename_i hstart hoff
  have htakes := Flags.Takes.accepted (x := socketFlags s r) (c := .idleTimerRun timeout)
    ⟨started_and_iff.mpr hstart, of_not_not hoff⟩
  split
  · exact htakes
  · exact htakes

/-- A socket stream takes a call once, after the direction has been started. -/
theorem socket_takes (w : SocketStream.World) (c : Call) (ks : List SockAnswer) :
    (socketFlags w.snd w.rcv).Takes c (socketCall w c ks).1
      (socketFlags (socketCall w c ks).2.snd (socketCall w c ks).2.rcv) := by
  cases c with
  | endSending => exact socket_takes_end (w.snd.withAnswers ks) w.rcv none
  | asyncEndSending f => exact (socket_takes_end (w.snd.withAnswers ks) w.rcv (some f)).async f
  | autoPing period => exact socket_takes_autoPing (w.snd.withAnswers ks) w.rcv period
  | idleTimerRun timeout => exact socket_takes_idleTimerRun w.snd (w.rcv.withAnswers ks) timeout

/-- A socket stream is a pipe; a channel is given one with a peer. -/
def socketPipe : Pipe where
  State := SocketStream.World
  Move := {m : SocketStream.Move // socketIsCall m = false}
  Answers := List SockAnswer
  Init w := w = SocketStream.World.init true true
  next w m := w.next m.val
  call := socketCall
  flags w := socketFlags w.snd w.rcv
  Holds := SocketStream.World.Reached
  init_holds _ h := .of_init ⟨true, true, h⟩
  init_flags := by
    rintro w rfl
    exact ⟨rfl, rfl, rfl⟩
  next_holds _ _ _ h hnext := Reachable.snoc h hnext
  next_keeps _ m _ h hnext := socket_keeps h m.property hnext
  call_holds w c ks h := by
    cases c with
    | endSending => exact Reachable.snoc (i := socketMove .endSending ks) h rfl
    | asyncEndSending f => exact Reachable.snoc (i := socketMove (.asyncEndSending f) ks) h rfl
    | autoPing period => exact Reachable.snoc (i := socketMove (.autoPing period) ks) h rfl
    | idleTimerRun timeout => exact Reachable.snoc (i := socketMove (.idleTimerRun timeout) ks) h rfl
  call_takes w c ks _ := socket_takes w c ks

end Socket

/-! ## The result -/

/-- A channel whose blobs go over queues, and whose handles over a socket.
Source: `channel.hpp` `Mqs_socket_stream_channel` -/
abbrev MqsSocketStreamChannel :=
  Channel mqPipe socketPipe

/-- The queue stream of such a channel. -/
def MqsSocketStreamChannel.queue (c : MqsSocketStreamChannel) : MqStream.World :=
  c.blobs

/-- The socket stream of such a channel. -/
def MqsSocketStreamChannel.socket (c : MqsSocketStreamChannel) : SocketStream.World :=
  c.hndls

/-- Whoever has been told of the end has been told by one who has ended. -/
theorem finished_of_mqClosed {w : MqStream.World} (h : w.Reached) (hclosed : w.closed = true) :
    w.snd.finished = true := by
  obtain ⟨fs, done, hinv⟩ := h.inv
  exact hinv.snd.ended (hinv.rcv.reads.done_prefix.subset (hinv.closed hclosed))

/-- Whoever has been told of the end of a socket stream has been told by one who has ended. -/
theorem finished_of_socketClosed {w : SocketStream.World} (h : w.Reached) (hclosed : w.closed = true) :
    w.snd.finished = true := by
  obtain ⟨told, done, hinv⟩ := h.inv
  have hmem := hinv.rcv.sound.within.frames_prefix.subset (hinv.closed hclosed)
  cases told with
  | none => cases hmem
  | some fs => exact hinv.snd.ended fs rfl hmem

/-- The two pipes of a channel stay in step for as long as the assertion that they do has not failed. -/
theorem inStep {start c : MqsSocketStreamChannel} {is : List (Channel.Input mqPipe socketPipe)}
    (h : start.Init) (hrun : Run Channel.Step start is c) :
    c.queue.Reached ∧ c.socket.Reached ∧
      (c.assertFailed = true ↔ ∃ is₁ i is₂ v,
        is = is₁ ++ i :: is₂ ∧ Run Channel.Step start is₁ v ∧ v.Trips i ∧ Run Channel.Step v (i :: is₂) c) ∧
      (c.assertFailed = false ↔
        (mqFlags c.queue.snd c.queue.rcv).Agree (socketFlags c.socket.snd c.socket.rcv)) ∧
      (c.assertFailed = false → c.queue.closed = true ∨ c.socket.closed = true →
        c.queue.snd.finished = true ∧ c.socket.snd.finished = true) := by
  have hinv := h.inv.run hrun
  refine ⟨hinv.blobs, hinv.hndls, Channel.assertFailed_iff h hrun, hinv.agree_iff, ?_⟩
  intro hok hclosed
  have hsame : c.queue.snd.finished = c.socket.snd.finished := (hinv.agree hok).finished
  rcases hclosed with hclosed | hclosed
  · have hfin := finished_of_mqClosed (w := c.queue) hinv.blobs hclosed
    exact ⟨hfin, hsame.symm.trans hfin⟩
  · have hfin := finished_of_socketClosed (w := c.socket) hinv.hndls hclosed
    exact ⟨hsame.trans hfin, hfin⟩

section Sample

open MqStream (MqAnswer)
open SocketStream (SockAnswer)

/-- A channel just constructed, over queues for messages of up to 8 bytes. -/
def sampleStart : MqsSocketStreamChannel :=
  ⟨MqStream.World.init 8, SocketStream.World.init true true, false⟩

/-- Both pipes are started and ping; the receiving direction is started in the blobs pipe alone when the idle
timer is; then the sending is ended, and the blobs pipe reports it. -/
def sampleInputs : List (Channel.Input mqPipe socketPipe) :=
  [.blobs (show {m // mqIsCall m = false} from ⟨MqStream.Move.snd .startSendBlobOps [.ready, .ready], rfl⟩),
    .hndls (show {m // socketIsCall m = false} from ⟨SocketStream.Move.snd .startSendNativeHandleOps [.moves 9], rfl⟩),
    .autoPing (Nat.succPNat 4) (show List MqAnswer from [.ready, .ready]) (show List SockAnswer from [.moves 9]),
    .blobs (show {m // mqIsCall m = false} from ⟨MqStream.Move.rcv .startReceiveBlobOps [], rfl⟩),
    .idleTimerRun (Nat.succPNat 8) (show List MqAnswer from []) (show List SockAnswer from []),
    .hndls (show {m // socketIsCall m = false} from ⟨SocketStream.Move.rcv .startReceiveNativeHandleOps [], rfl⟩),
    .endSending (show List MqAnswer from [.ready, .ready]) (show List SockAnswer from [.moves 9]),
    .blobs (show {m // mqIsCall m = false} from
      ⟨MqStream.Move.rcv (.asyncReceiveBlob 8 0) [.ready, .ready, .ready, .ready, .ready, .ready], rfl⟩)]

/-- In such a run the assertion has failed, and so the two have come apart. -/
theorem inStep_sampleInputs : ∃ c : MqsSocketStreamChannel, sampleInputs.foldlM Channel.next sampleStart = some c ∧
    c.assertFailed = true ∧ c.queue.closed = true ∧
      (∃ is₁ i is₂ v, sampleInputs = is₁ ++ i :: is₂ ∧ Run Channel.Step sampleStart is₁ v ∧ v.Trips i ∧
        Run Channel.Step v (i :: is₂) c) ∧
      ¬ (mqFlags c.queue.snd c.queue.rcv).Agree (socketFlags c.socket.snd c.socket.rcv) := by
  have hseen : (sampleInputs.foldlM Channel.next sampleStart).map
      (fun c : MqsSocketStreamChannel => (c.assertFailed, c.queue.closed)) = some (true, true) := by decide +kernel
  obtain ⟨c, hfold, hseen⟩ := Option.map_eq_some_iff.mp hseen
  obtain ⟨hfailed, hclosed⟩ := Prod.mk.inj hseen
  have hstart : sampleStart.Init := ⟨⟨8, rfl⟩, rfl, rfl⟩
  obtain ⟨-, -, htrip, hagree, -⟩ := inStep hstart (.of_foldlM hfold)
  refine ⟨c, hfold, hfailed, hclosed, htrip.mp hfailed, ?_⟩
  intro hboth
  cases hfailed.symm.trans (hagree.mpr hboth)

end Sample

end FlowIpc.ChannelJoint
