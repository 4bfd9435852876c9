import FlowIpc.Adapter.MqRcvCore
import FlowIpc.Adapter.Rcv

/-!
# Requests are served in call order

`Served`: the handlers that have been told something, or are about to be, are those of the first
requests, in call order, and the pending requests are the others. Each result that the core comes to
keeps this, and so does the whole loop that serves the queue.

**Result.** `firstComeFirstServed`: in every state that an adapter can come to, over any core.
-/

namespace FlowIpc.Adapter

open MqStream PrefixCode

namespace AsyncAdapterReceiver

variable {C : RcvCore} {a : AsyncAdapterReceiver C}

/-! ## One result -/

/-- An error answers every pending request. -/
theorem processMsgOrError_error {r : UserRequest C.Req} {e : Err} (hr : a.userRequest = some r)
    (hgen : Genuine (some e)) :
    a.processMsgOrError (some e, C.noMsg) =
      { a with
        userRequest := none
        pendingUserRequestsQ := []
        worker := a.worker ++ a.pending.map fun r => (r, some e, C.noMsg)
        coreResults := a.coreResults ++ [(some e, C.noMsg)] } := by
  unfold processMsgOrError
  simp only
  rw [assert_of hgen.2.1, assert_of hgen.1]
  simp only
  rw [assert_of (by simp [hr])]
  simp only [hr, Option.isSome_some, if_true]
  rw [assert_of (.inr C.sz_noMsg)]
  simp [pending, hr]

/-- A message answers the head, and the next request in the queue becomes it. -/
theorem processMsgOrError_message {r : UserRequest C.Req} {m : C.Msg}
    (hr : a.userRequest = some r) :
    a.processMsgOrError (none, m) =
      { a with
        userRequest := a.pendingUserRequestsQ.head?
        pendingUserRequestsQ := a.pendingUserRequestsQ.tail
        worker := a.worker ++ [(r, none, m)]
        coreResults := a.coreResults ++ [(none, m)] } := by
  unfold processMsgOrError
  simp only
  rw [assert_of (p := (none : ErrorCode) ≠ operationAborted) (by simp),
    assert_of (p := (none : ErrorCode) ≠ wouldBlock) (by simp)]
  simp only
  rw [assert_of (by simp [hr])]
  simp only [hr, Option.isSome_none, Bool.false_eq_true, if_false]
  cases a.pendingUserRequestsQ with
  | nil => rfl
  | cons r' q => rfl

/-- Where nothing is queued the head slot is left empty. -/
theorem processMsgOrError_last {r : UserRequest C.Req} {res : Result C.Msg}
    (hr : a.userRequest = some r) (hq : a.pendingUserRequestsQ = []) :
    (a.processMsgOrError res).userRequest = none := by
  unfold processMsgOrError
  simp only [assert, hr, hq]
  split
  · rfl
  · rfl

/-! ## What stays true -/

/-- The message a result consists in, if it does. -/
def message? : Result C.Msg → Option C.Msg
  | (none, m) => some m
  | (some _, _) => none

/-- A result that leaves the pipe as it was. -/
def Harmless (res : Result C.Msg) : Prop :=
  res.1 = none ∨ res.1 = Code.invalidArgument.toErrorCode

/-- The requests `issued` have been made, and the handlers in `invoked` invoked. -/
structure Served (issued : List (UserRequest C.Req))
    (invoked : List (UserRequest C.Req × Result C.Msg)) (a : AsyncAdapterReceiver C) : Prop where
  core : C.Inv a.syncIo
  noFailure : a.assertFailed = false
  queue : a.pendingUserRequestsQ ≠ [] → a.userRequest.isSome
  order : (invoked ++ a.worker).map Prod.fst ++ a.pending = issued
  messages : (invoked ++ a.worker).filterMap (message? ·.2) = a.coreResults.filterMap message?
  /-- Once the pipe is hosed every handler is told the error. -/
  errors : ∃ pre post, (invoked ++ a.worker).map Prod.snd = pre ++ post ∧
    (∀ res ∈ pre, Harmless res) ∧
    (∀ res ∈ post, ∃ e, C.hosed a.syncIo = some e ∧ res = (some e, C.noMsg))

/-- A hosed pipe has no pending requests. -/
def Flushed (a : AsyncAdapterReceiver C) : Prop :=
  C.hosed a.syncIo ≠ none → a.pending = []

/-- A request is outstanding on the core exactly if one is pending. -/
def Steady (a : AsyncAdapterReceiver C) : Prop :=
  a.userRequest.isSome = C.outstanding a.syncIo

variable {issued : List (UserRequest C.Req)} {invoked : List (UserRequest C.Req × Result C.Msg)}

/-- With the head slot empty nothing is queued. -/
theorem Served.queue_nil (h : a.Served issued invoked) (hr : a.userRequest = none) :
    a.pendingUserRequestsQ = [] := by
  by_contra hq
  have hsome := h.queue hq
  simp [hr] at hsome

/-- Without a request in progress there is none behind it. -/
theorem Served.pending_nil (h : a.Served issued invoked) (hr : a.userRequest = none) :
    a.pending = [] := by
  rw [pending, hr, h.queue_nil hr]
  rfl

/-- While the pipe is not hosed no handler has been told that it is. -/
theorem Served.harmless (h : a.Served issued invoked) (hopen : C.hosed a.syncIo = none) :
    ∀ c ∈ invoked ++ a.worker, Harmless c.2 := by
  obtain ⟨pre, post, hlog, hpre, hpost⟩ := h.errors
  intro c hmem
  have hres : c.2 ∈ pre ++ post := by
    rw [← hlog]
    exact List.mem_map_of_mem hmem
  rcases List.mem_append.mp hres with hres | hres
  · exact hpre _ hres
  · obtain ⟨e, he, -⟩ := hpost _ hres
    rw [hopen] at he
    cases he

/-- The handlers `new` are posted, for the first of the pending requests, on a result `res`. -/
theorem Served.post {a' : AsyncAdapterReceiver C} (h : a.Served issued invoked)
    (new : List (UserRequest C.Req × Result C.Msg)) (res : Result C.Msg)
    (hcore : C.Inv a'.syncIo) (hfail : a'.assertFailed = a.assertFailed)
    (hqueue : a'.pendingUserRequestsQ ≠ [] → a'.userRequest.isSome)
    (hworker : a'.worker = a.worker ++ new) (hpend : new.map Prod.fst ++ a'.pending = a.pending)
    (hres : a'.coreResults = a.coreResults ++ [res])
    (hmsg : new.filterMap (message? ·.2) = [res].filterMap message?)
    (hnew : (C.hosed a.syncIo = none ∧ ∀ c ∈ new, Harmless c.2) ∨
      ∃ e, (C.hosed a.syncIo = none ∨ C.hosed a.syncIo = some e) ∧ C.hosed a'.syncIo = some e ∧
        ∀ c ∈ new, c.2 = (some e, C.noMsg)) :
    a'.Served issued invoked where
  core := hcore
  noFailure := hfail.trans h.noFailure
  queue := hqueue
  order := by
    rw [hworker, ← List.append_assoc, List.map_append, List.append_assoc, hpend, h.order]
  messages := by
    have hold := h.messages
    rw [hworker, hres, ← List.append_assoc, List.filterMap_append, hold, hmsg,
      ← List.filterMap_append]
  errors := by
    obtain ⟨pre, post, hlog, hpre, hpost⟩ := h.errors
    rw [hworker, ← List.append_assoc, List.map_append, hlog]
    rcases hnew with ⟨hopen, hnew⟩ | ⟨e, hbefore, he, hnew⟩
    · have hold := h.harmless hopen
      refine ⟨_, [], (List.append_nil _).symm, ?_, by simp⟩
      intro res hmem
      rw [← hlog, ← List.map_append] at hmem
      obtain ⟨c, hc, rfl⟩ := List.mem_map.mp hmem
      rcases List.mem_append.mp hc with hc | hc
      · exact hold c hc
      · exact hnew c hc
    · refine ⟨pre, post ++ new.map Prod.snd, by rw [List.append_assoc], hpre, ?_⟩
      intro res hmem
      rcases List.mem_append.mp hmem with hmem | hmem
      · obtain ⟨e', he', hr⟩ := hpost res hmem
        have heq : e' = e := by
          rcases hbefore with hbefore | hbefore
          · rw [hbefore] at he'
            cases he'
          · rw [hbefore] at he'
            exact (Option.some.inj he').symm
        exact ⟨e, he, heq ▸ hr⟩
      · obtain ⟨c, hc, rfl⟩ := List.mem_map.mp hmem
        exact ⟨e, he, hnew c hc⟩

/-- An error for everyone pending is a message for no one. -/
theorem filterMap_message_error (rs : List (UserRequest C.Req)) (e : Err) :
    ((rs.map fun r => (r, (some e, C.noMsg))).filterMap fun c => message? c.2) = [] := by
  induction rs with
  | nil => rfl
  | cons r rs ih => exact ih

/-- A result that the core comes to for the head request. -/
theorem Served.processMsgOrError {s : C.State} {res : Result C.Msg} (h : a.Served issued invoked)
    (hr : a.userRequest.isSome) (hs : C.Inv s)
    (hc : Completes C.outstanding C.hosed C.noMsg a.syncIo s res) :
    ({ a with syncIo := s }.processMsgOrError res).Served issued invoked ∧
      ({ a with syncIo := s }.processMsgOrError res).Flushed ∧
      ({ a with syncIo := s }.processMsgOrError res).syncIo = s := by
  obtain ⟨r, hr⟩ := Option.isSome_iff_exists.mp hr
  have hpend : a.pending = r :: a.pendingUserRequestsQ := by simp [pending, hr]
  cases hc with
  | message m hopen hopen' _ =>
      rw [processMsgOrError_message (r := r) (by exact hr)]
      refine ⟨h.post [(r, none, m)] (none, m) hs rfl ?_ rfl ?_ rfl rfl
        (.inl ⟨hopen, ?_⟩), ?_, rfl⟩
      · cases a.pendingUserRequestsQ <;> simp
      · rw [hpend]
        cases a.pendingUserRequestsQ <;> simp [pending]
      · intro c hmem
        rw [List.mem_singleton.mp hmem]
        exact .inl rfl
      · intro hhosed
        exact absurd hopen' hhosed
  | hosed e ne ne' before hhosed _ =>
      rw [processMsgOrError_error (r := r) (by exact hr) ne]
      refine ⟨h.post _ (some e, C.noMsg) hs rfl ?_ rfl ?_ rfl
        (filterMap_message_error _ e) (.inr ⟨e, before, hhosed, ?_⟩), fun _ => rfl, rfl⟩
      · simp
      · simp [pending, Function.comp_def]
      · intro c hmem
        obtain ⟨r', -, rfl⟩ := List.mem_map.mp hmem
        rfl
  | invalid hopen same =>
      rw [processMsgOrError_error (r := r) (by exact hr) (by simp)]
      refine ⟨h.post _ (some _, C.noMsg) hs rfl ?_ rfl ?_ rfl
        (filterMap_message_error _ _) (.inl ⟨hopen, ?_⟩), fun _ => rfl, rfl⟩
      · simp
      · simp [pending, Function.comp_def]
      · intro c hmem
        obtain ⟨r', -, rfl⟩ := List.mem_map.mp hmem
        exact .inr rfl

/-- The core may change by itself, as long as the error that hosed it stays. -/
theorem Served.setCore {s : C.State} (h : a.Served issued invoked) (hs : C.Inv s)
    (hhosed : C.hosed a.syncIo = none ∨ C.hosed s = C.hosed a.syncIo) :
    ({ a with syncIo := s } : AsyncAdapterReceiver C).Served issued invoked := by
  obtain ⟨pre, post, hlog, hpre, hpost⟩ := h.errors
  refine { h with core := hs, errors := ⟨pre, post, hlog, hpre, ?_⟩ }
  intro res hmem
  obtain ⟨e, he, hres⟩ := hpost res hmem
  rcases hhosed with hopen | heq
  · rw [hopen] at he
    cases he
  · exact ⟨e, heq.trans he, hres⟩

/-! ## The queue -/

/-- Those behind are served in order, until one would block or none is left. -/
theorem Served.serveQueue (h : a.Served issued invoked) (hflushed : a.Flushed)
    (hidle : C.outstanding a.syncIo = false) (ans : Nat → C.Ans) (i : Nat) :
    (a.serveQueue ans i).Served issued invoked ∧ (a.serveQueue ans i).Flushed ∧
      (a.serveQueue ans i).Steady := by
  -- Each turn uses up a pending request.
  induction hn : a.pending.length using Nat.strongRecOn generalizing a i with
  | ind n ih =>
    rw [AsyncAdapterReceiver.serveQueue]
    split
    · rename_i hnone
      refine ⟨h, hflushed, ?_⟩
      rw [Steady, hnone, hidle]
      rfl
    · rename_i r hr
      rcases hcall : C.asyncReceive a.syncIo r.target (ans i) with ⟨ok, res, s⟩
      obtain ⟨rfl, hs, hcases⟩ := C.receive_spec _ _ _ _ _ _ h.core hidle hcall
      simp only
      rw [assert_of trivial]
      rcases hcases with ⟨rfl, hout, hafter, hbefore⟩ | ⟨hne, hcompl⟩
      · rw [if_pos rfl]
        refine ⟨h.setCore hs (.inl hbefore), fun hhosed => absurd hafter hhosed, ?_⟩
        rw [Steady, hr, hout]
        rfl
      · rw [if_neg hne]
        have hisSome : a.userRequest.isSome := by rw [hr]; rfl
        obtain ⟨hserved, hfl, hcore⟩ := h.processMsgOrError hisSome hs hcompl
        have hless :
            ({ a with syncIo := s }.processMsgOrError res).pending.length < a.pending.length :=
          processMsgOrError_pending hisSome
        apply ih _ (hn ▸ hless) hserved hfl _ _ rfl
        rw [hcore]
        exact hcompl.idle hidle

/-- A request that comes while none is pending is the head. -/
theorem Served.setHead (h : a.Served issued invoked) (hr : a.userRequest = none)
    (r : UserRequest C.Req) :
    ({ a with userRequest := some r } : AsyncAdapterReceiver C).Served (issued ++ [r]) invoked := by
  have hq := h.queue_nil hr
  refine { h with queue := fun _ => rfl, order := ?_ }
  rw [← h.order]
  simp [pending, hr, hq]

/-- It is given to the core at once. -/
theorem Served.asyncReceive (h : a.Served issued invoked) (hflushed : a.Flushed)
    (hsteady : a.Steady) (r : UserRequest C.Req) (ans : C.Ans) :
    (a.asyncReceiveNativeHandleImpl r ans).Served (issued ++ [r]) invoked ∧
      (a.asyncReceiveNativeHandleImpl r ans).Flushed ∧
      (a.asyncReceiveNativeHandleImpl r ans).Steady := by
  unfold asyncReceiveNativeHandleImpl
  split
  · rename_i hsome
    refine ⟨{ h with queue := fun _ => hsome, order := ?_ }, ?_, hsteady⟩
    · rw [← h.order]
      simp [pending]
    · intro hhosed
      have hnil := hflushed hhosed
      obtain ⟨r', hr'⟩ := Option.isSome_iff_exists.mp hsome
      simp [pending, hr'] at hnil
  · rename_i hnone
    have hnone : a.userRequest = none := by simpa using hnone
    have hq := h.queue_nil hnone
    have hidle : C.outstanding a.syncIo = false := by
      rw [← hsteady, hnone]
      rfl
    have hu := h.setHead hnone r
    rcases hcall : C.asyncReceive a.syncIo r.target ans with ⟨ok, res, s⟩
    obtain ⟨rfl, hs, hcases⟩ := C.receive_spec _ _ _ _ _ _ h.core hidle hcall
    simp only [hcall]
    rw [assert_of trivial]
    rcases hcases with ⟨rfl, hout, hafter, hbefore⟩ | ⟨hne, hcompl⟩
    · rw [if_pos rfl]
      refine ⟨hu.setCore hs (.inl hbefore), fun hhosed => absurd hafter hhosed, ?_⟩
      rw [Steady, hout]
      rfl
    · rw [if_neg hne]
      obtain ⟨hserved, hfl, hcore⟩ := hu.processMsgOrError rfl hs hcompl
      refine ⟨hserved, hfl, ?_⟩
      rw [Steady, hcore, hcompl.idle hidle, processMsgOrError_last (r := r) (by rfl) (by exact hq)]
      rfl

/-- A result that the core comes to in an event, and what follows from it. -/
theorem Served.onSyncIoRcvDone {s : C.State} {res : Result C.Msg} (h : a.Served issued invoked)
    (hr : a.userRequest.isSome) (hs : C.Inv s) (hidle : C.outstanding s = false)
    (hc : Completes C.outstanding C.hosed C.noMsg a.syncIo s res) (ans : Nat → C.Ans) :
    ({ a with syncIo := s }.onSyncIoRcvDone res ans).Served issued invoked ∧
      ({ a with syncIo := s }.onSyncIoRcvDone res ans).Flushed ∧
      ({ a with syncIo := s }.onSyncIoRcvDone res ans).Steady := by
  obtain ⟨hserved, hfl, hcore⟩ := h.processMsgOrError hr hs hc
  apply hserved.serveQueue hfl
  rw [hcore, hidle]

end AsyncAdapterReceiver

namespace RcvWorld

open AsyncAdapterReceiver

variable {C : RcvCore} {w w' : RcvWorld C}

/-- What holds of an adapter that has not been destroyed. -/
structure Live (w : RcvWorld C) : Prop where
  served : w.adapter.Served w.issued w.invoked
  flushed : w.adapter.Flushed
  steady : w.adapter.Steady

/-- What holds of one that has: every request was answered, at the last with the operation-aborted
code. -/
structure Gone (w : RcvWorld C) : Prop where
  core : C.Inv w.adapter.syncIo
  noFailure : w.adapter.assertFailed = false
  worker : w.adapter.worker = []
  pending : w.adapter.pending = []
  answered : ∃ told aborted, w.invoked = told ++ aborted ∧
    (told ++ aborted).map Prod.fst = w.issued ∧
    told.filterMap (message? ·.2) = w.adapter.coreResults.filterMap message? ∧
    (∃ pre post, told.map Prod.snd = pre ++ post ∧ (∀ res ∈ pre, Harmless res) ∧
      ∀ res ∈ post, ∃ e, C.hosed w.adapter.syncIo = some e ∧ res = (some e, C.noMsg)) ∧
    (C.hosed w.adapter.syncIo ≠ none → aborted = []) ∧
    ∀ c ∈ aborted, c.2 = (Code.objectShutdownAbortedCompletionHandler.toErrorCode, C.noMsg)

/-- What holds in every reachable state. -/
def Inv (w : RcvWorld C) : Prop :=
  if w.destroyed then w.Gone else w.Live

/-- A receiver just constructed is in order. -/
theorem live_init {s : C.State} (hs : C.Init s) : Live ⟨ctor s, [], [], false⟩ := by
  obtain ⟨hok, hinv, hidle, hhosed⟩ := C.inv_start s hs
  rcases hcall : C.startReceiveOps s with ⟨ok, s'⟩
  rw [hcall] at hok hinv hidle hhosed
  cases hok
  have hctor : (ctor s : AsyncAdapterReceiver C) = ⟨s', none, [], [], [], false⟩ := by
    unfold ctor
    rw [hcall]
    simp only
    rw [assert_of trivial]
  rw [hctor]
  refine ⟨⟨hinv, rfl, ?_, rfl, rfl, ⟨[], [], rfl, ?_, ?_⟩⟩, fun _ => rfl, ?_⟩
  · simp
  · simp
  · simp
  · rw [Steady, hidle]
    rfl

/-- The destructor answers whoever is still pending. -/
theorem Live.dtor (h : w.Live) {a : AsyncAdapterReceiver C}
    {aborted : List (UserRequest C.Req × Result C.Msg)}
    (hd : ({ w.adapter with worker := [] } : AsyncAdapterReceiver C).dtor = (a, aborted)) :
    Gone ⟨a, w.issued, w.invoked ++ w.adapter.worker ++ aborted, true⟩ := by
  unfold AsyncAdapterReceiver.dtor at hd
  have horder := h.served.order
  cases hr : w.adapter.userRequest with
  | none =>
      have hq := h.served.queue_nil hr
      simp only [hr] at hd
      rw [assert_of hq] at hd
      cases hd
      refine ⟨h.served.core, h.served.noFailure, rfl, ?_, _, [], rfl, ?_, h.served.messages,
        h.served.errors, fun _ => rfl, by simp⟩
      · exact hq
      · rw [List.append_nil, ← horder, h.served.pending_nil hr, List.append_nil]
  | some r =>
      simp only [hr] at hd
      cases hd
      refine ⟨h.served.core, h.served.noFailure, rfl, rfl, _, _, rfl, ?_, h.served.messages,
        h.served.errors, ?_, ?_⟩
      · rw [List.map_append, ← horder]
        simp [pending, hr, Function.comp_def]
      · intro hhosed
        have hnil := h.flushed hhosed
        simp [pending, hr] at hnil
      · intro c hmem
        obtain ⟨r', -, rfl⟩ := List.mem_map.mp hmem
        rfl

/-- Each step of a receiver that is alive keeps the order, or ends it. -/
theorem Live.step {m : RcvMove C} (h : w.Live) (hlive : w.destroyed = false)
    (hstep : w.Step m w') : w'.Inv := by
  unfold Step next at hstep
  rw [if_neg (by simp [hlive])] at hstep
  cases m with
  | asyncReceive r ans =>
      cases hstep
      obtain ⟨hserved, hfl, hsteady⟩ := h.served.asyncReceive h.flushed h.steady r ans
      rw [Inv, if_neg (by simp [hlive])]
      exact ⟨hserved, hfl, hsteady⟩
  | event ev ans nextAns =>
      simp only at hstep
      split at hstep
      · cases hstep
      · rename_i s hev
        cases hstep
        obtain ⟨hs, ⟨hout, hhosed⟩⟩ := C.event_spec _ _ _ _ _ h.served.core hev
        rw [Inv, if_neg (by simp [hlive])]
        refine ⟨h.served.setCore hs hhosed, ?_, h.steady.trans hout.symm⟩
        intro hnow
        have hnone : w.adapter.userRequest = none := by
          have hidle := C.idle_of_hosed s hs hnow
          rw [hout, ← h.steady] at hidle
          simpa using hidle
        exact h.served.pending_nil hnone
      · rename_i s res hev
        cases hstep
        obtain ⟨hs, heffect⟩ := C.event_spec _ _ _ _ _ h.served.core hev
        rw [Inv, if_neg (by simp [hlive])]
        cases heffect with
        | answered _ hout hne hcompl =>
            have hr : w.adapter.userRequest.isSome := by rw [h.steady, hout]
            obtain ⟨hserved, hfl, hsteady⟩ :=
              h.served.onSyncIoRcvDone hr hs (hcompl.idle_of_ne hne) hcompl nextAns
            exact ⟨hserved, hfl, hsteady⟩
  | runHandler =>
      simp only at hstep
      split at hstep
      · cases hstep
      · rename_i c cs hworker
        cases hstep
        rw [Inv, if_neg (by simp [hlive])]
        have hsame : w.invoked ++ [c] ++ cs = w.invoked ++ w.adapter.worker := by simp [hworker]
        refine ⟨{ h.served with order := ?_, messages := ?_, errors := ?_ }, h.flushed, h.steady⟩
        · simp only [hsame]
          exact h.served.order
        · simp only [hsame]
          exact h.served.messages
        · simp only [hsame]
          exact h.served.errors
  | destroy =>
      cases hstep
      rw [Inv, if_pos rfl]
      exact h.dtor rfl

/-- In every reachable state the invariant holds. -/
theorem Reached.inv (h : w.Reached) : w.Inv := by
  apply Lts.Reachable.invariant (P := RcvWorld.Inv) _ _ h
  · rintro w ⟨s, hs, rfl⟩
    rw [Inv, if_neg (by simp)]
    exact live_init hs
  · intro w m w' hinv hstep
    cases hd : w.destroyed with
    | true =>
        unfold Step next at hstep
        rw [if_pos hd] at hstep
        cases hstep
    | false =>
        rw [Inv, if_neg (by simp [hd])] at hinv
        exact hinv.step hd hstep

/-- The core is in order throughout. -/
theorem Inv.core (h : w.Inv) : C.Inv w.adapter.syncIo := by
  unfold Inv at h
  split at h
  · exact h.core
  · exact h.served.core

/-- What a handler can be told. -/
theorem Inv.told (h : w.Inv) {c : UserRequest C.Req × Result C.Msg} (hmem : c ∈ w.completions) :
    Harmless c.2 ∨ (∃ e, C.hosed w.adapter.syncIo = some e ∧ c.2 = (some e, C.noMsg)) ∨
      (w.destroyed = true ∧
        c.2 = (Code.objectShutdownAbortedCompletionHandler.toErrorCode, C.noMsg)) := by
  -- Before the destructor: an answer of the core's.
  have hanswer : ∀ L : List (UserRequest C.Req × Result C.Msg), c ∈ L →
      (∃ pre post, L.map Prod.snd = pre ++ post ∧ (∀ res ∈ pre, Harmless res) ∧
        ∀ res ∈ post, ∃ e, C.hosed w.adapter.syncIo = some e ∧ res = (some e, C.noMsg)) →
      Harmless c.2 ∨ ∃ e, C.hosed w.adapter.syncIo = some e ∧ c.2 = (some e, C.noMsg) := by
    rintro L hc ⟨pre, post, hsplit, hpre, hpost⟩
    have hres : c.2 ∈ pre ++ post := by
      rw [← hsplit]
      exact List.mem_map_of_mem hc
    rcases List.mem_append.mp hres with hres | hres
    · exact .inl (hpre _ hres)
    · exact .inr (hpost _ hres)
  unfold Inv at h
  split at h
  · rename_i hd
    obtain ⟨told, aborted, hlog, -, -, herrors, -, haborted⟩ := h.answered
    rw [completions, h.worker, List.append_nil, hlog] at hmem
    rcases List.mem_append.mp hmem with hmem | hmem
    · rcases hanswer told hmem herrors with hres | hres
      · exact .inl hres
      · exact .inr (.inl hres)
    · exact .inr (.inr ⟨hd, haborted c hmem⟩)
  · rcases hanswer _ hmem h.served.errors with hres | hres
    · exact .inl hres
    · exact .inr (.inl hres)

/-! ## The result -/

/-- The messages that the core has come to, oldest first. -/
def coreMessages (w : RcvWorld C) : List C.Msg :=
  w.adapter.coreResults.filterMap message?

/-- First come, first served, and each once. -/
structure FirstComeFirstServed (w : RcvWorld C) : Prop where
  /-- The handlers told something are those of the first requests, in call order; the other requests
  are pending. -/
  once : w.completions.map Prod.fst ++ w.adapter.pending = w.issued
  /-- After the destructor each request has had its handler invoked. -/
  all : w.destroyed = true → w.invoked.map Prod.fst = w.issued
  /-- The core's messages go to the requests that succeed, in call order, one to each. -/
  messages : w.completions.filterMap (message? ·.2) = w.coreMessages
  /-- Where no request before it failed, the `k`-th message goes to the `k`-th request. -/
  kth : ∀ k r m, (∀ c ∈ w.completions.take k, c.2.1 = none) →
    w.completions[k]? = some (r, none, m) → w.issued[k]? = some r ∧ w.coreMessages[k]? = some m
  /-- Once the pipe is hosed no request is pending, and all those not answered by then have been told
  the error, in order. -/
  hosed : ∀ e, C.hosed w.adapter.syncIo = some e → w.adapter.pending = [] ∧
    ∃ pre post, w.completions.map Prod.snd = pre ++ post ∧ (∀ res ∈ pre, Harmless res) ∧
      ∀ res ∈ post, res = (some e, C.noMsg)
  /-- Requests are queued only behind one that the core is working on. -/
  queue : w.adapter.pendingUserRequestsQ ≠ [] →
    w.adapter.userRequest.isSome ∧ C.outstanding w.adapter.syncIo = true
  /-- The core works on a request exactly while one is pending. -/
  steady : w.destroyed = false → w.adapter.userRequest.isSome = C.outstanding w.adapter.syncIo
  /-- No assertion fails; among them that the core accepts each request it is given. -/
  noFailure : w.adapter.assertFailed = false

/-- In a log whose first `k` entries are messages, the next message is the `k`-th. -/
theorem getElem?_filterMap_message {L : List (UserRequest C.Req × Result C.Msg)} {k : Nat}
    {r : UserRequest C.Req} {m : C.Msg} (hok : ∀ c ∈ L.take k, c.2.1 = none)
    (hk : L[k]? = some (r, none, m)) : (L.filterMap (message? ·.2))[k]? = some m := by
  induction L generalizing k with
  | nil => simp at hk
  | cons c L ih =>
      cases k with
      | zero =>
          cases hk
          rfl
      | succ k =>
          have hc : c.2.1 = none := hok c (by simp)
          obtain ⟨r', code, m'⟩ := c
          cases hc
          apply ih _ hk
          intro c' hmem
          exact hok c' (List.mem_cons_of_mem _ hmem)

/-- If each is served once and in turn, the k-th served is the k-th who asked. -/
theorem kth_of_once {L : List (UserRequest C.Req × Result C.Msg)}
    {rest issued : List (UserRequest C.Req)} (honce : L.map Prod.fst ++ rest = issued) {k : Nat}
    {c : UserRequest C.Req × Result C.Msg} (hk : L[k]? = some c) : issued[k]? = some c.1 := by
  obtain ⟨hlt, -⟩ := List.getElem?_eq_some_iff.mp hk
  rw [← honce, List.getElem?_append_left (by simpa using hlt), List.getElem?_map, hk]
  rfl

/-- While the receiver is alive, requests are served first come first served. -/
theorem Live.result (h : w.Live) (hd : w.destroyed = false) : w.FirstComeFirstServed where
  once := h.served.order
  all hdestroyed := by
    rw [hd] at hdestroyed
    cases hdestroyed
  messages := h.served.messages
  kth k r m hok hk := by
    refine ⟨kth_of_once h.served.order hk, ?_⟩
    rw [coreMessages, ← h.served.messages]
    exact getElem?_filterMap_message hok hk
  hosed e he := by
    refine ⟨h.flushed (by simp [he]), ?_⟩
    obtain ⟨pre, post, hlog, hpre, hpost⟩ := h.served.errors
    refine ⟨pre, post, hlog, hpre, fun res hmem => ?_⟩
    obtain ⟨e', he', hres⟩ := hpost res hmem
    rw [he] at he'
    cases he'
    exact hres
  queue hq := by
    have hsome := h.served.queue hq
    exact ⟨hsome, h.steady.symm.trans hsome⟩
  steady _ := h.steady
  noFailure := h.served.noFailure

/-- After its destruction they have been. -/
theorem Gone.result (h : w.Gone) (hd : w.destroyed = true) : w.FirstComeFirstServed := by
  obtain ⟨told, aborted, hlog, hall, hmsg, ⟨pre, post, hsplit, hpre, hpost⟩, hnone, haborted⟩ :=
    h.answered
  have hcompl : w.completions = told ++ aborted := by
    rw [completions, h.worker, List.append_nil, hlog]
  have hmessages : w.completions.filterMap (message? ·.2) = w.coreMessages := by
    have hnil : aborted.filterMap (message? ·.2) = [] := by
      rw [List.filterMap_eq_nil_iff]
      intro c hmem
      rw [haborted c hmem]
      rfl
    rw [hcompl, List.filterMap_append, hnil, List.append_nil, hmsg, coreMessages]
  have honce : w.completions.map Prod.fst ++ w.adapter.pending = w.issued := by
    rw [h.pending, List.append_nil, hcompl, hall]
  exact {
    once := honce
    all := fun _ => by rw [hlog, hall]
    messages := hmessages
    kth := fun k r m hok hk => by
      refine ⟨kth_of_once honce hk, ?_⟩
      rw [← hmessages]
      exact getElem?_filterMap_message hok hk
    hosed := fun e he => by
      refine ⟨h.pending, pre, post, ?_, hpre, fun res hmem => ?_⟩
      · rw [hcompl, hnone (by simp [he]), List.append_nil, hsplit]
      · obtain ⟨e', he', hres⟩ := hpost res hmem
        rw [he] at he'
        cases he'
        exact hres
    queue := fun hq => by
      have hnil := h.pending
      simp [AsyncAdapterReceiver.pending, hq] at hnil
    steady := fun hlive => by
      rw [hd] at hlive
      cases hlive
    noFailure := h.noFailure }

/-- Requests are served first come first served, before the destruction and after it. -/
theorem Inv.result (h : w.Inv) : w.FirstComeFirstServed := by
  cases hd : w.destroyed with
  | true =>
      rw [Inv, if_pos hd] at h
      exact Gone.result h hd
  | false =>
      rw [Inv, if_neg (by simp [hd])] at h
      exact Live.result h hd

/-- An asynchronous receiver, over any core, serves its requests in call order and each once. -/
theorem firstComeFirstServed (h : w.Reached) : w.FirstComeFirstServed :=
  h.inv.result

/-- The `k`-th message goes to the `k`-th request, whether or not a request before it failed. -/
def KthToKth (w : RcvWorld C) : Prop :=
  ∀ (k : Nat) (c : UserRequest C.Req × Result C.Msg),
    (w.completions.filter (·.2.1 = none))[k]? = some c → w.issued[k]? = some c.1

end RcvWorld

/-- A receiver on a queue that has the version and one blob on it. -/
def sampleRcv : BlobStreamMqReceiver :=
  .ctor ⟨8, stream Frame.enc [.version, .blob ⟨[7], by simp⟩], 0, []⟩

/-- It has just been constructed. -/
theorem init_sampleRcv : MqRcv.Init sampleRcv :=
  ⟨_, [.version, .blob ⟨[7], by simp⟩], rfl, ⟨.inr ⟨_, rfl, by simp⟩, by simp⟩, List.prefix_rfl, rfl, rfl⟩

namespace RcvWorld

/-- What is computed can be reached. -/
theorem reached_of_foldlM {C : RcvCore} {s : C.State} (hs : C.Init s) {ms : List (RcvMove C)}
    {w : RcvWorld C} (h : ms.foldlM next ⟨.ctor s, [], [], false⟩ = some w) : w.Reached :=
  ⟨_, ms, ⟨s, hs, rfl⟩, .of_foldlM h⟩

/-- A request that succeeds, one that is outstanding, and one behind it; then the adapter goes. -/
def sampleMoves : List (RcvMove mqRcvCore) :=
  [.asyncReceive ⟨(8 : Nat), 0⟩ [.ready, .ready, .ready], .asyncReceive ⟨(8 : Nat), 1⟩ [],
    .asyncReceive ⟨(9 : Nat), 2⟩ [], .runHandler, .destroy]

/-- One request is served, and the two behind it are aborted by the destructor, in order. -/
theorem firstComeFirstServed_sampleMoves : ∃ w : RcvWorld mqRcvCore,
    w.invoked.map (fun c => (c.1.onDoneFunc, c.2.1)) =
        [(0, none), (1, Code.objectShutdownAbortedCompletionHandler.toErrorCode),
          (2, Code.objectShutdownAbortedCompletionHandler.toErrorCode)] ∧
      w.FirstComeFirstServed := by
  have hrun : (sampleMoves.foldlM next ⟨.ctor (C := mqRcvCore) sampleRcv, [], [], false⟩).map
      (fun w => w.invoked.map (fun c => (c.1.onDoneFunc, c.2.1))) =
        some [(0, none), (1, Code.objectShutdownAbortedCompletionHandler.toErrorCode),
          (2, Code.objectShutdownAbortedCompletionHandler.toErrorCode)] := by decide +kernel
  obtain ⟨w, hw, hseen⟩ := Option.map_eq_some_iff.mp hrun
  exact ⟨w, hseen, firstComeFirstServed (reached_of_foldlM init_sampleRcv hw)⟩

/-- A request whose buffer is too small fails by itself, and the first message goes to the second
request. -/
theorem not_kthToKth : ∃ w : RcvWorld mqRcvCore, w.Reached ∧ ¬ w.KthToKth := by
  let ms : List (RcvMove mqRcvCore) :=
    [.asyncReceive ⟨(4 : Nat), 0⟩ [], .asyncReceive ⟨(8 : Nat), 1⟩ [.ready, .ready, .ready]]
  have hrun : (ms.foldlM next ⟨.ctor (C := mqRcvCore) sampleRcv, [], [], false⟩).map
      (fun w => ((w.completions.filter (·.2.1 = none)).map (·.1.onDoneFunc),
        w.issued.map (·.onDoneFunc))) = some ([1], [0, 1]) := by decide +kernel
  obtain ⟨w, hw, hseen⟩ := Option.map_eq_some_iff.mp hrun
  refine ⟨w, reached_of_foldlM init_sampleRcv hw, fun hkth => ?_⟩
  obtain ⟨c, hc, hc'⟩ := List.map_eq_singleton_iff.mp (congrArg Prod.fst hseen)
  have hfirst := hkth 0 c (by rw [hc]; rfl)
  have hissued := congrArg (·[0]?) (congrArg Prod.snd hseen)
  simp [hfirst, hc'] at hissued

end RcvWorld

end FlowIpc.Adapter
