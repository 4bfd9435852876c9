import FlowIpc.Adapter.RcvOrder

/-!
# A receiver without the requests that do not pass

A core turns a request down that does not pass its check, and stays as it was. `a.Without fits a'`
says that `a'` is the adapter as it would be had the requests that do not pass not been made. Calls and
results keep it, with one exception: `process_msg_or_error()` takes any error for the end of the pipe,
and so a request that does not pass, where it comes up from the queue, fails those behind it too.
`RequestCheck.trips` says when that happens to one that does pass.
-/

namespace FlowIpc.Adapter

open MqStream

variable {C : RcvCore}

/-- Going through the requests `q` in order, the core comes to one that does not pass while one that
does is behind it. It gets past those that it answers with a message, and `ans i` is what the
transport answers in the course of the `i`-th. -/
def RequestCheck.trips (K : RequestCheck C) (s : C.State) (q : List (UserRequest C.Req))
    (ans : Nat → C.Ans) (i : Nat) : Bool :=
  match q with
  | [] => false
  | r :: q =>
    if K.fits s r.target then
      let (_, res, s) := C.asyncReceive s r.target (ans i)
      res.1.isNone && K.trips s q ans (i + 1)
    else q.any fun r => K.fits s r.target

/-- A request that does not pass is turned down, and the core is as it was. -/
theorem RequestCheck.turned_down (K : RequestCheck C) {s : C.State} {req : C.Req} (hs : C.Inv s)
    (hidle : C.outstanding s = false) (ans : C.Ans) (hfit : K.fits s req = false) :
    ∃ e : Err, C.asyncReceive s req ans = (true, (some e, C.noMsg), s) ∧
      Genuine (some e) := by
  cases hhosed : C.hosed s with
  | none => exact ⟨_, K.receive_unfit s req ans hs hidle hhosed hfit, by simp⟩
  | some e =>
      have hcall := K.receive_hosed s req ans e hs hhosed
      obtain ⟨-, -, hcases⟩ := C.receive_spec _ _ _ _ _ _ hs hidle hcall
      refine ⟨e, hcall, ?_⟩
      rcases hcases with ⟨-, hout, -⟩ | ⟨-, hc⟩
      · rw [hidle] at hout
        cases hout
      · exact hc.genuine

namespace AsyncAdapterReceiver

variable {K : RequestCheck C} {fits : C.Req → Bool} {a a' : AsyncAdapterReceiver C}
  {issued issued' : List (UserRequest C.Req)}
  {invoked invoked' : List (UserRequest C.Req × Result C.Msg)}

/-! ## The run without -/

/-- A handler is told of a message only if its request passes, and of an invalid argument only if it
does not. -/
structure Apt (fits : C.Req → Bool) (c : UserRequest C.Req × Result C.Msg) : Prop where
  message : c.2.1 = none → fits c.1.target = true
  invalid : c.2.1 = Code.invalidArgument.toErrorCode → fits c.1.target = false

/-- `a'` is `a` as it would be without the requests that do not pass. -/
structure Without (fits : C.Req → Bool) (a a' : AsyncAdapterReceiver C) : Prop where
  core : a'.syncIo = a.syncIo
  pending : a'.pending = a.pending.filter (fits ·.target)
  worker : a'.worker = a.worker.filter (fits ·.1.target)
  apt : ∀ c ∈ a.worker, Apt fits c

/-- The request that is outstanding passes. -/
def HeadFits (fits : C.Req → Bool) (a : AsyncAdapterReceiver C) : Prop :=
  ∀ r, a.userRequest = some r → fits r.target = true

/-- The first of those who wait is the request in progress. -/
theorem Served.pending_cons (h : a.Served issued invoked) {r : UserRequest C.Req}
    {q : List (UserRequest C.Req)} (hpend : a.pending = r :: q) :
    a.userRequest = some r ∧ a.pendingUserRequestsQ = q := by
  cases hr : a.userRequest with
  | none =>
      rw [h.pending_nil hr] at hpend
      cases hpend
  | some r' =>
      rw [pending, hr] at hpend
      cases hpend
      exact ⟨rfl, rfl⟩

/-- Those who wait are the one in progress and those behind. -/
theorem pending_of_head {r : UserRequest C.Req} (hr : a.userRequest = some r) :
    a.pending = r :: a.pendingUserRequestsQ := by
  rw [pending, hr]
  rfl

/-- After a message those queued are pending. -/
theorem pending_message {r : UserRequest C.Req} {m : C.Msg} (hr : a.userRequest = some r) :
    (a.processMsgOrError (none, m)).pending = a.pendingUserRequestsQ := by
  rw [processMsgOrError_message hr]
  cases h : a.pendingUserRequestsQ <;> simp [pending]

/-- An error for everyone pending is one for each of those who pass. -/
theorem filter_map_error (rs : List (UserRequest C.Req)) (res : Result C.Msg) :
    (rs.map fun r => (r, res)).filter (fits ·.1.target) =
      (rs.filter (fits ·.target)).map fun r => (r, res) := by
  rw [List.filter_map]
  rfl

/-- A result for a head request that passes, which both have. -/
theorem Without.processMsgOrError {r : UserRequest C.Req} {s : C.State} {res : Result C.Msg}
    (h : a.Without fits a') (hr : a.userRequest = some r) (hr' : a'.userRequest = some r)
    (hfit : fits r.target = true) (hne : res.1 ≠ Code.invalidArgument.toErrorCode)
    (hc : Completes C.outstanding C.hosed C.noMsg a.syncIo s res) :
    ({ a with syncIo := s }.processMsgOrError res).Without fits
      ({ a' with syncIo := s }.processMsgOrError res) := by
  have hpend := h.pending
  rw [pending_of_head hr, pending_of_head hr', List.filter_cons_of_pos (by exact hfit)] at hpend
  have hq := (List.cons.inj hpend).2
  cases hc with
  | message m _ _ _ =>
      refine ⟨?_, ?_, ?_, ?_⟩
      · rw [processMsgOrError_message (r := r) (by exact hr'),
          processMsgOrError_message (r := r) (by exact hr)]
      · rw [pending_message (r := r) (by exact hr'), pending_message (r := r) (by exact hr)]
        exact hq
      · rw [processMsgOrError_message (r := r) (by exact hr'),
          processMsgOrError_message (r := r) (by exact hr)]
        simp [h.worker, hfit]
      · rw [processMsgOrError_message (r := r) (by exact hr)]
        intro c hmem
        rcases List.mem_append.mp hmem with hmem | hmem
        · exact h.apt c hmem
        · rw [List.mem_singleton.mp hmem]
          exact ⟨fun _ => hfit, fun hcode => by cases hcode⟩
  | hosed e ne ne' _ _ _ =>
      rw [processMsgOrError_error (r := r) (by exact hr) ne,
        processMsgOrError_error (r := r) (by exact hr') ne]
      refine ⟨rfl, rfl, ?_, ?_⟩
      · have hold : ({ a' with syncIo := s } : AsyncAdapterReceiver C).pending =
            ({ a with syncIo := s } : AsyncAdapterReceiver C).pending.filter (fits ·.target) :=
          h.pending
        rw [hold]
        simp only [List.filter_append, filter_map_error, h.worker]
      · intro c hmem
        rcases List.mem_append.mp hmem with hmem | hmem
        · exact h.apt c hmem
        · obtain ⟨r', -, rfl⟩ := List.mem_map.mp hmem
          exact ⟨fun hcode => (by cases hcode),
            fun hcode => absurd (Option.some.inj hcode) ne'⟩
  | invalid _ _ => exact absurd rfl hne

/-- A request that does not pass, with none behind it that does, concerns no one else. -/
theorem Without.processMsgOrError_unfit {r : UserRequest C.Req} (h : a.Without fits a')
    (hr : a.userRequest = some r) (hfit : fits r.target = false)
    (hrest : ∀ r' ∈ a.pendingUserRequestsQ, fits r'.target = false) {e : Err}
    (hgen : Genuine (some e)) :
    (a.processMsgOrError (some e, C.noMsg)).Without fits a' := by
  have hall : ∀ r' ∈ a.pending, fits r'.target = false := by
    rw [pending_of_head hr]
    intro r' hmem
    rcases List.mem_cons.mp hmem with rfl | hmem
    · exact hfit
    · exact hrest r' hmem
  have hnil : a.pending.filter (fits ·.target) = [] := by
    rw [List.filter_eq_nil_iff]
    intro r' hmem
    simp [hall r' hmem]
  rw [processMsgOrError_error hr hgen]
  refine ⟨h.core, ?_, ?_, ?_⟩
  · rw [h.pending, hnil]
    rfl
  · rw [h.worker]
    simp only [List.filter_append, filter_map_error, hnil, List.map_nil, List.append_nil]
  · intro c hmem
    rcases List.mem_append.mp hmem with hmem | hmem
    · exact h.apt c hmem
    · obtain ⟨r', hmem', rfl⟩ := List.mem_map.mp hmem
      exact ⟨fun hcode => (by cases hcode), fun _ => hall r' hmem'⟩

/-! ## The queue -/

/-- With no request pending there is nothing to do. -/
theorem serveQueue_none (hr : a.userRequest = none) (ans : Nat → C.Ans) (i : Nat) :
    a.serveQueue ans i = a := by
  rw [serveQueue]
  split
  · rfl
  · rename_i r hr'
    rw [hr] at hr'
    cases hr'

/-- One turn, on a request that is left outstanding. -/
theorem serveQueue_wouldBlock {r : UserRequest C.Req} {s : C.State} {res : Result C.Msg}
    {ans : Nat → C.Ans} {i : Nat} (hr : a.userRequest = some r)
    (hcall : C.asyncReceive a.syncIo r.target (ans i) = (true, res, s)) (hres : res.1 = wouldBlock) :
    a.serveQueue ans i = { a with syncIo := s } := by
  rw [serveQueue]
  split
  · rename_i hr'
    rw [hr] at hr'
    cases hr'
  · rename_i r' hr'
    rw [hr] at hr'
    cases hr'
    simp only [hcall]
    rw [assert_of trivial, if_pos hres]

/-- One turn, on a request that is answered. -/
theorem serveQueue_answered {r : UserRequest C.Req} {s : C.State} {res : Result C.Msg}
    {ans : Nat → C.Ans} {i : Nat} (hr : a.userRequest = some r)
    (hcall : C.asyncReceive a.syncIo r.target (ans i) = (true, res, s)) (hres : res.1 ≠ wouldBlock) :
    a.serveQueue ans i = ({ a with syncIo := s }.processMsgOrError res).serveQueue ans (i + 1) := by
  rw [serveQueue]
  split
  · rename_i hr'
    rw [hr] at hr'
    cases hr'
  · rename_i r' hr'
    rw [hr] at hr'
    cases hr'
    simp only [hcall]
    rw [assert_of trivial, if_neg hres]

/-- One turn, on a request that fails and leaves the core as it was. -/
theorem serveQueue_error {r : UserRequest C.Req} {e : Err} {ans : Nat → C.Ans} {i : Nat}
    (hr : a.userRequest = some r)
    (hcall : C.asyncReceive a.syncIo r.target (ans i) = (true, (some e, C.noMsg), a.syncIo))
    (hgen : Genuine (some e)) :
    a.serveQueue ans i = a.processMsgOrError (some e, C.noMsg) := by
  have hnone : (a.processMsgOrError (some e, C.noMsg)).userRequest = none := by
    rw [processMsgOrError_error hr hgen]
  exact (serveQueue_answered hr hcall hgen.1).trans (serveQueue_none hnone ans (i + 1))

/-- A request that does not pass has come up, and none behind it does. -/
theorem Without.serveQueue_unfit {r : UserRequest C.Req} {q : List (UserRequest C.Req)}
    (h : a.Without fits a') (hfits : K.fits a.syncIo = fits) (hserved : a.Served issued invoked)
    (hidle : C.outstanding a.syncIo = false) (hpend : a.pending = r :: q)
    (hfit : fits r.target = false) (hrest : ∀ r' ∈ q, fits r'.target = false) (ans : Nat → C.Ans)
    (i : Nat) :
    (a.serveQueue ans i).Without fits (a'.serveQueue ans i) ∧ (a.serveQueue ans i).HeadFits fits ∧
      K.fits (a.serveQueue ans i).syncIo = fits := by
  obtain ⟨hr, rfl⟩ := hserved.pending_cons hpend
  obtain ⟨e, hturned, hgen⟩ := K.turned_down hserved.core hidle (ans i)
    (show K.fits a.syncIo r.target = false by rw [hfits, hfit])
  have hr' : a'.userRequest = none := by
    have hnil : a'.pending = [] := by
      rw [h.pending, hpend, List.filter_eq_nil_iff]
      intro r' hmem
      rcases List.mem_cons.mp hmem with rfl | hmem
      · simp [hfit]
      · simp [hrest r' hmem]
    simpa using (List.append_eq_nil_iff.mp hnil).1
  have hwithout := h.processMsgOrError_unfit hr hfit hrest hgen
  rw [serveQueue_error hr hturned hgen, serveQueue_none hr']
  refine ⟨hwithout, ?_, ?_⟩
  · intro r' hsome
    rw [processMsgOrError_error hr hgen] at hsome
    cases hsome
  · rw [processMsgOrError_error hr hgen]
    exact hfits

/-- Serving the queue without tripping is serving the queue without the requests that do not pass. -/
theorem Without.serveQueue (h : a.Without fits a') (hfits : K.fits a.syncIo = fits)
    (hserved : a.Served issued invoked) (hserved' : a'.Served issued' invoked')
    (hidle : C.outstanding a.syncIo = false) (ans : Nat → C.Ans) (i : Nat)
    (htrips : K.trips a.syncIo a.pending ans i = false) :
    (a.serveQueue ans i).Without fits (a'.serveQueue ans i) ∧ (a.serveQueue ans i).HeadFits fits ∧
      K.fits (a.serveQueue ans i).syncIo = fits := by
  -- Each turn uses up a pending request.
  induction hn : a.pending.length using Nat.strongRecOn generalizing a a' i with
  | ind n ih =>
    cases hpend : a.pending with
    | nil =>
        have hnil : a'.pending = [] := by
          rw [h.pending, hpend]
          rfl
        have hr : a.userRequest = none := by
          simpa using (List.append_eq_nil_iff.mp hpend).1
        have hr' : a'.userRequest = none := by
          simpa using (List.append_eq_nil_iff.mp hnil).1
        rw [serveQueue_none hr, serveQueue_none hr']
        refine ⟨h, fun r hsome => ?_, hfits⟩
        rw [hr] at hsome
        cases hsome
    | cons r q =>
        obtain ⟨hr, hq⟩ := hserved.pending_cons hpend
        rw [hpend, RequestCheck.trips, hfits] at htrips
        cases hfit : fits r.target with
        | false =>
            rw [hfit, if_neg (by simp)] at htrips
            apply h.serveQueue_unfit hfits hserved hidle hpend hfit
            intro r' hmem
            simpa using List.any_eq_false.mp htrips r' hmem
        | true =>
            have hr' : a'.userRequest = some r := by
              have hpend' := h.pending
              rw [hpend, List.filter_cons_of_pos (by exact hfit)] at hpend'
              exact (hserved'.pending_cons hpend').1
            rcases hcall : C.asyncReceive a.syncIo r.target (ans i) with ⟨ok, res, s⟩
            have hcall' : C.asyncReceive a'.syncIo r.target (ans i) = (ok, res, s) := by
              rw [h.core, hcall]
            obtain ⟨rfl, hs, hcases⟩ := C.receive_spec _ _ _ _ _ _ hserved.core hidle hcall
            have hsfits : K.fits s = fits := by
              have hkeeps := K.fits_receive a.syncIo r.target (ans i)
              rw [hcall] at hkeeps
              exact hkeeps.trans hfits
            have hne : res.1 ≠ Code.invalidArgument.toErrorCode := by
              have := K.receive_fit a.syncIo r.target (ans i) hserved.core hidle
                (by rw [hfits, hfit])
              rwa [hcall] at this
            rw [hfit, if_pos rfl, hcall] at htrips
            rcases hcases with ⟨rfl, -⟩ | ⟨hblock, hcompl⟩
            · rw [serveQueue_wouldBlock hr hcall rfl, serveQueue_wouldBlock hr' hcall' rfl]
              refine ⟨⟨rfl, h.pending, h.worker, h.apt⟩, fun r'' hsome => ?_, hsfits⟩
              rw [show a.userRequest = some r'' from hsome] at hr
              cases hr
              exact hfit
            · rw [serveQueue_answered hr hcall hblock, serveQueue_answered hr' hcall' hblock]
              have hsome : a.userRequest.isSome := by rw [hr]; rfl
              have hsome' : a'.userRequest.isSome := by rw [hr']; rfl
              obtain ⟨hserved₁, -, hcore₁⟩ := hserved.processMsgOrError hsome hs hcompl
              obtain ⟨hserved₁', -, -⟩ :=
                hserved'.processMsgOrError hsome' hs (by rw [h.core]; exact hcompl)
              have hless :
                  ({ a with syncIo := s }.processMsgOrError res).pending.length <
                    a.pending.length :=
                processMsgOrError_pending hsome
              apply ih _ (hn ▸ hless) (h.processMsgOrError hr hr' hfit hne hcompl)
                (by rw [hcore₁]; exact hsfits) hserved₁ hserved₁'
                (by rw [hcore₁]; exact hcompl.idle hidle) _ _ rfl
              rw [hcore₁]
              cases hcompl with
              | message m _ _ _ =>
                  rw [pending_message (r := r) (by exact hr)]
                  simpa [hq] using htrips
              | hosed e ne _ _ _ _ =>
                  rw [processMsgOrError_error (r := r) (by exact hr) ne]
                  rfl
              | invalid _ _ => exact absurd rfl hne

/-! ## Calls and events -/

/-- With a request that passes, or none, at the head, both have the same head. -/
theorem Without.head_eq (h : a.Without fits a') (hhead : a.HeadFits fits)
    (hserved : a.Served issued invoked) (hserved' : a'.Served issued' invoked') :
    a'.userRequest = a.userRequest := by
  cases hr : a.userRequest with
  | none =>
      have hnil : a'.pending = [] := by
        rw [h.pending, hserved.pending_nil hr]
        rfl
      simpa using (List.append_eq_nil_iff.mp hnil).1
  | some r =>
      have hpend := h.pending
      rw [pending_of_head hr, List.filter_cons_of_pos (by exact hhead r hr)] at hpend
      exact (hserved'.pending_cons hpend).1

/-- A request is given to the core as one from the queue is. -/
theorem asyncReceive_eq_serveQueue (hr : a.userRequest = none) (hq : a.pendingUserRequestsQ = [])
    (r : UserRequest C.Req) (ans : C.Ans) :
    a.asyncReceiveNativeHandleImpl r ans =
      ({ a with userRequest := some r } : AsyncAdapterReceiver C).serveQueue (fun _ => ans) 0 := by
  unfold asyncReceiveNativeHandleImpl
  rw [if_neg (by simp [hr]), AsyncAdapterReceiver.serveQueue]
  simp only
  split
  · rfl
  · exact (serveQueue_none (processMsgOrError_last (r := r) (by rfl) (by exact hq)) _ _).symm

/-- A request that comes while none is pending is the only one. -/
theorem pending_setHead (hq : a.pendingUserRequestsQ = []) (r : UserRequest C.Req) :
    ({ a with userRequest := some r } : AsyncAdapterReceiver C).pending = [r] := by
  rw [pending, hq]
  rfl

/-- A call made while a request is outstanding. -/
theorem Without.enqueue {r₀ : UserRequest C.Req} (h : a.Without fits a')
    (hr : a.userRequest = some r₀) (hr' : a'.userRequest = some r₀) (r : UserRequest C.Req)
    (ans : C.Ans) :
    (a.asyncReceiveNativeHandleImpl r ans).Without fits
      (if fits r.target then a'.asyncReceiveNativeHandleImpl r ans else a') := by
  have hcall : a.asyncReceiveNativeHandleImpl r ans =
      { a with pendingUserRequestsQ := a.pendingUserRequestsQ ++ [r] } := by
    rw [asyncReceiveNativeHandleImpl, if_pos (by simp [hr])]
  have hcall' : a'.asyncReceiveNativeHandleImpl r ans =
      { a' with pendingUserRequestsQ := a'.pendingUserRequestsQ ++ [r] } := by
    rw [asyncReceiveNativeHandleImpl, if_pos (by simp [hr'])]
  have hpend : ∀ (b : AsyncAdapterReceiver C) (q : List (UserRequest C.Req)),
      ({ b with pendingUserRequestsQ := b.pendingUserRequestsQ ++ q } :
        AsyncAdapterReceiver C).pending = b.pending ++ q := by
    intro b q
    exact (List.append_assoc _ _ _).symm
  rw [hcall, hcall']
  cases hfit : fits r.target with
  | true =>
      rw [if_pos rfl]
      refine ⟨h.core, ?_, h.worker, h.apt⟩
      rw [hpend, hpend, h.pending, List.filter_append]
      simp [hfit]
  | false =>
      rw [if_neg (by simp)]
      refine ⟨h.core, ?_, h.worker, h.apt⟩
      rw [hpend, h.pending, List.filter_append]
      simp [hfit]

/-- A call. -/
theorem Without.asyncReceive (h : a.Without fits a') (hfits : K.fits a.syncIo = fits)
    (hhead : a.HeadFits fits) (hserved : a.Served issued invoked)
    (hserved' : a'.Served issued' invoked') (hsteady : a.Steady) (r : UserRequest C.Req)
    (ans : C.Ans) :
    (a.asyncReceiveNativeHandleImpl r ans).Without fits
        (if fits r.target then a'.asyncReceiveNativeHandleImpl r ans else a') ∧
      (a.asyncReceiveNativeHandleImpl r ans).HeadFits fits ∧
      K.fits (a.asyncReceiveNativeHandleImpl r ans).syncIo = fits := by
  have heq := h.head_eq hhead hserved hserved'
  cases hr : a.userRequest with
  | some r₀ =>
      refine ⟨h.enqueue hr (heq.trans hr) r ans, ?_, ?_⟩
      · rw [asyncReceiveNativeHandleImpl, if_pos (by simp [hr])]
        exact hhead
      · rw [asyncReceiveNativeHandleImpl, if_pos (by simp [hr])]
        exact hfits
  | none =>
      rw [hr] at heq
      have hidle : C.outstanding a.syncIo = false := by
        rw [← hsteady, hr]
        rfl
      have hq := hserved.queue_nil hr
      have hq' := hserved'.queue_nil heq
      rw [asyncReceive_eq_serveQueue hr hq, asyncReceive_eq_serveQueue heq hq']
      have hpend := pending_setHead hq r
      have htrips : K.trips a.syncIo [r] (fun _ => ans) 0 = false := by
        simp [RequestCheck.trips]
      rw [← hpend] at htrips
      have hu := hserved.setHead hr r
      cases hfit : fits r.target with
      | true =>
          have hwithout : Without fits { a with userRequest := some r }
              { a' with userRequest := some r } := by
            refine ⟨h.core, ?_, h.worker, h.apt⟩
            rw [hpend, pending_setHead hq']
            simp [hfit]
          exact hwithout.serveQueue hfits hu (hserved'.setHead heq r) hidle _ _ htrips
      | false =>
          have hwithout : Without fits { a with userRequest := some r } a' := by
            refine ⟨h.core, ?_, h.worker, h.apt⟩
            rw [hpend, hserved'.pending_nil heq]
            simp [hfit]
          rw [if_neg (by simp)]
          have hboth := hwithout.serveQueue hfits hu hserved' hidle (fun _ => ans) 0 htrips
          rwa [serveQueue_none heq] at hboth

/-- A result for the request outstanding, and what follows from it. -/
theorem Without.onSyncIoRcvDone {s : C.State} {res : Result C.Msg} (h : a.Without fits a')
    (hfits : K.fits s = fits) (hhead : a.HeadFits fits) (hserved : a.Served issued invoked)
    (hserved' : a'.Served issued' invoked') (hsome : a.userRequest.isSome) (hs : C.Inv s)
    (hidle : C.outstanding s = false)
    (hne : res.1 ≠ Code.invalidArgument.toErrorCode)
    (hc : Completes C.outstanding C.hosed C.noMsg a.syncIo s res) (ans : Nat → C.Ans)
    (htrips : res.1 = none → K.trips s a.pendingUserRequestsQ ans 0 = false) :
    ({ a with syncIo := s }.onSyncIoRcvDone res ans).Without fits
        ({ a' with syncIo := s }.onSyncIoRcvDone res ans) ∧
      ({ a with syncIo := s }.onSyncIoRcvDone res ans).HeadFits fits ∧
      K.fits ({ a with syncIo := s }.onSyncIoRcvDone res ans).syncIo = fits := by
  obtain ⟨r, hr⟩ := Option.isSome_iff_exists.mp hsome
  have hr' : a'.userRequest = some r := (h.head_eq hhead hserved hserved').trans hr
  have hsome' : a'.userRequest.isSome := by rw [hr']; rfl
  obtain ⟨hserved₁, -, hcore₁⟩ := hserved.processMsgOrError hsome hs hc
  obtain ⟨hserved₁', -, -⟩ := hserved'.processMsgOrError hsome' hs (by rw [h.core]; exact hc)
  apply Without.serveQueue (h.processMsgOrError hr hr' (hhead r hr) hne hc)
    (by rw [hcore₁]; exact hfits) hserved₁ hserved₁' (by rw [hcore₁]; exact hidle)
  rw [hcore₁]
  cases hc with
  | message m _ _ _ =>
      rw [pending_message (r := r) (by exact hr)]
      exact htrips rfl
  | hosed e ne _ _ _ _ =>
      rw [processMsgOrError_error (r := r) (by exact hr) ne]
      rfl
  | invalid _ _ => exact absurd rfl hne

/-- The destructor. -/
theorem Without.dtor (h : a.Without fits a') (hhead : a.HeadFits fits)
    (hserved : a.Served issued invoked) (hserved' : a'.Served issued' invoked')
    {b b' : AsyncAdapterReceiver C} {aborted aborted' : List (UserRequest C.Req × Result C.Msg)}
    (hd : ({ a with worker := [] } : AsyncAdapterReceiver C).dtor = (b, aborted))
    (hd' : ({ a' with worker := [] } : AsyncAdapterReceiver C).dtor = (b', aborted')) :
    b.Without fits b' ∧ b.HeadFits fits ∧ b.syncIo = a.syncIo ∧
      aborted' = aborted.filter (fits ·.1.target) ∧ (∀ c ∈ aborted, Apt fits c) := by
  have heq := h.head_eq hhead hserved hserved'
  have hpend := h.pending
  unfold AsyncAdapterReceiver.dtor at hd hd'
  cases hr : a.userRequest with
  | none =>
      rw [hr] at heq
      simp only [hr] at hd
      simp only [heq] at hd'
      rw [assert_of (hserved.queue_nil hr)] at hd
      rw [assert_of (hserved'.queue_nil heq)] at hd'
      cases hd
      cases hd'
      refine ⟨⟨h.core, ?_, rfl, by simp⟩, ?_, rfl, rfl, by simp⟩
      · rw [hserved.queue_nil hr, hserved'.queue_nil heq]
        rfl
      · intro r' hr'
        cases hr'
  | some r =>
      rw [hr] at heq
      simp only [hr] at hd
      simp only [heq] at hd'
      cases hd
      cases hd'
      refine ⟨⟨h.core, rfl, rfl, by simp⟩, ?_, rfl, ?_, ?_⟩
      · intro r' hr'
        cases hr'
      · rw [filter_map_error]
        rw [pending_of_head hr, pending_of_head heq] at hpend
        exact congrArg (List.map _) hpend
      · intro c hmem
        obtain ⟨r', -, rfl⟩ := List.mem_map.mp hmem
        exact ⟨fun hcode => (by cases hcode), fun hcode => (by cases hcode)⟩

end AsyncAdapterReceiver

end FlowIpc.Adapter
