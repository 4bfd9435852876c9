import FlowIpc.Adapter.Without

/-!
# A request that fails by itself

A request with too small a buffer fails with `S_INVALID_ARGUMENT`, which does not hose the pipe. The
adapter does not look which error it is, and where such a request comes up from the queue it fails
those behind it as well, and throws them away.

**Result.** `failsAlone_iff`: over the core of a queue stream, a request with too small a buffer is the
only one to fail for it exactly in the runs in which none comes up with a good one queued behind it.
-/

namespace FlowIpc.Adapter

open MqStream PrefixCode Lts

variable {C : RcvCore} {K : RequestCheck C}

/-! ## What tripping does -/

namespace AsyncAdapterReceiver

variable {a : AsyncAdapterReceiver C} {issued : List (UserRequest C.Req)}
  {invoked : List (UserRequest C.Req × Result C.Msg)}

/-- A request that does not pass takes one with it that does. -/
theorem Served.serveQueue_trips (h : a.Served issued invoked)
    (hidle : C.outstanding a.syncIo = false) (hopen : C.hosed a.syncIo = none) (ans : Nat → C.Ans)
    (i : Nat) (htrips : K.trips a.syncIo a.pending ans i = true) :
    ∃ c ∈ (a.serveQueue ans i).worker, K.fits a.syncIo c.1.target = true ∧
      c.2.1 = Code.invalidArgument.toErrorCode := by
  -- Each turn uses up a pending request.
  induction hn : a.pending.length using Nat.strongRecOn generalizing a i with
  | ind n ih =>
    cases hpend : a.pending with
    | nil =>
        rw [hpend] at htrips
        cases htrips
    | cons r q =>
        obtain ⟨hr, rfl⟩ := h.pending_cons hpend
        rw [hpend, RequestCheck.trips] at htrips
        cases hfit : K.fits a.syncIo r.target with
        | false =>
            rw [hfit, if_neg (by simp)] at htrips
            obtain ⟨r', hmem, hfit'⟩ := List.any_eq_true.mp htrips
            have hturned := K.receive_unfit a.syncIo r.target (ans i) h.core hidle hopen hfit
            rw [serveQueue_error hr hturned (by simp), processMsgOrError_error hr (by simp)]
            refine ⟨(r', Code.invalidArgument.toErrorCode, C.noMsg), ?_, hfit', rfl⟩
            apply List.mem_append_right
            rw [pending_of_head hr]
            exact List.mem_map_of_mem (List.mem_cons_of_mem _ hmem)
        | true =>
            rcases hcall : C.asyncReceive a.syncIo r.target (ans i) with ⟨ok, res, s⟩
            obtain ⟨rfl, hs, hcases⟩ := C.receive_spec _ _ _ _ _ _ h.core hidle hcall
            have hsfits : K.fits s = K.fits a.syncIo := by
              have hkeeps := K.fits_receive a.syncIo r.target (ans i)
              rwa [hcall] at hkeeps
            rw [hfit, if_pos rfl, hcall] at htrips
            obtain ⟨hnone, hnext⟩ := Bool.and_eq_true_iff.mp htrips
            rcases hcases with ⟨rfl, -⟩ | ⟨hblock, hcompl⟩
            · cases hnone
            · have hsome : a.userRequest.isSome := by rw [hr]; rfl
              obtain ⟨hserved₁, -, hcore₁⟩ := h.processMsgOrError hsome hs hcompl
              have hless :
                  ({ a with syncIo := s }.processMsgOrError res).pending.length <
                    a.pending.length :=
                processMsgOrError_pending hsome
              cases hcompl with
              | message m _ hafter hidle' =>
                  have hpend₁ := pending_message (a := { a with syncIo := s }) (m := m) hr
                  obtain ⟨c, hmem, hfit', hcode⟩ := ih _ (hn ▸ hless) hserved₁
                    (by rw [hcore₁]; exact hidle') (by rw [hcore₁]; exact hafter) (i + 1)
                    (by rw [hcore₁, hpend₁]; exact hnext) rfl
                  rw [hcore₁, hsfits] at hfit'
                  rw [serveQueue_answered hr hcall hblock]
                  exact ⟨c, hmem, hfit', hcode⟩
              | hosed e _ _ _ _ _ => cases hnone
              | invalid _ _ => cases hnone

/-! ## The log only grows -/

/-- What has been posted stays, and so does the check. -/
structure Grows (K : RequestCheck C) (a b : AsyncAdapterReceiver C) : Prop where
  worker : a.worker <+: b.worker
  fits : K.fits b.syncIo = K.fits a.syncIo

/-- Nothing is lost of the log by doing nothing. -/
theorem Grows.refl (a : AsyncAdapterReceiver C) : Grows K a a :=
  ⟨List.prefix_rfl, rfl⟩

/-- What two steps have each left of the log both have. -/
theorem Grows.trans {b c : AsyncAdapterReceiver C} (h : Grows K a b) (h' : Grows K b c) :
    Grows K a c :=
  ⟨h.worker.trans h'.worker, h'.fits.trans h.fits⟩

/-- Giving out a result posts a handler. -/
theorem grows_processMsgOrError (res : Result C.Msg) : Grows K a (a.processMsgOrError res) := by
  unfold processMsgOrError
  simp only [assert]
  split
  · exact ⟨List.prefix_rfl, rfl⟩
  · split
    · exact ⟨List.prefix_append _ _, rfl⟩
    · split
      · exact ⟨List.prefix_append _ _, rfl⟩
      · exact ⟨List.prefix_append _ _, rfl⟩

/-- Serving those behind posts theirs. -/
theorem grows_serveQueue (ans : Nat → C.Ans) (i : Nat) : Grows K a (a.serveQueue ans i) := by
  induction a, i using serveQueue.induct ans with
  | case1 a i hr =>
      rw [serveQueue_none hr]
      exact .refl a
  | case2 a i r hr ok res s hcall hres =>
      have hfits := K.fits_receive a.syncIo r.target (ans i)
      rw [serveQueue]
      split
      · exact .refl a
      · rename_i r' hr'
        cases (hr.symm.trans hr')
        simp only [hcall, if_pos hres]
        rw [hcall] at hfits
        exact ⟨List.prefix_rfl, hfits⟩
  | case3 a i r hr ok res s hcall b hres ih =>
      have hfits := K.fits_receive a.syncIo r.target (ans i)
      rw [serveQueue]
      split
      · exact .refl a
      · rename_i r' hr'
        cases (hr.symm.trans hr')
        simp only [hcall, if_neg hres]
        rw [hcall] at hfits
        have hb : Grows K a b := ⟨List.prefix_rfl, hfits⟩
        exact (hb.trans (grows_processMsgOrError res)).trans ih

/-- A request that is made posts at most its own handler and theirs. -/
theorem grows_asyncReceive (r : UserRequest C.Req) (ans : C.Ans) :
    Grows K a (a.asyncReceiveNativeHandleImpl r ans) := by
  have hfits := K.fits_receive a.syncIo r.target ans
  unfold asyncReceiveNativeHandleImpl
  split
  · exact ⟨List.prefix_rfl, rfl⟩
  · simp only
    split
    · exact ⟨List.prefix_rfl, hfits⟩
    · refine Grows.trans ?_ (grows_processMsgOrError _)
      exact ⟨List.prefix_rfl, hfits⟩

/-- A completion of the core posts the handler of the head, and of those behind that are served at once. -/
theorem grows_onSyncIoRcvDone (res : Result C.Msg) (ans : Nat → C.Ans) :
    Grows K a (a.onSyncIoRcvDone res ans) :=
  (grows_processMsgOrError res).trans (grows_serveQueue ans 0)

/-- The destructor leaves the core alone. -/
theorem dtor_syncIo : a.dtor.1.syncIo = a.syncIo := by
  unfold dtor
  split
  · rfl
  · rfl

end AsyncAdapterReceiver

namespace RcvMove

/-- The worker thread runs a handler. -/
def isRunHandler : RcvMove C → Bool
  | runHandler => true
  | _ => false

/-- A request is made that does not pass. -/
def offends (fits : C.Req → Bool) : RcvMove C → Bool
  | asyncReceive r _ => !fits r.target
  | _ => false

end RcvMove

namespace RcvWorld

open AsyncAdapterReceiver

variable {w w' u u' : RcvWorld C} {fits : C.Req → Bool} {m : RcvMove C} {ms : List (RcvMove C)}

/-- The move answers the request outstanding with a message, and of those queued behind it one comes
up that does not pass while one that does is behind that. -/
def trips (K : RequestCheck C) (w : RcvWorld C) (m : RcvMove C) : Bool :=
  match m with
  | .event ev ans nextAns =>
    match C.event w.adapter.syncIo ev ans with
    | some (s, some (none, _)) => K.trips s w.adapter.pendingUserRequestsQ nextAns 0
    | _ => false
  | _ => false

/-- What has been posted stays, and so does the check. -/
theorem grows_step (hstep : w.Step m u) :
    w.completions <+: u.completions ∧ K.fits u.adapter.syncIo = K.fits w.adapter.syncIo := by
  unfold Step next at hstep
  split at hstep
  · cases hstep
  · cases m with
    | asyncReceive r ans =>
        cases hstep
        have hgrows := grows_asyncReceive (K := K) (a := w.adapter) r ans
        exact ⟨(List.prefix_append_right_inj _).mpr hgrows.worker, hgrows.fits⟩
    | event ev ans nextAns =>
        simp only at hstep
        split at hstep
        · cases hstep
        · rename_i s hev
          cases hstep
          exact ⟨List.prefix_rfl, K.fits_event _ _ _ _ _ hev⟩
        · rename_i s res hev
          cases hstep
          have hgrows := grows_onSyncIoRcvDone (K := K) (a := { w.adapter with syncIo := s }) res nextAns
          exact ⟨(List.prefix_append_right_inj _).mpr hgrows.worker,
            hgrows.fits.trans (K.fits_event _ _ _ _ _ hev)⟩
    | runHandler =>
        simp only at hstep
        split at hstep
        · cases hstep
        · rename_i c cs hworker
          cases hstep
          simp [completions, hworker]
    | destroy =>
        cases hstep
        refine ⟨(List.prefix_append _ _).trans (List.prefix_append _ _), ?_⟩
        exact congrArg K.fits dtor_syncIo

/-! ## The run without -/

/-- `w'` is `w` as it would be without the requests that do not pass. -/
structure Without (K : RequestCheck C) (fits : C.Req → Bool) (w w' : RcvWorld C) : Prop where
  adapter : w.adapter.Without fits w'.adapter
  head : w.adapter.HeadFits fits
  fits_eq : K.fits w.adapter.syncIo = fits
  issued : w'.issued = w.issued.filter (fits ·.target)
  invoked : w'.invoked = w.invoked.filter (fits ·.1.target)
  apt : ∀ c ∈ w.invoked, Apt fits c
  destroyed : w'.destroyed = w.destroyed

/-- The moves that are calls with requests that pass, or events. -/
def rest (fits : C.Req → Bool) (ms : List (RcvMove C)) : List (RcvMove C) :=
  ms.filter fun m => !m.isRunHandler && !m.offends fits

/-- Two receivers just constructed are as they should be. -/
theorem without_init {s : C.State} :
    Without K (K.fits (ctor s : AsyncAdapterReceiver C).syncIo) ⟨ctor s, [], [], false⟩
      ⟨ctor s, [], [], false⟩ := by
  refine ⟨⟨rfl, rfl, rfl, ?_⟩, ?_, rfl, rfl, rfl, ?_, rfl⟩
  · intro c hmem
    cases hmem
  · intro r hr
    cases hr
  · intro c hmem
    cases hmem

/-- A request is made of both, or of the first alone if it does not fit. -/
theorem Without.step_asyncReceive {r : UserRequest C.Req} {ans : C.Ans}
    (h : Without K fits w w') (hw : w.Live) (hw' : w'.Live) (hlive : w.destroyed = false)
    (hstep : w.Step (.asyncReceive r ans) u) :
    ∃ ms' u', Run Step w' ms' u' ∧ Without K fits u u' ∧
      ms'.filter (!·.isRunHandler) = rest fits [.asyncReceive r ans] := by
  unfold Step next at hstep
  rw [if_neg (by simp [hlive])] at hstep
  cases hstep
  obtain ⟨hadapter, hhead, hfits⟩ :=
    h.adapter.asyncReceive h.fits_eq h.head hw.served hw'.served hw.steady r ans
  cases hfit : fits r.target with
  | true =>
      rw [hfit, if_pos rfl] at hadapter
      refine ⟨[.asyncReceive r ans], _, Run.single (by
        rw [Step, next, if_neg (by simp [h.destroyed, hlive])]), ?_, ?_⟩
      · refine ⟨hadapter, hhead, hfits, ?_, h.invoked, h.apt, h.destroyed⟩
        simp [h.issued, hfit]
      · simp [rest, RcvMove.isRunHandler, RcvMove.offends, hfit]
  | false =>
      rw [hfit, if_neg (by simp)] at hadapter
      refine ⟨[], w', Run.nil w', ?_, ?_⟩
      · refine ⟨hadapter, hhead, hfits, ?_, h.invoked, h.apt, h.destroyed⟩
        simp [h.issued, hfit]
      · simp [rest, RcvMove.isRunHandler, RcvMove.offends, hfit]

/-- Other moves, none of which trips, are made in both. -/
theorem Without.step_event {ev : C.Ev} {ans : C.Ans} {nextAns : Nat → C.Ans}
    (h : Without K fits w w') (hw : w.Live) (hw' : w'.Live) (hlive : w.destroyed = false)
    (hstep : w.Step (.event ev ans nextAns) u)
    (htrips : w.trips K (.event ev ans nextAns) = false) :
    ∃ u', w'.Step (.event ev ans nextAns) u' ∧ Without K fits u u' := by
  unfold Step next at hstep ⊢
  rw [if_neg (by simp [hlive])] at hstep
  rw [if_neg (by simp [h.destroyed, hlive])]
  simp only [h.adapter.core] at hstep ⊢
  rw [trips] at htrips
  cases hev : C.event w.adapter.syncIo ev ans with
  | none =>
      rw [hev] at hstep
      cases hstep
  | some p =>
      obtain ⟨s, res⟩ := p
      have hfits : K.fits s = fits := (K.fits_event _ _ _ _ _ hev).trans h.fits_eq
      obtain ⟨hs, heffect⟩ := C.event_spec _ _ _ _ _ hw.served.core hev
      rw [hev] at hstep htrips
      cases heffect with
      | silent _ _ =>
          cases hstep
          refine ⟨_, rfl, ⟨⟨rfl, h.adapter.pending, h.adapter.worker, h.adapter.apt⟩, h.head, hfits,
            h.issued, h.invoked, h.apt, h.destroyed⟩⟩
      | answered res hout hne hcompl =>
          cases hstep
          have hsome : w.adapter.userRequest.isSome := by rw [hw.steady, hout]
          have htrips' : res.1 = none → K.trips s w.adapter.pendingUserRequestsQ nextAns 0 = false := by
            intro hnone
            obtain ⟨code, m⟩ := res
            cases hnone
            exact htrips
          obtain ⟨hadapter, hhead, hfits'⟩ := h.adapter.onSyncIoRcvDone hfits h.head hw.served
            hw'.served hsome hs (hcompl.idle_of_ne hne) hne hcompl nextAns htrips'
          exact ⟨_, rfl, ⟨hadapter, hhead, hfits', h.issued, h.invoked, h.apt, h.destroyed⟩⟩

/-- A handler is invoked in both, or in the first alone if it is of a request that did not fit. -/
theorem Without.step_runHandler (h : Without K fits w w') (hlive : w.destroyed = false)
    (hstep : w.Step .runHandler u) :
    ∃ ms' u', Run Step w' ms' u' ∧ Without K fits u u' ∧
      ms'.filter (!·.isRunHandler) = [] := by
  unfold Step next at hstep
  rw [if_neg (by simp [hlive])] at hstep
  simp only at hstep
  split at hstep
  · cases hstep
  · rename_i c cs hworker
    cases hstep
    have hworker' := h.adapter.worker
    have hc : Apt fits c := h.adapter.apt c (by simp [hworker])
    have hcs : ∀ c ∈ cs, Apt fits c := by
      intro c' hmem
      exact h.adapter.apt c' (by simp [hworker, hmem])
    have hinv : ∀ c' ∈ w.invoked ++ [c], Apt fits c' := by
      intro c' hmem
      rcases List.mem_append.mp hmem with hmem | hmem
      · exact h.apt c' hmem
      · rw [List.mem_singleton.mp hmem]
        exact hc
    rw [hworker] at hworker'
    cases hfit : fits c.1.target with
    | true =>
        rw [List.filter_cons_of_pos (by exact hfit)] at hworker'
        refine ⟨[.runHandler], { w' with
          adapter := { w'.adapter with worker := cs.filter (fits ·.1.target) }
          invoked := w'.invoked ++ [c] }, Run.single ?_, ?_, rfl⟩
        · rw [Step, next, if_neg (by simp [h.destroyed, hlive])]
          simp only [hworker']
        · refine ⟨⟨h.adapter.core, h.adapter.pending, rfl, hcs⟩, h.head, h.fits_eq, h.issued, ?_,
            hinv, h.destroyed⟩
          simp [h.invoked, hfit]
    | false =>
        rw [List.filter_cons_of_neg (by simp [hfit])] at hworker'
        refine ⟨[], w', Run.nil w', ?_, rfl⟩
        refine ⟨⟨h.adapter.core, h.adapter.pending, hworker', hcs⟩, h.head, h.fits_eq, h.issued, ?_,
          hinv, h.destroyed⟩
        simp [h.invoked, hfit]

/-- Both are destroyed. -/
theorem Without.step_destroy (h : Without K fits w w') (hw : w.Live) (hw' : w'.Live)
    (hlive : w.destroyed = false) (hstep : w.Step .destroy u) :
    ∃ u', w'.Step .destroy u' ∧ Without K fits u u' := by
  unfold Step next at hstep ⊢
  rw [if_neg (by simp [hlive])] at hstep
  rw [if_neg (by simp [h.destroyed, hlive])]
  rcases hd : ({ w.adapter with worker := [] } : AsyncAdapterReceiver C).dtor with ⟨b, aborted⟩
  rcases hd' : ({ w'.adapter with worker := [] } : AsyncAdapterReceiver C).dtor with ⟨b', aborted'⟩
  obtain ⟨hadapter, hhead, hcore, haborted, hapt⟩ :=
    h.adapter.dtor h.head hw.served hw'.served hd hd'
  simp only [hd] at hstep
  cases hstep
  refine ⟨⟨b', w'.issued, w'.invoked ++ w'.adapter.worker ++ aborted', true⟩, by simp only,
    hadapter, hhead, ?_, h.issued, ?_, ?_, rfl⟩
  · rw [hcore]
    exact h.fits_eq
  · simp only [h.invoked, h.adapter.worker, haborted, List.filter_append]
  · intro c hmem
    rcases List.mem_append.mp hmem with hmem | hmem
    · rcases List.mem_append.mp hmem with hmem | hmem
      · exact h.apt c hmem
      · exact h.adapter.apt c hmem
    · exact hapt c hmem

/-- One step that does not trip. -/
theorem Without.step (h : Without K fits w w') (hw : w.Inv) (hw' : w'.Inv)
    (hstep : w.Step m u) (htrips : w.trips K m = false) :
    ∃ ms' u', Run Step w' ms' u' ∧ Without K fits u u' ∧
      ms'.filter (!·.isRunHandler) = rest fits [m] := by
  cases hlive : w.destroyed with
  | true =>
      unfold Step next at hstep
      rw [if_pos hlive] at hstep
      cases hstep
  | false =>
      rw [Inv, if_neg (by simp [hlive])] at hw
      rw [Inv, if_neg (by simp [h.destroyed, hlive])] at hw'
      cases m with
      | asyncReceive r ans => exact h.step_asyncReceive hw hw' hlive hstep
      | event ev ans nextAns =>
          obtain ⟨u', hstep', hwithout⟩ := h.step_event hw hw' hlive hstep htrips
          exact ⟨_, u', Run.single hstep', hwithout, rfl⟩
      | runHandler => exact h.step_runHandler hlive hstep
      | destroy =>
          obtain ⟨u', hstep', hwithout⟩ := h.step_destroy hw hw' hlive hstep
          exact ⟨_, u', Run.single hstep', hwithout, rfl⟩

/-! ## Runs -/

/-- What is left of two runs is left of both together. -/
theorem rest_append (ms ms' : List (RcvMove C)) :
    rest fits (ms ++ ms') = rest fits ms ++ rest fits ms' :=
  List.filter_append ..

/-- A run none of whose steps trips is, for the others, a run in which no request was made that does
not pass. -/
theorem Without.run {w₀ : RcvWorld C} (h : Run (Restrict Step fun w m => w.trips K m = false) w₀ ms w)
    (h₀ : w₀.Reached) (hself : Without K fits w₀ w₀) :
    ∃ ms' w', Run Step w₀ ms' w' ∧ Without K fits w w' ∧
      ms'.filter (!·.isRunHandler) = rest fits ms := by
  induction h with
  | nil => exact ⟨[], w₀, Run.nil w₀, hself, rfl⟩
  | snoc hrun hstep ih =>
      obtain ⟨ms', w', hrun', hwithout, hms⟩ := ih
      obtain ⟨htrips, hstep⟩ := hstep
      have hw := Reached.inv (Reachable.run h₀ hrun.of_restrict)
      have hw' := Reached.inv (Reachable.run h₀ hrun')
      obtain ⟨ms'', u', hrun'', hwithout', hms'⟩ := hwithout.step hw hw' hstep htrips
      refine ⟨ms' ++ ms'', u', hrun'.append hrun'', hwithout', ?_⟩
      rw [List.filter_append, hms, hms', rest_append]

/-- No handler whose request passes has been told that it does not. -/
def Innocent (K : RequestCheck C) (w : RcvWorld C) : Prop :=
  ∀ c ∈ w.completions, K.fits w.adapter.syncIo c.1.target = true →
    c.2.1 ≠ Code.invalidArgument.toErrorCode

/-- If all are innocent after a step they were before. -/
theorem Innocent.of_step (hstep : w.Step m u) (h : u.Innocent K) : w.Innocent K := by
  obtain ⟨hgrows, hfits⟩ := grows_step (K := K) hstep
  intro c hmem hfit
  exact h c (hgrows.subset hmem) (by rw [hfits, hfit])

/-- Where a step trips, one is told whose request passes. -/
theorem not_innocent_of_trips (hw : w.Inv) (hstep : w.Step m u) (htrips : w.trips K m = true) :
    ¬ u.Innocent K := by
  intro hinnocent
  have hfits := (grows_step (K := K) hstep).2
  unfold Step next at hstep
  split at hstep
  · cases hstep
  · rename_i hlive
    rw [Inv, if_neg hlive] at hw
    cases m with
    | event ev ans nextAns =>
        rw [trips] at htrips
        simp only at hstep
        split at htrips
        · rename_i s m hev
          rw [hev] at hstep
          obtain ⟨hs, heffect⟩ := C.event_spec _ _ _ _ _ hw.served.core hev
          cases heffect with
          | answered _ hout hne hcompl =>
              have hsome : w.adapter.userRequest.isSome := by rw [hw.steady, hout]
              obtain ⟨r, hr⟩ := Option.isSome_iff_exists.mp hsome
              obtain ⟨hserved, -, hcore⟩ := hw.served.processMsgOrError hsome hs hcompl
              have hopen : C.hosed s = none := by
                cases hcompl with
                | message _ _ hafter _ => exact hafter
              obtain ⟨c, hmem, hfit, hcode⟩ := hserved.serveQueue_trips (K := K)
                (by rw [hcore]; exact hcompl.idle_of_ne hne) (by rw [hcore]; exact hopen) nextAns 0
                (by rw [hcore, pending_message (r := r) (by exact hr)]; exact htrips)
              cases hstep
              refine hinnocent c (List.mem_append_right _ hmem) ?_ hcode
              rw [hfits, ← hfit, hcore]
              exact congrFun (K.fits_event _ _ _ _ _ hev).symm _
        · cases htrips
    | asyncReceive r ans => cases htrips
    | runHandler => cases htrips
    | destroy => cases htrips

/-- In a run that leaves everyone innocent no step trips. -/
theorem Innocent.run {w₀ : RcvWorld C} (hrun : Run Step w₀ ms w) (h₀ : w₀.Reached)
    (h : w.Innocent K) : Run (Restrict Step fun w m => w.trips K m = false) w₀ ms w := by
  induction hrun with
  | nil => exact Run.nil _
  | snoc hrun hstep ih =>
      have hw := Reached.inv (Reachable.run h₀ hrun)
      refine (ih (h.of_step hstep)).snoc ⟨?_, hstep⟩
      by_contra htrips
      exact not_innocent_of_trips hw hstep (by simpa using htrips) h

/-! ## The result -/

/-- The requests that do not pass fail by themselves. The run from `w₀` over `ms` has led to `w`. -/
structure FailsAlone (K : RequestCheck C) (w₀ : RcvWorld C) (ms : List (RcvMove C)) (w : RcvWorld C) :
    Prop where
  /-- The pipe is not hosed with their error. -/
  clear : C.hosed w.adapter.syncIo ≠ Code.invalidArgument.toErrorCode
  /-- Each of them fails with it, unless the end of the pipe or of the adapter comes first. -/
  own : ∀ c ∈ w.completions, K.fits w.adapter.syncIo c.1.target = false →
    c.2.1 = Code.invalidArgument.toErrorCode ∨
      (∃ e, C.hosed w.adapter.syncIo = some e ∧ c.2.1 = some e) ∨
      (w.destroyed = true ∧ c.2.1 = Code.objectShutdownAbortedCompletionHandler.toErrorCode)
  /-- No other does. -/
  others : w.Innocent K
  /-- The others are answered in call order, with all the messages there are. -/
  inOrder : (w.completions.filter (K.fits w.adapter.syncIo ·.1.target)).map Prod.fst ++
      w.adapter.pending.filter (K.fits w.adapter.syncIo ·.target) =
        w.issued.filter (K.fits w.adapter.syncIo ·.target) ∧
    (w.completions.filter (K.fits w.adapter.syncIo ·.1.target)).filterMap (message? ·.2) =
      w.coreMessages
  /-- All is as if they had not been made: the core, what the others have been told, and which of them
  are pending. -/
  asIfNotMade : ∃ ms' w', Run Step w₀ ms' w' ∧
    ms'.filter (!·.isRunHandler) = rest (K.fits w.adapter.syncIo) ms ∧
    w'.adapter.syncIo = w.adapter.syncIo ∧
    w'.issued = w.issued.filter (K.fits w.adapter.syncIo ·.target) ∧
    w'.completions = w.completions.filter (K.fits w.adapter.syncIo ·.1.target) ∧
    w'.adapter.pending = w.adapter.pending.filter (K.fits w.adapter.syncIo ·.target)

/-- The completions of the first are as they should be. -/
theorem Without.all_apt (h : Without K fits w w') : ∀ c ∈ w.completions, Apt fits c := by
  intro c hmem
  rcases List.mem_append.mp hmem with hmem | hmem
  · exact h.apt c hmem
  · exact h.adapter.apt c hmem

/-- The completions of the second are those of the first whose requests fit. -/
theorem Without.completions_eq (h : Without K fits w w') :
    w'.completions = w.completions.filter (fits ·.1.target) := by
  rw [completions, completions, List.filter_append, h.invoked, h.adapter.worker]

/-- Only requests that pass get messages. -/
theorem Without.messages (h : Without K fits w w') :
    (w.completions.filter (fits ·.1.target)).filterMap (message? ·.2) =
      w.completions.filterMap (message? ·.2) := by
  rw [List.filterMap_filter]
  apply List.filterMap_congr
  intro c hmem
  cases hfit : fits c.1.target with
  | true => rfl
  | false =>
      obtain ⟨r, code, m⟩ := c
      cases code with
      | none =>
          have hpass := (h.all_apt _ hmem).message rfl
          rw [hfit] at hpass
          cases hpass
      | some e => rfl

/-- A run beside one without the requests that do not fit has them fail alone. -/
theorem Without.failsAlone {w₀ : RcvWorld C} {ms' : List (RcvMove C)}
    (h : Without K fits w w') (hw : w.Inv) (hrun : Run Step w₀ ms' w')
    (hms : ms'.filter (!·.isRunHandler) = rest fits ms) : FailsAlone K w₀ ms w := by
  have hfits := h.fits_eq
  subst hfits
  exact {
    clear := K.hosed_ne _ hw.core
    own := fun c hmem hfit => by
      rcases hw.told hmem with hres | ⟨e, he, hres⟩ | ⟨hd, hres⟩
      · rcases hres with hres | hres
        · have hpass := (h.all_apt c hmem).message hres
          rw [hfit] at hpass
          cases hpass
        · exact .inl hres
      · exact .inr (.inl ⟨e, he, congrArg Prod.fst hres⟩)
      · exact .inr (.inr ⟨hd, congrArg Prod.fst hres⟩)
    others := fun c hmem hfit hcode => by
      have hfail := (h.all_apt c hmem).invalid hcode
      rw [hfit] at hfail
      cases hfail
    inOrder := by
      have hfcfs := hw.result
      refine ⟨?_, h.messages.trans hfcfs.messages⟩
      rw [← hfcfs.once, List.filter_append, List.filter_map]
      rfl
    asIfNotMade := ⟨ms', w', hrun, hms, h.adapter.core, h.issued, h.completions_eq,
      h.adapter.pending⟩ }

/-- Over the core of a queue stream: a request with too small a buffer fails by itself exactly in the
runs in which none comes up from the queue with one behind it whose buffer is large enough. -/
theorem failsAlone_iff {w₀ w : RcvWorld mqRcvCore} {ms : List (RcvMove mqRcvCore)} (h₀ : Init w₀)
    (hrun : Run Step w₀ ms w) :
    FailsAlone mqRequestCheck w₀ ms w ↔
      Run (Restrict Step fun w m => w.trips mqRequestCheck m = false) w₀ ms w := by
  have hreached : w₀.Reached := Reachable.of_init h₀
  constructor
  · intro h
    exact h.others.run hrun hreached
  · intro h
    obtain ⟨s, -, rfl⟩ := h₀
    obtain ⟨ms', w', hrun', hwithout, hms⟩ := Without.run h hreached without_init
    exact hwithout.failsAlone (Reached.inv (Reachable.run hreached hrun)) hrun' hms

/-- What a run leads to, of whose steps none trips. -/
def nextSafe (K : RequestCheck C) (w : RcvWorld C) (m : RcvMove C) : Option (RcvWorld C) :=
  if w.trips K m = false then w.next m else none

/-- What executes safely is a run in which nothing trips. -/
theorem run_of_nextSafe {w₀ : RcvWorld C} (h : ms.foldlM (nextSafe K) w₀ = some w) :
    Run (Restrict Step fun w m => w.trips K m = false) w₀ ms w := by
  apply (Run.of_foldlM h).mono
  intro w m w' hstep
  unfold nextSafe at hstep
  split at hstep
  · rename_i htrips
    exact ⟨htrips, hstep⟩
  · cases hstep

end RcvWorld

/-- A receiver on a queue that has the version and two blobs on it. -/
def sampleRcvTwo : BlobStreamMqReceiver :=
  .ctor ⟨8, stream Frame.enc [.version, .blob (blobOf 7 []), .blob (blobOf 9 [])], 0, []⟩

/-- It has just been constructed. -/
theorem init_sampleRcvTwo : MqRcv.Init sampleRcvTwo :=
  ⟨_, [.version, .blob ⟨[7], by simp⟩, .blob ⟨[9], by simp⟩], rfl, ⟨.inr ⟨_, rfl, by simp⟩, by simp⟩,
    List.prefix_rfl, rfl, rfl⟩

namespace RcvWorld

/-- The handlers told something, each by its number, and what. -/
def seen (w : RcvWorld mqRcvCore) : List (Nat × ErrorCode × Blob) :=
  w.completions.map fun c => (c.1.onDoneFunc, c.2)

/-- Three requests are made before anything arrives, with buffers of these sizes. -/
def threeRequests (n₀ n₁ n₂ : Nat) : List (RcvMove mqRcvCore) :=
  [.asyncReceive ⟨n₀, 0⟩ [.wouldBlock], .asyncReceive ⟨n₁, 1⟩ [], .asyncReceive ⟨n₂, 2⟩ [],
    .event .mqReadable [.ready, .ready, .ready] fun _ => [.ready]]

/-- The last of three requests has too small a buffer, and it alone fails. -/
theorem failsAlone_threeRequests : ∃ w : RcvWorld mqRcvCore,
    w.seen = [(0, none, [7]), (1, none, [9]), (2, Code.invalidArgument.toErrorCode, [])] ∧
      FailsAlone mqRequestCheck ⟨.ctor sampleRcvTwo, [], [], false⟩ (threeRequests 8 8 4) w := by
  have hrun : ((threeRequests 8 8 4).foldlM (nextSafe mqRequestCheck)
      ⟨.ctor (C := mqRcvCore) sampleRcvTwo, [], [], false⟩).map
        seen =
      some [(0, none, [7]), (1, none, [9]), (2, Code.invalidArgument.toErrorCode, [])] := by
    decide +kernel
  obtain ⟨w, hw, hseen⟩ := Option.map_eq_some_iff.mp hrun
  have hsafe := run_of_nextSafe hw
  exact ⟨w, hseen, (failsAlone_iff ⟨_, init_sampleRcvTwo, rfl⟩ hsafe.of_restrict).mpr hsafe⟩

/-- The second of three requests has too small a buffer, and the third fails with it. -/
theorem not_failsAlone_threeRequests : ∃ (w₀ w : RcvWorld mqRcvCore)
    (ms : List (RcvMove mqRcvCore)), Init w₀ ∧ Run Step w₀ ms w ∧
      ¬ FailsAlone mqRequestCheck w₀ ms w := by
  have hrun : ((threeRequests 8 4 8).foldlM next
      ⟨.ctor (C := mqRcvCore) sampleRcvTwo, [], [], false⟩).map
        (fun w => w.completions.any fun c =>
          mqRequestCheck.fits w.adapter.syncIo c.1.target &&
            decide (c.2.1 = Code.invalidArgument.toErrorCode)) = some true := by
    decide +kernel
  obtain ⟨w, hw, hseen⟩ := Option.map_eq_some_iff.mp hrun
  refine ⟨_, w, _, ⟨_, init_sampleRcvTwo, rfl⟩, .of_foldlM hw, fun h => ?_⟩
  obtain ⟨c, hmem, hc⟩ := List.any_eq_true.mp hseen
  obtain ⟨hfit, hcode⟩ := Bool.and_eq_true_iff.mp hc
  exact h.others c hmem hfit (of_decide_eq_true hcode)

end RcvWorld

end FlowIpc.Adapter
