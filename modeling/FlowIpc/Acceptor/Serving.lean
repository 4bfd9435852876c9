import FlowIpc.Acceptor.Acceptor
import FlowIpc.Lib.Matching

/-!
# Requests and connections, matched in order

The two queues of the acceptor are a `Matching` of requests and peers, which a fatal error closes
(`Queues.Is`): each of the events of thread W does to them what the operation of the matching does, and
invokes the handlers that it answers (`Is.asyncAcceptImpl`, `Is.onSuccess`, `Is.onError`). No assertion
fails on the way, since a matching is steady.

What holds in every state (`Inv`) is then the account of the matching, over the requests that have been run
and the connections accepted so far. `serves` reads off what the acceptor promises.
-/

namespace FlowIpc.Acceptor

open Lts

/-! ## The queues are a matching -/

/-- An answer, as a handler is invoked with it. -/
def toInvocation : UserRequest × Answer Nat Err → Invocation
  | (r, .got h) => ⟨r, .peer h⟩
  | (r, .closed e) => ⟨r, .errorCode e⟩

namespace Queues

/-- The queues are the matching; an error caps the results. -/
structure Is (q : Queues) (m : Matching UserRequest Nat Err) : Prop where
  requests : q.pendingUserRequestsQ = m.waiting
  results : q.pendingResultsQ = m.ready.map .peer ++ (m.closed.map .errorCode).toList
  fine : q.assertFailed = false

variable {q : Queues} {m : Matching UserRequest Nat Err}

@[simp] theorem pendingUserRequestsQ_assert (q : Queues) (p : Prop) [Decidable p] :
    (q.assert p).pendingUserRequestsQ = q.pendingUserRequestsQ := rfl

@[simp] theorem pendingResultsQ_assert (q : Queues) (p : Prop) [Decidable p] :
    (q.assert p).pendingResultsQ = q.pendingResultsQ := rfl

/-- An assertion that holds leaves no trace. -/
theorem assert_of (q : Queues) {p : Prop} [Decidable p] (h : p) : q.assert p = q := by
  simp [assert, h]

/-- The results end in an error iff they have been closed. -/
theorem Is.getLast_isError (h : q.Is m) :
    q.pendingResultsQ.getLast?.any Result.isError = m.closed.isSome := by
  rw [h.results]
  rcases m.closed with _ | e
  · rcases h : m.ready.getLast? with _ | b
    · simp [List.getLast?_map, h]
    · simp [List.getLast?_map, h, Result.isError]
  · simp [Result.isError]

/-- What is waited for by requests is nothing that is there. -/
theorem Is.eq_nil (h : q.Is m) (hne : m.waiting ≠ []) : q.pendingResultsQ = [] := by
  obtain ⟨hready, hclosed⟩ := m.steady hne
  rw [h.results, hready, hclosed]
  rfl

/-- If somebody waits, the connection is for whoever has waited longest. -/
theorem feedSuccess_cons {q : Queues} {r : UserRequest} {rs : List UserRequest} (hq : q.pendingUserRequestsQ = r :: rs)
    (peer : Nat) : q.feedSuccessResultToDeficit peer =
      ({ q with pendingUserRequestsQ := rs }, [⟨r, .peer peer⟩]) := by
  unfold feedSuccessResultToDeficit
  rw [assert_of q (by simp [hq])]
  simp only [hq]

/-- A request is run. -/
theorem Is.asyncAcceptImpl (h : q.Is m) (r : UserRequest) :
    (q.asyncAcceptImpl r).1.Is (m.request r).1 ∧
      (q.asyncAcceptImpl r).2 = (m.request r).2.map toInvocation := by
  obtain ⟨waiting, ready, closed, steady⟩ := m
  obtain ⟨hrequests, hresults, hfine⟩ := h
  simp only at hrequests hresults
  unfold Queues.asyncAcceptImpl Matching.request
  have hnone (hne : q.pendingResultsQ ≠ []) : waiting = [] := by
    by_contra hw
    apply hne
    obtain ⟨hready, hclosed⟩ := steady hw
    subst hready hclosed
    exact hresults
  rcases ready with _ | ⟨b, bs⟩
  · rcases closed with _ | e
    · have hnil : q.pendingResultsQ = [] := hresults
      simp only [hnil]
      exact ⟨⟨by rw [hrequests], rfl, hfine⟩, rfl⟩
    · have hone : q.pendingResultsQ = [.errorCode e] := hresults
      have hw := hnone (by simp [hone])
      subst hw
      simp only [hone, hrequests]
      unfold feedErrorResultToDeficit
      refine ⟨⟨rfl, ?_, ?_⟩, ?_⟩
      · simp
      · simp [assert, hfine]
      · simp [toInvocation]
  · have hcons : q.pendingResultsQ = .peer b :: (bs.map .peer ++ (closed.map .errorCode).toList) := by
      rw [hresults]
      rfl
    have hw := hnone (by simp [hcons])
    subst hw
    simp only [hcons, hrequests, List.nil_append]
    rw [feedSuccess_cons rfl]
    exact ⟨⟨rfl, rfl, by simp [assert, hfine]⟩, rfl⟩

/-- A connection is accepted. -/
theorem Is.onSuccess (h : q.Is m) (hopen : m.closed = none) (peer : Nat) :
    (q.pushResult (.peer peer)).finalizeQSurplusOnSuccess.1.Is (m.result peer).1 ∧
      (q.pushResult (.peer peer)).finalizeQSurplusOnSuccess.2 =
        (m.result peer).2.map toInvocation := by
  have hlast := h.getLast_isError
  obtain ⟨waiting, ready, closed, steady⟩ := m
  obtain ⟨hrequests, hresults, hfine⟩ := h
  simp only at hrequests hresults hopen hlast
  subst hopen
  simp only [Option.map_none, Option.toList_none, List.append_nil] at hresults
  unfold pushResult
  rw [assert_of q (by simp [hlast])]
  unfold finalizeQSurplusOnSuccess
  rw [assert_of _ (by simp [Result.isError])]
  unfold Matching.result
  rcases waiting with _ | ⟨r, rs⟩
  · rw [if_pos hrequests]
    refine ⟨⟨hrequests, ?_, hfine⟩, rfl⟩
    simp [hresults]
  · have hready : ready = [] := (steady (by simp)).1
    subst hready
    have hnil : q.pendingResultsQ = [] := hresults
    rw [if_neg (by simp [hrequests]), assert_of _ (by simp [hnil])]
    simp only [hnil, List.nil_append]
    rw [@feedSuccess_cons ⟨q.pendingUserRequestsQ, [], q.assertFailed⟩ r rs hrequests peer]
    exact ⟨⟨rfl, rfl, hfine⟩, rfl⟩

/-- The background accept fails for good. -/
theorem Is.onError (h : q.Is m) (hopen : m.closed = none) (e : Err) :
    (q.pushResult (.errorCode e)).finalizeQSurplusOnError.1.Is (m.close e).1 ∧
      (q.pushResult (.errorCode e)).finalizeQSurplusOnError.2 = (m.close e).2.map toInvocation := by
  have hlast := h.getLast_isError
  obtain ⟨waiting, ready, closed, steady⟩ := m
  obtain ⟨hrequests, hresults, hfine⟩ := h
  simp only at hrequests hresults hopen hlast
  subst hopen
  simp only [Option.map_none, Option.toList_none, List.append_nil] at hresults
  unfold pushResult
  rw [assert_of q (by simp [hlast])]
  unfold finalizeQSurplusOnError
  rw [assert_of _ (by simp [Result.isError])]
  unfold Matching.close
  rcases waiting with _ | ⟨r, rs⟩
  · rw [if_pos hrequests]
    refine ⟨⟨hrequests, ?_, hfine⟩, rfl⟩
    simp [hresults]
  · have hready : ready = [] := (steady (by simp)).1
    subst hready
    have hnil : q.pendingResultsQ = [] := hresults
    rw [if_neg (by simp [hrequests]), assert_of _ (by simp [hnil])]
    simp only [hnil, List.nil_append]
    unfold feedErrorResultToDeficit
    rw [assert_of _ (by simp [hrequests])]
    refine ⟨⟨rfl, rfl, hfine⟩, ?_⟩
    simp [hrequests, toInvocation]

end Queues

/-! ## What has come in -/

/-- The requests that are made in a step. -/
def Input.calls : Input → List UserRequest
  | .asyncAccept r => [r]
  | .runTask during => during
  | .completes _ during => during
  | _ => []

/-- The connection that is accepted in a step. -/
def Input.connection : Input → List Nat
  | .completes (.success h) _ => [h]
  | _ => []

/-- The error that is fatal. -/
def Input.fatal : Input → Option Err
  | .completes (.failure e) _ =>
    if e.val = .operationAborted ∨ e.val = connectionAborted then none else some e
  | _ => none

/-- The requests made, in the order of the calls. -/
def calls (is : List Input) : List UserRequest := is.flatMap Input.calls

/-- The connections accepted, in order. -/
def connections (is : List Input) : List Nat := is.flatMap Input.connection

/-- The fatal error, if there has been one. -/
def fatal (is : List Input) : Option Err := is.findSome? Input.fatal

/-- One more input adds its calls. -/
@[simp] theorem calls_snoc (is : List Input) (i : Input) : calls (is ++ [i]) = calls is ++ i.calls := by
  simp [calls]

/-- One more input adds its connection. -/
@[simp] theorem connections_snoc (is : List Input) (i : Input) :
    connections (is ++ [i]) = connections is ++ i.connection := by
  simp [connections]

/-- It is the first fatal error that counts. -/
@[simp] theorem fatal_snoc (is : List Input) (i : Input) :
    fatal (is ++ [i]) = (fatal is).or i.fatal := by
  simp [fatal]

/-- What the handler of the `k`-th request is invoked with: the `k`-th connection; if there is none, the
fatal error; and if there has been none, the code for what was aborted. -/
def outcome (conns : List Nat) (err : Option Err) (k : Nat) : Result :=
  match conns[k]?, err with
  | some h, _ => .peer h
  | none, some e => .errorCode e
  | none, none => .errorCode aborted

/-- The peer in a result. -/
def Result.peer? : Result → Option Nat
  | .peer h => some h
  | .errorCode _ => none

/-- A request, aborted. -/
def abort (r : UserRequest) : Invocation := ⟨r, .errorCode aborted⟩

namespace NativeSocketStreamAcceptor

/-! ## What holds in every state -/

/-- The queues are a matching `m` of the requests that have been run and the connections accepted, closed
by the fatal error; the answers are those of the matching, and when all is over the aborted requests. -/
structure Good (is : List Input) (s : NativeSocketStreamAcceptor) (os : List Invocation)
    (m : Matching UserRequest Nat Err) (seen : List UserRequest)
    (answers : List (UserRequest × Answer Nat Err)) : Prop where
  accounts : m.Accounts seen (connections is) answers
  calls : seen ++ s.posted = Acceptor.calls is
  closed : m.closed = fatal is
  open_of_accepting : s.accepting = true → m.closed = none
  sock : s.nextPeerSocket = none
  live : s.phase ≠ .gone → s.queues.Is m ∧ os = answers.map toInvocation
  gone : s.phase = .gone → s.posted = [] ∧ s.queues.Is ⟨[], m.ready, m.closed, fun h => absurd rfl h⟩ ∧
    os = answers.map toInvocation ++ m.waiting.map abort

/-- There is such a matching. -/
def Inv (is : List Input) (s : NativeSocketStreamAcceptor × List Invocation) : Prop :=
  ∃ m seen answers, Good is s.1 s.2 m seen answers

variable {is : List Input} {s s' : NativeSocketStreamAcceptor} {os invoked : List Invocation}
  {m : Matching UserRequest Nat Err} {seen : List UserRequest}
  {answers : List (UserRequest × Answer Nat Err)}

/-- An acceptor just constructed, which has not invoked anything, is in order. -/
theorem inv_ctor (listening : Bool) : Inv [] (ctor listening, []) := by
  refine ⟨.empty, [], [], ?_⟩
  exact {
    accounts := Matching.accounts_empty
    calls := rfl
    closed := rfl
    open_of_accepting := fun _ => rfl
    sock := rfl
    live := fun _ => ⟨⟨rfl, rfl, rfl⟩, rfl⟩
    gone := fun h => by cases h }

/-- A request is run. -/
theorem Good.runTask (h : Good is s os m seen answers) (hlive : s.phase ≠ .gone) {r : UserRequest}
    {rs : List UserRequest} (hposted : s.posted = r :: rs) (during : List UserRequest) :
    Good (is ++ [.runTask during])
      { s with queues := (s.queues.asyncAcceptImpl r).1, posted := rs ++ during }
      (os ++ (s.queues.asyncAcceptImpl r).2) (m.request r).1 (seen ++ [r])
      (answers ++ (m.request r).2) := by
  obtain ⟨hq, hos⟩ := h.live hlive
  obtain ⟨his, hinvoked⟩ := hq.asyncAcceptImpl r
  have hclosed : (m.request r).1.closed = m.closed := by
    unfold Matching.request
    rcases hready : m.ready with _ | ⟨b, bs⟩
    · rcases hc : m.closed with _ | e <;> simp
    · simp
  refine {
    accounts := ?_
    calls := ?_
    closed := ?_
    open_of_accepting := ?_
    sock := h.sock
    live := fun _ => ⟨his, ?_⟩
    gone := fun hgone => absurd hgone hlive }
  · simpa [Input.connection] using h.accounts.request r
  · have hcalls := h.calls
    rw [hposted] at hcalls
    simp [← hcalls, Input.calls]
  · simp [hclosed, h.closed, Input.fatal]
  · intro haccepting
    rw [hclosed]
    exact h.open_of_accepting haccepting
  · rw [hos, hinvoked, List.map_append]

/-- A background accept completes with a connection. -/
theorem Good.success (h : Good is s os m seen answers) (hlive : s.phase ≠ .gone)
    (haccepting : s.accepting = true) (peer : Nat) (during : List UserRequest) :
    Good (is ++ [.completes (.success peer) during])
      { (s.complete (.success peer)).1 with
        posted := (s.complete (.success peer)).1.posted ++ during }
      (os ++ (s.complete (.success peer)).2) (m.result peer).1 seen (answers ++ (m.result peer).2) := by
  obtain ⟨hq, hos⟩ := h.live hlive
  have hopen := h.open_of_accepting haccepting
  obtain ⟨his, hinvoked⟩ := hq.onSuccess hopen peer
  have hclosed : (m.result peer).1.closed = m.closed := by
    unfold Matching.result
    split <;> rfl
  simp only [complete, onNextPeerSocketOrError]
  rw [Queues.assert_of s.queues trivial]
  refine {
    accounts := ?_
    calls := ?_
    closed := ?_
    open_of_accepting := fun _ => hclosed.trans hopen
    sock := rfl
    live := fun _ => ⟨his, ?_⟩
    gone := fun hgone => absurd hgone hlive }
  · simpa [Input.connection] using h.accounts.result hopen peer
  · simp [asyncAccept, ← h.calls, Input.calls]
  · simp [hclosed, h.closed, Input.fatal]
  · rw [hos, hinvoked, List.map_append]

/-- A background accept fails, but not for good: nothing has come in. -/
theorem Good.ignored (h : Good is s os m seen answers) (hlive : s.phase ≠ .gone)
    (haccepting : s.accepting = true) {c : Completion} (during : List UserRequest) (b : Bool)
    (hconn : (Input.completes c during).connection = [])
    (hfatal : (Input.completes c during).fatal = none) :
    Good (is ++ [.completes c during])
      { s with accepting := b, nextPeerSocket := none, posted := s.posted ++ during } os m seen
      answers where
  accounts := by simpa [hconn] using h.accounts
  calls := by simp [← h.calls, Input.calls]
  closed := by simp [h.closed, hfatal]
  open_of_accepting _ := h.open_of_accepting haccepting
  sock := rfl
  live _ := h.live hlive
  gone hgone := absurd hgone hlive

/-- A background accept fails for good. -/
theorem Good.failure (h : Good is s os m seen answers) (hlive : s.phase ≠ .gone)
    (haccepting : s.accepting = true) {e : {e : Err // e ≠ .system eagain}}
    (hne : ¬ (e.val = .operationAborted ∨ e.val = connectionAborted)) (during : List UserRequest) :
    Good (is ++ [.completes (.failure e) during])
      { (s.complete (.failure e)).1 with posted := (s.complete (.failure e)).1.posted ++ during }
      (os ++ (s.complete (.failure e)).2) (m.close e.val).1 seen (answers ++ (m.close e.val).2) := by
  obtain ⟨hq, hos⟩ := h.live hlive
  have hopen := h.open_of_accepting haccepting
  obtain ⟨his, hinvoked⟩ := hq.onError hopen e
  have hnone : fatal is = none := h.closed.symm.trans hopen
  rw [not_or] at hne
  simp only [complete, onNextPeerSocketOrError, if_neg hne.1, if_neg hne.2]
  refine {
    accounts := ?_
    calls := ?_
    closed := ?_
    open_of_accepting := fun h => by cases h
    sock := rfl
    live := fun _ => ⟨his, ?_⟩
    gone := fun hgone => absurd hgone hlive }
  · simpa [Input.connection] using h.accounts.close hopen e.val
  · simp [← h.calls, Input.calls]
  · simp [hnone, Input.fatal, hne, Matching.close]
  · rw [hos, hinvoked, List.map_append]

/-- A background accept completes. -/
theorem Good.completes (h : Good is s os m seen answers) (hlive : s.phase ≠ .gone)
    (haccepting : s.accepting = true) (c : Completion) (during : List UserRequest) :
    Inv (is ++ [.completes c during])
      ({ (s.complete c).1 with posted := (s.complete c).1.posted ++ during },
        os ++ (s.complete c).2) := by
  rcases c with peer | e
  · exact ⟨_, _, _, h.success hlive haccepting peer during⟩
  · by_cases hop : e.val = .operationAborted
    · refine ⟨m, seen, answers, ?_⟩
      simp only [complete, onNextPeerSocketOrError, if_pos hop, h.sock, List.append_nil]
      exact h.ignored hlive haccepting during false rfl (if_pos (.inl hop))
    · by_cases hconn : e.val = connectionAborted
      · refine ⟨m, seen, answers, ?_⟩
        simp only [complete, onNextPeerSocketOrError, if_neg hop, if_pos hconn, asyncAccept,
          List.append_nil]
        exact h.ignored hlive haccepting during true rfl (if_pos (.inr hconn))
      · exact ⟨_, _, _, h.failure hlive haccepting (not_or.mpr ⟨hop, hconn⟩) during⟩

/-- A request is posted. -/
theorem Good.asyncAccept (h : Good is s os m seen answers) (hlive : s.phase ≠ .gone) (r : UserRequest) :
    Good (is ++ [.asyncAccept r]) { s with posted := s.posted ++ [r] } os m seen answers where
  accounts := by simpa [Input.connection] using h.accounts
  calls := by simp [← h.calls, Input.calls]
  closed := by simp [h.closed, Input.fatal]
  open_of_accepting := h.open_of_accepting
  sock := h.sock
  live := h.live
  gone hgone := absurd hgone hlive

/-- Thread W is stopped. -/
theorem Good.stop (h : Good is s os m seen answers) (hlive : s.phase ≠ .gone) :
    Good (is ++ [.stop]) { s with phase := .deinit } os m seen answers where
  accounts := by simpa [Input.connection] using h.accounts
  calls := by simp [← h.calls, Input.calls]
  closed := by simp [h.closed, Input.fatal]
  open_of_accepting := h.open_of_accepting
  sock := h.sock
  live _ := h.live hlive
  gone hgone := by cases hgone

/-- The requests that are left are aborted. -/
theorem Good.finish (h : Good is s os m seen answers) (hlive : s.phase ≠ .gone) (hposted : s.posted = []) :
    Good (is ++ [.finish])
      { s with
        phase := .gone
        accepting := false
        queues := { s.queues with pendingUserRequestsQ := [] } }
      (os ++ s.queues.pendingUserRequestsQ.map abort) m seen answers where
  accounts := by simpa [Input.connection] using h.accounts
  calls := by simp [← h.calls, Input.calls]
  closed := by simp [h.closed, Input.fatal]
  open_of_accepting haccepting := by cases haccepting
  sock := h.sock
  live hne := absurd rfl hne
  gone _ := by
    obtain ⟨hq, hos⟩ := h.live hlive
    refine ⟨hposted, ⟨rfl, hq.results, hq.fine⟩, ?_⟩
    rw [hos, hq.requests]

/-- **A step keeps the account.** -/
theorem Inv.step {i : Input} {x y : NativeSocketStreamAcceptor × List Invocation} (h : Inv is x)
    (hstep : Step x i y) : Inv (is ++ [i]) y := by
  obtain ⟨s, os⟩ := x
  obtain ⟨m, seen, answers, h⟩ := h
  rw [Step, next, Option.map_eq_some_iff] at hstep
  obtain ⟨⟨s', invoked⟩, hstep, rfl⟩ := hstep
  simp only at h hstep
  unfold NativeSocketStreamAcceptor.step at hstep
  rcases i with r | during | ⟨c, during⟩ | _ | _
  · simp only [Option.ite_none_right_eq_some] at hstep
    obtain ⟨hrunning, heq⟩ := hstep
    cases heq
    refine ⟨m, seen, answers, ?_⟩
    change Good _ _ (os ++ []) m seen answers
    rw [List.append_nil]
    exact h.asyncAccept (by simp [hrunning]) r
  · simp only at hstep
    rcases hposted : s.posted with _ | ⟨r, rs⟩
    · simp [hposted] at hstep
    · simp only [hposted, Option.ite_none_right_eq_some] at hstep
      obtain ⟨hlive, heq⟩ := hstep
      cases heq
      exact ⟨_, _, _, h.runTask hlive hposted during⟩
  · simp only [Option.ite_none_right_eq_some] at hstep
    obtain ⟨⟨hlive, haccepting⟩, heq⟩ := hstep
    cases heq
    exact h.completes hlive haccepting c during
  · simp only [Option.ite_none_right_eq_some] at hstep
    obtain ⟨hrunning, heq⟩ := hstep
    cases heq
    refine ⟨m, seen, answers, ?_⟩
    change Good _ _ (os ++ []) m seen answers
    rw [List.append_nil]
    exact h.stop (by simp [hrunning])
  · simp only [Option.ite_none_right_eq_some] at hstep
    obtain ⟨⟨hdeinit, hposted⟩, heq⟩ := hstep
    cases heq
    exact ⟨m, seen, answers, h.finish (by simp [hdeinit]) hposted⟩

/-- Whatever comes in, it stays so. -/
theorem inv_run {listening : Bool} {x : NativeSocketStreamAcceptor × List Invocation}
    (h : Run Step (ctor listening, []) is x) : Inv is x :=
  h.history (fun _ _ _ _ hinv hstep => hinv.step hstep) (inv_ctor listening)

/-! ## What is promised -/

/-- The handlers invoked are those of the first requests, in order. -/
theorem Good.requests (h : Good is s os m seen answers) :
    os.map Invocation.request ++ (s.queues.pendingUserRequestsQ ++ s.posted) = Acceptor.calls is := by
  have hseen := h.accounts.requests
  have hto : (fun o => (toInvocation o).request) = fun o : UserRequest × Answer Nat Err => o.1 := by
    funext o
    rcases o with ⟨r, _ | _⟩ <;> rfl
  by_cases hlive : s.phase = .gone
  · obtain ⟨hposted, hq, rfl⟩ := h.gone hlive
    rw [← h.calls, ← hseen, hq.requests, hposted]
    simp [Function.comp_def, hto, abort]
  · obtain ⟨hq, rfl⟩ := h.live hlive
    rw [← h.calls, ← hseen, hq.requests]
    simp [Function.comp_def, hto]

/-- No connection is lost, and none is delivered twice. -/
theorem Good.peers (h : Good is s os m seen answers) :
    (os.filterMap fun o => o.result.peer?) ++ m.ready = connections is := by
  have hresults := h.accounts.results
  have hto : (fun o => (toInvocation o).result.peer?) =
      fun o : UserRequest × Answer Nat Err => Matching.got? o.2 := by
    funext o
    rcases o with ⟨r, _ | _⟩ <;> rfl
  by_cases hlive : s.phase = .gone
  · obtain ⟨-, -, rfl⟩ := h.gone hlive
    have habort : (fun r => (abort r).result.peer?) = fun _ => none := rfl
    rw [← hresults, List.filterMap_append, List.filterMap_map, List.filterMap_map]
    simp only [Function.comp_def, hto, habort]
    simp
  · obtain ⟨-, rfl⟩ := h.live hlive
    rw [← hresults, List.filterMap_map]
    simp only [Function.comp_def, hto]

/-- The `k`-th handler that is invoked is invoked with the outcome of the `k`-th request; before the
destructor has returned, not with the code for what was aborted. -/
theorem Good.outcome (h : Good is s os m seen answers) {k : Nat} {o : Invocation} (ho : os[k]? = some o) :
    o.result = outcome (connections is) (fatal is) k ∧
      (s.phase = .gone ∨ k < (connections is).length ∨ (fatal is).isSome) := by
  have hanswer {a : UserRequest × Answer Nat Err} (ha : answers[k]? = some a) :
      (toInvocation a).result = Acceptor.outcome (connections is) (fatal is) k ∧
        (k < (connections is).length ∨ (fatal is).isSome) := by
    obtain ⟨-, hnth⟩ := h.accounts.answer ha
    rw [h.closed] at hnth
    unfold Matching.nth at hnth
    unfold Acceptor.outcome
    rcases hk : (connections is)[k]? with _ | peer
    · rw [hk] at hnth
      obtain ⟨e, he, hae⟩ := Option.map_eq_some_iff.mp hnth
      rw [he]
      obtain ⟨r, _⟩ := a
      subst hae
      exact ⟨rfl, .inr rfl⟩
    · rw [hk] at hnth
      obtain ⟨hlt, -⟩ := List.getElem?_eq_some_iff.mp hk
      obtain ⟨r, _⟩ := a
      cases hnth
      exact ⟨rfl, .inl hlt⟩
  by_cases hlive : s.phase = .gone
  · obtain ⟨-, -, rfl⟩ := h.gone hlive
    refine ⟨?_, .inl hlive⟩
    by_cases hk : k < answers.length
    · rw [List.getElem?_append_left (by simpa using hk), List.getElem?_map, Option.map_eq_some_iff] at ho
      obtain ⟨a, ha, rfl⟩ := ho
      exact (hanswer ha).1
    · -- The request was waiting: there is neither a connection for it nor an error.
      rw [List.getElem?_append_right (by simpa using hk), List.getElem?_map, Option.map_eq_some_iff] at ho
      obtain ⟨r, hr, rfl⟩ := ho
      obtain ⟨hready, hclosed⟩ := m.steady (List.ne_nil_of_mem (List.mem_of_getElem? hr))
      have hresults := h.accounts.results
      rw [hready, List.append_nil] at hresults
      have hle : (connections is).length ≤ k := by
        rw [← hresults]
        exact Nat.le_trans (List.length_filterMap_le _ _) (Nat.le_of_not_lt hk)
      unfold Acceptor.outcome
      rw [List.getElem?_eq_none hle, ← h.closed, hclosed]
      rfl
  · obtain ⟨-, rfl⟩ := h.live hlive
    rw [List.getElem?_map, Option.map_eq_some_iff] at ho
    obtain ⟨a, ha, rfl⟩ := ho
    obtain ⟨hresult, hthere⟩ := hanswer ha
    exact ⟨hresult, .inr hthere⟩

/-- A destructor that has been called can return. -/
theorem exists_finish (n : Nat) (x : NativeSocketStreamAcceptor × List Invocation)
    (hphase : x.1.phase = .deinit) (hn : x.1.posted.length = n) :
    ∃ is y, Run Step x is y ∧ y.1.phase = .gone := by
  induction n generalizing x with
  | zero =>
      have hposted : x.1.posted = [] := List.length_eq_zero_iff.mp hn
      have hstep : ∃ y, Step x .finish y ∧ y.1.phase = .gone := by
        simp only [Step, next, step]
        rw [if_pos ⟨hphase, hposted⟩]
        exact ⟨_, rfl, rfl⟩
      obtain ⟨y, hstep, hgone⟩ := hstep
      exact ⟨[.finish], y, Run.single hstep, hgone⟩
  | succ n ih =>
      rcases hposted : x.1.posted with _ | ⟨r, rs⟩
      · simp [hposted] at hn
      · have hstep : ∃ y, Step x (.runTask []) y ∧ y.1.phase = .deinit ∧ y.1.posted.length = n := by
          unfold Step next step
          simp only [hposted]
          rw [if_pos (by simp [hphase])]
          refine ⟨_, rfl, hphase, ?_⟩
          rw [hposted] at hn
          simpa using hn
        obtain ⟨y, hstep, hphase', hn'⟩ := hstep
        obtain ⟨is, z, hrun, hgone⟩ := ih y hphase' hn'
        exact ⟨.runTask [] :: is, z, run_cons_iff.mpr ⟨y, hstep, hrun⟩, hgone⟩

/-- Where thread W runs, the destructor can be called, and return. -/
theorem exists_gone (x : NativeSocketStreamAcceptor × List Invocation) (hphase : x.1.phase ≠ .gone) :
    ∃ is y, Run Step x is y ∧ y.1.phase = .gone := by
  by_cases hrunning : x.1.phase = .running
  · have hstep : ∃ y, Step x .stop y ∧ y.1.phase = .deinit := by
      simp only [Step, next, step]
      rw [if_pos hrunning]
      exact ⟨_, rfl, rfl⟩
    obtain ⟨y, hstep, hdeinit⟩ := hstep
    obtain ⟨is, z, hrun, hgone⟩ := exists_finish _ y hdeinit rfl
    exact ⟨.stop :: is, z, run_cons_iff.mpr ⟨y, hstep, hrun⟩, hgone⟩
  · have hdeinit : x.1.phase = .deinit := by
      rcases h : x.1.phase
      · exact absurd h hrunning
      · rfl
      · exact absurd h hphase
    exact exists_finish _ x hdeinit rfl

/-- **Every request is served once, and in its turn.** In every run no assertion fails, and in its states
requests wait or results do, not both. An error is the last of the results, and stays there. The handlers
invoked are those of the first requests, in the order of the calls, each once; the `k`-th is invoked with
the `k`-th connection, and if there is none with the fatal error; no connection is lost, and none is
delivered twice. When the destructor has returned, all handlers have been invoked, those of the requests
for which there was neither a connection nor an error with the code for what was aborted. -/
theorem serves {listening : Bool} (h : Run Step (ctor listening, []) is (s, os)) :
    s.queues.assertFailed = false ∧
      (s.queues.pendingUserRequestsQ = [] ∨ s.queues.pendingResultsQ = []) ∧
      (∃ surplus, s.queues.pendingResultsQ =
          surplus.map .peer ++ ((fatal is).map .errorCode).toList ∧
        (os.filterMap fun o => o.result.peer?) ++ surplus = connections is) ∧
      os.map Invocation.request ++ (s.queues.pendingUserRequestsQ ++ s.posted) = Acceptor.calls is ∧
      (∀ k o, os[k]? = some o → o.result = Acceptor.outcome (connections is) (fatal is) k ∧
        (s.phase = .gone ∨ k < (connections is).length ∨ (fatal is).isSome)) ∧
      (s.phase = .gone → os.map Invocation.request = Acceptor.calls is) ∧
      (s.phase ≠ .gone → ∃ js y, Run Step (s, os) js y ∧ y.1.phase = .gone) := by
  obtain ⟨m, seen, answers, hgood⟩ := inv_run h
  simp only at hgood
  have his : ∃ m' : Matching UserRequest Nat Err, s.queues.Is m' ∧ m'.ready = m.ready ∧
      m'.closed = m.closed ∧ (s.phase = .gone → m'.waiting = [] ∧ s.posted = []) := by
    by_cases hlive : s.phase = .gone
    · obtain ⟨hposted, hq, -⟩ := hgood.gone hlive
      exact ⟨_, hq, rfl, rfl, fun _ => ⟨rfl, hposted⟩⟩
    · exact ⟨m, (hgood.live hlive).1, rfl, rfl, fun hgone => absurd hgone hlive⟩
  obtain ⟨m', hq, hready, hclosed, hgone⟩ := his
  refine ⟨hq.fine, ?_, ⟨m.ready, ?_, hgood.peers⟩, hgood.requests, fun k o ho => hgood.outcome ho,
    fun hphase => ?_, fun hphase => exists_gone _ hphase⟩
  · by_cases hw : m'.waiting = []
    · exact .inl (hq.requests.trans hw)
    · exact .inr (hq.eq_nil hw)
  · rw [hq.results, hready, hclosed, hgood.closed]
  · obtain ⟨hwaiting, hposted⟩ := hgone hphase
    have hrequests := hgood.requests
    rw [hq.requests, hwaiting, hposted, List.append_nil, List.append_nil] at hrequests
    exact hrequests

/-- A request is made before a connection comes, and its handler makes another; of two more connections
the second is left over. The background accept fails, and the destructor is called while a third request
is on its way. -/
def sampleInputs : List Input :=
  [.asyncAccept ⟨1, 10⟩, .runTask [], .completes (.success 7) [⟨2, 20⟩], .completes (.success 8) [],
    .completes (.failure ⟨connectionAborted, by decide⟩) [], .completes (.success 9) [], .runTask [],
    .completes (.failure ⟨.system 24, by decide⟩) [], .asyncAccept ⟨3, 30⟩, .asyncAccept ⟨4, 40⟩, .stop,
    .runTask [], .runTask [], .finish]

/-- The first two are served in order, the third gets what was left over, and the last the error. -/
theorem serves_sampleInputs :
    ∃ s os, Run Step (ctor true, []) sampleInputs (s, os) ∧
      os = [⟨⟨1, 10⟩, .peer 7⟩, ⟨⟨2, 20⟩, .peer 8⟩, ⟨⟨3, 30⟩, .peer 9⟩,
        ⟨⟨4, 40⟩, .errorCode (.system 24)⟩] ∧
      s.queues.assertFailed = false ∧ os.map Invocation.request = Acceptor.calls sampleInputs := by
  have hrun : Run Step (ctor true, []) sampleInputs _ :=
    Run.of_foldlM (show sampleInputs.foldlM next (ctor true, []) = some _ from rfl)
  have h := serves hrun
  exact ⟨_, _, hrun, rfl, h.1, h.2.2.2.2.2.1 rfl⟩

end NativeSocketStreamAcceptor

end FlowIpc.Acceptor
