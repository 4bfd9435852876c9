import FlowIpc.PosixMq.Ctor

/-!
# What a constructor of a `Posix_mq_handle` leaves behind

It depends on which of its calls is the first to fail (`Opening.firstFailed`), if any is. `Made` says for
each call what has been opened by then, what is closed again, and so what is left to the handle; that this
is what the constructors do is `ctor_spec`, by which the constructors are known from here on.

Source: `posix_mq_handle.cpp`, the constructors, `pipe_setup`, `epoll_setup`.
-/

namespace FlowIpc.PosixMq

open MqHandle

/-! ## What a constructor leaves behind -/

/-- The call of a constructor's that fails. -/
inductive Failed where
  /-- `mq_open()`, for good -/
  | mqOpen
  /-- One of the others. -/
  | call (c : SysCall)
  deriving DecidableEq

/-- Whether the loop that creates or opens has created, or what it has failed with. -/
def creates : List Round → Option (Except Nat Bool)
  | [] => none
  | r :: rounds =>
    match r.create, r.plain with
    | none, _ => some (.ok true)
    | some e, plain =>
      if e ≠ fileExists then some (.error e)
      else
        match plain with
        | none => some (.ok false)
        | some e => if e ≠ noSuchFileOrDirectory then some (.error e) else creates rounds

/-- Whether a constructor creates the queue, or what `mq_open()` fails with for good. -/
def Opening.opens : Opening → Option (Except Nat Bool)
  | .createOnly none => some (.ok true)
  | .createOnly (some e) => some (.error e)
  | .openOrCreate rounds => creates rounds
  | .openOnly none => some (.ok false)
  | .openOnly (some e) => some (.error e)

/-- The calls that are made when the queue is open, in order. -/
def callsAfter (created : Bool) : List SysCall :=
  (if created then [.fchmod] else []) ++
    [.mqSetattr, .epollCreate .snd, .epollCtlMq .snd, .epollCtlDetector .snd,
      .epollCreate .rcv, .epollCtlMq .rcv, .epollCtlDetector .rcv]

/-- The code for a call that fails with `e`. -/
def SysCall.toErr : SysCall → Nat → Err
  | .mqSetattr, e => MqHandle.PosixMqHandle.handleMqApiResult e
  | _, e => .system e

/-- The first of the calls that fails, if any, with the code for it. -/
def Answers.firstFailed (a : Answers) (cs : List SysCall) : Option (Failed × Err) :=
  cs.findSome? fun c => (a.to c).map fun e => (.call c, c.toErr e)

/-- The first call of a constructor that fails, if any, with the code for it; `none` if the constructor is
not over. -/
def Opening.firstFailed (o : Opening) (a : Answers) : Option (Option (Failed × Err)) :=
  match a.firstFailed [.connectPipe .snd, .connectPipe .rcv] with
  | some f => some (some f)
  | none =>
    match o.opens with
    | none => none
    | some (.error e) => some (some (.mqOpen, .system e))
    | some (.ok created) => some (a.firstFailed (callsAfter created))

/-- The queue is created by this construction. -/
def Opening.creator (o : Opening) (a : Answers) : Bool :=
  match a.firstFailed [.connectPipe .snd, .connectPipe .rcv], o.opens with
  | none, some (.ok created) => created
  | _, _ => false

/-- The ends of the pipe of a direction. -/
def pipeParts (d : Dir) : List Part := [.interruptDetector d, .interrupter d]

/-- What has been opened when `f` fails, or in the end. -/
def openedParts : Option Failed → List Part
  | some (.call (.connectPipe .snd)) => []
  | some (.call (.connectPipe .rcv)) => pipeParts .snd
  | some .mqOpen => pipeParts .snd ++ pipeParts .rcv
  | some (.call .fchmod) | some (.call .mqSetattr) | some (.call (.epollCreate .snd)) =>
    pipeParts .snd ++ pipeParts .rcv ++ [.mq]
  | some (.call (.epollCtlMq .snd)) | some (.call (.epollCtlDetector .snd))
  | some (.call (.epollCreate .rcv)) =>
    pipeParts .snd ++ pipeParts .rcv ++ [.mq, .epollHndl .snd]
  | some (.call (.epollCtlMq .rcv)) | some (.call (.epollCtlDetector .rcv)) | none =>
    pipeParts .snd ++ pipeParts .rcv ++ [.mq, .epollHndl .snd, .epollHndl .rcv]

/-- What is closed again because `f` fails. -/
def closedParts : Option Failed → List Part
  | some (.call (.connectPipe .snd)) | some .mqOpen | some (.call .fchmod) | none => []
  | some (.call (.connectPipe .rcv)) => [.interrupter .snd, .interruptDetector .snd]
  | some (.call .mqSetattr) => [.mq]
  | some (.call (.epollCreate .snd)) => pipeParts .snd ++ pipeParts .rcv ++ [.mq]
  | some (.call (.epollCtlMq .snd)) | some (.call (.epollCtlDetector .snd)) => [.epollHndl .snd, .mq]
  | some (.call (.epollCreate .rcv)) => pipeParts .snd ++ pipeParts .rcv ++ [.mq, .epollHndl .snd]
  | some (.call (.epollCtlMq .rcv)) | some (.call (.epollCtlDetector .rcv)) =>
    [.epollHndl .rcv, .mq, .epollHndl .snd]

/-- What is left to the handle. -/
def keptParts (f : Option Failed) : List Part := (openedParts f).filter fun p => p ∉ closedParts f

/-- What has been given its permissions, where the queue is `created` or not. -/
def permittedParts (created : Bool) : Option Failed → List Part
  | some (.call .fchmod) => []
  | _ => if created then [.mq] else []

/-- The handle of the construction `k` that has what is in `ps`, and no more. -/
def PosixMqHandle.of (k : Nat) (absoluteName : String) (ps : List Part) : PosixMqHandle :=
  let fd (p : Part) : Option Fd := if p ∈ ps then some ⟨k, p⟩ else none
  let side (d : Dir) : Side :=
    ⟨fd (.epollHndl d), false, fd (.interrupter d), fd (.interruptDetector d)⟩
  ⟨fd .mq, absoluteName, side .snd, side .rcv⟩

/-- A handle has the descriptors of the parts that it is made of. -/
@[simp] theorem PosixMqHandle.slot_of (k : Nat) (absoluteName : String) (ps : List Part) (p : Part) :
    (PosixMqHandle.of k absoluteName ps).slot p = if p ∈ ps then some ⟨k, p⟩ else none := by
  rcases p with _ | d | d | d
  · rfl
  all_goals cases d <;> rfl

/-- The descriptors of the construction `k`. -/
def fds (k : Nat) (ps : List Part) : List Fd := ps.map fun p => ⟨k, p⟩

/-- What a construction has come to when `f` is the call that has failed, if any. -/
structure Made (k : Nat) (absoluteName : String) (created : Bool) (f : Option Failed) (m : Making) :
    Prop where
  obj : m.obj = .of k absoluteName (keptParts f)
  opened : m.log.opened = fds k (openedParts f)
  closed : m.log.closed = fds k (closedParts f)
  permitted : m.log.permitted = fds k (permittedParts created f)
  nonBlocking : f = none → m.log.nonBlocking = [⟨k, .mq⟩]
  watches : f = none → m.log.watches =
    [(⟨k, .epollHndl .snd⟩, ⟨k, .mq⟩), (⟨k, .epollHndl .snd⟩, ⟨k, .interruptDetector .snd⟩),
      (⟨k, .epollHndl .rcv⟩, ⟨k, .mq⟩), (⟨k, .epollHndl .rcv⟩, ⟨k, .interruptDetector .rcv⟩)]

/-! ## How it comes to that -/

variable {k : Nat} {absoluteName : String} {o : Opening} {a : Answers} {m : Making}

/-- Of a construction that has failed there is no more to say than what there is of it. -/
theorem Made.of_failed {created : Bool} {f : Failed} (hobj : m.obj = .of k absoluteName (keptParts (some f)))
    (hopened : m.log.opened = fds k (openedParts (some f)))
    (hclosed : m.log.closed = fds k (closedParts (some f)))
    (hpermitted : m.log.permitted = fds k (permittedParts created (some f))) :
    Made k absoluteName created (some f) m :=
  ⟨hobj, hopened, hclosed, hpermitted, nofun, nofun⟩

/-- The handle when it has got its pipes. -/
def Making.piped (k : Nat) (absoluteName : String) : Making :=
  ⟨.of k absoluteName (pipeParts .snd ++ pipeParts .rcv),
    { Log.empty with opened := fds k (pipeParts .snd ++ pipeParts .rcv) }⟩

/-- The pipes are made, or one of them is not. -/
theorem pipeSetup_start (k : Nat) (absoluteName : String) (a : Answers) :
    (a.firstFailed [.connectPipe .snd, .connectPipe .rcv] = none ∧
      (Making.start absoluteName).pipeSetup k a = (.piped k absoluteName, none)) ∨
    ∃ f e m, a.firstFailed [.connectPipe .snd, .connectPipe .rcv] = some (f, e) ∧
      (Making.start absoluteName).pipeSetup k a = (m, some e) ∧ Made k absoluteName false (some f) m := by
  obtain ⟨_, _, ⟨pipe, _, _, _⟩, ⟨pipe', _, _, _⟩⟩ := a
  rcases pipe with _ | e
  · rcases pipe' with _ | e
    · exact .inl ⟨rfl, rfl⟩
    · exact .inr ⟨_, _, _, rfl, rfl, .of_failed rfl rfl rfl rfl⟩
  · exact .inr ⟨_, _, _, rfl, rfl, .of_failed rfl rfl rfl rfl⟩

/-- The loop creates, or opens, or fails, or is not over. -/
theorem createOrOpen_eq (rounds : List Round) : m.createOrOpen k a rounds = (creates rounds).map fun
    | .ok true => (m.opens k .mq).setResourcePermissions a
    | .ok false => (m.opens k .mq, none)
    | .error e => (m, some (.system e)) := by
  induction rounds with
  | nil => rfl
  | cons r rounds ih =>
      unfold Making.createOrOpen creates
      rcases r with ⟨_ | e, plain⟩
      · rfl
      · by_cases he : e = fileExists
        · rcases plain with _ | e'
          · simp [Making.doMqOpen, he]
          · by_cases he' : e' = noSuchFileOrDirectory
            · simpa [Making.doMqOpen, he, he'] using ih
            · simp [Making.doMqOpen, he, he']
        · simp [Making.doMqOpen, he]

/-- Opening the queue goes by what the system opens. -/
theorem openMq_eq : m.openMq k a o = o.opens.map fun
    | .ok true => (m.opens k .mq).setResourcePermissions a
    | .ok false => (m.opens k .mq, none)
    | .error e => (m, some (.system e)) := by
  rcases o with (_ | _) | rounds | (_ | _)
  · rfl
  · rfl
  · exact createOrOpen_eq rounds
  · rfl
  · rfl

/-- The handle when it has got its queue. -/
def Making.queued (k : Nat) (absoluteName : String) (permitted : List Fd) : Making :=
  ⟨.of k absoluteName (pipeParts .snd ++ pipeParts .rcv ++ [.mq]),
    { Log.empty with opened := fds k (pipeParts .snd ++ pipeParts .rcv ++ [.mq]), permitted := permitted }⟩

/-- The queue is opened after the pipes. -/
theorem opens_piped : (Making.piped k absoluteName).opens k .mq = .queued k absoluteName [] := rfl

/-- The permissions are set of the queue just opened, or the call fails. -/
theorem setResourcePermissions_queued : (Making.queued k absoluteName []).setResourcePermissions a =
    match a.fchmod with
    | none => (.queued k absoluteName [⟨k, .mq⟩], none)
    | some e => (.queued k absoluteName [], some (.system e)) := by
  rcases a with ⟨_ | e, _, _, _⟩ <;> rfl

/-- The call that fails, of those that are made with the queue open. -/
theorem firstFailed_callsAfter_true : a.firstFailed (callsAfter true) =
    match a.fchmod with
    | none => a.firstFailed (callsAfter false)
    | some e => some (.call .fchmod, .system e) := by
  rcases a with ⟨_ | e, _, _, _⟩ <;> rfl

/-- What is done with the queue when it is open. -/
theorem Made.setup_queued (k : Nat) (absoluteName : String) (a : Answers) (created : Bool) :
    let f := a.firstFailed (callsAfter false)
    let r := (Making.queued k absoluteName (fds k (permittedParts created none))).setup k a
    r.2 = f.map Prod.snd ∧ Made k absoluteName created (f.map Prod.fst) r.1 := by
  obtain ⟨_, setattr, ⟨_, create, ctlMq, ctlDetector⟩, ⟨_, create', ctlMq', ctlDetector'⟩⟩ := a
  rcases setattr with _ | e
  · rcases create with _ | e
    · rcases ctlMq with _ | e
      · rcases ctlDetector with _ | e
        · rcases create' with _ | e
          · rcases ctlMq' with _ | e
            · rcases ctlDetector' with _ | e
              · exact ⟨rfl, ⟨rfl, rfl, rfl, rfl, fun _ => rfl, fun _ => rfl⟩⟩
              · exact ⟨rfl, .of_failed rfl rfl rfl rfl⟩
            · exact ⟨rfl, .of_failed rfl rfl rfl rfl⟩
          · exact ⟨rfl, .of_failed rfl rfl rfl rfl⟩
        · exact ⟨rfl, .of_failed rfl rfl rfl rfl⟩
      · exact ⟨rfl, .of_failed rfl rfl rfl rfl⟩
    · exact ⟨rfl, .of_failed rfl rfl rfl rfl⟩
  · exact ⟨rfl, .of_failed rfl rfl rfl rfl⟩

/-- **What a constructor comes to.** It is over iff `firstFailed` says so, and what it leaves is as `Made`
says for the call that has failed. -/
theorem ctor_spec (k : Nat) (absoluteName : String) (o : Opening) (a : Answers) :
    (ctor k absoluteName o a = none ∧ o.firstFailed a = none) ∨
    ∃ m f, ctor k absoluteName o a = some (m, f.map Prod.snd) ∧ o.firstFailed a = some f ∧
      Made k absoluteName (o.creator a) (f.map Prod.fst) m := by
  unfold ctor Opening.firstFailed Opening.creator
  rcases pipeSetup_start k absoluteName a with ⟨hnone, hpipe⟩ | ⟨f, e, m, hf, hpipe, hm⟩
  · rw [hnone, hpipe]
    simp only [openMq_eq, opens_piped]
    rcases o.opens with _ | e | _ | _
    · exact .inl ⟨rfl, rfl⟩
    · exact .inr ⟨_, some (.mqOpen, .system e), rfl, rfl, rfl, rfl, rfl, rfl, nofun, nofun⟩
    · obtain ⟨herr, hmade⟩ := Made.setup_queued k absoluteName a false
      exact .inr ⟨_, _, congrArg some (Prod.ext rfl herr), rfl, hmade⟩
    · simp only [Option.map_some, setResourcePermissions_queued, firstFailed_callsAfter_true]
      rcases a.fchmod with _ | e
      · obtain ⟨herr, hmade⟩ := Made.setup_queued k absoluteName a true
        exact .inr ⟨_, _, congrArg some (Prod.ext rfl herr), rfl, hmade⟩
      · exact .inr ⟨_, some (.call .fchmod, .system e), rfl, rfl, rfl, rfl, rfl, rfl, nofun, nofun⟩
  · rw [hf, hpipe]
    exact .inr ⟨m, some (f, e), rfl, rfl, hm⟩

/-! ## Closing what a handle has -/

/-- A part has what was put there, and the others what they had. -/
@[simp] theorem PosixMqHandle.slot_put (h : PosixMqHandle) (fd : Option Fd) (p q : Part) :
    (h.put fd p).slot q = if q = p then fd else h.slot q := by
  rcases p with _ | d | d | d
  · cases q <;> rfl
  all_goals
    rcases q with _ | e | e | e
    · cases d <;> rfl
    all_goals cases d <;> cases e <;> rfl

namespace Making

/-- Of these, what there is is closed, one after the other. -/
def closeAll (ps : List Part) (m : Making) : Making := ps.foldl (fun m p => m.closes p) m

/-- A part that was closed has no descriptor, and the others have what they had. -/
@[simp] theorem slot_closes (p q : Part) : (m.closes p).obj.slot q = if q = p then none else m.obj.slot q := by
  unfold closes
  rcases h : m.obj.slot p with _ | fd
  · by_cases hq : q = p
    · simp [hq, h]
    · simp [hq]
  · simp

@[simp] theorem opened_closes (p : Part) : (m.closes p).log.opened = m.log.opened := by
  unfold closes
  rcases m.obj.slot p with _ | fd <;> rfl

/-- To close a part closes its descriptor, if it has one. -/
@[simp] theorem closed_closes (p : Part) :
    (m.closes p).log.closed = m.log.closed ++ (m.obj.slot p).toList := by
  unfold closes
  rcases m.obj.slot p with _ | fd
  · simp
  · rfl

@[simp] theorem opened_closeAll (ps : List Part) : (m.closeAll ps).log.opened = m.log.opened := by
  induction ps generalizing m with
  | nil => rfl
  | cons p ps ih => exact ih.trans (opened_closes p)

/-- Parts that were closed have no descriptors. -/
@[simp] theorem slot_closeAll (ps : List Part) (q : Part) :
    (m.closeAll ps).obj.slot q = if q ∈ ps then none else m.obj.slot q := by
  induction ps generalizing m with
  | nil => rfl
  | cons p ps ih =>
      refine ih.trans ?_
      by_cases hq : q ∈ ps <;> by_cases hqp : q = p <;> simp [hq, hqp]

/-- To close several closes theirs, in that order. -/
theorem closed_closeAll {ps : List Part} (h : ps.Nodup) :
    (m.closeAll ps).log.closed = m.log.closed ++ ps.filterMap m.obj.slot := by
  induction ps generalizing m with
  | nil => exact (List.append_nil _).symm
  | cons p ps ih =>
      obtain ⟨hp, hps⟩ := List.nodup_cons.mp h
      have hsame : ps.filterMap (m.closes p).obj.slot = ps.filterMap m.obj.slot := by
        apply List.filterMap_congr
        intro q hq
        rw [slot_closes, if_neg (ne_of_mem_of_not_mem hq hp)]
      refine (ih hps).trans ?_
      rw [closed_closes, hsame, List.append_assoc]
      congr 1
      rcases hslot : m.obj.slot p with _ | fd <;> simp [hslot]

@[simp] theorem absoluteName_closes (p : Part) :
    (m.closes p).obj.absoluteName = m.obj.absoluteName := by
  unfold closes
  rcases m.obj.slot p with _ | fd
  · rfl
  · rcases p with _ | d | d | d
    · rfl
    all_goals cases d <;> rfl

/-- The name is kept. -/
theorem absoluteName_closeAll (ps : List Part) :
    (m.closeAll ps).obj.absoluteName = m.obj.absoluteName := by
  induction ps generalizing m with
  | nil => rfl
  | cons p ps ih => exact ih.trans (absoluteName_closes p)

/-- What the destructors of the members close. -/
def memberParts : List Part :=
  [.interruptDetector .rcv, .interrupter .rcv, .interruptDetector .snd, .interrupter .snd]

/-- Members are destroyed by closing their parts. -/
theorem destroyMembers_eq : m.destroyMembers = m.closeAll memberParts := rfl

/-- What the destructor closes. -/
def dtorParts (h : PosixMqHandle) : List Part :=
  (if h.mq = none then [] else [.mq, .epollHndl .snd, .epollHndl .rcv]) ++ memberParts

/-- The destructor closes no part twice. -/
theorem nodup_dtorParts (h : PosixMqHandle) : (dtorParts h).Nodup := by
  unfold dtorParts
  by_cases hmq : h.mq = none
  · rw [if_pos hmq]
    decide
  · rw [if_neg hmq]
    decide

/-- The destructor closes its parts. -/
theorem dtor_eq : m.dtor = m.closeAll (dtorParts m.obj) := by
  unfold dtor dtorParts
  by_cases hmq : m.obj.mq = none
  · rw [if_pos hmq, if_pos hmq]
    rfl
  · rw [if_neg hmq, if_neg hmq]
    rfl

end Making

end FlowIpc.PosixMq
