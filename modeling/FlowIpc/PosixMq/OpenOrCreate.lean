import FlowIpc.PosixMq.AllOrNothing

/-!
# The loop that creates or opens

There is no call that creates a queue or opens it, and says which it was. So the constructor tries to
create, and if the queue exists to open, and if it does not exist any more to create again. Other processes
create and unlink under the same name all the while (`Turn`); besides, the system may refuse either
`mq_open()` for reasons of its own. So `mq_open()` is answered as the name is at the time (`answers`).

The loop is left with a queue, or with a code of the system's own (`creates_answers`); and it is left in
the first turn in which no one unlinks the queue at the wrong moment. What is not so is that the
constructor's report says whether the queue is open, and that the creator has set the permissions: not
where `fchmod()` fails, for then the queue stays open without them. Nor does a constructor that succeeds
write to `*err_code`.

Source: `posix_mq_handle.cpp` `Posix_mq_handle(Mode_tag)`.
-/

namespace FlowIpc.PosixMq

open MqHandle

/-! ## Other processes -/

/-- What another process does to the name. -/
inductive Elsewhere where
  /-- It creates the queue if there is none. -/
  | create
  /-- It unlinks the queue if there is one. -/
  | unlink
  deriving DecidableEq

/-- What has been done to the name, which was `present` or not. -/
def presentAfter (present : Bool) (steps : List Elsewhere) : Bool :=
  steps.foldl (fun _ step => step = .create) present

/-- A turn of the loop, from outside: what others do before either `mq_open()`, and what the system has
against it. It is not for such a reason that a queue exists, or does not. -/
structure Turn where
  /-- Before `mq_open()` with `O_CREAT | O_EXCL` -/
  beforeCreate : List Elsewhere
  /-- Why it does not create. -/
  refusesCreate : Option {e : Nat // e ≠ fileExists}
  /-- Before `mq_open()` without -/
  beforePlain : List Elsewhere
  /-- Why it does not open. -/
  refusesPlain : Option {e : Nat // e ≠ fileExists ∧ e ≠ noSuchFileOrDirectory}

/-- How `mq_open()` comes out as it creates, where the queue is present or not. -/
def Turn.create (t : Turn) (present : Bool) : Option Nat :=
  match t.refusesCreate with
  | some e => some e
  | none => if present then some fileExists else none

/-- The same as it opens. -/
def Turn.plain (t : Turn) (present : Bool) : Option Nat :=
  match t.refusesPlain with
  | some e => some e
  | none => if present then none else some noSuchFileOrDirectory

/-- How `mq_open()` comes out, turn by turn, for as long as the loop goes on. -/
def answers (present : Bool) : List Turn → List Round
  | [] => []
  | t :: turns =>
    let present := presentAfter present t.beforeCreate
    let present' := presentAfter present t.beforePlain
    ⟨t.create present, t.plain present'⟩ :: answers present' turns

/-- The system refuses with `e`, in one of the turns. -/
def Refused (turns : List Turn) (e : Nat) : Prop :=
  ∃ t ∈ turns, (∃ r ∈ t.refusesCreate, r.val = e) ∨ ∃ r ∈ t.refusesPlain, r.val = e

/-- **What the constructor is to keep to.** -/
structure OpensOrCreates (k : Nat) (absoluteName : String) (present : Bool) (turns : List Turn) (a : Answers)
    (ptr : Option ErrorCode) : Prop where
  /-- The loop is left with a queue and no error, or with an error that is the system's own. -/
  leaves (m m' : Making) err : m.createOrOpen k a (answers present turns) = some (m', err) →
    (err = none ∧ m'.obj.mq = some ⟨k, .mq⟩) ∨
      ∃ e, err = some (.system e) ∧ (a.fchmod = some e ∨ Refused turns e ∧ e ≠ fileExists)
  /-- It is left in the first turn, if not before, in which no one unlinks in between. -/
  ends : (∃ t ∈ turns, .unlink ∉ t.beforePlain) →
    (ctor k absoluteName (.openOrCreate (answers present turns)) a).isSome
  /-- The permissions are set iff this has created the queue. -/
  permitted r : ctor k absoluteName (.openOrCreate (answers present turns)) a = some r →
    (r.1.log.permitted = [⟨k, .mq⟩] ↔ (Opening.openOrCreate (answers present turns)).creator a)
  /-- No error is reported iff the queue is open. -/
  falsy r : ctor k absoluteName (.openOrCreate (answers present turns)) a = some r →
    ((report ptr r).2.emitted = none ↔ (report ptr r).1.obj.mq ≠ none)

/-! ## The loop -/

variable {k : Nat} {absoluteName : String} {present created : Bool} {turns : List Turn} {a : Answers}
  {ptr : Option ErrorCode} {m : Making}

/-- A queue that nobody unlinks stays. -/
theorem presentAfter_of_not_mem {steps : List Elsewhere} (h : .unlink ∉ steps) :
    presentAfter true steps = true := by
  unfold presentAfter
  induction steps with
  | nil => rfl
  | cons step steps ih =>
      rw [List.mem_cons, not_or] at h
      cases step with
      | create => exact ih h.2
      | unlink => exact absurd rfl h.1

/-- A turn of the loop. -/
theorem creates_answers_cons (t : Turn) : creates (answers present (t :: turns)) =
    match t.refusesCreate, presentAfter present t.beforeCreate, t.refusesPlain,
      presentAfter (presentAfter present t.beforeCreate) t.beforePlain with
    | some e, _, _, _ => some (.error e)
    | none, false, _, _ => some (.ok true)
    | none, true, some e, _ => some (.error e)
    | none, true, none, true => some (.ok false)
    | none, true, none, false => creates (answers false turns) := by
  rw [answers, creates]
  unfold Turn.create Turn.plain
  rcases t with ⟨before, _ | ⟨e, he⟩, before', _ | ⟨e', he'⟩⟩
  · rcases presentAfter present before with _ | _
    · rfl
    · rcases presentAfter true before' with _ | _ <;> simp
  · rcases presentAfter present before with _ | _
    · rfl
    · simp [he'.2]
  · simp [he]
  · simp [he]

/-- What the loop fails with is the system's own. -/
theorem creates_answers {e : Nat} (h : creates (answers present turns) = some (.error e)) :
    Refused turns e ∧ e ≠ fileExists := by
  induction turns generalizing present with
  | nil => cases h
  | cons t turns ih =>
      rw [creates_answers_cons] at h
      rcases hcreate : t.refusesCreate with _ | r
      · rcases hpresent : presentAfter present t.beforeCreate with _ | _
        · simp only [hcreate, hpresent] at h
          cases h
        · rcases hplain : t.refusesPlain with _ | r
          · rcases hgone : presentAfter true t.beforePlain with _ | _
            · simp only [hcreate, hpresent, hplain, hgone] at h
              obtain ⟨⟨u, hu, hr⟩, hne⟩ := ih h
              exact ⟨⟨u, List.mem_cons_of_mem _ hu, hr⟩, hne⟩
            · simp only [hcreate, hpresent, hplain, hgone] at h
              cases h
          · simp only [hcreate, hpresent, hplain] at h
            cases h
            exact ⟨⟨t, List.mem_cons_self, .inr ⟨r, hplain, rfl⟩⟩, r.2.1⟩
      · simp only [hcreate] at h
        cases h
        exact ⟨⟨t, List.mem_cons_self, .inl ⟨r, hcreate, rfl⟩⟩, r.2⟩

/-- A loop that is not over has met with someone who unlinks, in every turn. -/
theorem creates_answers_eq_none (h : creates (answers present turns) = none) :
    ∀ t ∈ turns, .unlink ∈ t.beforePlain := by
  induction turns generalizing present with
  | nil => nofun
  | cons t turns ih =>
      rw [creates_answers_cons] at h
      rcases hcreate : t.refusesCreate with _ | r
      · rcases hpresent : presentAfter present t.beforeCreate with _ | _
        · simp only [hcreate, hpresent] at h
          cases h
        · rcases hplain : t.refusesPlain with _ | r
          · rcases hgone : presentAfter true t.beforePlain with _ | _
            · simp only [hcreate, hpresent, hplain, hgone] at h
              have hunlink : .unlink ∈ t.beforePlain := by
                by_contra hnone
                rw [presentAfter_of_not_mem hnone] at hgone
                cases hgone
              exact List.forall_mem_cons.mpr ⟨hunlink, ih h⟩
            · simp only [hcreate, hpresent, hplain, hgone] at h
              cases h
          · simp only [hcreate, hpresent, hplain] at h
            cases h
      · simp only [hcreate] at h
        cases h

/-! ## The constructor -/

variable {m' : Making} {err : ErrorCode}

/-- How the loop is left. -/
theorem createOrOpen_leaves (h : m.createOrOpen k a (answers present turns) = some (m', err)) :
    (err = none ∧ m'.obj.mq = some ⟨k, .mq⟩) ∨
      ∃ e, err = some (.system e) ∧ (a.fchmod = some e ∨ Refused turns e ∧ e ≠ fileExists) := by
  rw [createOrOpen_eq] at h
  rcases hcreates : creates (answers present turns) with _ | e | _ | _
  · rw [hcreates] at h
    cases h
  · rw [hcreates] at h
    cases h
    exact .inr ⟨e, rfl, .inr (creates_answers hcreates)⟩
  · rw [hcreates] at h
    cases h
    exact .inl ⟨rfl, rfl⟩
  · rw [hcreates] at h
    rcases a with ⟨_ | e, _, _, _⟩
    · cases h
      exact .inl ⟨rfl, rfl⟩
    · cases h
      exact .inr ⟨e, rfl, .inl rfl⟩

/-- A constructor that is not over is in its loop. -/
theorem ctor_eq_none (h : ctor k absoluteName (.openOrCreate (answers present turns)) a = none) :
    creates (answers present turns) = none := by
  rcases ctor_spec k absoluteName (.openOrCreate (answers present turns)) a with
    ⟨-, hf⟩ | ⟨_, _, hctor, -⟩
  · unfold Opening.firstFailed at hf
    rcases hpipe : a.firstFailed [.connectPipe .snd, .connectPipe .rcv] with _ | f
    · rcases hopens : (Opening.openOrCreate (answers present turns)).opens with _ | e | created
      · exact hopens
      · simp only [hpipe, hopens] at hf
        cases hf
      · simp only [hpipe, hopens] at hf
        cases hf
    · simp only [hpipe] at hf
      cases hf
  · rw [h] at hctor
    cases hctor

/-- The permissions have been set if the queue was created, and that did not fail. -/
theorem Made.permitted_iff {f : Option Failed} (h : Made k absoluteName created f m) :
    m.log.permitted = [⟨k, .mq⟩] ↔ created ∧ f ≠ some (.call .fchmod) := by
  rw [h.permitted]
  rcases f with _ | _ | (_ | _ | _ | _ | _ | _) <;> cases created <;> simp [permittedParts, fds]

/-- After a failure the queue is still open iff it is `fchmod()` that has failed. -/
theorem Made.mq_eq_none_iff {c : Failed} (h : Made k absoluteName created (some c) m) :
    m.obj.mq = none ↔ c ≠ .call .fchmod := by
  have hslot : m.obj.slot .mq = none ↔ .mq ∉ keptParts (some c) := h.slot_eq_none_iff
  refine hslot.trans ?_
  rcases c with _ | (_ | _) | _ | _ | (_ | _) | (_ | _) | (_ | _) <;> decide

/-- That there is no error says that there is a queue, unless setting the permissions failed or an old error is
left. -/
theorem Made.falsy_iff {f : Option (Failed × Err)} (h : Made k absoluteName created (f.map Prod.fst) m) :
    ((report ptr (m, f.map Prod.snd)).2.emitted = none ↔ (report ptr (m, f.map Prod.snd)).1.obj.mq ≠ none) ↔
      f.map Prod.fst ≠ some (.call .fchmod) ∧ (f = none → ptr.getD none = none) := by
  rcases f with _ | ⟨c, e⟩
  · have hmq : m.obj.mq ≠ none := by
      have hslot : m.obj.slot .mq = some ⟨k, .mq⟩ := h.slot_of_kept (by decide)
      exact ne_of_eq_of_ne hslot nofun
    simp [report, Emit.emitted, hmq]
  · have hmq := h.mq_eq_none_iff
    rcases ptr with _ | ptr
    · have hsame : m.destroyMembers.obj.mq = m.obj.mq :=
        (Making.slot_closeAll Making.memberParts .mq).trans (if_neg (by decide))
      simp [report, Emit.emitted, hsame, hmq]
    · simp [report, Emit.emitted, hmq]

/-- **The constructor that creates or opens keeps to it** unless `fchmod()` fails, of the queue that it has
created, and if, where it succeeds, there is no error in `*err_code` from before. -/
theorem opensOrCreates_iff (k : Nat) (absoluteName : String) (present : Bool) (turns : List Turn)
    (a : Answers) (ptr : Option ErrorCode) :
    OpensOrCreates k absoluteName present turns a ptr ↔
      ∀ f, (Opening.openOrCreate (answers present turns)).firstFailed a = some f →
        f.map Prod.fst ≠ some (.call .fchmod) ∧ (f = none → ptr.getD none = none) := by
  constructor
  · intro h f hf
    rcases ctor_spec k absoluteName (.openOrCreate (answers present turns)) a with
      ⟨-, hnone⟩ | ⟨m, f', hctor, hf', hmade⟩
    · rw [hnone] at hf
      cases hf
    · cases hf'.symm.trans hf
      exact hmade.falsy_iff.mp (h.falsy _ hctor)
  · intro h
    have hresult {r : Making × ErrorCode}
        (hr : ctor k absoluteName (.openOrCreate (answers present turns)) a = some r) :
        ∃ m f, r = (m, f.map Prod.snd) ∧
          (f.map Prod.fst ≠ some (.call .fchmod) ∧ (f = none → ptr.getD none = none)) ∧
          Made k absoluteName ((Opening.openOrCreate (answers present turns)).creator a)
            (f.map Prod.fst) m := by
      rcases ctor_spec k absoluteName (.openOrCreate (answers present turns)) a with
        ⟨hnone, -⟩ | ⟨m, f, hctor, hf, hmade⟩
      · rw [hr] at hnone
        cases hnone
      · cases hctor.symm.trans hr
        exact ⟨m, f, rfl, h f hf, hmade⟩
    refine ⟨fun m m' err hleaves => createOrOpen_leaves hleaves, ?_, ?_, ?_⟩
    · rintro ⟨t, ht, hunlink⟩
      rw [Option.isSome_iff_ne_none]
      intro hnone
      exact hunlink (creates_answers_eq_none (ctor_eq_none hnone) t ht)
    · intro r hr
      obtain ⟨m, f, rfl, ⟨hf, -⟩, hmade⟩ := hresult hr
      rw [hmade.permitted_iff]
      simp [hf]
    · intro r hr
      obtain ⟨m, f, rfl, hf, hmade⟩ := hresult hr
      exact hmade.falsy_iff.mpr hf

/-- No one else is there, and the queue that is created cannot be given its permissions. -/
theorem not_opensOrCreates_fchmod :
    ∃ r, ctor 0 "q" (.openOrCreate (answers false [⟨[], none, [], none⟩])) { Answers.good with fchmod := some 1 } =
        some r ∧
      (report (some none) r).2 = .ret r.1.obj (some (.system 1)) ∧ r.1.obj.mq = some ⟨0, .mq⟩ ∧
      r.1.log.permitted = [] ∧
      ¬ OpensOrCreates 0 "q" false [⟨[], none, [], none⟩] { Answers.good with fchmod := some 1 }
        (some none) := by
  refine ⟨_, rfl, rfl, rfl, rfl, fun h => ?_⟩
  have hfalsy := (h.falsy _ rfl).mpr (by decide)
  cases hfalsy

end FlowIpc.PosixMq
