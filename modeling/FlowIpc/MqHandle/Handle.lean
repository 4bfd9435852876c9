import FlowIpc.MqHandle.Interrupt

/-!
# What a direction keeps, the handle keeps

`Kind.Lawful` is what is to be shown of a kind of handle: of what is done in one direction, where the call
in progress is one of this direction or there is none, and that a call of the other direction is no
matter. It follows that the kind keeps its promise (`Lawful.honours`): its runs are mapped, step by step,
to those of the machine of modes, and there is a run of each direction alone in each run.
-/

namespace FlowIpc.MqHandle

open Lts

namespace Kind

variable {K : Kind}

/-- What is to be shown of what is done in a direction, where the call in progress is one of this
direction, or there is none. `I` is an invariant. -/
structure Lawful (K : Kind) (Told : K.R → Input K.E K.T × Obs → Prop)
    (I : K.R → Option (Op K.Pos) → Prop) : Prop where
  ctor : I K.ctor none
  ctor_off : K.interrupting K.ctor = false
  /-- The call in progress stays one of the direction. -/
  own : ∀ r op i r' op' o, (∀ p ∈ op, p.dir = i.dir) → K.act r op i = some (r', op', o) →
    ∀ p ∈ op', p.dir = i.dir
  /-- A call of the other direction is no matter. -/
  other : ∀ r p i r' op' o, p.dir ≠ i.dir → K.act r (some p) i = some (r', op', o) →
    op' = some p ∧ K.act r none i = some (r', none, o)
  /-- The mode is switched, and honoured, and the invariant is kept. -/
  acts : ∀ r op i r' op' o, (∀ p ∈ op, p.dir = i.dir) → I r op → K.act r op i = some (r', op', o) →
    I r' op' ∧ K.interrupting r' = i.mode (K.interrupting r) ∧ Answered (K.interrupting r) (i, o) ∧
      (HonouredAt (K.interrupting r) (i, o) ↔ Told r (i, o))
  /-- A mode can be switched. -/
  switchable : ∀ r op op' d, I r op → (K.act r op' (.interrupt d)).isSome ∧ (K.act r op' (.allow d)).isSome
  /-- A wait can fail while the mode is on. -/
  turn : ∀ r p, I r (some p) → K.Waits p.pos → K.interrupting r = true →
    ∃ t r', K.act r (some p) (.wait p.dir t) = some (r', none, .returned false interrupted)

namespace Handle

variable {s s' u : K.Handle} {d e : Dir}

/-- A direction is as it has been put, and the other as before. -/
@[simp] theorem refs_put (s : K.Handle) (r : K.R) (op : Option (Op K.Pos)) (d e : Dir) :
    (s.put r op d).refs e = if e = d then r else s.refs e := by
  cases d <;> cases e <;> rfl

@[simp] theorem op_put (s : K.Handle) (r : K.R) (op : Option (Op K.Pos)) (d : Dir) :
    (s.put r op d).op = op := by
  cases d <;> rfl

/-- The mode of a direction is what its part of the handle says. -/
theorem modes_on (s : K.Handle) (d : Dir) : s.modes.on d = K.interrupting (s.refs d) := by
  cases d <;> rfl

/-- A direction's mode changes with it. -/
theorem modes_put (s : K.Handle) (r : K.R) (op : Option (Op K.Pos)) (d : Dir) :
    (s.put r op d).modes = s.modes.set (K.interrupting r) d := by
  cases d <;> rfl

/-- A step is what is done in its direction. -/
theorem step_eq_some_iff {i : Input K.E K.T} {o : Obs} :
    s.step i = some (s', o) ↔
      ∃ r op, K.act (s.refs i.dir) s.op i = some (r, op, o) ∧ s' = s.put r op i.dir := by
  unfold step
  rw [Option.map_eq_some_iff]
  constructor
  · rintro ⟨⟨r, op, o'⟩, hact, heq⟩
    cases heq
    exact ⟨r, op, hact, rfl⟩
  · rintro ⟨r, op, hact, rfl⟩
    exact ⟨(r, op, o), hact, rfl⟩

/-- The call of a direction is in that direction. -/
theorem mem_opOf {p : Op K.Pos} (h : p ∈ s.opOf d) : p.dir = d := by
  unfold opOf at h
  rw [Option.mem_def, Option.filter_eq_some_iff] at h
  exact of_decide_eq_true h.2

/-- The call in progress is one of the direction, or one of the other. -/
theorem op_cases (s : K.Handle) (d : Dir) :
    (s.op = s.opOf d) ∨ ∃ p, s.op = some p ∧ p.dir ≠ d ∧ s.opOf d = none := by
  unfold opOf
  cases hop : s.op with
  | none => exact .inl rfl
  | some p =>
      by_cases hdir : p.dir = d
      · exact .inl (by simp [Option.filter, hdir])
      · exact .inr ⟨p, rfl, hdir, by simp [Option.filter, hdir]⟩

end Handle

variable {Told : K.R → Input K.E K.T × Obs → Prop} {I : K.R → Option (Op K.Pos) → Prop}
  {s s' u : K.Handle} {d : Dir} {x : Input K.E K.T × Obs} {tr : List (Input K.E K.T × Obs)}

/-- The invariant, in both directions. -/
def Inv (I : K.R → Option (Op K.Pos) → Prop) (s : K.Handle) : Prop :=
  ∀ d, I (s.refs d) (s.opOf d)

/-- What is done in a step, a call of the other direction left aside. -/
theorem Lawful.act_opOf (h : K.Lawful Told I) {i : Input K.E K.T} {r : K.R} {op : Option (Op K.Pos)}
    {o : Obs} (hact : K.act (s.refs i.dir) s.op i = some (r, op, o)) :
    K.act (s.refs i.dir) (s.opOf i.dir) i = some (r, (s.put r op i.dir).opOf i.dir, o) ∧
      ∀ e, e ≠ i.dir → (s.put r op i.dir).opOf e = s.opOf e := by
  rcases s.op_cases i.dir with hop | ⟨p, hop, hdir, hnone⟩
  · have hown := h.own _ _ _ _ _ _ (fun p hp => Handle.mem_opOf hp) (hop ▸ hact)
    have hself : (s.put r op i.dir).opOf i.dir = op := by
      unfold Handle.opOf
      rw [Handle.op_put]
      cases op with
      | none => rfl
      | some p => exact Option.filter_some_pos (decide_eq_true (hown p rfl))
    refine ⟨by rw [hself, ← hop]; exact hact, fun e he => ?_⟩
    have hnone (op : Option (Op K.Pos)) (hop : ∀ p ∈ op, p.dir = i.dir) :
        (op.filter fun p => p.dir = e) = none := by
      rw [Option.filter_eq_none_iff]
      intro p hp hpe
      exact he (by rw [← hop p hp, of_decide_eq_true hpe])
    unfold Handle.opOf
    rw [Handle.op_put, hnone op hown, hnone s.op fun p hp => Handle.mem_opOf (hop ▸ hp)]
  · rw [hop] at hact
    obtain ⟨rfl, hact'⟩ := h.other _ _ _ _ _ _ hdir hact
    refine ⟨?_, fun e _ => by simp [Handle.opOf, hop]⟩
    have hsame : (s.put r (some p) i.dir).opOf i.dir = none := by
      simp [Handle.opOf, Option.filter, hdir]
    rw [hnone, hsame]
    exact hact'

/-- **A step** keeps the invariant, is one of the machine of modes, and honours them iff it is told. -/
theorem Lawful.step (h : K.Lawful Told I) (hs : Inv I s) (hstep : K.Step s x s') :
    Inv I s' ∧ Modes.Switch s.modes x s'.modes ∧
      (Modes.Honoured s.modes x ↔ Told (s.refs x.1.dir) x) := by
  obtain ⟨r, op, hact, rfl⟩ := Handle.step_eq_some_iff.mp hstep
  obtain ⟨hact, hother⟩ := h.act_opOf hact
  obtain ⟨hI, hmode, hans, hhon⟩ :=
    h.acts _ _ _ _ _ _ (fun p hp => Handle.mem_opOf hp) (hs x.1.dir) hact
  refine ⟨fun e => ?_, ⟨?_, ?_⟩, ?_⟩
  · rw [Handle.refs_put]
    by_cases he : e = x.1.dir
    · rw [if_pos he, he]
      exact hI
    · rw [if_neg he, hother e he]
      exact hs e
  · rw [Handle.modes_put, hmode, Handle.modes_on]
  · rw [Handle.modes_on]
    exact hans
  · unfold Modes.Honoured
    rw [Handle.modes_on]
    exact hhon

/-- A handle just constructed is in order. -/
theorem Lawful.inv_init (h : K.Lawful Told I) : Inv I K.init := by
  intro d
  cases d <;> exact h.ctor

/-- A handle is in order in every run. -/
theorem Lawful.inv_run (h : K.Lawful Told I) (hrun : Run K.Step K.init tr s) : Inv I s :=
  hrun.invariant (fun _ _ _ hs hstep => (h.step hs hstep).1) h.inv_init

/-- Both modes are off at first. -/
theorem Lawful.modes_init (h : K.Lawful Told I) : K.init.modes = Modes.off := by
  simp only [init, Handle.modes, h.ctor_off]
  rfl

/-- A step of a direction can be taken without the other. -/
theorem Lawful.step_alone (h : K.Lawful Told I) (hrefs : u.refs x.1.dir = s.refs x.1.dir)
    (hop : u.op = s.opOf x.1.dir) (hstep : K.Step s x s') :
    ∃ u', K.Step u x u' ∧ u'.refs x.1.dir = s'.refs x.1.dir ∧ u'.op = s'.opOf x.1.dir := by
  obtain ⟨r, op, hact, rfl⟩ := Handle.step_eq_some_iff.mp hstep
  obtain ⟨hact, -⟩ := h.act_opOf hact
  rw [← hrefs, ← hop] at hact
  exact ⟨_, Handle.step_eq_some_iff.mpr ⟨_, _, hact, rfl⟩, by simp, by simp⟩

/-- A run has one of each direction in it. -/
theorem Lawful.direction (h : K.Lawful Told I) (d : Dir) (hrun : Run K.Step K.init tr s) :
    ∃ u, Run K.Step K.init (K.only d tr) u ∧ u.refs d = s.refs d ∧ u.op = s.opOf d := by
  induction hrun with
  | nil => exact ⟨K.init, Run.nil _, rfl, rfl⟩
  | @snoc s s' tr x hrun hstep ih =>
      obtain ⟨u, hu, hrefs, hop⟩ := ih
      rw [Kind.only, List.filter_append]
      by_cases hd : x.1.dir = d
      · subst hd
        obtain ⟨u', hu', hsame⟩ := h.step_alone hrefs hop hstep
        refine ⟨u', ?_, hsame⟩
        rw [List.filter_cons_of_pos (by simp), List.filter_nil]
        exact hu.snoc hu'
      · obtain ⟨r, op, hact, rfl⟩ := Handle.step_eq_some_iff.mp hstep
        obtain ⟨-, hother⟩ := h.act_opOf hact
        refine ⟨u, ?_, ?_, ?_⟩
        · rw [List.filter_cons_of_neg (by simpa using hd), List.filter_nil, List.append_nil]
          exact hu
        · rw [Handle.refs_put, if_neg (Ne.symm hd)]
          exact hrefs
        · rw [hother d (Ne.symm hd)]
          exact hop

/-- The handle after a step is determined by what is seen of it. -/
theorem step_det (s : K.Handle) (x : Input K.E K.T × Obs) (t u : K.Handle) (ht : K.Step s x t)
    (hu : K.Step s x u) : t = u := by
  have heq := ht.symm.trans hu
  cases heq
  rfl

/-- **What each direction keeps, the runs keep.** -/
theorem Lawful.honours (h : K.Lawful Told I) : K.Honours Told where
  switches tr s hrun := by
    rw [← h.modes_init]
    induction hrun with
    | nil => exact Run.nil _
    | snoc hrun hstep ih => exact ih.snoc (h.step (h.inv_run hrun) hstep).2.1
  switchable tr s d hrun := by
    have hswitch := h.switchable _ _ s.op d (h.inv_run hrun d)
    simp only [Handle.step, Option.isSome_map]
    exact hswitch
  honoured tr s hrun := by
    rw [← h.modes_init]
    exact hrun.restrict_iff step_det Modes.switch_det (fun _ _ _ hs hstep => h.step hs hstep) h.inv_init
  turn tr s p hrun hop hwaits hon := by
    have hopOf : s.opOf p.dir = some p := by
      simp [Handle.opOf, Option.filter, hop]
    have hI := h.inv_run hrun p.dir
    rw [hopOf] at hI
    rw [Handle.modes_on] at hon
    obtain ⟨t, r, hact⟩ := h.turn _ p hI hwaits hon
    rw [← hop] at hact
    exact ⟨t, _, Handle.step_eq_some_iff.mpr ⟨r, none, hact, rfl⟩⟩
  directions tr s d hrun := by
    obtain ⟨u, hu, hrefs, -⟩ := h.direction d hrun
    exact ⟨u, hu, hrefs⟩

end Kind

end FlowIpc.MqHandle
