import FlowIpc.MqHandle.BipcMqHandle
import FlowIpc.MqHandle.PosixMqHandle

/-!
# The two backends

`Posix_mq_handle` and `Bipc_mq_handle` are meant to be the same for whoever uses them. As to how the modes
are switched they are: switched in the same way they are in the same modes, and have given the same answers
(`Modes.switches_agree`). A `Bipc_mq_handle` honours its modes. A `Posix_mq_handle` does so only in the
turns in which the one event that `epoll_wait()` has room for is the interrupter's
(`interrupt_iff`): interrupted, and with room in the queue, it may report that it is sendable
(`posix_not_honoured`).
-/

namespace FlowIpc.MqHandle

open Lts

/-! ## Switched in the same way -/

variable {E T E' T' : Type}

/-- The direction that is switched, and to what. -/
def Input.switch? : Input E T → Option (Dir × Bool)
  | .interrupt d => some (d, true)
  | .allow d => some (d, false)
  | _ => none

/-- The switches of a run. -/
def switches (tr : List (Input E T × Obs)) : List (Dir × Bool) :=
  tr.filterMap fun x => x.1.switch?

/-- The answers to them. -/
def answers (tr : List (Input E T × Obs)) : List Obs :=
  tr.filterMap fun x => x.1.switch?.map fun _ => x.2

/-- One more input adds its switch, if it is one. -/
theorem switches_snoc (tr : List (Input E T × Obs)) (x : Input E T × Obs) :
    switches (tr ++ [x]) = switches tr ++ x.1.switch?.toList := by
  unfold switches
  rw [List.filterMap_append]
  cases h : x.1.switch? <;> simp [h]

/-- One more input adds the answer to its switch. -/
theorem answers_snoc (tr : List (Input E T × Obs)) (x : Input E T × Obs) :
    answers (tr ++ [x]) = answers tr ++ (x.1.switch?.map fun _ => x.2).toList := by
  unfold answers
  rw [List.filterMap_append]
  cases h : x.1.switch? <;> simp [h]

namespace Modes

/-- The modes after some switches, and the answers to these. -/
def play (l : List (Dir × Bool)) : Modes × List Obs :=
  l.foldl (fun (m, os) (d, b) => (m.set b d, os ++ [.switched (b != m.on d)])) (off, [])

/-- The last switch is answered by whether it changes the mode. -/
@[simp] theorem play_snoc (l : List (Dir × Bool)) (d : Dir) (b : Bool) :
    play (l ++ [(d, b)]) =
      ((play l).1.set b d, (play l).2 ++ [.switched (b != (play l).1.on d)]) := by
  simp [play]

/-- To set a mode to what it is changes nothing. -/
@[simp] theorem set_on (m : Modes) (d : Dir) : m.set (m.on d) d = m := by
  cases d <;> rfl

/-- The switches decide the modes and the answers. -/
theorem eq_play {tr : List (Input E T × Obs)} {m : Modes} (h : Run Modes.Switch off tr m) :
    (m, answers tr) = play (switches tr) := by
  induction h with
  | nil => rfl
  | @snoc m m' tr x hrun hstep ih =>
      obtain ⟨i, o⟩ := x
      obtain ⟨rfl, hans⟩ := hstep
      have hm : m = (play (switches tr)).1 := congrArg Prod.fst ih
      have ha : answers tr = (play (switches tr)).2 := congrArg Prod.snd ih
      rw [switches_snoc, answers_snoc]
      cases i with
      | interrupt d =>
          have ho : o = .switched (!m.on d) := hans
          subst ho
          simp only [Input.switch?, Option.map_some, Option.toList_some, play_snoc, ← hm, ← ha,
            Bool.true_bne]
          rfl
      | allow d =>
          have ho : o = .switched (m.on d) := hans
          subst ho
          simp only [Input.switch?, Option.map_some, Option.toList_some, play_snoc, ← hm, ← ha,
            Bool.false_bne]
          rfl
      | begin d c => simpa [Input.switch?, Input.mode] using ih
      | attempt d a => simpa [Input.switch?, Input.mode] using ih
      | wait d t => simpa [Input.switch?, Input.mode] using ih

/-- Switched in the same way, two handles are in the same modes, and have given the same answers. -/
theorem switches_agree {tr : List (Input E T × Obs)} {tr' : List (Input E' T' × Obs)} {m m' : Modes}
    (h : Run Modes.Switch off tr m) (h' : Run Modes.Switch off tr' m')
    (hsame : switches tr = switches tr') : m = m' ∧ answers tr = answers tr' := by
  have heq := (eq_play h).trans ((congrArg play hsame).trans (eq_play h').symm)
  exact ⟨congrArg Prod.fst heq, congrArg Prod.snd heq⟩

end Modes

/-! ## Both backends -/

/-- **When the interrupt mode is honoured.** Both backends keep what is promised: a `Bipc_mq_handle` in
every run, as long as the library throws nothing at a wait while the mode is on; a `Posix_mq_handle` in
those runs in which `epoll_wait()`, whenever it answers while the mode is on, reports the interrupter. The
pipe of a direction holds one byte if the mode of the direction is on, and none if it is off. And the two
agree on the modes, and on the answers to their switches. -/
theorem interrupt_iff (d : Dir) :
    PosixMqHandle.kind.Honours PosixMqHandle.Told ∧ BipcMqHandle.kind.Honours BipcMqHandle.Told ∧
      (∀ tr s, Run PosixMqHandle.kind.Step PosixMqHandle.kind.init tr s →
        PosixMqHandle.pipe (s.refs d) = if s.modes.on d then 1 else 0) ∧
      ∀ tr s tr' s', Run PosixMqHandle.kind.Step PosixMqHandle.kind.init tr s →
        Run BipcMqHandle.kind.Step BipcMqHandle.kind.init tr' s' → switches tr = switches tr' →
        s.modes = s'.modes ∧ answers tr = answers tr' := by
  refine ⟨PosixMqHandle.lawful.honours, BipcMqHandle.lawful.honours, fun tr s hrun => ?_,
    fun tr s tr' s' hrun hrun' => ?_⟩
  · have hinv : PosixMqHandle.pipe (s.refs d) = _ := PosixMqHandle.lawful.inv_run hrun d
    rw [Kind.Handle.modes_on]
    exact hinv
  · exact Modes.switches_agree (PosixMqHandle.lawful.honours.switches tr s hrun)
      (BipcMqHandle.lawful.honours.switches tr' s' hrun')

/-- Sends are interrupted, and it is asked whether the queue is sendable. -/
def sampleTrace : List (Input PosixMqHandle.kind.E PosixMqHandle.kind.T × Obs) :=
  [(.interrupt .snd, .switched true), (.begin .snd .isTransmissible, .pending)]

/-- It is, and so is the interrupter ready, but there is room for one event. -/
def sampleTurn : Input PosixMqHandle.kind.E PosixMqHandle.kind.T × Obs :=
  (.wait .snd (EpollTurn.mk true (.events [.mq])), .returned true none)

/-- The interrupt mode is not honoured by a `Posix_mq_handle` in every run. -/
theorem posix_not_honoured : ¬ ∀ tr s, Run PosixMqHandle.kind.Step PosixMqHandle.kind.init tr s →
    Run (Restrict Modes.Switch Modes.Honoured) Modes.off tr s.modes := by
  intro hall
  have hswitched : Run PosixMqHandle.kind.Step PosixMqHandle.kind.init (sampleTrace.take 1)
      ⟨⟨true, 1⟩, ⟨false, 0⟩, none⟩ :=
    (Run.nil _).snoc rfl
  have hbegun : Run PosixMqHandle.kind.Step PosixMqHandle.kind.init sampleTrace
      ⟨⟨true, 1⟩, ⟨false, 0⟩, some ⟨.snd, .isTransmissible, .wait⟩⟩ :=
    hswitched.snoc rfl
  have hturn : PosixMqHandle.kind.Step ⟨⟨true, 1⟩, ⟨false, 0⟩, some ⟨.snd, .isTransmissible, .wait⟩⟩
      sampleTurn ⟨⟨true, 1⟩, ⟨false, 0⟩, none⟩ := rfl
  obtain ⟨m, hm, hhon, -⟩ := run_snoc_iff.mp (hall _ _ (hbegun.snoc hturn))
  have hmode : m = ⟨true, false⟩ := congrArg Prod.fst (Modes.eq_play hm.of_restrict)
  subst hmode
  have hover : Obs.returned true none = .returned false interrupted := hhon
  cases hover

end FlowIpc.MqHandle
