import ClockControl.Proofs.Application
import ClockControl.Proofs.Refusal

/-! What the check of a configuration decides. An application that is checked can fail by a missed
access only, but for one case that the check leaves open: a tree on a system PLL of 0 Hz. Main
statement: `apply_ok_iff`. -/
namespace ClockControl

namespace Configuration

/-- One of the PLLs cannot be set as asked for, or the tree cannot, or the MCU is to run from a
system PLL that is powered down. -/
def Unfit (c : Configuration) (s : Sequencer) : Prop :=
  (∃ r, c.spll = some r ∧ r.Unfit s c.crystal) ∨ (∃ r, c.aupll = some r ∧ r.Unfit s c.crystal) ∨
    c.tree.Unfit ∨ c.tree.source = .spll ∧ c.spll = none

theorem check_decides (c : Configuration) (s : Sequencer) : (c.check s).Decides ¬c.Unfit s := by
  have planned {α β : Type} {ratio : Option α} {plan : α → Attempt β} {P : α → Prop}
      (decides : ∀ r, (plan r).Decides ¬P r) :
      (planned ratio plan).Decides ¬∃ r, ratio = some r ∧ P r := by
    cases ratio with
    | none => exact (Attempt.Decides.pure ()).congr (iff_of_true trivial nofun)
    | some r =>
      refine (decides r).map.congr ?_
      simp
  rw [check_eq, Unfit, not_or, not_or, not_or]
  refine (planned fun r => r.plan_decides s c.crystal).bind fun _ _ => ?_
  refine (planned fun r => r.plan_decides s c.crystal).bind fun _ _ => ?_
  refine c.tree.check_decides.bind fun _ _ => ?_
  exact (Attempt.Decides.guard fun _ => .pure ()).congr (and_iff_left trivial)

/-- The MCU is to run from a system PLL that gives less than 1 Hz. -/
def Starves (c : Configuration) : Prop :=
  c.tree.source = .spll ∧ ∃ r, c.spll = some r ∧
    (r.n.toNat * 65535 + r.m.toNat) * c.crystal.raw.toNat < 65535

end Configuration

namespace Controller
variable {start rig : Rig} {c : Configuration}

/-- The system PLL has the frequency that the configuration asks for. -/
def Fed (c : Configuration) (clocks : Clocks) : Prop := ∀ r, c.spll = some r →
  clocks.spll.raw.toNat =
    (r.n.toNat * 65535 + r.m.toNat) * c.crystal.raw.toNat / 65535

/-- The failures of an application that has passed the check: a tree that is starved, and a missed
access. -/
def Fails (start : Rig) (c : Configuration) (e : Failure) : Assertion Rig := fun _ rig =>
  e = .error (.refused .systemPllStopped) ∧ c.Starves ∨
    e = .error (.timeout Register.oscillatorControl) ∧
      start.board.Misses start.controller.wiring.access rig.board

/-- The last step finds the system PLL stopped exactly if the tree is to be starved. -/
theorem starves_iff (sound : c.Sound start.controller.wiring.sequencer)
    (fed : Fed c rig.controller.clocks) :
    c.Starves ↔ c.tree.source = .spll ∧ rig.controller.clocks.spll.hertz? = none := by
  have zero (r : Rate) : r.hertz? = none ↔ r.raw.toNat = 0 := by
    rw [Rate.hertz?_eq_none_iff]
    obtain ⟨raw⟩ := r
    simp [Rate.stopped, ← UInt32.toNat_inj]
  rw [zero]
  constructor
  · rintro ⟨source, r, ratio, low⟩
    constructor
    · exact source
    · rw [fed r ratio]
      exact Nat.div_eq_of_lt low
  · rintro ⟨source, stopped⟩
    obtain ⟨r, ratio⟩ := Option.ne_none_iff_exists'.1 (sound.source source)
    rw [fed r ratio, Nat.div_eq_zero_iff_lt (by decide)] at stopped
    exact ⟨source, r, ratio, stopped⟩

/-- The system PLL that a configuration asks for has the frequency that it asks for. -/
theorem Prepared.fed (h : Prepared start c rig) : Fed c rig.controller.clocks := by
  obtain ⟨setsSystem, setsAudio, park, oscillator, system, audio⟩ := h
  have avoids : Footprint.Avoids _ .system := Footprint.audio_avoids
  rw [← Configuration.footprint_of_task setsAudio] at avoids
  have kept : rig.controller.clocks.spll = _ := audio.pll avoids
  intro r ratio
  have asked : c.frequency .system = some _ := congrArg (Option.map _) ratio
  obtain ⟨none, -⟩ | ⟨d, f, some, rfl⟩ := Configuration.task_cases setsSystem
  · rw [none] at asked
    cases asked
  · rw [kept, system.pll_start, ← Divider.whole_add_part _ _ _ (by decide)]
    rw [some] at asked
    exact Option.some.inj asked

/-- What has been applied does not starve the tree. -/
theorem Applied.not_starves (h : Applied start c rig)
    (checked : c.check start.controller.wiring.sequencer = .ok ()) : ¬c.Starves := by
  intro starves
  obtain ⟨mid, prepared, takes⟩ := h
  have sound := Configuration.sound_of_check checked
  obtain ⟨source, stopped⟩ := (starves_iff sound prepared.fed).1 starves
  exact takes.ready.2 source stopped

/-- Once it has passed the check, an application goes through unless it starves the tree or misses
an access. -/
theorem leads_apply (checked : c.check start.controller.wiring.sequencer = .ok ()) :
    (apply c).Leads (fun _ _ _ => ¬c.Starves) (Fails start c) [] start := by
  have sound := Configuration.sound_of_check checked
  refine (leads_apply_cases checked).mono (fun _ _ rig applied => applied.not_starves checked)
    fun e _ rig h => ?_
  obtain ⟨rfl, prepared, stopped⟩ | ⟨lost, -⟩ := h
  · exact .inl ⟨rfl, (starves_iff sound prepared.fed).2 stopped⟩
  · exact .inr lost

theorem apply_ok_of_answered (checked : c.check start.controller.wiring.sequencer = .ok ())
    (fits : ¬c.Starves) (answered : ¬start.Misses ((apply c).run start).after) :
    ((apply c).run start).outcome = .ok () := by
  refine (leads_apply checked).ok ?_
  rintro e (⟨-, starves⟩ | ⟨-, missed⟩)
  · exact fits starves
  · exact answered missed

/-- An application that times out has passed the check and has been halted at a step. -/
theorem halted_of_timedOut (timedOut : TimedOut ((apply c).run rig)) :
    Halted rig c ((apply c).run rig).trace ((apply c).run rig).after := by
  obtain ⟨reg, timedOut⟩ := timedOut
  cases checked : c.check rig.controller.wiring.sequencer with
  | error e =>
    rw [run_apply_of_error checked] at timedOut
    obtain ⟨reason, refused⟩ := (c.check_decides _).refused_of_error checked
    rw [refused] at timedOut
    cases timedOut
  | ok =>
    obtain ⟨refused, -⟩ | ⟨-, halted⟩ := (leads_apply_cases checked).of_error timedOut
    · cases refused
    · exact halted

/-- An application that is refused has been refused by the check, and then nothing has happened; or
it has passed the check and starves the tree. While every access is answered these are the only
failures. -/
theorem apply_ok_iff (rig : Rig) (c : Configuration) :
    let checked := ((check c).run rig).outcome
    let applied := (apply c).run rig
    (¬rig.board.Misses rig.controller.wiring.access applied.after.board →
      (applied.outcome = .ok () ↔ checked = .ok () ∧ ¬c.Starves)) ∧
    ∀ reason, applied.outcome = .refuse reason →
      (checked = .refuse reason ∧ applied = ⟨.refuse reason, rig, []⟩) ∨
        checked = .ok () ∧ c.Starves ∧ reason = .systemPllStopped := by
  intro checked applied
  have outcome : checked = c.check rig.controller.wiring.sequencer :=
    congrArg Run.outcome (run_check c rig)
  cases hc : c.check rig.controller.wiring.sequencer with
  | error e =>
    have same : applied = ⟨.error e, rig, []⟩ := run_apply_of_error hc
    rw [outcome, hc, same]
    constructor
    · rintro -
      exact ⟨nofun, nofun⟩
    · intro reason he
      cases he
      exact .inl ⟨rfl, rfl⟩
  | ok =>
    have leads := leads_apply hc
    rw [outcome, hc]
    rcases hr : applied with ⟨e | u, after, trace⟩
    · have fails := (Action.leads_of_run_error hr).1 leads
      obtain ⟨rfl, starves⟩ | ⟨rfl, missed⟩ := fails
      · constructor
        · rintro -
          exact ⟨nofun, fun ⟨_, fits⟩ => absurd starves fits⟩
        · intro reason he
          cases he
          exact .inr ⟨rfl, starves, rfl⟩
      · constructor
        · intro answered
          exact absurd missed answered
        · intro reason he
          cases he
    · have fits := (Action.leads_of_run hr).1 leads
      constructor
      · rintro -
        exact ⟨fun _ => ⟨rfl, fits⟩, fun _ => rfl⟩
      · intro reason he
        cases he

/-- On a blank board every access is answered. -/
theorem blank_answers (via : Access) (b : Board) : ¬Board.blank.Misses via b := by
  rintro ⟨n, -, -, unanswered⟩
  exact unanswered ⟨rfl, fun _ => by decide⟩

theorem system_tree_applies : ((apply { Configuration.standard with
      tree := { Tree.undivided with source := .spll } }).run
        ⟨.blank, .fresh (.standard .core) boardCrystal⟩).outcome = .ok () := by
  have checked : ((check { Configuration.standard with
      tree := { Tree.undivided with source := .spll } }).run
        ⟨.blank, .fresh (.standard .core) boardCrystal⟩).outcome = .ok () := by
    decide +kernel
  refine ((apply_ok_iff _ _).1 (blank_answers _ _)).2 ⟨checked, ?_⟩
  rintro ⟨-, r, hr, low⟩
  cases hr
  exact absurd low (by decide)

/-- Without a crystal the system PLL is started at 0 Hz, which counts as stopped: the configuration
passes the check, and is refused when all but its tree has been set. -/
theorem starved_tree_refused_late :
    let rig : Rig := ⟨.blank, .fresh ⟨.ramped, .direct, .timer⟩ boardCrystal⟩
    let c : Configuration := { Configuration.standard with
      crystal := ⟨0⟩
      tree := { Tree.undivided with source := .spll } }
    ((check c).run rig).outcome = .ok () ∧
      ¬rig.board.Misses rig.controller.wiring.access ((apply c).run rig).after.board ∧
      ((apply c).run rig).outcome = .refuse .systemPllStopped ∧
      ((apply c).run rig).after.controller.crystal = ⟨0⟩ ∧
      ((apply c).run rig).after.board.image.load (.pll .system .power) =
        (Pll.recipe .system).integer.settle := by
  refine ⟨?_, blank_answers _ _, ?_⟩
  · decide +kernel
  · decide +kernel

end Controller
end ClockControl
