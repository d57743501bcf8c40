import ClockControl.Proofs.Admission
import ClockControl.Proofs.Completion
import ClockControl.Proofs.Path
import ClockControl.Proofs.Pll.Fraction

/-! The sources behind the clocks. While every access to the PMU is answered, a PLL or an oscillator
that counts as running is programmed for the frequency that the clocks have for it. Main statement:
`sources_match_hardware`. -/
namespace ClockControl

/-- The analog part of the PLL is brought up for the fields of its divider register, its reference
is let through and its half-rate tap is on. -/
structure Pll.Up (p : Pll) (b : Board) : Prop where
  analog0 : b.image.load (.pll p .analog0) = p.recipe.analog0
  analog1 : b.image.load (.pll p .analog1) = p.recipe.analog1
  power : b.image.load (.pll p .power) =
    if PllDivider.frac.get (b.image.load (.pll p .divider)) = 0 then p.recipe.integer.settle
    else p.recipe.fractional.settle
  reference : p.gate b.pmu = 1
  tap : PllOutput.halfTap.isSet (b.image.load (.pll p .output)) = true

namespace Pll
variable {p : Pll} {d : Divider} {b : Board}

theorem Started.up (h : p.Started d b) : p.Up b where
  analog0 := h.analog0
  analog1 := h.analog1
  power := h.settled
  reference := by
    rw [gate_eq, h.reference]
    cases p <;> rfl
  tap := by
    rw [Field.isSet, h.tap]
    rfl

/-- A PLL that counts as running has been started for its frequency. -/
def Backed (p : Pll) (rig : Rig) : Prop := rig.controller.clocks.pll p ≠ .stopped →
  ∃ d f lockWait, (Task.start p d f lockWait).Done rig.board ∧ p.Plans rig.controller d f ∧
    rig.controller.clocks.pll p = .ofHertz f

variable {rig rig' : Rig} {k : Task}

theorem Backed.kept (h : p.Backed rig) (takes : k.Takes rig rig') (avoids : k.footprint.Avoids p) :
    p.Backed rig' := by
  intro running
  rw [takes.pll avoids] at running
  obtain ⟨d, f, lockWait, done, plans, clock⟩ := h running
  refine ⟨d, f, lockWait, done.kept takes avoids.apart, ?_, (takes.pll avoids).trans clock⟩
  rw [takes.controller]
  cases p <;> exact plans

theorem backed_powerDown (takes : (Task.powerDown p).Takes rig rig') : p.Backed rig' :=
  fun running => absurd takes.pll_powerDown running

theorem backed_start {f : Hertz} {lockWait : UInt32}
    (takes : (Task.start p d f lockWait).Takes rig rig') : p.Backed rig' := by
  refine fun _ => ⟨d, f, lockWait, takes.done, ?_, takes.pll_start⟩
  have plans := takes.ready.2
  rw [takes.controller]
  cases p <;> exact plans

theorem backed_of_task {c : Configuration} {s : Sequencer} (task : c.task s p = .ok k)
    (takes : k.Takes rig rig') : p.Backed rig' := by
  obtain ⟨-, rfl⟩ | ⟨d, f, -, rfl⟩ := Configuration.task_cases task
  · exact backed_powerDown takes
  · exact backed_start takes

/-- A task avoids the PLL, or it sets it. -/
theorem Backed.takes (h : p.Backed rig) (takes : k.Takes rig rig') : p.Backed rig' := by
  cases k with
  | park => exact h.kept takes (Footprint.tree_avoids p)
  | oscillator o => exact h.kept takes (Footprint.oscillators_avoids p)
  | tree t => exact h.kept takes (Footprint.tree_avoids p)
  | powerDown q =>
    by_cases same : p = q
    · subst same
      exact backed_powerDown takes
    · exact h.kept takes (Footprint.pll_avoids same)
  | start q d f lockWait =>
    by_cases same : p = q
    · subst same
      exact backed_start takes
    · exact h.kept takes (Footprint.pll_avoids same)

end Pll

namespace Rig
variable {rig rig' : Rig} {k : Task}

/-- A core high-speed clock that counts as running comes from an oscillator that has been selected
for it. -/
def CoreHsBacked (rig : Rig) : Prop := rig.controller.clocks.coreHs ≠ .stopped →
  ∃ o, (Task.oscillator o).Done rig.board ∧
    rig.controller.clocks.coreHs = .ofHertz (o.frequency rig.controller.crystal)

theorem coreHsBacked_oscillator {o : Oscillator} (takes : (Task.oscillator o).Takes rig rig') :
    rig'.CoreHsBacked := by
  refine fun _ => ⟨o, takes.done, ?_⟩
  rw [takes.clocks, takes.crystal]
  exact Clocks.derived_coreHs _ _

theorem CoreHsBacked.kept (h : rig.CoreHsBacked) (takes : k.Takes rig rig')
    (other : ∀ o, k ≠ .oscillator o) (apart : Footprint.oscillators.Apart k.footprint) :
    rig'.CoreHsBacked := by
  have clock : rig'.controller.clocks.coreHs = rig.controller.clocks.coreHs := by
    rw [takes.clocks, Task.record_coreHs other]
  intro running
  rw [clock] at running
  obtain ⟨o, done, source⟩ := h running
  refine ⟨o, done.kept takes apart, ?_⟩
  rw [clock, source, takes.crystal]

theorem CoreHsBacked.takes (h : rig.CoreHsBacked) (takes : k.Takes rig rig') :
    rig'.CoreHsBacked := by
  have pll (p : Pll) : Footprint.oscillators.Apart (.pll p) :=
    (Footprint.oscillators_avoids p).apart.symm
  cases k with
  | park => exact h.kept takes nofun Footprint.oscillators_apart_tree
  | oscillator o => exact coreHsBacked_oscillator takes
  | powerDown p => exact h.kept takes nofun (pll p)
  | start p d f lockWait => exact h.kept takes nofun (pll p)
  | tree t => exact h.kept takes nofun Footprint.oscillators_apart_tree

/-- Every source that counts as running is backed by the hardware. -/
structure Backed (rig : Rig) : Prop where
  pll : ∀ p : Pll, p.Backed rig
  coreHs : rig.CoreHsBacked

theorem Backed.takes (h : rig.Backed) (takes : k.Takes rig rig') : rig'.Backed where
  pll p := (h.pll p).takes takes
  coreHs := h.coreHs.takes takes

/-- Where an application comes to its tree every source has been set anew. -/
theorem backed_of_prepared {start : Rig} {c : Configuration}
    (h : Controller.Prepared start c rig) : rig.Backed := by
  obtain ⟨setsSystem, setsAudio, park, oscillator, system, audio⟩ := h
  constructor
  · intro p
    cases p with
    | system => exact (Pll.backed_of_task setsSystem system).takes audio
    | audio => exact Pll.backed_of_task setsAudio audio
  · exact ((coreHsBacked_oscillator oscillator).takes system).takes audio

/-- A word that no source speaks of. -/
theorem Backed.fault (h : rig.Backed) (e : ClockError) :
    ((Controller.recordFault e).run rig).after.Backed := by
  rw [Controller.run_recordFault]
  have kept {k : Task} (done : k.Done rig.board)
      (other : Register.diagnostic ∉ k.footprint.registers)
      (v : Word) : k.Done { rig.board with image := rig.board.image.store .diagnostic v } := by
    apply done.congr
    · intro r hr
      apply Image.load_store_of_ne
      rintro rfl
      exact other hr
    · intro g hg
      rfl
  constructor
  · intro p running
    obtain ⟨d, f, lockWait, done, plans, clock⟩ := h.pll p running
    have other : Register.diagnostic ∉ (Footprint.pll p).registers := by
      cases p <;> decide
    refine ⟨d, f, lockWait, kept done other _, ?_, clock⟩
    cases p <;> exact plans
  · intro running
    obtain ⟨o, done, source⟩ := h.coreHs running
    exact ⟨o, kept done List.not_mem_nil _, source⟩

theorem Backed.answers {a : Action Rig Unit} {request : Attempt Task} (h : rig.Backed)
    (answers : Controller.Answers (a.run rig) rig request)
    (answered : ¬rig.Misses (a.run rig).after) : (a.run rig).after.Backed := by
  cases request with
  | error e =>
    obtain ⟨ns, -, run⟩ := answers
    rwa [run]
  | ok k =>
    have leads : a.Leads _ _ [] rig := Controller.leads_task answers
    have ok := leads.ok fun _ failed => answered failed.1.2
    exact h.takes (leads.of_ok ok)

theorem Backed.apply (h : rig.Backed) (c : Configuration)
    (answered : ¬rig.Misses ((Controller.apply c).run rig).after) :
    ((Controller.apply c).run rig).after.Backed := by
  cases checked : c.check rig.controller.wiring.sequencer with
  | error e => rwa [Controller.run_apply_of_error checked]
  | ok =>
    have leads := Controller.leads_apply_cases checked
    rcases hr : (Controller.apply c).run rig with ⟨e | x, rig', trace⟩
    · obtain ⟨-, prepared, -⟩ | ⟨⟨-, missed⟩, -⟩ := (Action.leads_of_run_error hr).1 leads
      · exact backed_of_prepared prepared
      · rw [hr] at answered
        exact absurd missed answered
    · obtain ⟨mid, prepared, takes⟩ := (Action.leads_of_run hr).1 leads
      exact (backed_of_prepared prepared).takes takes

theorem Backed.operation (h : rig.Backed) (op : Operation)
    (answered : ¬rig.Misses (op.action.run rig).after) : (op.action.run rig).after.Backed := by
  cases op with
  | setOscillator o => exact h.answers (Controller.setOscillator_answers o rig) answered
  | setSpll ratio lockWait =>
    exact h.answers (Controller.setSpll_answers ratio lockWait rig) answered
  | setAupll ratio lockWait =>
    exact h.answers (Controller.setAupll_answers ratio lockWait rig) answered
  | setTree t => exact h.answers (Controller.setTree_answers t rig) answered
  | check c =>
    have run : (Operation.check c).action.run rig = _ := Controller.run_check c rig
    rwa [run]
  | apply c => exact h.apply c answered
  | recordFault e => exact h.fault e

theorem Backed.sequence (h : rig.Backed) (ops : List Operation)
    (answered : ¬rig.Misses ((Operation.sequence ops).run rig).after) :
    ((Operation.sequence ops).run rig).after.Backed := by
  induction ops generalizing rig with
  | nil => exact h
  | cons op ops ih =>
    rw [after_sequence_cons] at answered ⊢
    have first := rig.operation_precedes op
    have rest := (sequence_path (op.action.run rig).after ops).precedes
    apply ih
    · apply h.operation op
      intro missed
      exact answered (rest.misses_later missed)
    · intro missed
      exact answered (first.misses missed)

/-- What the clocks say of the sources is what the hardware is programmed to. -/
structure Matches (rig : Rig) : Prop where
  spll : ∀ f, rig.controller.clocks.spll.hertz? = some f →
    f.raw.toNat = Divider.frequencyOf (rig.board.image.load (.pll .system .divider))
        rig.controller.crystal ∧
      PllOutput.den.get (rig.board.image.load (.pll .system .output)) = 0 ∧
      Pll.Up .system rig.board
  aupll : ∀ f, rig.controller.clocks.aupll.hertz? = some f →
    let control := rig.board.image.load (.pll .audio .divider)
    Divider.frequencyOf control rig.controller.crystal ≤ f.raw.toNat ∧
      f.raw.toNat * 131070 <
        (Divider.multiplierOf control + 1) * rig.controller.crystal.raw.toNat ∧
      Pll.Up .audio rig.board
  coreHs : ∀ f, rig.controller.clocks.coreHs.hertz? = some f →
    if OscillatorControl.useRc.isSet rig.board.oscillators then
      f = ⟨24000000⟩ ∧ OscillatorControl.rc.isSet rig.board.oscillators = true
    else
      f = rig.controller.crystal ∧ OscillatorControl.crystal.isSet rig.board.oscillators = true

theorem Backed.matches (h : rig.Backed) : rig.Matches := by
  have running {r : Rate} {f : Hertz} (hf : r.hertz? = some f) : r ≠ .stopped := by
    intro stopped
    rw [(Rate.hertz?_eq_none_iff r).2 stopped] at hf
    cases hf
  have same {r : Rate} {f g : Hertz} (hf : r.hertz? = some f) (hg : r = .ofHertz g) : f = g := by
    obtain ⟨rfl, -⟩ := (Rate.hertz?_eq_some_iff r f).1 hf
    exact congrArg (fun r => Hertz.mk r.raw) hg
  constructor
  · intro f hf
    obtain ⟨d, g, lockWait, done, ⟨r, plan⟩, clock⟩ := h.pll .system (running hf)
    obtain rfl := same hf clock
    have started : Pll.Started .system d rig.board := done
    obtain ⟨divider, -⟩ := SystemRatio.plan_ok plan
    refine ⟨?_, ?_, started.up⟩
    · rw [started.divider, SystemRatio.plan_encodes plan]
    · rw [started.den, SystemRatio.divider_den divider]
      rfl
  · intro f hf
    obtain ⟨d, g, lockWait, done, ⟨r, plan⟩, clock⟩ := h.pll .audio (running hf)
    obtain rfl := same hf clock
    have started : Pll.Started .audio d rig.board := done
    have positive : 0 < f.raw.toNat := by
      refine Nat.pos_of_ne_zero fun zero => ((Rate.hertz?_eq_some_iff _ f).1 hf).2 ?_
      rwa [← UInt32.toNat_inj]
    obtain ⟨below, above⟩ := AudioRatio.plan_encodes plan
    simp only [started.divider]
    exact ⟨below, above positive, started.up⟩
  · intro f hf
    obtain ⟨o, ⟨enabled, chosen⟩, clock⟩ := h.coreHs (running hf)
    obtain rfl := same hf clock
    cases o with
    | crystal =>
      have enabled : OscillatorControl.crystal.get rig.board.oscillators = 1 := enabled
      have chosen : OscillatorControl.useRc.get rig.board.oscillators = 0 := chosen
      simp only [Field.isSet, enabled, chosen]
      exact ⟨rfl, rfl⟩
    | rc =>
      have enabled : OscillatorControl.rc.get rig.board.oscillators = 1 := enabled
      have chosen : OscillatorControl.useRc.get rig.board.oscillators = 1 := chosen
      simp only [Field.isSet, enabled, chosen]
      exact ⟨rfl, rfl⟩

/-- Whatever is asked of a controller with reset clocks, on whatever board: as long as every access
to the PMU is answered, the sources that count as running have the frequencies that the hardware is
programmed to, by the crystal that the controller has come to know, and are up. -/
theorem sources_match_hardware (reset : rig.controller.clocks = .reset) (ops : List Operation)
    (answered : ¬rig.Misses ((Operation.sequence ops).run rig).after) :
    ((Operation.sequence ops).run rig).after.Matches := by
  have start : rig.Backed := by
    constructor
    · intro p running
      rw [reset] at running
      cases p <;> exact absurd rfl running
    · intro running
      rw [reset] at running
      exact absurd rfl running
  exact (start.sequence ops answered).matches

/-- Both PLLs after a refusal and a change of the crystal: the audio PLL at 8 1/3 times 16 MHz, with
21845 of 65535 as the fraction of a half step that is left. -/
theorem sources_match_after_crystal_change :
    let rig : Rig := ⟨.blank, .fresh ⟨.direct, .direct, .timer⟩ boardCrystal⟩
    let after := ((Operation.sequence [
      .setAupll (some ⟨8, 0, 1⟩) 0,
      .setSpll (some ⟨200, 0⟩) 0,
      .apply { Configuration.standard with
        crystal := ⟨16000000⟩
        aupll := some ⟨8, 1, 3⟩ }]).run rig).after
    ¬rig.Misses after ∧ after.Matches ∧
      after.controller.clocks.spll.hertz? = some ⟨128000000⟩ ∧
      after.controller.clocks.aupll.hertz? = some ⟨133333333⟩ := by
  intro rig after
  have answered : ¬rig.Misses after := Controller.blank_answers _ _
  refine ⟨answered, sources_match_hardware rfl _ answered, ?_⟩
  decide +kernel

end Rig
end ClockControl
