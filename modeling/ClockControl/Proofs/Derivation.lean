import ClockControl.Proofs.Path

/-! The derived clocks follow the tree. Every task leaves the DSP and core clocks as the tree
register gives them, and none waits between a change to the tree and the new clocks. Main
statement: `clocks_follow_tree`. -/
namespace ClockControl

theorem Rate.divided_toNat (r : Rate) (divisor : Nat) :
    (r.divided divisor).raw.toNat = r.raw.toNat / divisor := by
  have small := Nat.lt_of_le_of_lt (Nat.div_le_self r.raw.toNat divisor) r.raw.toNat_lt
  exact UInt32.toNat_ofNat_of_lt' small

namespace Clocks

/-- The DSP and core clocks are those that the tree register gives, rounded down. -/
def Follow (c : Clocks) (control : Word) : Prop :=
  match McuSource.selectedBy control with
  | .coreHs =>
    c.dsp.raw.toNat = c.coreHs.raw.toNat ∧
      c.core.raw.toNat = c.coreHs.raw.toNat / (TreeControl.mcu.get control + 1)
  | .spll =>
    c.dsp.raw.toNat = c.spll.raw.toNat / (TreeControl.soc.get control + 1) ∧
      c.core.raw.toNat = c.dsp.raw.toNat / (TreeControl.mcu.get control + 1)

theorem derived_follow (c : Clocks) (control : Word) : (c.derived control).Follow control := by
  unfold Follow derived
  cases McuSource.selectedBy control with
  | coreHs => exact ⟨rfl, Rate.divided_toNat _ _⟩
  | spll => exact ⟨Rate.divided_toNat _ _, Rate.divided_toNat _ _⟩

/-- With nothing but stopped clocks every tree is followed. -/
theorem reset_follow (control : Word) : Clocks.reset.Follow control := by
  unfold Follow
  cases McuSource.selectedBy control with
  | coreHs => exact ⟨rfl, (Nat.zero_div _).symm⟩
  | spll => exact ⟨(Nat.zero_div _).symm, (Nat.zero_div _).symm⟩

end Clocks

/-- The audio PLL feeds neither clock; any other result is entered with both derived anew. -/
theorem Task.record_follow {k : Task} {crystal : Hertz} {control : Word} {c : Clocks}
    (h : k.footprint = .pll .audio → c.Follow control) :
    (k.record crystal control c).Follow control := by
  cases k with
  | park => exact Clocks.derived_follow _ _
  | tree t => exact Clocks.derived_follow _ _
  | oscillator o => exact Clocks.derived_follow _ _
  | powerDown p =>
    cases p with
    | system => exact Clocks.derived_follow _ _
    | audio => exact h rfl
  | start p divider f lockWait =>
    cases p with
    | system => exact Clocks.derived_follow _ _
    | audio => exact h rfl

/-- A task that changes the tree goes through, in stores to the tree alone. -/
theorem Task.work_of_tree {rig : Rig} {k : Task} (ready : k.Ready rig)
    (tree : Register.treeControl ∈ k.footprint.registers) (w : Wiring) (b : Board) :
    ∃ b' trace, (k.work w).run b = ⟨.ok (), b', trace⟩ ∧
      ∀ m ∈ trace, ∃ v, m.event = .store .treeControl v := by
  cases k with
  | oscillator o => exact absurd tree Footprint.treeControl_notMem_oscillators
  | powerDown p => exact absurd tree (Footprint.treeControl_notMem_pll p)
  | start p divider f lockWait => exact absurd tree (Footprint.treeControl_notMem_pll p)
  | park =>
    refine ⟨_, _, Task.run_park w b, ?_⟩
    intro m hm
    obtain rfl := List.mem_singleton.1 hm
    exact ⟨_, rfl⟩
  | tree t =>
    refine ⟨_, _, Task.run_tree w ready.1 b, ?_⟩
    intro m hm
    obtain rfl | hm := List.mem_cons.1 hm
    · exact ⟨_, rfl⟩
    · obtain rfl := List.mem_singleton.1 hm
      exact ⟨_, rfl⟩

def Event.Delays : Event → Prop
  | .wait _ | .spin _ _ => True
  | _ => False

namespace Rig

/-- The clocks of the controller follow the tree of the board. -/
def Follows (rig : Rig) : Prop :=
  rig.controller.clocks.Follow (rig.board.image.load .treeControl)

/-- The frequency of the core, from its source and the dividers in the tree register. -/
def coreFrequency (rig : Rig) : Nat :=
  let control := rig.board.image.load .treeControl
  match rig.source with
  | .coreHs => rig.controller.clocks.coreHs.raw.toNat / (TreeControl.mcu.get control + 1)
  | .spll => rig.controller.clocks.spll.raw.toNat / (TreeControl.soc.get control + 1) /
      (TreeControl.mcu.get control + 1)

/-- The frequency that a busy wait goes by: that of the core, or 24 MHz while no running core
clock is published. -/
def pace (rig : Rig) : Nat :=
  if rig.board.published.bind (·.core.hertz?) = none then 24000000 else rig.coreFrequency

/-- An attached controller has published nothing yet, or its clocks. -/
def UpToDate (rig : Rig) : Prop := rig.controller.attached = true →
  rig.board.published = none ∨ rig.board.published = some rig.controller.clocks

theorem core_of_follows {rig : Rig} (h : rig.Follows) :
    rig.controller.clocks.core.raw.toNat = rig.coreFrequency := by
  unfold Follows Clocks.Follow at h
  unfold coreFrequency source
  cases hs : McuSource.selectedBy (rig.board.image.load .treeControl) with
  | coreHs =>
    rw [hs] at h
    exact h.2
  | spll =>
    rw [hs] at h
    exact h.2.trans (by rw [h.1])

/-- A busy wait by the published clocks is one by the core's own frequency. -/
theorem busyCycles_eq {rig : Rig} (follows : rig.Follows) (upToDate : rig.UpToDate)
    (attached : rig.controller.attached = true) (us : UInt32) :
    busyCycles rig.board.published us = (rig.pace * us.toNat / 1000000).toUInt32 := by
  unfold busyCycles pace
  obtain none | some := upToDate attached
  · rw [none]
    rfl
  · rw [some]
    cases core : rig.controller.clocks.core.hertz? with
    | none => simp [core, rcFrequency]
    | some f =>
      have frequency : f.raw.toNat = rig.coreFrequency := by
        rw [← core_of_follows follows]
        unfold Rate.hertz? at core
        split at core
        · cases core
        · cases core
          rfl
      simp [core, frequency]

/-- The clocks follow the tree at a delay, and a busy wait of an attached controller has the cycles
of the core's frequency. -/
structure Paced (m : Moment Rig) : Prop where
  follows : m.before.Follows
  cycles : ∀ us cycles, m.before.controller.attached = true → m.event = .spin us cycles →
    cycles = (m.before.pace * us.toNat / 1000000).toUInt32

variable {rig : Rig}

/-- Work that leaves the tree alone finds it followed at each of its delays. -/
theorem At.paced {k : Task} {m : Moment Rig} (h : rig.At k m) (follows : rig.Follows)
    (upToDate : rig.UpToDate) (tree : Register.treeControl ∉ k.footprint.registers) : Paced m := by
  have here : m.before.Follows := by
    rw [Follows, h.controller, h.keeps.load_tree tree]
    exact follows
  constructor
  · exact here
  · intro us cycles attached event
    have allows := h.allows
    rw [event] at allows
    have published : m.before.UpToDate := by
      rw [UpToDate, h.controller, h.keeps.published]
      exact upToDate
    exact allows.trans (busyCycles_eq here published attached us)

/-- A task that changes the tree does not wait. -/
theorem not_delays_of_tree {k : Task} (ready : k.Ready rig)
    (tree : Register.treeControl ∈ k.footprint.registers) {m : Moment Rig}
    (hm : m ∈ ((Controller.perform k).run rig).trace) : ¬m.event.Delays := by
  obtain ⟨b, trace, work, stores⟩ :=
    Task.work_of_tree ready tree rig.controller.wiring rig.board
  rw [Controller.run_perform_ok work] at hm
  intro delays
  obtain hm | hm := List.mem_append.1 hm
  · obtain ⟨moment, hmoment, rfl⟩ := List.mem_map.1 hm
    obtain ⟨v, event⟩ := stores moment hmoment
    rw [event] at delays
    exact delays
  · obtain ⟨n, event⟩ := event_of_conclusion hm
    rw [event] at delays
    exact delays

/-- The clocks follow the tree, and what is published follows the clocks. -/
structure InStep (rig : Rig) : Prop where
  follows : rig.Follows
  upToDate : rig.UpToDate

theorem InStep.announced (follows : rig.Follows) : rig.announced.InStep := by
  constructor
  · exact follows
  · intro attached
    exact .inr (if_pos attached)

theorem InStep.perform (h : rig.InStep) {k : Task} (ready : k.Ready rig) :
    ((Controller.perform k).run rig).after.InStep := by
  have confined := k.work_confined ready rig.controller.wiring rig.board
  have kept {b : Board} (keeps : k.footprint.Keeps rig.board b)
      (tree : Register.treeControl ∉ k.footprint.registers) : (rig.onto b).Follows := by
    rw [Follows, onto, keeps.load_tree tree]
    exact h.follows
  rcases hw : (k.work rig.controller.wiring).run rig.board with ⟨e | x, b, trace⟩
  · rw [hw] at confined
    rw [Controller.run_perform_error hw]
    have tree : Register.treeControl ∉ k.footprint.registers := by
      intro tree
      obtain ⟨b', trace', work, -⟩ :=
        Task.work_of_tree ready tree rig.controller.wiring rig.board
      rw [hw] at work
      cases work
    constructor
    · exact kept confined.after tree
    · rw [UpToDate, onto, confined.after.published]
      exact h.upToDate
  · rw [hw] at confined
    rw [Controller.run_perform_ok hw]
    have entered : (rig.enter k b).Follows := by
      apply Task.record_follow
      intro audio
      apply kept confined.after
      rw [audio]
      exact Footprint.treeControl_notMem_pll .audio
    exact .announced entered

/-- Each stage leaves the clocks in step with the tree. -/
theorem InStep.stage (h : rig.InStep) {r : Run Rig Unit} (step : rig.Stage r) : r.after.InStep := by
  cases step with
  | note n => exact h
  | crystal f => exact ⟨h.follows, h.upToDate⟩
  | task k ready => exact h.perform ready
  | fault e =>
    rw [Controller.run_recordFault]
    constructor
    · rw [Follows, onto, Image.load_store_of_ne (by decide)]
      exact h.follows
    · exact h.upToDate

/-- Each delay of a stage is paced. -/
theorem InStep.paced (h : rig.InStep) {r : Run Rig Unit} (step : rig.Stage r) {m : Moment Rig}
    (hm : m ∈ r.trace) (delays : m.event.Delays) : Paced m := by
  cases step with
  | note n =>
    obtain rfl := List.mem_singleton.1 hm
    exact delays.elim
  | crystal f => cases hm
  | fault e =>
    obtain rfl := List.mem_singleton.1 hm
    exact delays.elim
  | task k ready =>
    by_cases tree : Register.treeControl ∈ k.footprint.registers
    · exact absurd delays (not_delays_of_tree ready tree hm)
    · obtain ⟨n, event⟩ | moment := perform_shows ready hm
      · rw [event] at delays
        exact delays.elim
      · exact moment.paced h.follows h.upToDate tree

theorem InStep.path {start : Rig} (h : start.InStep) {past : List (Moment Rig)}
    (path : Path start past rig) : rig.InStep := by
  induction path with
  | refl => exact h
  | stage _ step ih => exact ih.stage step

/-- From reset clocks, with nothing else published, whatever is asked of a controller and whichever
accesses to the PMU fail: the DSP and core clocks follow the tree at the end of every run and at
every delay on the way, and a busy wait of an attached controller is counted by the frequency of
the core, or by 24 MHz while no running core clock is published. -/
theorem clocks_follow_tree (reset : rig.controller.clocks = .reset)
    (published : rig.controller.attached = true →
      rig.board.published = none ∨ rig.board.published = some .reset) (ops : List Operation) :
    ((Operation.sequence ops).run rig).after.Follows ∧
      ∀ m ∈ ((Operation.sequence ops).run rig).trace, m.event.Delays → Paced m := by
  have start : rig.InStep := by
    constructor
    · rw [Follows, reset]
      exact Clocks.reset_follow _
    · rw [UpToDate, reset]
      exact published
  constructor
  · exact (start.path (sequence_path rig ops)).follows
  · intro m hm delays
    obtain ⟨earlier, rig', r, path, step, shown⟩ := (sequence_path rig ops).stage_of_mem hm
    exact (start.path path).paced step shown delays

/-- With the core at 192 MHz a wait of 20 microseconds is 3840 cycles long. -/
theorem wait_at_full_speed : ∃ m ∈ ((Operation.sequence
      [.apply { Configuration.standard with tree := { Tree.undivided with source := .spll } },
        .setAupll (some ⟨8, 0, 1⟩) 0]).run
      ⟨.blank, (Controller.fresh (.standard .core) boardCrystal).attach none⟩).trace,
    m.event = .spin 20 3840 ∧ m.before.Follows ∧
      3840 = (m.before.pace * 20 / 1000000).toUInt32 := by
  have shown : ((Operation.sequence
      [.apply { Configuration.standard with tree := { Tree.undivided with source := .spll } },
        .setAupll (some ⟨8, 0, 1⟩) 0]).run
      ⟨.blank, (Controller.fresh (.standard .core) boardCrystal).attach none⟩).trace.any (fun m =>
        m.before.controller.attached && m.event == .spin 20 3840) = true := by
    decide +kernel
  obtain ⟨m, hm, found⟩ := List.any_eq_true.1 shown
  simp only [Bool.and_eq_true, beq_iff_eq] at found
  obtain ⟨attached, event⟩ := found
  have reset : (Rig.mk .blank ((Controller.fresh (.standard .core) boardCrystal).attach
      none)).controller.clocks = .reset := rfl
  obtain ⟨-, paced⟩ := clocks_follow_tree reset (fun _ => .inl rfl) _
  have timed := paced m hm (by rw [event]; trivial)
  exact ⟨m, hm, event, timed.follows, timed.cycles 20 3840 attached event⟩

end Rig
end ClockControl
