import ClockControl.Proofs.Publication
import ClockControl.Proofs.Settlement

/-! How an application stops that has missed an access. The MCU is parked, the steps before the
missed access are done, and the others have not begun but for the one that missed it. Main
statement: `timed_out_apply_stranded`. -/
namespace ClockControl

namespace Step

/-- The clock that a step sets. -/
def clock (c : Clocks) : Step → Rate
  | .oscillator => c.coreHs
  | .pll p => c.pll p

theorem clock_derived (i : Step) (c : Clocks) (control : Word) :
    i.clock (c.derived control) = i.clock c := by
  cases i with
  | oscillator => exact Clocks.derived_coreHs c control
  | pll p => exact Clocks.derived_pll c control p

theorem order_nodup : order.Nodup := by decide

end Step

namespace Configuration

/-- The frequency in hertz that a step is asked for, 0 for a PLL that is powered down. -/
def rate (c : Configuration) : Step → Nat
  | .oscillator => c.coreHs
  | .pll p => (c.frequency p).getD 0

end Configuration

namespace Controller
variable {start rig rig' : Rig} {c : Configuration} {i : Step} {steps : List Step}

/-- A step sets its own clock. -/
theorem clock_of_sets {k : Task} (sets : c.sets start.controller.wiring.sequencer i = .ok k)
    (takes : k.Takes rig rig') (crystal : rig.controller.crystal = c.crystal) :
    (i.clock rig'.controller.clocks).raw.toNat = c.rate i := by
  cases i with
  | oscillator =>
    cases sets
    rw [takes.clocks, crystal, Configuration.rate, ← c.frequency_oscillator]
    exact congrArg (·.raw.toNat) (Clocks.derived_coreHs _ _)
  | pll p =>
    obtain ⟨-, -, -, clock⟩ := sets_of_takes sets takes
    exact clock

/-- And no other. -/
theorem clock_of_sets_of_ne {j : Step} {s : Sequencer} {k : Task} (sets : c.sets s j = .ok k)
    (takes : k.Takes rig rig') (other : i ≠ j) :
    i.clock rig'.controller.clocks = i.clock rig.controller.clocks := by
  cases i with
  | pll p =>
    apply takes.pll
    rw [Configuration.footprint_of_sets sets]
    exact Step.avoids other.symm
  | oscillator =>
    cases j with
    | oscillator => exact absurd rfl other
    | pll p =>
      rw [takes.clocks]
      exact Task.record_coreHs (Task.ne_oscillator (Configuration.footprint_of_sets sets)) _ _ _

namespace Progress

theorem clock_of_notMem {s : Sequencer} (h : Progress c s steps rig rig') (hi : i ∉ steps) :
    i.clock rig'.controller.clocks = i.clock rig.controller.clocks := by
  refine h.keeps (P := fun rig' => i.clock rig'.controller.clocks = _) rfl ?_
  intro j k rig rig' hj sets takes same
  refine (clock_of_sets_of_ne sets takes ?_).trans same
  rintro rfl
  exact hi hj

theorem clock_of_mem (h : Progress c start.controller.wiring.sequencer steps rig rig')
    (nodup : steps.Nodup) (crystal : rig.controller.crystal = c.crystal) (hi : i ∈ steps) :
    (i.clock rig'.controller.clocks).raw.toNat = c.rate i := by
  induction h with
  | nil => cases hi
  | cons sets takes rest ih =>
    obtain ⟨first, nodup⟩ := List.nodup_cons.1 nodup
    obtain rfl | hi := List.mem_cons.1 hi
    · rw [rest.clock_of_notMem first]
      exact clock_of_sets sets takes crystal
    · exact ih nodup (takes.crystal.trans crystal) hi

end Progress

namespace Parked

theorem clock (h : Parked start c rig) (i : Step) :
    i.clock rig.controller.clocks = i.clock start.controller.clocks := by
  cases h with
  | already same source => rw [same]
  | moved park =>
    rw [park.clocks]
    exact i.clock_derived _ _

theorem load_tree (h : Parked start c rig) : rig.board.image.load .treeControl =
    TreeControl.select .coreHs (start.board.image.load .treeControl) := by
  cases h with
  | already same source =>
    have done : Task.park.Done rig.board := source
    have selected := congrArg (Image.load · .treeControl) done.image
    rw [Task.image, Image.load_store_self] at selected
    rw [← selected, same]
  | moved park => rw [park.image.load_tree, Task.image, Image.load_store_self]

end Parked

/-- How an application stops that has missed an access. -/
structure Stranded (c : Configuration) (rig : Rig) (r : Run Rig Unit) : Prop where
  crystal : r.after.controller.crystal = c.crystal
  tree : r.after.board.image.load .treeControl =
    TreeControl.source.put 0 (rig.board.image.load .treeControl)
  steps : ∃ done i rest, Step.order = done ++ i :: rest ∧
    (∀ j ∈ done, (j.clock r.after.controller.clocks).raw.toNat = c.rate j) ∧
    (∀ j ∈ i :: rest, j.clock r.after.controller.clocks = j.clock rig.controller.clocks) ∧
    ∀ p, .pll p ∈ rest → ∀ m ∈ r.trace, p.Stores m.event = false
  dsp : r.after.controller.clocks.dsp = r.after.controller.clocks.coreHs
  core : r.after.controller.clocks.core.raw.toNat = r.after.controller.clocks.coreHs.raw.toNat /
    (TreeControl.mcu.get (r.after.board.image.load .treeControl) + 1)

theorem Halted.stranded {past : List (Moment Rig)} {outcome : Attempt Unit}
    (h : Halted start c past rig) (follows : rig.Follows) :
    Stranded c start ⟨outcome, rig, past⟩ := by
  obtain ⟨order, park, progress, sets, cuts, within⟩ := h
  have nodup := Step.order_nodup
  rw [order] at nodup
  have tree : rig.board.image.load .treeControl =
      TreeControl.select .coreHs (start.board.image.load .treeControl) := by
    rw [cuts.keeps.load_tree cuts.tree, progress.load_tree, park.load_tree]
  rw [Rig.Follows, Clocks.Follow, tree, McuSource.selectedBy_select] at follows
  constructor
  · exact (congrArg Controller.crystal cuts.controller).trans (progress.crystal.trans park.crystal)
  · exact tree
  · refine ⟨_, _, _, order, ?_, ?_, ?_⟩
    · intro j hj
      rw [cuts.controller]
      exact progress.clock_of_mem (List.nodup_append.1 nodup).1 park.crystal hj
    · intro j hj
      have later : j ∉ _ := fun earlier => (List.nodup_append.1 nodup).2.2 j earlier j hj rfl
      rw [cuts.controller, progress.clock_of_notMem later, park.clock]
    · intro p hp
      apply within.stores
      simp only [List.forall_mem_cons, List.forall_mem_map]
      refine ⟨Footprint.tree_avoids p, fun j hj => Step.avoids ?_⟩
      rintro rfl
      obtain ⟨-, tail, apart⟩ := List.nodup_append.1 nodup
      obtain hj | hj := List.mem_append.1 hj
      · exact apart _ hj _ (List.mem_cons_of_mem _ hp) rfl
      · obtain same := List.mem_singleton.1 hj
        exact (List.nodup_cons.1 tail).1 (same ▸ hp)
  · exact Rate.eq_of_toNat follows.1
  · show _ = _ / (TreeControl.mcu.get (rig.board.image.load .treeControl) + 1)
    rw [tree]
    exact follows.2

/-- From reset clocks, with nothing else published, whatever has been asked of a controller and
whichever accesses to the PMU fail: an application that times out is stranded, and the clocks of an
attached controller are the ones published, unless nothing has been published yet. -/
theorem timed_out_apply_stranded (start : Rig) (reset : start.controller.clocks = .reset)
    (published : start.controller.attached = true →
      start.board.published = none ∨ start.board.published = some .reset)
    (ops : List Operation) (c : Configuration) :
    let rig := ((Operation.sequence ops).run start).after
    let r := (apply c).run rig
    TimedOut r → Stranded c rig r ∧ (start.controller.attached = true →
      r.after.controller.clocks.Standing r.after.board.published) := by
  intro rig r timedOut
  have inStep : start.InStep := by
    constructor
    · rw [Rig.Follows, reset]
      exact Clocks.reset_follow _
    · rw [Rig.UpToDate, reset]
      exact published
  have before := Rig.sequence_path start ops
  have whole : Rig.Path rig r.trace r.after := (Rig.Path.refl.apply c).run
  constructor
  · exact (halted_of_timedOut timedOut).stranded ((inStep.path before).path whole).follows
  · intro attached
    have live : start.Live := by
      refine ⟨attached, ?_⟩
      rw [reset]
      exact (published attached).symm.imp_right fun none => ⟨none, rfl⟩
    exact ((live.path before).path whole).standing

/-- From a core of 192 MHz on the system PLL to another configuration, of which the 17th access to
the PMU is missed: the gate of the system PLL stays closed, its clock counts as before, and the core
is left on the RC oscillator. -/
theorem stranded_behind_closed_gate :
    let start : Rig := ⟨{ Board.blank with fails := (· == 17) },
      (fresh ⟨.direct, .direct, .timer⟩ boardCrystal).attach none⟩
    let rig := ((Operation.sequence [.apply { Configuration.standard with
      tree := { Tree.undivided with source := .spll } }]).run start).after
    let c : Configuration :=
      ⟨⟨16000000⟩, .rc, some ⟨8, 0⟩, some ⟨8, 1, 3⟩, ⟨.spll, 3, 5, 1, 2, 4⟩, 10⟩
    let r := (apply c).run rig
    rig.source = .spll ∧ TimedOut r ∧ Stranded c rig r ∧
      r.after.controller.clocks.coreHs = ⟨24000000⟩ ∧
      r.after.controller.clocks.spll = ⟨192000000⟩ ∧
      r.after.controller.clocks.Standing r.after.board.published := by
  intro start rig c r
  have timedOut : TimedOut r := ⟨Register.oscillatorControl, by decide +kernel⟩
  obtain ⟨stranded, standing⟩ :=
    timed_out_apply_stranded start rfl (fun _ => .inl rfl) _ c timedOut
  have found : rig.source = .spll ∧ r.after.controller.clocks.coreHs = ⟨24000000⟩ ∧
      r.after.controller.clocks.spll = ⟨192000000⟩ := by
    decide +kernel
  exact ⟨found.1, timedOut, stranded, found.2.1, found.2.2, standing rfl⟩

end Controller
end ClockControl
