import ClockControl.Proofs.Independence
import ClockControl.Proofs.Path

/-! Tasks that are interrupted. A task that misses an access has done part of its work, in its own
footprint and away from the tree, and doing it from there comes to the same as doing it at once.
Main statements: `Task.work_cut`, `leads_task` and `leads_within`. -/
namespace ClockControl

namespace Task

/-- What a task leaves behind that has missed an access. -/
structure Cuts (k : Task) (rig rig' : Rig) : Prop where
  keeps : k.footprint.Keeps rig.board rig'.board
  tree : Register.treeControl ∉ k.footprint.registers
  converge : Board.Converge [k] rig.board rig'.board
  controller : rig'.controller = rig.controller

theorem Cuts.published {k : Task} {rig rig' : Rig} (h : k.Cuts rig rig') :
    rig'.board.published = rig.board.published :=
  h.keeps.published

variable {rig : Rig} {k : Task}

/-- Only the work on an oscillator and the start of a PLL can be cut short: before anything is
changed, with the oscillator started but not selected, or with the PLL behind its closed gate. -/
theorem work_cut (ready : k.Ready rig) {w : Wiring} {b b' : Board} {e : Failure}
    {trace : List (Moment Board)} (work : (k.work w).run b = ⟨.error e, b', trace⟩) :
    Register.treeControl ∉ k.footprint.registers ∧ Board.Converge [k] b b' := by
  cases k with
  | park =>
    rw [run_park] at work
    cases work
  | tree t =>
    rw [run_tree w ready.1] at work
    cases work
  | powerDown p =>
    have run : p.powerDown.run b = _ := Pll.run_store p .power p.recipe.powerDown b
    have same : p.powerDown.run b = ⟨.error e, b', trace⟩ := work
    rw [run] at same
    cases same
  | oscillator o =>
    refine ⟨Footprint.treeControl_notMem_oscillators, ?_⟩
    have run : (w.selectOscillator o).run b = ⟨.error e, b', trace⟩ := work
    have kept := (Action.Confined.selectOscillator w o b).after
    rw [run] at kept
    have image : b.image.Agree b'.image :=
      fun i hc hd => kept.words i hc hd fun r hr => absurd hr List.not_mem_nil
    have leads : (w.selectOscillator o).Leads _ _ [] b := leads_selectOscillator o
    obtain pmu | pmu := (Action.leads_of_run_error run).1 leads
    · exact .of_same image pmu
    · have oscillators : b'.oscillators = o.enable.put 1 b.oscillators := by
        rw [Board.oscillators, pmu, RegisterFile.read_write_self]
      constructor
      · exact image
      · rw [course_singleton, course_singleton, oscillators, Task.oscillators, Oscillator.selected,
          Field.put_put]
        rfl
      · rw [oscillators, pmu]
  | start p divider f lockWait =>
    refine ⟨Footprint.treeControl_notMem_pll p, ?_⟩
    have starts := Pll.start_starts p w divider lockWait b
    have run : (p.start w divider lockWait).run b = ⟨.error e, b', trace⟩ := work
    rw [run] at starts
    cases starts with
    | unbegun image pmu last => exact .of_same image pmu
    | cut image pmu last =>
      have oscillators : b'.oscillators = p.reference.put 0 b.oscillators := by
        rw [Board.oscillators, pmu, RegisterFile.read_write_self]
      constructor
      · have programmed := Pll.programmed_agree p divider image
        rw [Pll.programmed_programmed] at programmed
        exact Pll.tapped_agree p programmed
      · rw [course_singleton, course_singleton, oscillators, Task.oscillators, Field.put_put]
        rfl
      · rw [oscillators, pmu]

end Task

/-- Each moment is a note or stays within one of the footprints. -/
def Rig.Within (Fs : List Footprint) (past : List (Moment Rig)) : Prop :=
  ∀ m ∈ past, (∃ n, m.event = .note n) ∨ ∃ F ∈ Fs, F.Allows ⟨m.before.board, m.event⟩

namespace Rig.Within
variable {Fs : List Footprint} {past trace : List (Moment Rig)}

theorem nil : Within Fs [] := fun _ hm => nomatch hm

theorem append {F : Footprint} (h : Within Fs past)
    (shown : ∀ m ∈ trace, (∃ n, m.event = .note n) ∨ F.Allows ⟨m.before.board, m.event⟩) :
    Within (Fs ++ [F]) (past ++ trace) := by
  intro m hm
  obtain hm | hm := List.mem_append.1 hm
  · obtain note | ⟨G, hG, allows⟩ := h m hm
    · exact .inl note
    · exact .inr ⟨G, List.mem_append_left _ hG, allows⟩
  · obtain note | allows := shown m hm
    · exact .inl note
    · exact .inr ⟨F, List.mem_append_right _ (List.mem_singleton_self F), allows⟩

/-- A PLL that none of the footprints has a register of is not stored to. -/
theorem stores {p : Pll} (h : Within Fs past) (avoids : ∀ F ∈ Fs, F.Avoids p) :
    ∀ m ∈ past, p.Stores m.event = false := by
  intro m hm
  obtain ⟨n, event⟩ | ⟨F, hF, allows⟩ := h m hm
  · rw [event]
    rfl
  · exact Pll.stores_of_allows allows (avoids F hF).registers

end Rig.Within

namespace Controller
open Rig (Within)

/-- The run has ended in a timeout. -/
def TimedOut (r : Run Rig Unit) : Prop := ∃ reg, r.outcome = .error (.error (.timeout reg))

variable {rig : Rig} {k : Task} {past : List (Moment Rig)}

theorem perform_cuts (ready : k.Ready rig) :
    (perform k).Leads (fun _ _ _ => True) (fun _ _ => k.Cuts rig) past rig := by
  have confined := k.work_confined ready rig.controller.wiring rig.board
  rcases hw : (k.work rig.controller.wiring).run rig.board with ⟨e | x, b, trace⟩
  · rw [hw] at confined
    obtain ⟨tree, converge⟩ := Task.work_cut ready hw
    exact (Action.leads_of_run_error (run_perform_error hw)).2
      ⟨confined.after, tree, converge, rfl⟩
  · exact (Action.leads_of_run (run_perform_ok hw)).2 trivial

section Answers
variable {Fs : List Footprint} {a : Action Rig Unit}

/-- An operation that answers a request with a task shows what stays within its footprint. -/
theorem leads_within (answers : Answers (a.run rig) rig (.ok k)) (within : Within Fs past) :
    a.Leads (fun _ past' _ => Within (Fs ++ [k.footprint]) past')
      (fun _ past' _ => Within (Fs ++ [k.footprint]) past') past rig := by
  obtain ⟨ready, run⟩ := answers
  have shown {past' : List (Moment Rig)} (adds : ∃ trace, past' = past ++ trace ∧
      ∀ m ∈ trace, (∃ n, m.event = .note n) ∨ rig.At k m) :
      Within (Fs ++ [k.footprint]) past' := by
    obtain ⟨trace, rfl, shown⟩ := adds
    exact within.append fun m hm => (shown m hm).imp id (·.allows)
  rw [Action.leads_congr run]
  exact (Action.leads_adds fun m hm => Rig.perform_shows ready hm).mono (fun _ _ _ => shown)
    fun _ _ _ => shown

/-- It does the task, or it misses an access on the way. -/
theorem leads_task (answers : Answers (a.run rig) rig (.ok k)) :
    a.Leads (fun _ _ => k.Takes rig)
      (fun e past' rig' => Lost rig e past' rig' ∧ k.Cuts rig rig') past rig := by
  obtain ⟨ready, run⟩ := answers
  rw [Action.leads_congr run]
  exact ((perform_takes ready).and (perform_cuts ready)).answer fun _ _ _ => And.left

/-- A task that changes the tree is not cut short. -/
theorem leads_task_of_tree (answers : Answers (a.run rig) rig (.ok k))
    (tree : Register.treeControl ∈ k.footprint.registers) :
    a.Leads (fun _ _ => k.Takes rig) (fun _ _ _ => False) past rig :=
  (leads_task answers).failure fun _ _ _ ⟨_, cuts⟩ => cuts.tree tree

end Answers

end Controller
end ClockControl
