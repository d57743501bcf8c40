import ClockControl.Proofs.Effect
import ClockControl.Proofs.Pll.Acceptance

/-! Which requests to a controller are refused. A request is decided before the hardware is touched,
and once it has been touched only a missed access can fail, so that a refusal changes nothing. Main
statement: `refused_exactly_when_unfit`. -/
namespace ClockControl

/-- A divisor is out of its range. -/
def Tree.Unfit (t : Tree) : Prop :=
  (∃ divisor ∈ [t.soc, t.mcu], divisor < 1 ∨ 16 < divisor) ∨
    ∃ divisor ∈ [t.bus0, t.bus1, t.bus2], divisor < 1 ∨ 4 < divisor

theorem Tree.check_decides (t : Tree) : t.check.Decides ¬t.Unfit := by
  have checks : t.check.Decides _ := .guard fun _ => .guard fun _ => .pure ()
  refine checks.congr ?_
  simp [Unfit, coreInRange, busInRange, inRange, and_assoc]

namespace Task
variable (rig : Rig)

theorem ofSystem_decides (ratio : Option SystemRatio) (lockWait : UInt32) :
    (ofSystem ratio lockWait rig).Decides ¬(rig.source = .spll ∨ ∃ r, ratio = some r ∧
      r.Unfit rig.controller.wiring.sequencer rig.controller.crystal) := by
  refine (Attempt.Decides.guard fun _ => ?_).congr not_or.symm
  cases ratio with
  | none => exact (Attempt.Decides.pure _).congr (iff_of_true trivial nofun)
  | some r =>
    refine (r.plan_decides _ _).map.congr ?_
    simp

theorem ofAudio_decides (ratio : Option AudioRatio) (lockWait : UInt32) :
    (ofAudio ratio lockWait rig).Decides ¬∃ r, ratio = some r ∧
      r.Unfit rig.controller.wiring.sequencer rig.controller.crystal := by
  cases ratio with
  | none => exact (Attempt.Decides.pure _).congr (iff_of_true trivial nofun)
  | some r =>
    refine (r.plan_decides _ _).map.congr ?_
    simp

theorem ofTree_decides (t : Tree) : (ofTree t rig).Decides
    ¬(t.Unfit ∨ t.source = .spll ∧ rig.controller.clocks.spll.hertz? = none) := by
  have same : ofTree t rig = t.check >>= fun _ =>
      if t.source = .spll ∧ rig.controller.clocks.spll.hertz? = none then
        .refuse .systemPllStopped
      else
        pure (.tree t) := by
    unfold ofTree
    cases t.check <;> rfl
  rw [same, not_or]
  refine t.check_decides.bind fun _ _ => ?_
  exact (Attempt.Decides.guard fun _ => .pure _).congr (and_iff_left trivial)

end Task

namespace Controller

/-- The run has ended in a refusal. -/
def Refused (r : Run Rig Unit) : Prop := ∃ reason, r.outcome = .refuse reason

/-- The run has left everything as it was on the rig, and has shown nothing but notes. -/
def Untouched (rig : Rig) (r : Run Rig Unit) : Prop :=
  r.after = rig ∧ ∀ m ∈ r.trace, ∃ n, m.event = .note n

variable {rig : Rig} {r : Run Rig Unit} {request : Attempt Task}

/-- A task that is performed is not refused any more. -/
theorem not_refused_perform {k : Task} (ready : k.Ready rig) :
    ¬Refused ((perform k).run rig) := by
  rintro ⟨reason, refused⟩
  obtain ⟨lost, -⟩ := (perform_takes ready).of_error refused
  cases lost

theorem Answers.refused_iff {P : Prop} (answers : Answers r rig request)
    (decides : request.Decides ¬P) : Refused r ↔ P := by
  refine Iff.trans ?_ (decides.refused_iff.trans not_not)
  cases request with
  | ok k =>
    obtain ⟨ready, rfl⟩ := answers
    exact iff_of_false (not_refused_perform ready) nofun
  | error e =>
    obtain ⟨ns, -, rfl⟩ := answers
    simp [Refused, Attempt.refuse]

/-- What is not refused is performed. -/
theorem Answers.of_not_refused {P : Prop} (answers : Answers r rig request)
    (decides : request.Decides P) (accepted : ¬Refused r) :
    ∃ k : Task, request = .ok k ∧ k.Ready rig ∧ r = (perform k).run rig := by
  cases request with
  | ok k => exact ⟨k, rfl, answers⟩
  | error e =>
    obtain ⟨reason, rfl⟩ := decides.refused_of_error rfl
    obtain ⟨ns, -, rfl⟩ := answers
    exact absurd ⟨reason, rfl⟩ accepted

theorem Answers.untouched (answers : Answers r rig request) (refused : Refused r) :
    Untouched rig r := by
  cases request with
  | ok k =>
    obtain ⟨ready, rfl⟩ := answers
    exact absurd refused (not_refused_perform ready)
  | error e =>
    obtain ⟨ns, -, rfl⟩ := answers
    refine ⟨rfl, fun m hm => ?_⟩
    obtain ⟨n, -, rfl⟩ := List.mem_map.1 hm
    exact ⟨n, rfl⟩

/-- A request for a PLL or the tree is refused if what it asks for is unfit for the silicon and the
crystal, if the system PLL is asked to change under the MCU or if the MCU is asked to move onto a
stopped system PLL, and in no other case. Then nothing has happened but notes. -/
theorem refused_exactly_when_unfit (rig : Rig) (spll : Option SystemRatio)
    (aupll : Option AudioRatio) (t : Tree) (lockWait : UInt32) :
    let s := rig.controller.wiring.sequencer
    let crystal := rig.controller.crystal
    (Refused ((setSpll spll lockWait).run rig) ↔
      rig.source = .spll ∨ ∃ r, spll = some r ∧ r.Unfit s crystal) ∧
    (Refused ((setAupll aupll lockWait).run rig) ↔ ∃ r, aupll = some r ∧ r.Unfit s crystal) ∧
    (Refused ((setTree t).run rig) ↔
      t.Unfit ∨ t.source = .spll ∧ rig.controller.clocks.spll.hertz? = none) ∧
    ∀ a ∈ [setSpll spll lockWait, setAupll aupll lockWait, setTree t],
      Refused (a.run rig) → Untouched rig (a.run rig) := by
  intro s crystal
  have system := setSpll_answers spll lockWait rig
  have audio := setAupll_answers aupll lockWait rig
  have tree := setTree_answers t rig
  refine ⟨system.refused_iff (Task.ofSystem_decides rig spll lockWait),
    audio.refused_iff (Task.ofAudio_decides rig aupll lockWait),
    tree.refused_iff (Task.ofTree_decides rig t), ?_⟩
  simp only [List.forall_mem_cons, List.not_mem_nil, false_imp_iff, implies_true, and_true]
  exact ⟨system.untouched, audio.untouched, tree.untouched⟩

/-- The doubled fraction 2/65537 is in lowest terms, and its denominator is one too large; 2/131072
is 1/65536, which fits. -/
theorem thin_fraction_refused :
    let rig : Rig := ⟨.blank, .fresh (.standard .timer) boardCrystal⟩
    Refused ((setAupll (some ⟨8, 1, 65537⟩) 10).run rig) ∧
      Untouched rig ((setAupll (some ⟨8, 1, 65537⟩) 10).run rig) ∧
      ¬Refused ((setAupll (some ⟨8, 1, 131072⟩) 10).run rig) := by
  intro rig
  obtain ⟨-, thin, -, untouched⟩ :=
    refused_exactly_when_unfit rig none (some ⟨8, 1, 65537⟩) .undivided 10
  obtain ⟨-, thick, -⟩ :=
    refused_exactly_when_unfit rig none (some ⟨8, 1, 131072⟩) .undivided 10
  have refused : Refused ((setAupll (some ⟨8, 1, 65537⟩) 10).run rig) :=
    thin.2 ⟨_, rfl, .inr (.inr (.inr (.inl (by decide))))⟩
  refine ⟨refused, untouched _ (by simp) refused, ?_⟩
  rw [thick]
  rintro ⟨r, same, unfit⟩
  cases same
  revert unfit
  simp only [AudioRatio.Unfit]
  decide

end Controller
end ClockControl
