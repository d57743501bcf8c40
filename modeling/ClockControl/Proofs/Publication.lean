import ClockControl.Session
import ClockControl.Proofs.Path

/-! What is published never goes stale. An attached controller publishes its clocks whenever it has
changed them, also on the way to a failure; one that is not attached never does. Main statements:
`Live.path`, `Live.published_of_ok` and `silent_path`. -/
namespace ClockControl

/-- The clocks are the ones published; nothing is published only while they are reset. -/
def Clocks.Standing (c : Clocks) (published : Option Clocks) : Prop :=
  published = some c ∨ published = none ∧ c = .reset

/-- What stands is what a new controller starts from. -/
theorem Clocks.standing_iff (c : Clocks) (published : Option Clocks) :
    c.Standing published ↔ published.getD .reset = c := by
  cases published <;> simp [Standing, eq_comm]

namespace Rig

/-- The controller is attached, and its clocks stand. -/
structure Live (rig : Rig) : Prop where
  attached : rig.controller.attached = true
  standing : rig.controller.clocks.Standing rig.board.published

/-- The clocks of the controller are published. -/
def Published (rig : Rig) : Prop := rig.board.published = some rig.controller.clocks

variable {rig start : Rig} {past : List (Moment Rig)}

theorem announced_published (attached : rig.controller.attached = true) :
    rig.announced.Published :=
  if_pos attached

/-- A task enters its result in the clocks only when it publishes them as well. -/
theorem Live.perform (h : rig.Live) {k : Task} (ready : k.Ready rig) :
    ((Controller.perform k).run rig).after.Live := by
  have confined := k.work_confined ready rig.controller.wiring rig.board
  rcases hw : (k.work rig.controller.wiring).run rig.board with ⟨e | x, b, trace⟩
  · rw [hw] at confined
    rw [Controller.run_perform_error hw]
    constructor
    · exact h.attached
    · show rig.controller.clocks.Standing b.published
      rw [confined.after.published]
      exact h.standing
  · rw [Controller.run_perform_ok hw]
    exact ⟨h.attached, .inl (announced_published h.attached)⟩

theorem Live.stage (h : rig.Live) {r : Run Rig Unit} (step : rig.Stage r) : r.after.Live := by
  cases step with
  | note n => exact h
  | crystal f => exact ⟨h.attached, h.standing⟩
  | task k ready => exact h.perform ready
  | fault e =>
    rw [Controller.run_recordFault]
    exact ⟨h.attached, h.standing⟩

theorem Live.path (h : start.Live) (path : Path start past rig) : rig.Live := by
  induction path with
  | refl => exact h
  | stage _ step ih => exact ih.stage step

/-- An operation keeps an attached controller live, whatever becomes of it. -/
theorem Live.operation (h : rig.Live) (op : Operation) : (op.action.run rig).after.Live :=
  h.path (Path.refl.operation op).run

/-- An action that comes to its end has published the clocks. -/
abbrev Publishes (a : Action Rig Unit) : Assertion Rig :=
  a.Leads (fun _ _ => Published) fun _ _ _ => True

theorem publishes_perform (k : Task) (attached : rig.controller.attached = true) :
    Publishes (Controller.perform k) past rig := by
  rcases hw : (k.work rig.controller.wiring).run rig.board with ⟨e | x, b, trace⟩
  · exact (Action.leads_of_run_error (Controller.run_perform_error hw)).2 trivial
  · exact (Action.leads_of_run (Controller.run_perform_ok hw)).2 (announced_published attached)

theorem publishes_answers {a : Action Rig Unit} {request : Attempt Task}
    (answers : Controller.Answers (a.run rig) rig request)
    (attached : rig.controller.attached = true) : Publishes a past rig := by
  cases request with
  | ok k =>
    obtain ⟨-, run⟩ := answers
    exact (Action.leads_congr run).2 (publishes_perform k attached)
  | error e =>
    obtain ⟨ns, -, run⟩ := answers
    exact (Action.leads_of_run_error run).2 trivial

/-- The tree comes last and publishes what the steps before it have made of the clocks. -/
theorem Live.publishes_apply (h : rig.Live) (c : Configuration) :
    Publishes (Controller.apply c) [] rig := by
  have prepared : (Controller.prepare c).Leads (fun _ => Path rig) (fun _ _ _ => True) [] rig :=
    (Path.refl.prepare c).failure fun _ _ _ _ => trivial
  rw [Controller.apply_eq]
  refine prepared.next fun past rig' path => ?_
  have tree := Controller.setTree_answers c.tree rig'
  refine (publishes_answers tree (h.path path).attached).next fun past rig' published => ?_
  rw [Action.leads_bind, Action.leads_state, Action.leads_note]
  exact published

end Rig

/-- The operations that change the clocks, as against checks and the record of a failure. -/
def Operation.Configures : Operation → Prop
  | .check _ | .recordFault _ => False
  | _ => True

namespace Rig
variable {rig start : Rig} {past : List (Moment Rig)}

theorem Live.publishes (h : rig.Live) {op : Operation} (configures : op.Configures) :
    Publishes op.action [] rig := by
  cases op with
  | setOscillator o => exact publishes_answers (Controller.setOscillator_answers o rig) h.attached
  | setSpll ratio lockWait =>
    exact publishes_answers (Controller.setSpll_answers ratio lockWait rig) h.attached
  | setAupll ratio lockWait =>
    exact publishes_answers (Controller.setAupll_answers ratio lockWait rig) h.attached
  | setTree t => exact publishes_answers (Controller.setTree_answers t rig) h.attached
  | apply c => exact h.publishes_apply c
  | check c => exact configures.elim
  | recordFault e => exact configures.elim

theorem Live.published_of_ok (h : rig.Live) {op : Operation} (configures : op.Configures)
    (ok : (op.action.run rig).outcome = .ok ()) : (op.action.run rig).after.Published :=
  (h.publishes configures).of_ok ok

/-- The controller is not attached, and nothing has been published since `start`. -/
structure Silent (start rig : Rig) : Prop where
  attached : rig.controller.attached = false
  published : rig.board.published = start.board.published

/-- A moment at which nothing has been published since `start`. -/
def Quiet (start : Rig) (m : Moment Rig) : Prop := m.before.board.published = start.board.published

theorem Silent.announced (h : Silent start rig) : Silent start rig.announced where
  attached := h.attached
  published := by
    rw [Rig.announced, onto, h.attached]
    exact h.published

theorem Silent.perform (h : Silent start rig) {k : Task} (ready : k.Ready rig) :
    Silent start ((Controller.perform k).run rig).after ∧
      ∀ m ∈ ((Controller.perform k).run rig).trace, Quiet start m := by
  have working (b : Board) (kept : k.footprint.Keeps rig.board b) : Silent start (rig.onto b) :=
    ⟨h.attached, kept.published.trans h.published⟩
  have entered (b : Board) (kept : k.footprint.Keeps rig.board b) : Silent start (rig.enter k b) :=
    ⟨h.attached, kept.published.trans h.published⟩
  obtain ⟨after, moments⟩ := perform_throughout ready working entered fun _ => Silent.announced
  exact ⟨after, fun m hm => (moments m hm).published⟩

theorem Silent.stage (h : Silent start rig) {r : Run Rig Unit} (step : rig.Stage r) :
    Silent start r.after ∧ ∀ m ∈ r.trace, Quiet start m := by
  cases step with
  | note n =>
    refine ⟨h, ?_⟩
    intro m hm
    obtain rfl := List.mem_singleton.1 hm
    exact h.published
  | crystal f => exact ⟨⟨h.attached, h.published⟩, fun m hm => nomatch hm⟩
  | task k ready => exact h.perform ready
  | fault e =>
    rw [Controller.run_recordFault]
    refine ⟨⟨h.attached, h.published⟩, ?_⟩
    intro m hm
    obtain rfl := List.mem_singleton.1 hm
    exact h.published

/-- A controller that is not attached publishes nothing. -/
theorem silent_path (detached : start.controller.attached = false) (path : Path start past rig) :
    Silent start rig ∧ ∀ m ∈ past, Quiet start m := by
  induction path with
  | refl => exact ⟨⟨detached, rfl⟩, fun m hm => nomatch hm⟩
  | stage _ step ih =>
    obtain ⟨silent, quiet⟩ := ih
    obtain ⟨silent', quiet'⟩ := silent.stage step
    exact ⟨silent', List.forall_mem_append.2 ⟨quiet, quiet'⟩⟩

end Rig
end ClockControl
