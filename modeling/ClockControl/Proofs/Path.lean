import ClockControl.Proofs.Effect

/-! Paths of a rig. A run of operations goes from stage to stage: a note, a new crystal, a word
left in the diagnostic register, or a task that is ready. Main statements: `Carried.operations`,
what each stage carries on holds in every run; `sequence_path`, every sequence of operations is a
path; and `Path.origin`, which finds the stage of a moment. -/
namespace ClockControl

namespace Rig

/-- The runs that a rig goes through in one stage. -/
inductive Stage (rig : Rig) : Run Rig Unit → Prop where
  | note (n : Note) : Stage rig ⟨.ok (), rig, [⟨rig, .note n⟩]⟩
  | crystal (f : Hertz) : Stage rig ⟨.ok (), { rig with controller.crystal := f }, []⟩
  | fault (e : ClockError) : Stage rig ((Controller.recordFault e).run rig)
  | task (k : Task) (ready : k.Ready rig) : Stage rig ((Controller.perform k).run rig)

/-- The moments of a chain of stages from a rig, and the rig it has come to. -/
inductive Path (start : Rig) : Assertion Rig where
  | refl : Path start [] start
  | stage {past : List (Moment Rig)} {rig : Rig} {r : Run Rig Unit} :
      Path start past rig → Stage rig r → Path start (past ++ r.trace) r.after

/-- What holds along a run: each of its stages carries it on. A note outside of the tasks warns, or
tells that a configuration is complete. -/
structure Carried (I : Assertion Rig) : Prop where
  note {past : List (Moment Rig)} {rig : Rig} {n : Note} : I past rig →
    (n.level = .warn ∨ ∃ c, n = .configured c) → I (past ++ [⟨rig, .note n⟩]) rig
  crystal {past : List (Moment Rig)} {rig : Rig} (f : Hertz) : I past rig →
    I past { rig with controller.crystal := f }
  fault {past : List (Moment Rig)} {rig : Rig} (e : ClockError) : I past rig →
    I (past ++ ((Controller.recordFault e).run rig).trace)
      ((Controller.recordFault e).run rig).after
  task {past : List (Moment Rig)} {rig : Rig} {k : Task} : I past rig → k.Ready rig →
    I (past ++ ((Controller.perform k).run rig).trace) ((Controller.perform k).run rig).after

namespace Carried
variable {I : Assertion Rig} {rig : Rig} {past : List (Moment Rig)}

/-- The action carries the assertion on, however it ends. -/
abbrev Through (I : Assertion Rig) (a : Action Rig α) : Assertion Rig :=
  a.Leads (fun _ => I) fun _ => I

theorem through_of_run {a : Action Rig Unit} (h : I (past ++ (a.run rig).trace) (a.run rig).after) :
    Through I a past rig := by
  rcases hr : a.run rig with ⟨e | x, rig', trace⟩
  · rw [hr] at h
    exact (Action.leads_of_run_error hr).2 h
  · rw [hr] at h
    exact (Action.leads_of_run hr).2 h

theorem warnings (hI : Carried I) (h : I past rig) {ns : List Note}
    (warn : ∀ n ∈ ns, n.level = .warn) : I (past ++ ns.map fun n => ⟨rig, .note n⟩) rig := by
  induction ns generalizing past with
  | nil => rwa [List.map_nil, List.append_nil]
  | cons n ns ih =>
    obtain ⟨first, others⟩ := List.forall_mem_cons.1 warn
    have rest := ih (hI.note h (.inl first)) others
    rwa [List.append_assoc] at rest

/-- An operation that answers a request performs a task, or warns of its refusal. -/
theorem answers (hI : Carried I) (h : I past rig) {a : Action Rig Unit} {request : Attempt Task}
    (ha : Controller.Answers (a.run rig) rig request) : Through I a past rig := by
  apply through_of_run
  cases request with
  | ok k =>
    obtain ⟨ready, run⟩ := ha
    rw [run]
    exact hI.task h ready
  | error e =>
    obtain ⟨ns, warn, run⟩ := ha
    rw [run]
    exact hI.warnings h warn

theorem park (hI : Carried I) (h : I past rig) : Through I Controller.park past rig := by
  apply through_of_run
  cases source : rig.source with
  | coreHs =>
    rw [Controller.run_park_of_coreHs source, List.append_nil]
    exact h
  | spll =>
    rw [Controller.run_park_of_spll source]
    exact hI.task (k := .park) h source

theorem check (h : I past rig) (c : Configuration) :
    Through I (Controller.check c) past rig := by
  rw [Through, Controller.check, Action.leads_bind, Action.leads_state, Action.leads_liftAttempt]
  split <;> exact h

/-- Each step of the application of a configuration is an operation of its own. -/
theorem prepare (hI : Carried I) (h : I past rig) (c : Configuration) :
    Through I (Controller.prepare c) past rig := by
  refine (check h c).next fun past rig h => ?_
  refine ((Action.leads_update _).2 (hI.crystal c.crystal h)).next fun past rig h => ?_
  refine (hI.park h).next fun past rig h => ?_
  refine (hI.answers h (Controller.setOscillator_answers c.oscillator rig)).next
    fun past rig h => ?_
  refine (hI.answers h (Controller.setSpll_answers c.spll c.lockWait rig)).next
    fun past rig h => ?_
  exact hI.answers h (Controller.setAupll_answers c.aupll c.lockWait rig)

theorem apply (hI : Carried I) (h : I past rig) (c : Configuration) :
    Through I (Controller.apply c) past rig := by
  rw [Controller.apply_eq]
  refine (hI.prepare h c).next fun past rig h => ?_
  refine (hI.answers h (Controller.setTree_answers c.tree rig)).next fun past rig h => ?_
  rw [Action.leads_bind, Action.leads_state, Action.leads_note]
  exact hI.note h (.inr ⟨_, rfl⟩)

theorem operation (hI : Carried I) (h : I past rig) (op : Operation) :
    Through I op.action past rig := by
  cases op with
  | setOscillator o => exact hI.answers h (Controller.setOscillator_answers o rig)
  | setSpll ratio lockWait => exact hI.answers h (Controller.setSpll_answers ratio lockWait rig)
  | setAupll ratio lockWait => exact hI.answers h (Controller.setAupll_answers ratio lockWait rig)
  | setTree t => exact hI.answers h (Controller.setTree_answers t rig)
  | check c => exact check h c
  | apply c => exact hI.apply h c
  | recordFault e => exact through_of_run (hI.fault e h)

theorem operations (hI : Carried I) (h : I past rig) (ops : List Operation) :
    Through I (Operation.sequence ops) past rig := by
  unfold Operation.sequence
  induction ops generalizing past rig with
  | nil => rwa [List.mapM_nil, Through, Action.leads_pure]
  | cons op ops ih =>
    rw [List.mapM_cons, Through, Action.leads_bind, Action.leads_attempt]
    have rest {past : List (Moment Rig)} {rig : Rig} (x : Attempt Unit) (h : I past rig) :
        Through I (do
          let xs ← ops.mapM fun op => op.action.attempt
          return x :: xs) past rig := by
      rw [Through, Action.leads_bind]
      refine (ih h).answer fun xs past rig h => ?_
      rwa [Action.leads_pure]
    exact (hI.operation h op).mono (fun _ _ _ => rest _) fun _ _ _ => rest _

end Carried

namespace Path
variable {start rig : Rig} {past : List (Moment Rig)}

/-- The action goes on along the path, however it ends. -/
abbrev Extends (start : Rig) (a : Action Rig α) : Assertion Rig :=
  a.Leads (fun _ => Path start) fun _ => Path start

theorem extend (h : Path start past rig) {a : Action Rig Unit} (step : rig.Stage (a.run rig)) :
    Extends start a past rig :=
  Carried.through_of_run (h.stage step)

theorem carried (start : Rig) : Carried (Path start) where
  note h _ := h.stage (.note _)
  crystal f h := by
    have next := h.stage (.crystal f)
    rwa [List.append_nil] at next
  fault e h := h.stage (.fault e)
  task h ready := h.stage (.task _ ready)

theorem prepare (h : Path start past rig) (c : Configuration) :
    Extends start (Controller.prepare c) past rig :=
  (carried start).prepare h c

theorem apply (h : Path start past rig) (c : Configuration) :
    Extends start (Controller.apply c) past rig :=
  (carried start).apply h c

theorem operation (h : Path start past rig) (op : Operation) :
    Extends start op.action past rig :=
  (carried start).operation h op

end Path

/-- What the work of a task keeps, the entry of its result, and its publication as well, holds from
the beginning of the task to its end. -/
theorem perform_throughout {rig : Rig} {k : Task} {P : Rig → Prop} (ready : k.Ready rig)
    (working : ∀ b, k.footprint.Keeps rig.board b → P (rig.onto b))
    (entered : ∀ b, k.footprint.Keeps rig.board b → P (rig.enter k b))
    (announced : ∀ rig', P rig' → P rig'.announced) :
    P ((Controller.perform k).run rig).after ∧
      ∀ m ∈ ((Controller.perform k).run rig).trace, P m.before := by
  have confined := k.work_confined ready rig.controller.wiring rig.board
  have lifted {trace : List (Moment Board)} (known : ∀ m ∈ trace,
      k.footprint.Keeps rig.board m.before ∧ k.footprint.Allows m) :
      ∀ m ∈ rig.lift trace, P m.before := by
    intro m hm
    obtain ⟨moment, hmoment, rfl⟩ := List.mem_map.1 hm
    exact working _ (known moment hmoment).1
  rcases hw : (k.work rig.controller.wiring).run rig.board with ⟨e | x, b, trace⟩
  · rw [hw] at confined
    rw [Controller.run_perform_error hw]
    exact ⟨working b confined.after, lifted confined.moments⟩
  · rw [hw] at confined
    have done := entered b confined.after
    rw [Controller.run_perform_ok hw]
    refine ⟨announced _ done, ?_⟩
    simp only [List.forall_mem_append, List.forall_mem_singleton]
    refine ⟨lifted confined.moments, ?_, announced _ done⟩
    intro m hm
    rwa [before_of_announcement hm]

/-- A moment of a task that keeps to its footprint. -/
structure At (rig : Rig) (k : Task) (m : Moment Rig) : Prop where
  controller : m.before.controller = rig.controller
  keeps : k.footprint.Keeps rig.board m.before.board
  allows : k.footprint.Allows ⟨m.before.board, m.event⟩

/-- A task shows its work, which keeps to its footprint, and notes. -/
theorem perform_shows {rig : Rig} {k : Task} (ready : k.Ready rig) {m : Moment Rig}
    (hm : m ∈ ((Controller.perform k).run rig).trace) :
    (∃ n, m.event = .note n) ∨ rig.At k m := by
  have confined := k.work_confined ready rig.controller.wiring rig.board
  have lifted {trace : List (Moment Board)} (hm : m ∈ rig.lift trace)
      (known : ∀ m ∈ trace, k.footprint.Keeps rig.board m.before ∧ k.footprint.Allows m) :
      rig.At k m := by
    obtain ⟨moment, hmoment, rfl⟩ := List.mem_map.1 hm
    obtain ⟨keeps, allows⟩ := known moment hmoment
    exact ⟨rfl, keeps, allows⟩
  rcases hw : (k.work rig.controller.wiring).run rig.board with ⟨e | x, b, trace⟩
  · rw [hw] at confined
    rw [Controller.run_perform_error hw] at hm
    exact .inr (lifted hm confined.moments)
  · rw [hw] at confined
    rw [Controller.run_perform_ok hw] at hm
    obtain hm | hm := List.mem_append.1 hm
    · exact .inr (lifted hm confined.moments)
    · exact .inl (event_of_conclusion hm)

/-- Each moment of a path belongs to a stage, begun on a rig that the path has come to. -/
theorem Path.origin {start rig : Rig} {past before rest : List (Moment Rig)} {m : Moment Rig}
    (h : Path start past rig) (split : past = before ++ m :: rest) :
    ∃ earlier rig' r front back, Path start earlier rig' ∧ Stage rig' r ∧
      r.trace = front ++ m :: back ∧ before = earlier ++ front := by
  induction h generalizing rest with
  | refl => simp at split
  | @stage past rig r path step ih =>
    obtain ⟨middle, hb, hr⟩ | ⟨middle, hp, hr⟩ := List.append_eq_append_iff.1 split
    · exact ⟨past, rig, r, middle, rest, path, step, hr, hb⟩
    · cases middle with
      | nil =>
        rw [List.append_nil] at hp
        exact ⟨past, rig, r, [], rest, path, step, hr.symm, by rw [hp, List.append_nil]⟩
      | cons n middle =>
        obtain ⟨rfl, hr⟩ := List.cons.inj hr
        exact ih hp

theorem Path.stage_of_mem {start rig : Rig} {past : List (Moment Rig)} (h : Path start past rig)
    {m : Moment Rig} (hm : m ∈ past) :
    ∃ earlier rig' r, Path start earlier rig' ∧ Stage rig' r ∧ m ∈ r.trace := by
  obtain ⟨before, rest, split⟩ := List.append_of_mem hm
  obtain ⟨earlier, rig', r, front, back, path, step, trace, -⟩ := h.origin split
  refine ⟨earlier, rig', r, path, step, ?_⟩
  rw [trace]
  exact List.mem_append_right _ List.mem_cons_self

theorem Stage.precedes {rig : Rig} {r : Run Rig Unit} (step : rig.Stage r) :
    rig.Precedes r.after := by
  cases step with
  | note n => exact ⟨rfl, rfl, rfl, Nat.le_refl _⟩
  | crystal f => exact ⟨rfl, rfl, rfl, Nat.le_refl _⟩
  | fault e =>
    rw [Controller.run_recordFault]
    exact ⟨rfl, rfl, rfl, Nat.le_refl _⟩
  | task k ready =>
    refine (perform_throughout ready ?_ ?_ ?_).1
    · exact fun b kept => ⟨rfl, kept.busy, kept.fails, kept.accesses⟩
    · exact fun b kept => ⟨rfl, kept.busy, kept.fails, kept.accesses⟩
    · exact fun rig' h => ⟨h.wiring, h.busy, h.fails, h.accesses⟩

theorem Path.precedes {start rig : Rig} {past : List (Moment Rig)} (path : Path start past rig) :
    start.Precedes rig := by
  induction path with
  | refl => exact ⟨rfl, rfl, rfl, Nat.le_refl _⟩
  | stage _ step ih => exact ih.trans step.precedes

theorem operation_precedes (rig : Rig) (op : Operation) :
    rig.Precedes (op.action.run rig).after :=
  (Path.refl.operation op).run.precedes

/-- Every sequence of operations is a path from the rig it begins on. -/
theorem sequence_path (rig : Rig) (ops : List Operation) :
    Path rig ((Operation.sequence ops).run rig).trace ((Operation.sequence ops).run rig).after :=
  ((Path.carried rig).operations .refl ops).run

theorem after_sequence_cons (rig : Rig) (op : Operation) (ops : List Operation) :
    ((Operation.sequence (op :: ops)).run rig).after =
      ((Operation.sequence ops).run (op.action.run rig).after).after := by
  have first := Action.run_attempt op.action rig
  unfold Operation.sequence
  rw [List.mapM_cons, Action.run_bind_ok first, bind_pure_comp, Action.run_map]

end Rig
end ClockControl
