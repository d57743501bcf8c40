import ClockControl.Proofs.Interchange
import ClockControl.Proofs.Settlement

/-! The core on its way from one tree to another. The dividers of a tree are stored before its
source, so the old source runs through the new dividers for a moment. On the core high-speed clock
that does no harm; on the system PLL it may run the core faster than it ran before, and faster than
it is to run. Parking keeps the dividers and does no harm, and an application parks the MCU before
it comes to its tree. Main statements: `core_bounded_iff` and `apply_bounded`. -/
namespace ClockControl

/-- The frequency of the core while the tree register holds `control`. -/
def Clocks.coreAt (c : Clocks) (control : Word) : Nat := (c.derived control).core.raw.toNat

namespace Tree
variable {t : Tree} {c : Clocks}

/-- The frequency at which a tree runs the core. -/
def coreOf (t : Tree) (c : Clocks) : Nat :=
  match t.source with
  | .coreHs => c.coreHs.raw.toNat / t.mcu.toNat
  | .spll => c.spll.raw.toNat / t.soc.toNat / t.mcu.toNat

theorem coreAt_of_reads {control : Word} (h : t.Reads control) : c.coreAt control = t.coreOf c := by
  have follow := c.derived_follow control
  rw [Clocks.Follow, h.source, h.soc, h.mcu, Clocks.derived_coreHs, Clocks.derived_spll] at follow
  unfold Clocks.coreAt coreOf
  cases source : t.source with
  | coreHs =>
    rw [source] at follow
    exact follow.2
  | spll =>
    rw [source] at follow
    exact follow.2.trans (by rw [follow.1])

theorem coreOf_le_coreHs (source : t.source = .coreHs) : t.coreOf c ≤ c.coreHs.raw.toNat := by
  rw [coreOf, source]
  exact Nat.div_le_self _ _

theorem reads_select (checked : t.check = .ok ()) (control : Word) :
    t.Reads (TreeControl.select t.source (t.divided control)) := by
  apply reads_of_writes checked
  intro w hw
  rw [select_divided, Field.get_putAll t.writes_disjoint _ hw]

/-- The dividers alone make the tree with the source it is to replace. -/
theorem reads_divided (checked : t.check = .ok ()) (control : Word) :
    { t with source := McuSource.selectedBy control }.Reads (t.divided control) := by
  have same : TreeControl.select (McuSource.selectedBy control) (t.divided control) =
      t.divided control := by
    rw [← t.selectedBy_divided control, McuSource.select_selectedBy]
  have reads : { t with source := McuSource.selectedBy control }.Reads
      (TreeControl.select (McuSource.selectedBy control) (t.divided control)) :=
    reads_select (t := { t with source := McuSource.selectedBy control }) checked control
  rwa [same] at reads

end Tree

namespace Controller
variable {rig : Rig} {t : Tree}

/-- A tree that is accepted is stored in two steps. -/
theorem stores_setTree {k : Task} (request : Task.ofTree t rig = .ok k) :
    let control := rig.board.image.load .treeControl
    let divided := t.divided control
    t.check = .ok () ∧ ((setTree t).run rig).stores =
      [(.treeControl, divided), (.treeControl, TreeControl.select t.source divided)] := by
  intro control divided
  have answers := setTree_answers t rig
  rw [request] at answers
  obtain rfl := Task.ofTree_eq_ok request
  obtain ⟨ready, run⟩ := answers
  have work := Task.run_tree rig.controller.wiring ready.1 rig.board
  refine ⟨ready.1, ?_⟩
  rw [run, stores_perform, work]
  rfl

/-- Afterwards the core runs as the tree has it. -/
theorem core_setTree (ok : ((setTree t).run rig).outcome = .ok ()) :
    ((setTree t).run rig).after.controller.clocks.core.raw.toNat =
      t.coreOf rig.controller.clocks := by
  obtain ⟨k, request, ready, run⟩ := (setTree_answers t rig).of_ok ok
  obtain rfl := Task.ofTree_eq_ok request
  have task : (setTree t).Leads _ _ [] rig :=
    leads_task_of_tree (k := .tree t) ⟨ready, run⟩ (List.mem_singleton_self _)
  have takes := task.of_ok ok
  have clocks : ((setTree t).run rig).after.controller.clocks =
      rig.controller.clocks.derived _ := takes.clocks
  rw [clocks]
  exact Tree.coreAt_of_reads (Tree.reads_of_writes takes.ready.1 takes.done)

/-- The core stays within what it ran at before, what it runs at afterwards and the core high-speed
clock, unless the MCU leaves the system PLL for that clock: then the PLL still feeds the core
through the new dividers, and that must not be faster than what the core ran at before and than
that clock. -/
theorem core_bounded_iff (ok : ((setTree t).run rig).outcome = .ok ()) :
    let r := (setTree t).run rig
    let before := rig.controller.clocks
    let after := r.after.controller.clocks
    (∀ control, (Register.treeControl, control) ∈ r.stores → before.coreAt control ≤
        max (max before.core.raw.toNat after.core.raw.toNat) before.coreHs.raw.toNat) ↔
      ¬(rig.source = .spll ∧ t.source = .coreHs ∧
        max before.core.raw.toNat before.coreHs.raw.toNat <
          before.spll.raw.toNat / t.soc.toNat / t.mcu.toNat) := by
  intro r before after
  obtain ⟨k, request, -⟩ := (setTree_answers t rig).of_ok ok
  obtain ⟨checked, stores⟩ := stores_setTree request
  have core := core_setTree ok
  have first := Tree.coreAt_of_reads (c := before)
    (t.reads_divided checked (rig.board.image.load .treeControl))
  have last := Tree.coreAt_of_reads (c := before)
    (t.reads_select checked (rig.board.image.load .treeControl))
  have passing : (∀ control, (Register.treeControl, control) ∈ r.stores → before.coreAt control ≤
      max (max before.core.raw.toNat after.core.raw.toNat) before.coreHs.raw.toNat) ↔
      { t with source := rig.source }.coreOf before ≤
        max (max before.core.raw.toNat (t.coreOf before)) before.coreHs.raw.toNat := by
    rw [show r.stores = _ from stores, show after.core.raw.toNat = t.coreOf before from core]
    simp only [List.mem_cons, Prod.mk.injEq, true_and, List.not_mem_nil, or_false,
      forall_eq_or_imp, forall_eq, first, last]
    constructor
    · exact And.left
    · intro bounded
      exact ⟨bounded, by omega⟩
  rw [passing]
  cases old : rig.source with
  | coreHs =>
    have slow := Tree.coreOf_le_coreHs (t := { t with source := .coreHs }) (c := before) rfl
    have fits := slow.trans (Nat.le_max_right (max before.core.raw.toNat (t.coreOf before)) _)
    exact iff_of_true fits nofun
  | spll =>
    cases new : t.source with
    | coreHs =>
      -- The core ends up no faster than the core high-speed clock.
      have slow := Tree.coreOf_le_coreHs (c := before) new
      have fast : { t with source := .spll }.coreOf before =
          before.spll.raw.toNat / t.soc.toNat / t.mcu.toNat := rfl
      rw [fast]
      simp only [true_and, not_lt]
      omega
    | spll =>
      have same : { t with source := .spll } = t := by rw [← new]
      rw [same]
      exact iff_of_true (by omega) nofun

/-- With the dividers kept, the MCU leaves a system PLL of 192 MHz and its core runs no faster than
the crystal on the way. -/
theorem core_bounded_on_leaving_pll :
    let fresh : Rig := ⟨.blank, .fresh ⟨.direct, .direct, .timer⟩ boardCrystal⟩
    let rig := ((Operation.sequence [.apply { Configuration.standard with
      tree := { Tree.undivided with source := .spll, soc := 8 } }]).run fresh).after
    let r := (setTree { Tree.undivided with soc := 8 }).run rig
    rig.source = .spll ∧ r.outcome = .ok () ∧ ∀ control,
      (Register.treeControl, control) ∈ r.stores →
        rig.controller.clocks.coreAt control ≤ 24000000 := by
  intro fresh rig r
  have ok : r.outcome = .ok () := by decide +kernel
  have shown : rig.source = .spll ∧
      max (max rig.controller.clocks.core.raw.toNat r.after.controller.clocks.core.raw.toNat)
        rig.controller.clocks.coreHs.raw.toNat = 24000000 ∧
      ¬max rig.controller.clocks.core.raw.toNat rig.controller.clocks.coreHs.raw.toNat <
        rig.controller.clocks.spll.raw.toNat / 8 / 1 := by
    decide +kernel
  obtain ⟨source, limit, slow⟩ := shown
  have bounded := (core_bounded_iff ok).2 fun fast => slow fast.2.2
  rw [limit] at bounded
  exact ⟨source, ok, bounded⟩

/-- From a core of 24 MHz on the system PLL to one of 24 MHz on the crystal, by way of 192 MHz. -/
theorem overshoot_on_leaving_pll :
    let fresh : Rig := ⟨.blank, .fresh ⟨.direct, .direct, .timer⟩ boardCrystal⟩
    let rig := ((Operation.sequence [.apply { Configuration.standard with
      tree := { Tree.undivided with source := .spll, soc := 8 } }]).run fresh).after
    let r := (setTree .undivided).run rig
    let before := rig.controller.clocks
    rig.Follows ∧ before.coreHs = ⟨24000000⟩ ∧ r.outcome = .ok () ∧ before.core = ⟨24000000⟩ ∧
      r.after.controller.clocks.core = ⟨24000000⟩ ∧ ∃ control,
        (Register.treeControl, control) ∈ r.stores ∧ before.coreAt control = 192000000 := by
  intro fresh rig r before
  have start : fresh.InStep := ⟨Clocks.reset_follow _, nofun⟩
  have shown : before.coreHs = ⟨24000000⟩ ∧ r.outcome = .ok () ∧ before.core = ⟨24000000⟩ ∧
      r.after.controller.clocks.core = ⟨24000000⟩ ∧ r.stores.any (fun w =>
        w.1 == .treeControl && before.coreAt w.2 == 192000000) = true := by
    decide +kernel
  obtain ⟨coreHs, ok, core, core', found⟩ := shown
  obtain ⟨⟨register, control⟩, stored, fast⟩ := List.any_eq_true.1 found
  simp only [Bool.and_eq_true, beq_iff_eq] at fast
  obtain ⟨rfl, fast⟩ := fast
  exact ⟨(start.path (Rig.sequence_path _ _)).follows, coreHs, ok, core, core', control, stored,
    fast⟩

/-- Parking keeps the dividers, and the core then runs no faster than the core high-speed clock. -/
theorem park_bounded (rig : Rig) {control : Word}
    (stored : (Register.treeControl, control) ∈ (park.run rig).stores) :
    rig.controller.clocks.coreAt control ≤ rig.controller.clocks.coreHs.raw.toNat := by
  cases source : rig.source with
  | coreHs =>
    rw [run_park_of_coreHs source] at stored
    cases stored
  | spll =>
    have work := Task.run_park rig.controller.wiring rig.board
    rw [run_park_of_spll source, stores_perform, work] at stored
    obtain ⟨-, rfl⟩ := Prod.mk.inj (List.mem_singleton.1 stored)
    have follow := rig.controller.clocks.derived_follow
      (TreeControl.select .coreHs (rig.board.image.load .treeControl))
    rw [Clocks.Follow, McuSource.selectedBy_select, Clocks.derived_coreHs] at follow
    exact follow.2.trans_le (Nat.div_le_self _ _)

/-- Whatever is stored to the tree register at the moment runs the core no faster than the core
high-speed clock, or no faster than the tree does. -/
def Bounds (t : Tree) (m : Moment Rig) : Prop :=
  ∀ control, m.event = .store .treeControl control →
    let clocks := m.before.controller.clocks
    clocks.coreAt control ≤ max clocks.coreHs.raw.toNat (t.coreOf clocks)

section Bounds
variable {r : Run Rig Unit} {request : Attempt Task} {past : List (Moment Rig)}

/-- The clocks are those of the beginning until the stores of a task are done. -/
theorem Answers.bounds (answers : Answers r rig request)
    (stored : ∀ control, (Register.treeControl, control) ∈ r.stores →
      rig.controller.clocks.coreAt control ≤
        max rig.controller.clocks.coreHs.raw.toNat (t.coreOf rig.controller.clocks)) :
    ∀ m ∈ r.trace, Bounds t m := by
  intro m hm control event clocks
  have bounded := stored control (Run.mem_stores.2 ⟨m, hm, event⟩)
  have here : m.before.controller = rig.controller := by
    cases request with
    | ok k =>
      obtain ⟨ready, rfl⟩ := answers
      obtain ⟨n, note⟩ | moment := Rig.perform_shows ready hm
      · rw [note] at event
        cases event
      · exact moment.controller
    | error e =>
      obtain ⟨ns, -, rfl⟩ := answers
      obtain ⟨n, -, rfl⟩ := List.mem_map.1 hm
      cases event
  rwa [← here] at bounded

/-- The steps before the tree leave its register alone. -/
theorem Answers.bounds_of_step (answers : Answers r rig request) {i : Step}
    (step : ∀ {k}, request = .ok k → k.step? = some i) : ∀ m ∈ r.trace, Bounds t m := by
  refine answers.bounds fun control stored => ?_
  obtain ⟨k, requested, bridge | inside⟩ := answers.stores stored
  · cases bridge
  · rw [Task.footprint_of_step (step requested)] at inside
    exact absurd inside i.treeControl_notMem

theorem park_bounds (rig : Rig) (t : Tree) : ∀ m ∈ (park.run rig).trace, Bounds t m := by
  cases source : rig.source with
  | coreHs =>
    rw [run_park_of_coreHs source]
    exact List.forall_mem_nil _
  | spll =>
    have answers : Answers (park.run rig) rig (.ok .park) := ⟨source, run_park_of_spll source⟩
    exact answers.bounds fun control stored => le_max_of_le_left (park_bounded rig stored)

/-- From the core high-speed clock the new dividers cannot do harm. -/
theorem setTree_bounds (source : rig.source = .coreHs) :
    ∀ m ∈ ((setTree t).run rig).trace, Bounds t m := by
  have answers := setTree_answers t rig
  refine answers.bounds fun control stored => ?_
  obtain ⟨k, request, -⟩ := answers.stores stored
  obtain ⟨checked, stores⟩ := stores_setTree request
  rw [stores] at stored
  simp only [List.mem_cons, Prod.mk.injEq, true_and, List.not_mem_nil, or_false] at stored
  obtain rfl | rfl := stored
  · have divided := t.reads_divided checked (rig.board.image.load .treeControl)
    rw [show McuSource.selectedBy _ = McuSource.coreHs from source] at divided
    rw [Tree.coreAt_of_reads divided]
    exact le_max_of_le_left (Tree.coreOf_le_coreHs rfl)
  · rw [Tree.coreAt_of_reads (Tree.reads_select checked _)]
    exact Nat.le_max_right _ _

/-- An action that only adds bounded moments. -/
theorem leads_bounds {a : Action Rig Unit} (before : ∀ m ∈ past, Bounds t m)
    (adds : ∀ m ∈ (a.run rig).trace, Bounds t m) :
    Rig.Carried.Through (fun past _ => ∀ m ∈ past, Bounds t m) a past rig :=
  Rig.Carried.through_of_run (List.forall_mem_append.2 ⟨before, adds⟩)

theorem prepare_bounds (rig : Rig) (c : Configuration) (t : Tree) :
    Rig.Carried.Through (fun past _ => ∀ m ∈ past, Bounds t m) (prepare c) [] rig := by
  refine (Rig.Carried.check (List.forall_mem_nil _) c).next fun past rig before => ?_
  rw [Action.leads_bind, Action.leads_update]
  refine (leads_bounds before (park_bounds _ t)).next fun past rig before => ?_
  have oscillator := setOscillator_answers c.oscillator rig
  refine (leads_bounds before ?_).next fun past rig before => ?_
  · refine oscillator.bounds_of_step (i := .oscillator) fun requested => ?_
    cases requested
    rfl
  have system := setSpll_answers c.spll c.lockWait rig
  refine (leads_bounds before (system.bounds_of_step Task.step_of_system)).next
    fun past rig before => ?_
  have audio := setAupll_answers c.aupll c.lockWait rig
  exact leads_bounds before (audio.bounds_of_step Task.step_of_audio)

end Bounds

/-- An application never runs the core faster than both the core high-speed clock and its tree: by
the time of the tree the MCU is parked. -/
theorem apply_bounded (rig : Rig) (c : Configuration) :
    ∀ m ∈ ((apply c).run rig).trace, Bounds c.tree m := by
  cases checked : c.check rig.controller.wiring.sequencer with
  | error e =>
    rw [run_apply_of_error checked]
    exact List.forall_mem_nil _
  | ok =>
    have prepared := (prepare_bounds rig c c.tree).and (leads_prepare checked)
    have applied : Rig.Carried.Through (fun past _ => ∀ m ∈ past, Bounds c.tree m) (apply c) []
        rig := by
      rw [apply_eq]
      refine (prepared.failure fun _ _ _ => And.left).next fun past mid ⟨before, ready⟩ => ?_
      refine (leads_bounds before (setTree_bounds ready.source)).next fun past rig before => ?_
      rw [Action.leads_bind, Action.leads_state, Action.leads_note]
      exact List.forall_mem_append.2 ⟨before, List.forall_mem_singleton.2 nofun⟩
    exact applied.run

end Controller
end ClockControl
