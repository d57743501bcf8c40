import ClockControl.Proofs.Pll.Ratio
import ClockControl.Proofs.SystemPll.Guard

/-! Moving the MCU onto the system PLL. The controller goes by its clocks, which a start-up that
is cut short leaves as they were while the hardware has already changed. Main statement:
`moved_onto_running_pll_iff`, the PLL runs when the MCU is moved onto it exactly if the last
start-up came to its end. -/
namespace ClockControl

theorem Pll.lastStore_lift (p : Pll) (rig : Rig) (trace : List (Moment Board)) :
    p.lastStore (rig.lift trace) =
      (p.lastStore trace).map fun m => ⟨rig.onto m.before, m.event⟩ := by
  rw [lastStore, lastStore, Rig.lift, List.filter_map, List.getLast?_map]
  rfl

theorem Pll.LastAt.lift {p : Pll} {part : PllPart} {trace : List (Moment Board)}
    (h : p.LastAt part trace) (rig : Rig) : ∃ before v,
      before.controller = rig.controller ∧
        p.lastStore (rig.lift trace) = some ⟨before, .store (.pll p part) v⟩ := by
  obtain ⟨before, v, last⟩ := h
  exact ⟨rig.onto before, v, rfl, by rw [lastStore_lift, last]; rfl⟩

namespace SystemPll

/-- The power word is one that a start-up settles on. -/
def Settled (rig : Rig) : Prop := ∃ fractional, rig.board.image.load (.pll .system .power) =
  ((Pll.recipe .system).ramp fractional).settle

/-- The gate of the reference, closed at 0. -/
def gate (rig : Rig) : Nat :=
  OscillatorControl.systemRef.get (rig.board.pmu.read Register.oscillatorControl)

/-- The divider register encodes the frequency in the clocks. -/
def Encodes (rig : Rig) (crystal : Hertz) : Prop := rig.controller.clocks.spll.raw.toNat =
  Divider.frequencyOf (rig.board.image.load (.pll .system .divider)) crystal

/-- The system PLL runs, at the frequency in the clocks. -/
structure Runs (rig : Rig) (crystal : Hertz) : Prop where
  gate : gate rig = 1
  settled : Settled rig
  encodes : Encodes rig crystal

/-- What the clocks and the last store to the system PLL say of it. A start-up that came to its
end has last stored to the output register, one that was cut short to the power register. -/
inductive Account (past : List (Moment Rig)) (rig : Rig) : Prop where
  | stopped (clocks : rig.controller.clocks.spll = .stopped)
  | runs {last : Rig} {v : Word}
      (stored : Pll.lastStore .system past = some ⟨last, .store (.pll .system .output) v⟩)
      (runs : Runs rig last.controller.crystal)
  | cut {last : Rig} {v : Word}
      (stored : Pll.lastStore .system past = some ⟨last, .store (.pll .system .power) v⟩)
      (gate : gate rig = 0) (settled : Settled rig)

/-- Nothing that an account speaks of differs. -/
structure Same (a b : Rig) : Prop where
  power : b.board.image.load (.pll .system .power) = a.board.image.load (.pll .system .power)
  divider : b.board.image.load (.pll .system .divider) = a.board.image.load (.pll .system .divider)
  gate : gate b = gate a
  clocks : b.controller.clocks.spll = a.controller.clocks.spll

variable {rig rig' : Rig} {past : List (Moment Rig)}

theorem Same.settled (h : Same rig rig') (settled : Settled rig) : Settled rig' := by
  obtain ⟨fractional, power⟩ := settled
  exact ⟨fractional, h.power.trans power⟩

theorem Same.runs {crystal : Hertz} (h : Same rig rig') (runs : Runs rig crystal) :
    Runs rig' crystal where
  gate := h.gate.trans runs.gate
  settled := h.settled runs.settled
  encodes := by
    rw [Encodes, h.clocks, h.divider]
    exact runs.encodes

/-- Boards that differ within a footprint that avoids the system PLL. -/
theorem Same.of_keeps {F : Footprint} (h : F.Keeps rig.board rig'.board) (avoids : F.Avoids .system)
    (clocks : rig'.controller.clocks.spll = rig.controller.clocks.spll) : Same rig rig' where
  power := h.load (avoids.registers .power) nofun nofun
  divider := h.load (avoids.registers .divider) nofun nofun
  gate := h.flags _ avoids.flags
  clocks := clocks

theorem Same.of_store {r : Register} (other : ∀ part, Register.pll .system part ≠ r) (rig : Rig)
    (v : Word) : Same rig (rig.onto { rig.board with image := rig.board.image.store r v }) where
  power := Image.load_store_of_ne (other .power) _ _
  divider := Image.load_store_of_ne (other .divider) _ _
  gate := rfl
  clocks := rfl

/-- What leaves the system PLL alone leaves the account as it was. -/
theorem Account.keep {past' : List (Moment Rig)} (h : Account past rig) (same : Same rig rig')
    (stored : Pll.lastStore .system past' = Pll.lastStore .system past) : Account past' rig' := by
  cases h with
  | stopped clocks => exact .stopped (same.clocks.trans clocks)
  | runs last runs => exact .runs (stored.trans last) (same.runs runs)
  | cut last gate settled =>
    exact .cut (stored.trans last) (same.gate.trans gate) (same.settled settled)

/-- The account of a board goes over to the rig that it is entered in. -/
theorem Account.enter {k : Task} {b : Board} {trace : List (Moment Board)}
    (h : Account (past ++ rig.lift trace) (rig.enter k b)) (n : Note) :
    Account (past ++ (rig.lift trace ++ ((rig.enter k b).announcement ++
      [⟨(rig.enter k b).announced, .note n⟩]))) (rig.enter k b).announced := by
  rw [← List.append_assoc]
  have quiet : ∀ m ∈ (rig.enter k b).announcement ++ [⟨(rig.enter k b).announced, .note n⟩],
      Pll.Stores .system m.event = false := by
    intro m hm
    obtain ⟨n, event⟩ := Rig.event_of_conclusion hm
    rw [event]
    rfl
  exact h.keep ⟨rfl, rfl, rfl, rfl⟩ (Pll.lastStore_append_of_none _ quiet)

/-- A task that avoids the system PLL, in the registers and in the clocks. -/
theorem Account.avoid {k : Task} (h : Account past rig) (ready : k.Ready rig)
    (avoids : k.footprint.Avoids .system)
    (clocks : ∀ crystal control c, (k.record crystal control c).spll = c.spll) :
    Account (past ++ ((Controller.perform k).run rig).trace)
      ((Controller.perform k).run rig).after := by
  have confined := k.work_confined ready rig.controller.wiring rig.board
  have stored {trace : List (Moment Board)} (known : ∀ m ∈ trace,
      k.footprint.Keeps rig.board m.before ∧ k.footprint.Allows m) :
      Pll.lastStore .system (past ++ rig.lift trace) = Pll.lastStore .system past := by
    apply Pll.lastStore_append_of_none
    intro m hm
    obtain ⟨moment, hmoment, rfl⟩ := List.mem_map.1 hm
    exact avoids.stores (known moment hmoment).2
  rcases hw : (k.work rig.controller.wiring).run rig.board with ⟨e | x, b, trace⟩
  · rw [hw] at confined
    rw [Controller.run_perform_error hw]
    have same : Same rig (rig.onto b) := .of_keeps confined.after avoids rfl
    exact h.keep same (stored confined.moments)
  · rw [hw] at confined
    rw [Controller.run_perform_ok hw]
    have same : Same rig (rig.enter k b) := .of_keeps confined.after avoids (clocks _ _ _)
    exact (h.keep same (stored confined.moments)).enter _

theorem Account.powerDown (past : List (Moment Rig)) (rig : Rig) :
    Account (past ++ ((Controller.perform (.powerDown .system)).run rig).trace)
      ((Controller.perform (.powerDown .system)).run rig).after := by
  have work := Pll.run_store .system .power (Pll.recipe .system).powerDown rig.board
  rw [Controller.run_perform_ok (k := .powerDown .system) work]
  apply Account.enter
  exact .stopped (Clocks.derived_spll _ _)

/-- A start-up that comes to its end leaves the PLL running; one that is cut short behind the gate
leaves it stopped, whatever the clocks say. -/
theorem Account.start (h : Account past rig) {d : Divider} {f : Hertz} {lockWait : UInt32}
    (plans : Pll.Plans rig.controller d f .system) :
    Account (past ++ ((Controller.perform (.start .system d f lockWait)).run rig).trace)
      ((Controller.perform (.start .system d f lockWait)).run rig).after := by
  have starts := Pll.start_starts .system rig.controller.wiring d lockWait rig.board
  rcases hw : (Pll.start .system rig.controller.wiring d lockWait).run rig.board with
    ⟨e | x, b, trace⟩
  · rw [hw] at starts
    rw [Controller.run_perform_error (k := .start .system d f lockWait) hw]
    cases starts with
    | unbegun image pmu last =>
      have same : Same rig (rig.onto b) :=
        ⟨image.load_pll _ _, image.load_pll _ _, by rw [gate, Rig.onto, pmu]; rfl, rfl⟩
      apply h.keep same
      rw [Pll.lastStore_append, Pll.lastStore_lift, last]
      rfl
    | cut image pmu last =>
      obtain ⟨last, v, -, stored⟩ := last.lift rig
      have shut : gate (rig.onto b) = 0 := by
        rw [gate, Rig.onto, pmu, RegisterFile.read_write_self]
        exact Field.get_put _ _ _
      have settled : Settled (rig.onto b) :=
        ⟨d.hasFraction, (image.load_pll _ _).trans (Pll.programmed_power _ _ _)⟩
      exact .cut (by rw [Pll.lastStore_append, stored, Option.some_or]) shut settled
  · rw [hw] at starts
    rw [Controller.run_perform_ok (k := .start .system d f lockWait) hw]
    cases starts with
    | done image pmu last =>
      obtain ⟨last, v, controller, stored⟩ := last.lift rig
      obtain ⟨ratio, plan⟩ := plans
      have entered : (rig.enter (.start .system d f lockWait) b).controller.clocks.spll =
          .ofHertz f := Clocks.derived_spll _ _
      have power : b.image.load (.pll .system .power) =
          ((Pll.recipe .system).ramp d.hasFraction).settle := by
        rw [image.load_pll, Pll.tapped_load (by decide), Pll.programmed_power]
      have divider : b.image.load (.pll .system .divider) = d.word := by
        rw [image.load_pll, Pll.tapped_load (by decide), Pll.programmed_divider]
      have through : gate (rig.enter (.start .system d f lockWait) b) = 1 := by
        show OscillatorControl.systemRef.get (b.pmu.read Register.oscillatorControl) = 1
        rw [pmu, RegisterFile.read_write_self]
        exact Field.get_put _ _ _
      have encodes : Encodes (rig.enter (.start .system d f lockWait) b)
          last.controller.crystal := by
        rw [Encodes, entered, controller]
        exact (SystemRatio.plan_encodes plan).trans (by rw [← divider]; rfl)
      have accounted : Account (past ++ rig.lift trace) (rig.enter (.start .system d f lockWait) b) :=
        .runs (by rw [Pll.lastStore_append, stored, Option.some_or])
          ⟨through, ⟨d.hasFraction, power⟩, encodes⟩
      exact accounted.enter _

theorem Account.stage {r : Run Rig Unit} (h : Account past rig) (step : rig.Stage r) :
    Account (past ++ r.trace) r.after := by
  cases step with
  | note n =>
    exact h.keep ⟨rfl, rfl, rfl, rfl⟩ (Pll.lastStore_append_of_none _ (by simp [Pll.Stores]))
  | crystal f => exact h.keep ⟨rfl, rfl, rfl, rfl⟩ (by rw [List.append_nil])
  | fault e =>
    rw [Controller.run_recordFault]
    have other : ∀ part, Register.pll .system part ≠ .diagnostic := by simp
    exact h.keep (.of_store other rig _) (Pll.lastStore_append_of_none _ (by simp [Pll.Stores]))
  | task k ready =>
    cases k with
    | park => exact h.avoid ready (Footprint.tree_avoids _) fun _ _ _ => Clocks.derived_spll _ _
    | tree t => exact h.avoid ready (Footprint.tree_avoids _) fun _ _ _ => Clocks.derived_spll _ _
    | oscillator o =>
      exact h.avoid ready (Footprint.oscillators_avoids _) fun _ _ _ => Clocks.derived_spll _ _
    | powerDown p =>
      cases p with
      | system => exact .powerDown past rig
      | audio => exact h.avoid ready Footprint.audio_avoids fun _ _ _ => rfl
    | start p d f lockWait =>
      cases p with
      | system => exact h.start ready.2
      | audio => exact h.avoid ready Footprint.audio_avoids fun _ _ _ => rfl

/-- From a controller that takes the system PLL to be stopped, the account is kept all along. -/
theorem Account.path {start : Rig} (stopped : start.controller.clocks.spll = .stopped)
    (path : Rig.Path start past rig) : Account past rig := by
  induction path with
  | refl => exact .stopped stopped
  | stage _ step ih => exact ih.stage step

/-- A store that moves the MCU from the core high-speed clock onto the system PLL. -/
def Moves (m : Moment Rig) : Prop :=
  m.before.source = .coreHs ∧ ∃ v, m.event = .store .treeControl v ∧ McuSource.selectedBy v = .spll

theorem not_moves_of_note {m : Moment Rig} {n : Note} (h : m.event = .note n) : ¬Moves m := by
  rintro ⟨-, v, event, -⟩
  rw [h] at event
  cases event

/-- Of the two stores of a tree the first keeps the source, so that the second moves the MCU; in
between the PLL is as it was. -/
theorem origin_in_tree {t : Tree} (ready : (Task.tree t).Ready rig) {front back : List (Moment Rig)}
    {m : Moment Rig}
    (split : ((Controller.perform (.tree t)).run rig).trace = front ++ m :: back)
    (moves : Moves m) :
    rig.controller.clocks.spll ≠ .stopped ∧ Same rig m.before ∧
      ∀ n ∈ front, Pll.Stores .system n.event = false := by
  have work := Task.run_tree rig.controller.wiring ready.1 rig.board
  rw [Controller.run_perform_ok work] at split
  rcases front with _ | ⟨x, _ | ⟨y, front⟩⟩
  · obtain ⟨rfl, -⟩ := List.cons.inj split
    obtain ⟨source, v, event, target⟩ := moves
    have same : McuSource.selectedBy (rig.board.image.load .treeControl) = .coreHs := source
    cases event
    rw [Tree.selectedBy_divided, same] at target
    cases target
  · obtain ⟨rfl, rest⟩ := List.cons.inj split
    obtain ⟨rfl, -⟩ := List.cons.inj rest
    obtain ⟨-, v, event, target⟩ := moves
    cases event
    rw [McuSource.selectedBy_select] at target
    have running : rig.controller.clocks.spll ≠ .stopped := by
      intro stopped
      exact ready.2 target ((Rate.hertz?_eq_none_iff _).2 stopped)
    have same := Same.of_store (r := .treeControl) nofun rig
    refine ⟨running, same _, ?_⟩
    intro n hn
    obtain rfl := List.mem_singleton.1 hn
    rfl
  · obtain ⟨-, rest⟩ := List.cons.inj split
    obtain ⟨-, rest⟩ := List.cons.inj rest
    have later : m ∈ front.append (m :: back) :=
      List.mem_append_right _ List.mem_cons_self
    rw [← rest] at later
    obtain ⟨n, noted⟩ := Rig.event_of_conclusion later
    exact absurd moves (not_moves_of_note noted)

/-- Only a task with the tree in its footprint moves the MCU, and parking moves it the other way. -/
theorem Moves.task {k : Task} (ready : k.Ready rig) {m : Moment Rig} (moves : Moves m)
    (shown : m ∈ ((Controller.perform k).run rig).trace) : ∃ t, k = .tree t := by
  have inside : Register.treeControl ∈ k.footprint.registers := by
    obtain ⟨n, noted⟩ | moment := Rig.perform_shows ready shown
    · exact absurd moves (not_moves_of_note noted)
    · obtain ⟨-, v, event, -⟩ := moves
      have allows := moment.allows
      rw [event] at allows
      obtain inside | bridge := allows
      · exact inside
      · cases bridge
  cases k with
  | tree t => exact ⟨t, rfl⟩
  | oscillator o => exact absurd inside Footprint.treeControl_notMem_oscillators
  | powerDown p => exact absurd inside (Footprint.treeControl_notMem_pll p)
  | start p d f lockWait => exact absurd inside (Footprint.treeControl_notMem_pll p)
  | park =>
    have work := Task.run_park rig.controller.wiring rig.board
    rw [Controller.run_perform_ok work] at shown
    obtain here | later := List.mem_append.1 shown
    · obtain rfl := List.mem_singleton.1 here
      obtain ⟨-, v, event, target⟩ := moves
      cases event
      rw [McuSource.selectedBy_select] at target
      cases target
    · obtain ⟨n, noted⟩ := Rig.event_of_conclusion later
      exact absurd moves (not_moves_of_note noted)

/-- Whatever moves the MCU onto the system PLL is a tree that has found the PLL running by the
clocks, and the PLL is as it was then. -/
theorem origin_of_moves {r : Run Rig Unit} (step : rig.Stage r) {front back : List (Moment Rig)}
    {m : Moment Rig} (split : r.trace = front ++ m :: back) (moves : Moves m) :
    rig.controller.clocks.spll ≠ .stopped ∧ Same rig m.before ∧
      ∀ n ∈ front, Pll.Stores .system n.event = false := by
  have shown : m ∈ r.trace := by
    rw [split]
    exact List.mem_append_right _ List.mem_cons_self
  cases step with
  | note n =>
    obtain rfl := List.mem_singleton.1 shown
    exact absurd moves (not_moves_of_note rfl)
  | crystal f => cases shown
  | fault e =>
    obtain rfl := List.mem_singleton.1 shown
    obtain ⟨-, v, event, -⟩ := moves
    cases event
  | task k ready =>
    obtain ⟨t, rfl⟩ := moves.task ready shown
    exact origin_in_tree ready split moves

/-- The account of the rig from which the MCU is moved. -/
theorem account_of_moves {b : Board} {w : Wiring} {crystal : Hertz} {ops : List Operation}
    {past rest : List (Moment Rig)} {m : Moment Rig}
    (run : ((Operation.sequence ops).run ⟨b, .fresh w crystal⟩).trace = past ++ m :: rest)
    (moves : Moves m) : m.before.controller.clocks.spll ≠ .stopped ∧ Account past m.before := by
  obtain ⟨earlier, rig, r, front, back, path, step, split, rfl⟩ :=
    (Rig.sequence_path ⟨b, .fresh w crystal⟩ ops).origin run
  obtain ⟨running, same, quiet⟩ := origin_of_moves step split moves
  have account : Account earlier rig := .path rfl path
  constructor
  · rw [same.clocks]
    exact running
  · exact account.keep same (Pll.lastStore_append_of_none _ quiet)

/-- On a controller that has been made fresh, whatever is asked of it and whichever accesses to the
PMU fail: when the MCU is moved onto the system PLL, its power word is a settle word; and it runs
at the frequency in the clocks exactly if its last start-up came to its end, which ends with a store
to the output register. -/
theorem moved_onto_running_pll_iff {b : Board} {w : Wiring} {crystal : Hertz}
    {ops : List Operation} {past rest : List (Moment Rig)} {m : Moment Rig}
    (run : ((Operation.sequence ops).run ⟨b, .fresh w crystal⟩).trace = past ++ m :: rest)
    (moves : Moves m) : Settled m.before ∧ ∃ last, Pll.lastStore .system past = some last ∧
      (Runs m.before last.before.controller.crystal ↔
        ∃ v, last.event = .store (.pll .system .output) v) := by
  obtain ⟨running, account⟩ := account_of_moves run moves
  cases account with
  | stopped clocks => exact absurd clocks running
  | runs stored runs =>
    refine ⟨runs.settled, _, stored, ?_⟩
    constructor
    · intro _
      exact ⟨_, rfl⟩
    · intro _
      exact runs
  | cut stored gate settled =>
    refine ⟨settled, _, stored, ?_⟩
    constructor
    · intro runs
      rw [runs.gate] at gate
      cases gate
    · rintro ⟨v, event⟩
      cases event

/-- After a start-up that nothing has cut short the PLL runs. -/
theorem moved_onto_running_pll : ∃ past m rest, ((Operation.sequence [.setSpll (some ⟨8, 0⟩) 10,
      .setTree { Tree.undivided with source := .spll }]).run
        ⟨.blank, .fresh ⟨.direct, .direct, .timer⟩ boardCrystal⟩).trace = past ++ m :: rest ∧
    Moves m ∧ ∃ last, Pll.lastStore .system past = some last ∧
      Runs m.before last.before.controller.crystal := by
  generalize hr : (Operation.sequence [.setSpll (some ⟨8, 0⟩) 10,
    .setTree { Tree.undivided with source := .spll }]).run
      ⟨.blank, .fresh ⟨.direct, .direct, .timer⟩ boardCrystal⟩ = r
  have moved : (r.trace.drop 16).head?.map (fun m => (m.before.source, m.event)) =
      some (.coreHs, .store .treeControl 1#32) := by
    rw [← hr]
    decide +kernel
  have stored : (Pll.lastStore .system (r.trace.take 16)).map (·.event) =
      some (.store (.pll .system .output) 0x10000#32) := by
    rw [← hr]
    decide +kernel
  obtain ⟨m, head, shown⟩ := Option.map_eq_some_iff.1 moved
  obtain ⟨source, event⟩ := Prod.mk.inj shown
  obtain ⟨rest, tail⟩ := List.head?_eq_some_iff.1 head
  have split : r.trace = r.trace.take 16 ++ m :: rest := by
    rw [← tail, List.take_append_drop]
  have moves : Moves m := ⟨source, _, event, by decide +kernel⟩
  obtain ⟨-, last, latest, runs⟩ := moved_onto_running_pll_iff (by rw [hr]; exact split) moves
  have ended : last.event = .store (.pll .system .output) 0x10000#32 := by
    rw [latest] at stored
    exact Option.some.inj stored
  exact ⟨_, m, rest, split, moves, last, latest, runs.2 ⟨_, ended⟩⟩

/-- A second start-up that misses the access which would open the gate again leaves the clocks of
the first, and the MCU is moved onto a PLL without a reference. -/
theorem moved_onto_gated_pll : ∃ past m rest, ((Operation.sequence [.setSpll (some ⟨8, 0⟩) 10,
      .setSpll (some ⟨10, 0⟩) 10, .setTree { Tree.undivided with source := .spll }]).run
        ⟨{ Board.blank with fails := (· == 7) },
          .fresh ⟨.direct, .direct, .timer⟩ boardCrystal⟩).trace = past ++ m :: rest ∧
    Moves m ∧ ∀ crystal, ¬Runs m.before crystal := by
  generalize hr : (Operation.sequence [.setSpll (some ⟨8, 0⟩) 10, .setSpll (some ⟨10, 0⟩) 10,
    .setTree { Tree.undivided with source := .spll }]).run
      ⟨{ Board.blank with fails := (· == 7) },
        .fresh ⟨.direct, .direct, .timer⟩ boardCrystal⟩ = r
  have gated : r.trace.any (fun m => m.before.source == .coreHs &&
      m.event == .store .treeControl 1#32 && gate m.before == 0) = true := by
    rw [← hr]
    decide +kernel
  obtain ⟨m, hm, found⟩ := List.any_eq_true.1 gated
  simp only [Bool.and_eq_true, beq_iff_eq] at found
  obtain ⟨⟨source, event⟩, shut⟩ := found
  obtain ⟨past, rest, split⟩ := List.append_of_mem hm
  have moves : Moves m := ⟨source, _, event, by decide +kernel⟩
  refine ⟨past, m, rest, split, moves, ?_⟩
  intro crystal runs
  rw [runs.gate] at shut
  cases shut

end SystemPll
end ClockControl
