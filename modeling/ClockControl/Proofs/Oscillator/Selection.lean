import ClockControl.Proofs.Oscillator.Timeline
import ClockControl.Proofs.Path
import Mathlib.Control.Monad.Basic

/-! The core high-speed clock never selects an oscillator that has not started. Only two pieces of
work write to the oscillator control: the choice of an oscillator, which waits for one that it has
started before it selects it, and the start of a PLL, which moves its own gate. Main statement:
`Rig.oscillators_orderly`, over every run of operations. -/
namespace ClockControl

namespace Oscillator

/-- What may become of the oscillator control in one write. -/
structure Allows (old new : Byte) : Prop where
  reserved : ∀ i ∈ [3, 6, 7], new.getLsbD i = old.getLsbD i
  enabled : ∀ o : Oscillator, o.Enabled old → o.Enabled new
  taken : ∀ o : Oscillator, chosen old ≠ o → chosen new = o → o.Enabled old

theorem getLsbD_put_reserved {f : Field 8} (hf : f ∈ OscillatorControl.layout.fields) (value : Nat)
    (control : Byte) : ∀ i ∈ [3, 6, 7], (f.put value control).getLsbD i = control.getLsbD i := by
  intro i hi
  have outside : ∀ f ∈ OscillatorControl.layout.fields, ∀ i ∈ [3, 6, 7],
      ¬(f.low ≤ i ∧ i < f.low + f.width) := by decide
  rw [Field.getLsbD_put, if_neg (outside f hf i hi)]

theorem allows_gate (p : Pll) (value : Nat) (control : Byte) :
    Allows control (p.reference.put value control) where
  reserved := getLsbD_put_reserved (by cases p <;> simp [Pll.reference, OscillatorControl.layout])
    value control
  enabled o := (enabled_put (o.enable_disjoint_reference p)).2
  taken o other chosen := by
    rw [chosen_put (by cases p <;> decide)] at chosen
    exact absurd chosen other

theorem allows_raise (o : Oscillator) (control : Byte) :
    Allows control (o.enable.put 1 control) where
  reserved := getLsbD_put_reserved (by cases o <;> simp [enable, OscillatorControl.layout])
    1 control
  enabled p h := by
    by_cases same : p = o
    · rw [same]
      exact o.enabled_raised control
    · exact (enabled_put (enable_disjoint_enable same)).2 h
  taken p other chosen := by
    rw [chosen_put o.enable_disjoint_useRc.symm] at chosen
    exact absurd chosen other

theorem allows_select {o : Oscillator} {control : Byte} (h : o.Enabled control) :
    Allows control (OscillatorControl.useRc.put (decide (o = .rc)).toNat control) where
  reserved := getLsbD_put_reserved (by simp [OscillatorControl.layout]) _ _
  enabled p := (enabled_put p.enable_disjoint_useRc).2
  taken p _ chosen := by
    rw [chosen_select] at chosen
    exact chosen ▸ h

/-- An enabled selection is not lost: the one that takes its place is enabled before. -/
theorem Allows.grown {m : RegisterFile} {value : Byte}
    (h : Allows (m.read Register.oscillatorControl) value) :
    m.Grown (m.write Register.oscillatorControl value) where
  others reg hr := RegisterFile.read_write_of_ne hr _ _
  reserved := by
    rw [RegisterFile.read_write_self]
    exact h.reserved
  enabled := by
    rw [RegisterFile.read_write_self]
    exact h.enabled
  running running := by
    rw [RegisterFile.Running, RegisterFile.read_write_self]
    apply h.enabled
    by_cases same : chosen (m.read Register.oscillatorControl) = chosen value
    · rw [← same]
      exact running
    · exact h.taken _ same rfl

theorem running_of_selected {m n : RegisterFile} {o : Oscillator} {control : Byte}
    (h : n = m.write Register.oscillatorControl (o.selected control)) : n.Running := by
  rw [RegisterFile.Running, h, RegisterFile.read_write_self, selected, chosen_select,
    enabled_put o.enable_disjoint_useRc]
  exact o.enabled_raised control

end Oscillator

/-- The run of a cycle as the timeline sees it: idle but for the event that carries it out. -/
inductive Cycle.Passes (c : Cycle) (b : Board) : Run Board α → Prop where
  | done {x : α} {after : Board} {front : List (Moment Board)} {m : Moment Board}
      (idle : ∀ n ∈ front, Idle b n) (before : m.before.pmu = b.pmu)
      (result : m.result = c.apply b.pmu) (silent : ∀ n, m.event ≠ .note n)
      (pmu : after.pmu = c.apply b.pmu) : Passes c b ⟨.ok x, after, front ++ [m]⟩
  | lost {e : Failure} {after : Board} {trace : List (Moment Board)}
      (idle : ∀ n ∈ trace, Idle b n) (pmu : after.pmu = b.pmu) : Passes c b ⟨.error e, after, trace⟩

namespace Pmu

theorem direct_passes (c : Cycle) (b : Board) : c.Passes b ((direct c).run b) := by
  rw [run_direct]
  split
  · exact .lost (List.forall_mem_singleton.2 ⟨rfl, rfl, nofun⟩) rfl
  · exact .done (List.forall_mem_nil _) rfl rfl nofun rfl

theorem throughBridge_passes (c : Cycle) (b : Board) : c.Passes b ((throughBridge c).run b) := by
  have asks : Idle b ⟨b, .store .bridgeControl c.word⟩ := ⟨rfl, rfl, nofun⟩
  have before (pending : Option Pending) : ({ asked b c with pending := pending } : Board).pmu =
      b.pmu := (asked_meanwhile b c pending).pmu
  by_cases h : b.Answers .bridge (b.accesses + 1)
  · have passed := (throughBridge_transfer c b).answered h
    rw [run_throughBridge c b h] at passed ⊢
    refine .done (List.forall_mem_singleton.2 asks) (before _) ?_ nofun passed.2
    rw [← before (some (.busy 0))]
    rfl
  · obtain ⟨pending, lost⟩ := run_throughBridge_lost c b h
    rw [lost]
    refine .lost (List.forall_mem_cons.2 ⟨asks, List.forall_mem_singleton.2 ?_⟩) (before pending)
    exact ⟨before pending, before pending, nofun⟩

theorem write_passes (via : Access) (reg value : Byte) (b : Board) :
    (Cycle.write reg value).Passes b ((write via reg value).run b) := by
  cases via with
  | bridge => exact throughBridge_passes _ b
  | direct =>
    have passes := direct_passes (.write reg value) b
    rw [run_write_direct]
    generalize (direct (.write reg value)).run b = r at passes ⊢
    cases passes with
    | done idle before result silent pmu => exact .done idle before result silent pmu
    | lost idle pmu => exact .lost idle pmu

end Pmu

theorem Idle.of_reading {via : Access} {reg : Byte} {b : Board} {m : Moment Board}
    (before : m.before.pmu = b.pmu) (shows : (Cycle.read reg).Shows via m.event) : Idle b m := by
  obtain ⟨_, event⟩ := m
  cases shows with
  | store v => exact ⟨before, before, nofun⟩
  | cycle byte => cases byte <;> exact ⟨before, before, nofun⟩
  | lost => exact ⟨before, before, nofun⟩

/-- The action carries a calm timeline on, however it ends. -/
def Action.Calms (a : Action Board α) : Prop :=
  ∀ start past b, Calm start past b → a.Leads (fun _ => Calm start) (fun _ => Calm start) past b

namespace Calm
variable {start : RegisterFile} {past : List (Moment Board)} {b : Board} {w : Wiring}

theorem leads_oscillators (h : Calm start past b) : w.oscillators.Leads
    (fun control past' b' => Calm start past' b' ∧ control = b.oscillators ∧ b'.pmu = b.pmu)
    (fun _ past' b' => Calm start past' b' ∧ b'.pmu = b.pmu) past b := by
  have reading : Pmu.Transfer _ _ b _ (w.oscillators.run b) :=
    Pmu.read_transfer w.access Register.oscillatorControl b
  have idle : ∀ m ∈ (w.oscillators.run b).trace, Idle b m := by
    intro m hm
    obtain ⟨meanwhile, shows⟩ := reading.moments m hm
    exact .of_reading meanwhile.pmu shows
  have found : w.oscillators.Leads _ (fun _ _ b' => b'.pmu = b.pmu) past b :=
    ClockControl.leads_oscillators fun _ _ _ => id
  refine (found.and (Action.leads_adds idle)).mono ?_ ?_
  · rintro control _ b' ⟨⟨value, pmu⟩, trace, rfl, idle⟩
    exact ⟨h.idles idle pmu, value, pmu⟩
  · rintro e _ b' ⟨pmu, trace, rfl, idle⟩
    exact ⟨h.idles idle pmu, pmu⟩

/-- Only an oscillator that the write has started need not be warm. -/
theorem leads_write (h : Calm start past b) (via : Access) {value : Byte}
    (allows : Oscillator.Allows b.oscillators value) :
    (Pmu.write via Register.oscillatorControl value).Leads
      (fun _ past' b' => Orderly start past' b' ∧
        b'.pmu = b.pmu.write Register.oscillatorControl value ∧
        ∀ o : Oscillator, (o.Enabled value → o.Enabled b.oscillators) → o.Warm past')
      (fun _ past' b' => Calm start past' b' ∧ b'.pmu = b.pmu) past b := by
  have passes := Pmu.write_passes via Register.oscillatorControl value b
  rcases hr : (Pmu.write via Register.oscillatorControl value).run b with ⟨e | x, b', trace⟩
  · rw [hr] at passes
    cases passes with
    | lost idle pmu => exact (Action.leads_of_run_error hr).2 ⟨h.idles idle pmu, pmu⟩
  · rw [hr] at passes
    cases passes with
    | @done _ _ front m idle before result silent pmu =>
      have next : m.result.read Register.oscillatorControl = value := by
        rw [result, Cycle.apply, RegisterFile.read_write_self]
      have found : m.before.oscillators = b.oscillators := by rw [Board.oscillators, before]
      have calm : Calm start (past ++ front) b := h.idles idle rfl
      refine (Action.leads_of_run hr).2 ?_
      rw [← List.append_assoc]
      refine ⟨calm.orderly.snoc before (result.trans pmu.symm) ?_ ?_ ?_, pmu, ?_⟩
      · rw [pmu]
        exact allows.grown
      · rintro o ⟨other, chosen⟩
        rw [found] at other ⊢
        rw [next] at chosen
        exact ⟨allows.taken o other chosen, calm.warm o⟩
      · intro f event
        exact absurd event (silent _)
      · intro o known
        refine .snoc ?_ (.inl (calm.warm o))
        rintro ⟨disabled, enabled⟩
        rw [found] at disabled
        rw [next] at enabled
        exact disabled (known enabled)

theorem leads_setOscillator (h : Calm start past b) {f : Field 8} {on : Bool}
    (allows : Oscillator.Allows b.oscillators (f.put on.toNat b.oscillators)) :
    (w.setOscillator f on).Leads
      (fun _ past' b' => Orderly start past' b' ∧
        b'.pmu = b.pmu.write Register.oscillatorControl (f.put on.toNat b.oscillators) ∧
        ∀ o : Oscillator, (o.Enabled (f.put on.toNat b.oscillators) → o.Enabled b.oscillators) →
          o.Warm past')
      (fun _ => Calm start) past b := by
  have split : w.setOscillator f on = (w.oscillators >>= fun control =>
      Pmu.write w.access Register.oscillatorControl (f.put on.toNat control)) := rfl
  rw [split, Action.leads_bind]
  refine h.leads_oscillators.mono ?_ fun _ _ _ => And.left
  rintro control past' b' ⟨calm, rfl, pmu⟩
  have same : b'.oscillators = b.oscillators := by rw [Board.oscillators, pmu]
  rw [← same] at allows
  have write := calm.leads_write w.access allows
  rw [same, pmu] at write
  exact write.failure fun _ _ _ => And.left

/-- What is selected has been enabled and is warm, and no oscillator is started. -/
theorem leads_select (h : Calm start past b) {o : Oscillator} (enabled : o.Enabled b.oscillators) :
    (w.setOscillator OscillatorControl.useRc (o = .rc)).Leads (fun _ => Calm start)
      (fun _ => Calm start) past b := by
  refine (h.leads_setOscillator (Oscillator.allows_select enabled)).answer ?_
  rintro _ past' b' ⟨orderly, -, warm⟩
  exact ⟨orderly, fun p => warm p (Oscillator.enabled_put p.enable_disjoint_useRc).1⟩

end Calm

theorem Idle.of_wait (w : Wiring) (us : UInt32) (b : Board) :
    Idle b ⟨b, w.delay.event b.published us⟩ := by
  cases w.delay <;> exact ⟨rfl, rfl, nofun⟩

/-- Where only one oscillator may have been started, the wait for it calms the timeline. -/
theorem Orderly.leads_startup {start : RegisterFile} {past : List (Moment Board)} {b : Board}
    {w : Wiring} {o : Oscillator} (h : Orderly start past b) (warm : ∀ p, p ≠ o → p.Warm past)
    {E : Failure → Assertion Board} :
    (w.wait o.startup).Leads (fun _ past' b' => Calm start past' b' ∧ b' = b) E past b := by
  have idle := Idle.of_wait w o.startup b
  refine (Action.leads_of_run (run_wait w o.startup b)).2 ⟨⟨h.idle idle rfl, fun p => ?_⟩, rfl⟩
  refine .snoc (idle.not_starts p) ?_
  by_cases same : p = o
  · rw [same, Delay.requested_event]
    exact .inr o.warmUp_le_startup
  · exact .inl (warm p same)

namespace Action.Calms

theorem nothing : (pure () : Action Board Unit).Calms := by
  intro start past b h
  rwa [leads_pure]

theorem bind {a b : Action Board Unit} (ha : a.Calms) (hb : b.Calms) :
    (a >>= fun _ => b).Calms := by
  intro start past board h
  exact (ha start past board h).next (hb start)

theorem wait (w : Wiring) (us : UInt32) : (w.wait us).Calms := by
  intro start past b h
  exact (leads_of_run (run_wait w us b)).2 (h.idle (.of_wait w us b) rfl)

theorem store {r : Register} (hr : r ≠ .bridgeControl) (v : Word) : (Board.store r v).Calms := by
  intro start past b h
  refine (leads_of_run (Board.run_store r v b)).2 (h.idle ⟨rfl, rfl, nofun⟩ ?_)
  rw [Board.latch_of_ne hr]

theorem change {r : Register} (hr : r ≠ .bridgeControl) (f : Word → Word) :
    (Board.change r f).Calms := by
  intro start past b h
  exact (leads_congr (Board.run_change hr f b)).2 (store hr _ start past b h)

/-- The gates of the PLLs are beside the oscillators. -/
theorem gate (w : Wiring) (p : Pll) (on : Bool) : (w.setOscillator p.reference on).Calms := by
  intro start past b h
  refine (h.leads_setOscillator (Oscillator.allows_gate p _ _)).answer ?_
  rintro _ past' b' ⟨orderly, -, warm⟩
  exact ⟨orderly, fun o => warm o (Oscillator.enabled_put (o.enable_disjoint_reference p)).1⟩

/-- The wait that follows makes an oscillator warm that has just been started. -/
theorem selectOscillator (w : Wiring) (o : Oscillator) : (w.selectOscillator o).Calms := by
  intro start past b h
  rw [Oscillator.selectOscillator_eq, leads_bind]
  refine h.leads_oscillators.mono ?_ fun _ _ _ => And.left
  rintro _ past b' ⟨calm, rfl, pmu⟩
  have same : b'.oscillators = b.oscillators := by rw [Board.oscillators, pmu]
  rw [← same]
  cases running : o.enable.isSet b'.oscillators with
  | true => exact calm.leads_select running
  | false =>
    refine (calm.leads_setOscillator (Oscillator.allows_raise o _)).next ?_
    rintro past b'' ⟨orderly, raised, warm⟩
    have others (p : Oscillator) (other : p ≠ o) : p.Warm past :=
      warm p (Oscillator.enabled_put (Oscillator.enable_disjoint_enable other)).1
    -- Only here is a started oscillator not warm yet, and a wait does not fail: an attempt that is
    -- cut short leaves none behind that the next one would find enabled and select at once.
    refine (orderly.leads_startup others).next ?_
    rintro past _ ⟨calm, rfl⟩
    refine calm.leads_select ?_
    rw [Board.oscillators, raised, RegisterFile.read_write_self]
    exact o.enabled_raised _

theorem start (p : Pll) (w : Wiring) (d : Divider) (lockWait : UInt32) :
    (p.start w d lockWait).Calms := by
  have steps : p.Steps w Calms := by
    constructor
    · exact nothing
    · exact bind
    · exact wait w
    · exact fun part => store nofun
    · exact fun part => change nofun
    · exact gate w p
  exact steps.start d lockWait

theorem work {rig : Rig} {k : Task} (ready : k.Ready rig) (w : Wiring) : (k.work w).Calms := by
  cases k with
  | park => exact change (r := .treeControl) nofun _
  | oscillator o => exact selectOscillator w o
  | powerDown p => exact store (r := .pll p .power) nofun _
  | start p divider f lockWait => exact start p w divider lockWait
  | tree t =>
    intro start past b h
    refine (leads_of_run (Task.run_tree w ready.1 b)).2 (h.idles ?_ rfl)
    exact List.forall_mem_cons.2 ⟨⟨rfl, rfl, nofun⟩,
      List.forall_mem_singleton.2 ⟨rfl, rfl, nofun⟩⟩

end Action.Calms

/-- A moment of a rig, as its board has it. -/
def Moment.onBoard (m : Moment Rig) : Moment Board := ⟨m.before.board, m.event⟩

namespace Rig
variable {start : RegisterFile} {past : List (Moment Rig)} {rig : Rig}

theorem onBoard_lift (rig : Rig) (trace : List (Moment Board)) :
    (rig.lift trace).map Moment.onBoard = trace := by
  rw [lift, List.map_map]
  exact List.map_id _

/-- The timeline of the oscillators is calm. -/
def Calm (start : RegisterFile) : Assertion Rig := fun past rig =>
  ClockControl.Calm start (past.map Moment.onBoard) rig.board

theorem Calm.note (h : Calm start past rig) {n : Note}
    (running : ∀ f, n = .coreHs f → rig.board.pmu.Running) :
    Calm start (past ++ [⟨rig, .note n⟩]) rig := by
  rw [Calm, List.map_append]
  constructor
  · refine h.orderly.snoc rfl rfl (.refl _) ?_ ?_
    · rintro o ⟨other, chosen⟩
      exact absurd chosen other
    · intro f event
      cases event
      exact running f rfl
  · intro o
    refine .snoc ?_ (.inl (h.warm o))
    rintro ⟨disabled, enabled⟩
    exact disabled enabled

theorem Calm.announced (h : Calm start past rig) :
    Calm start (past ++ rig.announcement) rig.announced := by
  have noted : Calm start (past ++ rig.announcement) rig := by
    unfold announcement
    split
    · exact h.note nofun
    · rwa [List.append_nil]
  exact noted.congr rfl

theorem calm_carried (start : RegisterFile) : Carried (Calm start) where
  note h known := by
    refine h.note ?_
    rintro f rfl
    obtain warn | ⟨c, other⟩ := known
    · cases warn
    · cases other
  crystal f h := h
  fault e h := by
    rw [Controller.run_recordFault, Calm, List.map_append]
    exact h.idle ⟨rfl, rfl, nofun⟩ rfl
  task := by
    -- The work is the board's; what follows are notes, and a selection is told of once it is made.
    intro past rig k h ready
    have work := Action.Calms.work ready rig.controller.wiring start _ _ h
    rcases hw : (k.work rig.controller.wiring).run rig.board with ⟨e | x, b, trace⟩
    · rw [Controller.run_perform_error hw, Calm, List.map_append, onBoard_lift]
      exact (Action.leads_of_run_error hw).1 work
    · have worked : Calm start (past ++ rig.lift trace) (rig.enter k b) := by
        rw [Calm, List.map_append, onBoard_lift]
        exact (Action.leads_of_run hw).1 work
      rw [Controller.run_perform_ok hw, ← List.append_assoc, ← List.append_assoc]
      refine worked.announced.note fun f coreHs => ?_
      cases k with
      | oscillator o => exact Oscillator.running_of_selected (Task.work_effect ready hw).2
      | _ => cases coreHs

/-- In every run of operations, from any contents of the PMU and whichever accesses fail, the
oscillators are started in good time: nothing but the oscillator control changes and no enable is
cleared, a write moves the selection only to an oscillator that is enabled and whose start-up time
has been waited for, and from a successful selection on the one selected stays enabled. -/
theorem oscillators_orderly (rig : Rig) (ops : List Operation) :
    let r := (Operation.sequence ops).run rig
    Orderly rig.board.pmu (r.trace.map Moment.onBoard) r.after.board ∧
      ∀ o : Oscillator,
        let selection := (Controller.setOscillator o).run r.after
        selection.outcome = .ok () → ∀ later : List Operation,
          let s := (Operation.sequence later).run selection.after
          ∀ m ∈ pmuStates (s.trace.map Moment.onBoard) s.after.board, m.Running := by
  intro r
  have orderly (rig : Rig) (ops : List Operation) : Orderly rig.board.pmu
      (((Operation.sequence ops).run rig).trace.map Moment.onBoard)
      ((Operation.sequence ops).run rig).after.board := by
    have calm : Calm rig.board.pmu [] rig := .refl rig.board
    exact ((calm_carried rig.board.pmu).operations calm ops).run.orderly
  refine ⟨orderly rig ops, ?_⟩
  intro o selection ok later s m hm
  obtain ⟨ready, run⟩ := Controller.setOscillator_answers o r.after
  have leads : (Controller.setOscillator o).Leads _ _ [] r.after :=
    (Action.leads_congr run).2 (Controller.perform_takes ready)
  have takes : (Task.oscillator o).Takes r.after selection.after := leads.of_ok ok
  have running := Oscillator.running_of_selected takes.pmu
  exact (orderly selection.after later).running_of_start running hm

/-- The first selection is missed after the oscillator was started. The second finds it enabled and
does not wait again. -/
theorem started_oscillator_selected_on_retry :
    let start : Rig := ⟨{ Board.blank with fails := (· == 5) },
      Controller.fresh ⟨.direct, .direct, .timer⟩ boardCrystal⟩
    let missed := ((Operation.sequence [.setOscillator .rc]).run start).after
    let selected := ((Controller.setOscillator .rc).run missed).after
    let past := ((Operation.sequence [.setOscillator .rc, .setOscillator .rc]).run
      start).trace.map Moment.onBoard
    ((Controller.setOscillator .rc).run start).outcome =
        .error (.error (.timeout Register.oscillatorControl)) ∧
      ((Controller.setOscillator .rc).run missed).outcome = .ok () ∧
      (∀ later : List Operation,
        let s := (Operation.sequence later).run selected
        ∀ m ∈ pmuStates (s.trace.map Moment.onBoard) s.after.board, m.Running) ∧
      (∃ m ∈ past, Oscillator.rc.Starts m) ∧
      ∃ front m back, past = front ++ m :: back ∧ Oscillator.rc.Takes m ∧
        Oscillator.rc.Enabled m.before.oscillators ∧ Oscillator.rc.Warm front := by
  intro start missed selected past
  have timedOut : ((Controller.setOscillator .rc).run start).outcome =
      .error (.error (.timeout Register.oscillatorControl)) := by decide +kernel
  have ok : ((Controller.setOscillator .rc).run missed).outcome = .ok () := by decide +kernel
  have running := (oscillators_orderly start [.setOscillator .rc]).2 .rc ok
  have orderly := (oscillators_orderly start [.setOscillator .rc, .setOscillator .rc]).1
  have starts : ∃ m ∈ past, Oscillator.rc.Starts m := by decide +kernel
  have taken : ∃ m ∈ past, Oscillator.rc.Takes m := by decide +kernel
  obtain ⟨m, hm, takes⟩ := taken
  obtain ⟨front, back, split⟩ := List.append_of_mem hm
  obtain ⟨enabled, warm⟩ := orderly.selected front m back split .rc takes
  exact ⟨timedOut, ok, running, starts, front, m, back, split, takes, enabled, warm⟩

end Rig
end ClockControl
