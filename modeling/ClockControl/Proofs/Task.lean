import ClockControl.Controller
import ClockControl.Proofs.Footprint
import ClockControl.Proofs.Leads

/-! The tasks that operations are made of. A task is a piece of hardware work; when it succeeds
its result is entered in the clocks, published and noted. Main statements: an equation for each
operation that breaks it down into checks and tasks, and `Task.work_confined`. -/
namespace ClockControl

namespace McuSource

/-- The source that a value of the tree register selects: the core high-speed clock while the bit is
clear, the system PLL while it is set. -/
def selectedBy (control : Word) : McuSource :=
  if TreeControl.source.get control = 0 then .coreHs else .spll

theorem selectedBy_eq (control : Word) : selectedBy control = TreeControl.sourceOf control := by
  have bit : TreeControl.source.get control < 2 := TreeControl.source.get_lt control
  rw [selectedBy, TreeControl.sourceOf, ofCode, Nat.mod_eq_of_lt bit]

@[simp] theorem selectedBy_select (s : McuSource) (control : Word) :
    selectedBy (TreeControl.select s control) = s := by
  rw [selectedBy_eq, TreeControl.sourceOf_select]

/-- To select the source that is selected already changes nothing. -/
@[simp] theorem select_selectedBy (control : Word) :
    TreeControl.select (selectedBy control) control = control := by
  rw [selectedBy_eq, TreeControl.select_sourceOf]

end McuSource

namespace Clocks

/-- The clocks with the DSP and core clocks that a value of the tree register gives. -/
def derived (c : Clocks) (control : Word) : Clocks :=
  match McuSource.selectedBy control with
  | .coreHs =>
    { c with dsp := c.coreHs, core := c.coreHs.divided (TreeControl.mcu.get control + 1) }
  | .spll =>
    let dsp := c.spll.divided (TreeControl.soc.get control + 1)
    { c with dsp := dsp, core := dsp.divided (TreeControl.mcu.get control + 1) }

theorem derive_ok (c : Clocks) (control : Word) : c.derive control = .ok (c.derived control) := by
  rw [derived, McuSource.selectedBy_eq]
  exact c.derive_eq control

def setPll (p : Pll) (r : Rate) (c : Clocks) : Clocks :=
  match p with
  | .system => { c with spll := r }
  | .audio => { c with aupll := r }

def pll (c : Clocks) : Pll → Rate
  | .system => c.spll
  | .audio => c.aupll

/-- Deriving the DSP and core clocks leaves the others as they are. -/
theorem derived_eq (c : Clocks) (control : Word) :
    c.derived control = { c with
      dsp := (c.derived control).dsp
      core := (c.derived control).core } := by
  unfold derived
  split <;> rfl

theorem derived_coreHs (c : Clocks) (control : Word) : (c.derived control).coreHs = c.coreHs := by
  rw [derived_eq]

theorem derived_spll (c : Clocks) (control : Word) : (c.derived control).spll = c.spll := by
  rw [derived_eq]

theorem derived_pll (c : Clocks) (control : Word) (p : Pll) :
    (c.derived control).pll p = c.pll p := by
  rw [derived_eq]
  cases p <;> rfl

end Clocks

namespace Tree

/-- The register value `control` with the dividers of a tree that has been checked. -/
def divided (t : Tree) (control : Word) : Word :=
  Field.putAll [(TreeControl.soc, t.soc.toNat - 1), (TreeControl.mcu, t.mcu.toNat - 1),
    (TreeControl.bus0, t.bus0.toNat - 1), (TreeControl.bus1, t.bus1.toNat - 1),
    (TreeControl.bus2, t.bus2.toNat - 1)] control

theorem divide_ok {t : Tree} (h : t.check = .ok ()) (control : Word) :
    t.divide control = .ok (t.divided control) :=
  divide_eq h control

/-- Dividing leaves the source as it is. -/
theorem selectedBy_divided (t : Tree) (control : Word) :
    McuSource.selectedBy (t.divided control) = McuSource.selectedBy control := by
  simp (disch := decide) [divided, McuSource.selectedBy, Field.get_put_of_disjoint]

end Tree

namespace Rig

/-- The source of the MCU clock, as the hardware has it. -/
def source (rig : Rig) : McuSource := McuSource.selectedBy (rig.board.image.load .treeControl)

/-- The same controller on another board. -/
def onto (rig : Rig) (b : Board) : Rig := { rig with board := b }

/-- What the board shows, seen from the rig. -/
def lift (rig : Rig) (trace : List (Moment Board)) : List (Moment Rig) :=
  trace.map fun m => ⟨rig.onto m.before, m.event⟩

/-- The rig once its clocks are published, if it is attached. -/
def announced (rig : Rig) : Rig := rig.onto { rig.board with
  published :=
    if rig.controller.attached then some rig.controller.clocks else rig.board.published }

def announcement (rig : Rig) : List (Moment Rig) :=
  if rig.controller.attached then [⟨rig, .note (.publishing rig.controller.clocks)⟩] else []

theorem run_onBoard (a : Action Board α) (rig : Rig) : (liftM a : Action Rig α).run rig =
    ⟨(a.run rig.board).outcome, rig.onto (a.run rig.board).after,
      rig.lift (a.run rig.board).trace⟩ := rfl

theorem onBoard_bind (a : Action Board α) (f : α → Action Board β) :
    (liftM (a >>= f) : Action Rig β) = liftM a >>= fun x => liftM (f x) := by
  ext rig
  rw [run_onBoard]
  rcases h : a.run rig.board with ⟨e | x, b, trace⟩
  · have lifted : (liftM a : Action Rig α).run rig = ⟨.error e, rig.onto b, rig.lift trace⟩ := by
      rw [run_onBoard, h]
    rw [Action.run_bind_error h, Action.run_bind_error lifted]
  · have lifted : (liftM a : Action Rig α).run rig = ⟨.ok x, rig.onto b, rig.lift trace⟩ := by
      rw [run_onBoard, h]
    rw [Action.run_bind_ok h, Action.run_bind_ok lifted, run_onBoard]
    simp only [lift, List.map_append, onto]

theorem event_of_announcement {rig : Rig} {m : Moment Rig} (h : m ∈ rig.announcement) :
    ∃ n, m.event = .note n := by
  unfold announcement at h
  split at h
  · obtain rfl := List.mem_singleton.1 h
    exact ⟨_, rfl⟩
  · cases h

theorem before_of_announcement {rig : Rig} {m : Moment Rig} (h : m ∈ rig.announcement) :
    m.before = rig := by
  unfold announcement at h
  split at h
  · exact congrArg Moment.before (List.mem_singleton.1 h)
  · cases h

/-- What follows the work of a task is a matter of notes. -/
theorem event_of_conclusion {rig : Rig} {n : Note} {m : Moment Rig}
    (h : m ∈ rig.announcement ++ [⟨rig.announced, .note n⟩]) : ∃ n, m.event = .note n := by
  obtain h | h := List.mem_append.1 h
  · exact event_of_announcement h
  · obtain rfl := List.mem_singleton.1 h
    exact ⟨n, rfl⟩

end Rig

namespace Controller

theorem run_publish (rig : Rig) : publish.run rig = ⟨.ok (), rig.announced, rig.announcement⟩ := by
  rw [publish, Action.run_bind_ok (Action.run_state rig)]
  unfold Rig.announced Rig.announcement
  cases h : rig.controller.attached with
  | true => rfl
  | false => rfl

theorem refresh_eq : refresh = .update fun rig =>
    rig.setClocks (·.derived (rig.board.image.load .treeControl)) := by
  ext rig
  have load : (liftM (Board.load .treeControl) : Action Rig Word).run rig =
      ⟨.ok (rig.board.image.load .treeControl), rig, []⟩ := by
    rw [Rig.run_onBoard, Board.run_load (by decide)]
    rfl
  rw [refresh, Action.run_bind_ok load, Action.run_bind_ok (Action.run_state rig),
    Clocks.derive_ok, Action.run_bind_ok (Action.run_liftM _ rig)]
  rfl

/-- Two changes that no one sees are one. -/
theorem update_update (f g : Rig → Rig) (a : Action Rig α) :
    (Action.update f >>= fun _ => Action.update g >>= fun _ => a) =
      Action.update (fun rig => g (f rig)) >>= fun _ => a := rfl

end Controller

/-- The pieces of work that operations are made of. -/
inductive Task where
  /-- Move the MCU to the core high-speed clock. -/
  | park
  | oscillator (o : Oscillator)
  | powerDown (p : Pll)
  /-- Start a PLL that will run at `f`. -/
  | start (p : Pll) (divider : Divider) (f : Hertz) (lockWait : UInt32)
  | tree (t : Tree)

namespace Task

def work (w : Wiring) : Task → Action Board Unit
  | .park => Board.change .treeControl (TreeControl.select .coreHs)
  | .oscillator o => w.selectOscillator o
  | .powerDown p => p.powerDown
  | .start p divider _ lockWait => p.start w divider lockWait
  | .tree t => do
    let control ← Board.load .treeControl
    Board.store .treeControl (← t.divide control)
    Board.change .treeControl (TreeControl.select t.source)

/-- The clocks once the work is done and the tree register holds `control`. The audio PLL feeds
neither the DSP nor the core. -/
def record (crystal : Hertz) (control : Word) (c : Clocks) : Task → Clocks
  | .park | .tree _ => c.derived control
  | .oscillator o => { c with coreHs := .ofHertz (o.frequency crystal) }.derived control
  | .powerDown .system => (c.setPll .system .stopped).derived control
  | .powerDown .audio => c.setPll .audio .stopped
  | .start .system _ f _ => (c.setPll .system (.ofHertz f)).derived control
  | .start .audio _ f _ => c.setPll .audio (.ofHertz f)

def note (crystal : Hertz) : Task → Note
  | .park => .parked
  | .oscillator o => .coreHs (o.frequency crystal)
  | .powerDown p => .pll p none
  | .start p _ f _ => .pll p (some f)
  | .tree t => .tree t

/-- The registers and flags that the work may touch. -/
def footprint : Task → Footprint
  | .park | .tree _ => .tree
  | .oscillator _ => .oscillators
  | .powerDown p | .start p _ _ _ => .pll p

theorem run_park (w : Wiring) (b : Board) : (Task.park.work w).run b =
    let control := TreeControl.select .coreHs (b.image.load .treeControl)
    ⟨.ok (), { b with image := b.image.store .treeControl control },
      [⟨b, .store .treeControl control⟩]⟩ := by
  have ordinary : Register.treeControl ≠ .bridgeControl := by decide
  rw [work, Board.run_change ordinary, Board.latch_of_ne ordinary]

/-- First the dividers, then the source. -/
theorem run_tree (w : Wiring) {t : Tree} (h : t.check = .ok ()) (b : Board) :
    ((Task.tree t).work w).run b =
      let divided := t.divided (b.image.load .treeControl)
      let control := TreeControl.select t.source divided
      ⟨.ok (), { b with image := b.image.store .treeControl control },
        [⟨b, .store .treeControl divided⟩,
          ⟨{ b with image := b.image.store .treeControl divided },
            .store .treeControl control⟩]⟩ := by
  have ordinary : Register.treeControl ≠ .bridgeControl := by decide
  rw [work, Action.run_bind_quiet (Board.run_load ordinary b), Tree.divide_ok h,
    Action.run_bind_quiet (Action.run_liftM _ b), Action.run_bind_ok (Board.run_store _ _ b),
    Board.run_change ordinary]
  simp only [Board.latch_of_ne ordinary, Image.load_store_self, Image.store_store_self]
  rfl

end Task

/-- The divider fields and the frequency are those of some multiplier that the silicon takes. -/
def Pll.Plans (c : Controller) (divider : Divider) (f : Hertz) : Pll → Prop
  | .system => ∃ r : SystemRatio, r.plan c.wiring.sequencer c.crystal = .ok (divider, f)
  | .audio => ∃ r : AudioRatio, r.plan c.wiring.sequencer c.crystal = .ok (divider, f)

namespace Task

/-- What has been checked before a task is performed. The system PLL is left alone while it
drives the MCU, and the MCU is moved onto it only while it counts as running. -/
def Ready (rig : Rig) : Task → Prop
  | .park => rig.source = .spll
  | .oscillator _ => True
  | .powerDown p => p = .system → rig.source = .coreHs
  | .start p divider f _ => (p = .system → rig.source = .coreHs) ∧ p.Plans rig.controller divider f
  | .tree t => t.check = .ok () ∧ (t.source = .spll → rig.controller.clocks.spll.hertz? ≠ none)

/-- What becomes of a request for the system PLL. -/
def ofSystem (ratio : Option SystemRatio) (lockWait : UInt32) (rig : Rig) : Attempt Task :=
  if rig.source = .spll then
    .refuse .systemPllInUse
  else
    match ratio with
    | none => pure (.powerDown .system)
    | some ratio => do
      let (divider, f) ← ratio.plan rig.controller.wiring.sequencer rig.controller.crystal
      return .start .system divider f lockWait

/-- What becomes of a request for the audio PLL. -/
def ofAudio (ratio : Option AudioRatio) (lockWait : UInt32) (rig : Rig) : Attempt Task :=
  match ratio with
  | none => pure (.powerDown .audio)
  | some ratio => do
    let (divider, f) ← ratio.plan rig.controller.wiring.sequencer rig.controller.crystal
    return .start .audio divider f lockWait

/-- What becomes of a request for the tree. -/
def ofTree (t : Tree) (rig : Rig) : Attempt Task :=
  match t.check with
  | .error e => .error e
  | .ok () =>
    if t.source = .spll ∧ rig.controller.clocks.spll.hertz? = none then
      .refuse .systemPllStopped
    else
      pure (.tree t)

theorem ofTree_eq_ok {t : Tree} {rig : Rig} {k : Task} (h : ofTree t rig = .ok k) :
    k = .tree t := by
  unfold ofTree at h
  split at h
  · cases h
  · split at h <;> cases h
    rfl

end Task

namespace Controller

/-- Do the work of a task, enter the result in the clocks, publish and note it. -/
def perform (k : Task) : Action Rig Unit := do
  let c := (← Action.state).controller
  k.work c.wiring
  .update fun rig => rig.setClocks (k.record c.crystal (rig.board.image.load .treeControl))
  publish
  .note (k.note c.crystal)

/-- What an operation makes of a request: it performs a task that is ready, or it refuses and does
no more than warn. -/
def Answers (r : Run Rig Unit) (rig : Rig) : Attempt Task → Prop
  | .ok k => k.Ready rig ∧ r = (perform k).run rig
  | .error e => ∃ ns : List Note, (∀ n ∈ ns, n.level = .warn) ∧
      r = ⟨.error e, rig, ns.map fun n => ⟨rig, .note n⟩⟩

/-- What comes to its end has performed what was asked for. -/
theorem Answers.of_ok {r : Run Rig Unit} {rig : Rig} {request : Attempt Task}
    (h : Answers r rig request) (ok : r.outcome = .ok ()) :
    ∃ k : Task, request = .ok k ∧ k.Ready rig ∧ r = (perform k).run rig := by
  cases request with
  | ok k => exact ⟨k, rfl, h⟩
  | error e =>
    obtain ⟨ns, -, run⟩ := h
    rw [run] at ok
    cases ok

theorem run_spllDrivesMcu (rig : Rig) :
    spllDrivesMcu.run rig = ⟨.ok (rig.source = .spll), rig, []⟩ := by
  have load : (liftM (Board.load .treeControl) : Action Rig Word).run rig =
      ⟨.ok (rig.board.image.load .treeControl), rig, []⟩ := by
    rw [Rig.run_onBoard, Board.run_load (by decide)]
    rfl
  rw [spllDrivesMcu, Action.run_bind_ok load, Rig.source, McuSource.selectedBy_eq]
  rfl

theorem setOscillator_answers (o : Oscillator) (rig : Rig) :
    Answers ((setOscillator o).run rig) rig (.ok (.oscillator o)) := by
  constructor
  · trivial
  · simp only [setOscillator, perform, refresh_eq, update_update]
    rfl

theorem setSpll_answers (ratio : Option SystemRatio) (lockWait : UInt32) (rig : Rig) :
    Answers ((setSpll ratio lockWait).run rig) rig (Task.ofSystem ratio lockWait rig) := by
  unfold Task.ofSystem setSpll
  rw [Action.run_bind_quiet (run_spllDrivesMcu rig)]
  cases source : rig.source with
  | spll => exact ⟨[.systemPllInUse], List.forall_mem_singleton.2 rfl, rfl⟩
  | coreHs =>
    rw [if_neg nofun, if_neg (by decide)]
    cases ratio with
    | none =>
      constructor
      · intro _
        exact source
      · simp only [perform, refresh_eq, update_update]
        rfl
    | some ratio =>
      simp only
      rw [Action.run_bind_quiet (Action.run_state rig)]
      cases plan : ratio.plan rig.controller.wiring.sequencer rig.controller.crystal with
      | ok planned =>
        constructor
        · exact ⟨fun _ => source, ratio, plan⟩
        · simp only [perform, refresh_eq, update_update]
          rfl
      | error e =>
        cases e with
        | error e => exact ⟨[.systemRefused ratio e], List.forall_mem_singleton.2 rfl, rfl⟩
        | halt e => exact ⟨[], nofun, rfl⟩

theorem setAupll_answers (ratio : Option AudioRatio) (lockWait : UInt32) (rig : Rig) :
    Answers ((setAupll ratio lockWait).run rig) rig (Task.ofAudio ratio lockWait rig) := by
  unfold Task.ofAudio setAupll
  cases ratio with
  | none => exact ⟨nofun, rfl⟩
  | some ratio =>
    simp only
    rw [Action.run_bind_quiet (Action.run_state rig)]
    cases plan : ratio.plan rig.controller.wiring.sequencer rig.controller.crystal with
    | ok planned => exact ⟨⟨nofun, ratio, plan⟩, rfl⟩
    | error e =>
      cases e with
      | error e => exact ⟨[.audioRefused ratio e], List.forall_mem_singleton.2 rfl, rfl⟩
      | halt e => exact ⟨[], nofun, rfl⟩

theorem setTree_answers (t : Tree) (rig : Rig) :
    Answers ((setTree t).run rig) rig (Task.ofTree t rig) := by
  unfold Task.ofTree setTree
  cases checked : t.check with
  | error e => exact ⟨[], nofun, rfl⟩
  | ok =>
    rw [Action.run_bind_quiet (Action.run_liftM _ rig),
      Action.run_bind_quiet (Action.run_state rig)]
    by_cases stopped : t.source = .spll ∧ rig.controller.clocks.spll.hertz? = none
    · simp only [if_pos stopped]
      exact ⟨[], nofun, rfl⟩
    · simp only [if_neg stopped]
      constructor
      · refine ⟨checked, ?_⟩
        intro source none
        exact stopped ⟨source, none⟩
      · simp only [perform, Task.work, refresh_eq, Rig.onBoard_bind, bind_assoc]
        rfl

/-- An application up to its tree. -/
def prepare (c : Configuration) : Action Rig Unit := do
  check c
  .update ({ · with controller.crystal := c.crystal })
  park
  setOscillator c.oscillator
  setSpll c.spll c.lockWait
  setAupll c.aupll c.lockWait

theorem apply_eq (c : Configuration) : apply c = (do
    prepare c
    setTree c.tree
    .note (.configured (← Action.state).controller.clocks)) := by
  simp only [apply, prepare, bind_assoc]

/-- Without a system PLL that drives the MCU there is nothing to park. -/
theorem run_park_of_coreHs {rig : Rig} (h : rig.source = .coreHs) :
    park.run rig = ⟨.ok (), rig, []⟩ := by
  unfold park
  rw [Action.run_bind_quiet (run_spllDrivesMcu rig), h]
  rfl

theorem run_park_of_spll {rig : Rig} (h : rig.source = .spll) :
    park.run rig = (perform .park).run rig := by
  unfold park perform
  rw [Action.run_bind_quiet (run_spllDrivesMcu rig), h]
  simp only [refresh_eq]
  rfl

end Controller

/-- The rig on the board that the work of a task has left, with the result in its clocks. -/
def Rig.enter (rig : Rig) (k : Task) (b : Board) : Rig :=
  (rig.onto b).setClocks (k.record rig.controller.crystal (b.image.load .treeControl))

namespace Controller
variable {rig : Rig} {k : Task} {b : Board} {trace : List (Moment Board)}

theorem run_perform_ok (h : (k.work rig.controller.wiring).run rig.board = ⟨.ok (), b, trace⟩) :
    (perform k).run rig = ⟨.ok (), (rig.enter k b).announced,
      rig.lift trace ++ ((rig.enter k b).announcement ++
        [⟨(rig.enter k b).announced, .note (k.note rig.controller.crystal)⟩])⟩ := by
  have work : (liftM (k.work rig.controller.wiring) : Action Rig Unit).run rig =
      ⟨.ok (), rig.onto b, rig.lift trace⟩ := by
    rw [Rig.run_onBoard, h]
  rw [perform, Action.run_bind_quiet (Action.run_state rig), Action.run_bind_ok work,
    Action.run_bind_quiet (Action.run_update _ _), Action.run_bind_ok (run_publish _)]
  rfl

theorem run_perform_error {e : Failure}
    (h : (k.work rig.controller.wiring).run rig.board = ⟨.error e, b, trace⟩) :
    (perform k).run rig = ⟨.error e, rig.onto b, rig.lift trace⟩ := by
  have work : (liftM (k.work rig.controller.wiring) : Action Rig Unit).run rig =
      ⟨.error e, rig.onto b, rig.lift trace⟩ := by
    rw [Rig.run_onBoard, h]
  rw [perform, Action.run_bind_quiet (Action.run_state rig), Action.run_bind_error work]

theorem run_recordFault (e : ClockError) (rig : Rig) : (recordFault e).run rig =
    ⟨.ok (), rig.onto { rig.board with
        image := rig.board.image.store .diagnostic (faultMarker ||| e.code.setWidth 32) },
      [⟨rig, .store .diagnostic (faultMarker ||| e.code.setWidth 32)⟩]⟩ := by
  rw [recordFault, Rig.run_onBoard, Board.run_store, Board.latch_of_ne (by decide)]
  rfl

end Controller

namespace Task
open ClockControl.Action (Confined)

theorem work_confined {rig : Rig} {k : Task} (h : k.Ready rig) (w : Wiring) :
    (k.work w).Confined k.footprint w.access := by
  have control : Register.treeControl ∈ Footprint.tree.registers := List.mem_singleton_self _
  have select (f : Word → Word) : (Board.change .treeControl f).Confined .tree w.access :=
    Confined.change control nofun f
  cases k with
  | park => exact select _
  | oscillator o => exact Confined.selectOscillator w o
  | powerDown p => exact Confined.powerDown p
  | start p divider f lockWait => exact Confined.start p w divider lockWait
  | tree t =>
    intro b
    have load := Board.run_load (r := .treeControl) (by decide) b
    rw [work, Action.run_bind_quiet load, Tree.divide_ok h.1,
      Action.run_bind_quiet (Action.run_liftM _ b)]
    exact Confined.bind (Confined.store control nofun _) (fun _ => select _) b

end Task
end ClockControl
