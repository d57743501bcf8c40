import ClockControl.Domain
import ClockControl.Pll.Startup

/-! The clock controller. It owns the clock block, remembers the crystal and the clocks that
it has derived, and, when attached, publishes them after each step. A request is checked
before the hardware is touched; a step that fails on the way keeps what it has done. -/
namespace ClockControl

@[ext] structure Controller where
  wiring : Wiring
  crystal : Hertz
  clocks : Clocks
  /-- An attached controller publishes its clocks. -/
  attached : Bool
deriving DecidableEq, Repr

/-- A controller and the board it runs on. -/
structure Rig where
  board : Board
  controller : Controller

namespace Rig

def onBoard (a : Action Board α) : Action Rig α :=
  a.zoom (·.board) fun rig b => { rig with board := b }

instance : MonadLift (Action Board) (Action Rig) := ⟨onBoard⟩

def setClocks (f : Clocks → Clocks) (rig : Rig) : Rig :=
  { rig with controller.clocks := f rig.controller.clocks }

end Rig

namespace Controller

/-- A controller that knows nothing of the board yet. -/
def fresh (w : Wiring) (crystal : Hertz) : Controller := ⟨w, crystal, .reset, false⟩

/-- Start from the published clocks, if there are any, and publish from now on. -/
def attach (c : Controller) (published : Option Clocks) : Controller :=
  { c with clocks := published.getD c.clocks, attached := true }

/-- Publish the clocks, if attached. -/
def publish : Action Rig Unit := do
  let rig ← .state
  if rig.controller.attached then
    .note (.publishing rig.controller.clocks)
    .update fun rig => { rig with board.published := some rig.controller.clocks }

/-- Bring the DSP and core clocks in line with the tree register. -/
def refresh : Action Rig Unit := do
  let control ← Board.load .treeControl
  let clocks ← (← Action.state).controller.clocks.derive control
  .update (Rig.setClocks fun _ => clocks)

/-- Whether the MCU runs from the system PLL, as the hardware has it. -/
def spllDrivesMcu : Action Rig Bool := do
  return TreeControl.sourceOf (← Board.load .treeControl) = .spll

/-- Move an MCU that runs from the system PLL to the core high-speed clock. Its dividers
stay. -/
def park : Action Rig Unit := do
  if ← spllDrivesMcu then
    Board.change .treeControl (TreeControl.select .coreHs)
    refresh
    publish
    .note .parked

/-- Select the core high-speed clock, and start its oscillator if need be. -/
def setOscillator (o : Oscillator) : Action Rig Unit := do
  let c := (← Action.state).controller
  let f := o.frequency c.crystal
  c.wiring.selectOscillator o
  .update (Rig.setClocks ({ · with coreHs := .ofHertz f }))
  refresh
  publish
  .note (.coreHs f)

/-- Set the multiplier of the system PLL, or power it down. Refused while the MCU runs from
it. -/
def setSpll (ratio : Option SystemRatio) (lockWait : UInt32) : Action Rig Unit := do
  if ← spllDrivesMcu then
    .note .systemPllInUse
    .refuse .systemPllInUse
  else
    match ratio with
    | none =>
      Pll.powerDown .system
      .update (Rig.setClocks ({ · with spll := .stopped }))
      refresh
      publish
      .note (.pll .system none)
    | some ratio =>
      let c := (← Action.state).controller
      match ratio.plan c.wiring.sequencer c.crystal with
      | .ok (divider, f) =>
        Pll.start .system c.wiring divider lockWait
        .update (Rig.setClocks ({ · with spll := .ofHertz f }))
        refresh
        publish
        .note (.pll .system (some f))
      | .error e =>
        if let .error e := e then
          .note (.systemRefused ratio e)
        .fail e

/-- Set the multiplier of the audio PLL, or power it down. -/
def setAupll (ratio : Option AudioRatio) (lockWait : UInt32) : Action Rig Unit := do
  match ratio with
  | none =>
    Pll.powerDown .audio
    .update (Rig.setClocks ({ · with aupll := .stopped }))
    publish
    .note (.pll .audio none)
  | some ratio =>
    let c := (← Action.state).controller
    match ratio.plan c.wiring.sequencer c.crystal with
    | .ok (divider, f) =>
      Pll.start .audio c.wiring divider lockWait
      .update (Rig.setClocks ({ · with aupll := .ofHertz f }))
      publish
      .note (.pll .audio (some f))
    | .error e =>
      if let .error e := e then
        .note (.audioRefused ratio e)
      .fail e

/-- Program the dividers of the tree, then its source, so that a new source never runs
undivided. -/
def setTree (t : Tree) : Action Rig Unit := do
  t.check
  let c := (← Action.state).controller
  if t.source = .spll ∧ c.clocks.spll.hertz? = none then
    .refuse .systemPllStopped
  let control ← Board.load .treeControl
  Board.store .treeControl (← t.divide control)
  Board.change .treeControl (TreeControl.select t.source)
  refresh
  publish
  .note (.tree t)

/-- Whether the silicon takes a configuration. -/
def check (c : Configuration) : Action Rig Unit := do
  c.check (← Action.state).controller.wiring.sequencer

/-- Check a configuration, then set the oscillator, the system PLL, the audio PLL and the
tree. Its crystal replaces the controller's. An MCU on the system PLL is parked meanwhile. -/
def apply (c : Configuration) : Action Rig Unit := do
  check c
  .update ({ · with controller.crystal := c.crystal })
  park
  setOscillator c.oscillator
  setSpll c.spll c.lockWait
  setAupll c.aupll c.lockWait
  setTree c.tree
  .note (.configured (← Action.state).controller.clocks)

/-- High half of the diagnostic word after a failed boot. -/
def faultMarker : Word := 0xC10C0000#32

/-- Leave the error in the diagnostic register, for a debugger to find. -/
def recordFault (e : ClockError) : Action Rig Unit :=
  Board.store .diagnostic (faultMarker ||| e.code.setWidth 32)

/-- The frequency of a peripheral domain, by the controller's clocks. -/
def domainFrequency (d : Domain) : Action Rig (Option Hertz) := do
  let rig ← .state
  d.frequency rig.board.image rig.controller.clocks

end Controller

namespace Rig

@[simp] theorem run_liftM (a : Action Board α) (rig : Rig) :
    (liftM a : Action Rig α).run rig =
      (a.run rig.board).mapState fun b => { rig with board := b } := rfl

end Rig

/-- What can be asked of a controller. -/
inductive Operation where
  | setOscillator (o : Oscillator)
  | setSpll (ratio : Option SystemRatio) (lockWait : UInt32)
  | setAupll (ratio : Option AudioRatio) (lockWait : UInt32)
  | setTree (t : Tree)
  | check (c : Configuration)
  | apply (c : Configuration)
  | recordFault (e : ClockError)
deriving DecidableEq, Repr

namespace Operation

def action : Operation → Action Rig Unit
  | .setOscillator o => Controller.setOscillator o
  | .setSpll ratio lockWait => Controller.setSpll ratio lockWait
  | .setAupll ratio lockWait => Controller.setAupll ratio lockWait
  | .setTree t => Controller.setTree t
  | .check c => Controller.check c
  | .apply c => Controller.apply c
  | .recordFault e => Controller.recordFault e

/-- One operation after another, whatever becomes of each. -/
def sequence (ops : List Operation) : Action Rig (List (Attempt Unit)) :=
  ops.mapM fun op => op.action.attempt

end Operation

end ClockControl
