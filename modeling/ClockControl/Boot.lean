import ClockControl.Controller

/-! Booting the program, once: apply a configuration through an attached controller of the
standard wiring, and leave a failure in the diagnostic register. -/
namespace ClockControl

/-- Apply a configuration; an error is noted, recorded and reported. -/
def Controller.applyOrRecord (c : Configuration) : Action Rig Unit := do
  match ← (Controller.apply c).attempt with
  | .ok () => pure ()
  | .error e =>
    if let .error e := e then
      .note (.bootFailed e)
      Controller.recordFault e
    .fail e

/-- Run on a board with a controller that lives no longer than the action. -/
def Rig.withController (c : Controller) (a : Action Rig α) : Action Board α :=
  a.zoom (⟨·, c⟩) fun _ rig => rig.board

def boot (c : Configuration) : Action Board Unit := do
  let b ← .state
  if b.booted then
    .fail (.halt .bootedTwice)
  else
    .update ({ · with booted := true })
    let controller := (Controller.fresh (.standard .core) c.crystal).attach b.published
    Rig.withController controller (Controller.applyOrRecord c)

/-- The published clocks; there have to be some. -/
def publishedClocks : Action Board Clocks := do
  match (← Action.state).published with
  | some clocks => return clocks
  | none => .fail (.halt .clocksUnpublished)

/-- The frequency of a peripheral domain, by the published clocks. -/
def publishedFrequency (d : Domain) : Action Board (Option Hertz) := do
  let clocks ← publishedClocks
  d.frequency (← Action.state).image clocks

end ClockControl
