import ClockControl.Delay
import ClockControl.Pll.Recipe
import ClockControl.Pmu.Bus

/-! Starting a PLL. The analog part is programmed and brought up while the reference clock
is gated off; only then the reference is let through and the half-rate tap turned on. -/
namespace ClockControl

/-- What a controller is built from: the revision of the silicon, the way to the PMU, and
the delay. -/
structure Wiring where
  sequencer : Sequencer
  access : Access
  delay : Delay
deriving DecidableEq, Repr

namespace Wiring

/-- First silicon and the polled bridge. -/
def standard (d : Delay) : Wiring := ⟨.ramped, .bridge, d⟩

def wait (w : Wiring) (us : UInt32) : Action Board Unit := w.delay.wait us

def oscillators (w : Wiring) : Action Board Byte := Pmu.read w.access Register.oscillatorControl

def setOscillator (w : Wiring) (f : Field 8) (on : Bool) : Action Board Unit :=
  Pmu.change w.access Register.oscillatorControl (f.put on.toNat)

end Wiring

namespace Ramp

/-- Times that the ramp goes back and forth. -/
def steps : Nat := 30

/-- Dwell at each word of the ramp, in microseconds. -/
def dwell : UInt32 := 20

/-- Wait after a settle word that no ramp precedes, in microseconds. -/
def settleWait : UInt32 := 50

end Ramp

namespace Pll

/-- Wait between the analog part's start and the reference, in microseconds. -/
def gateWait : UInt32 := 20

/-- Wait after the reference is let through, in microseconds. -/
def referenceWait : UInt32 := 100

/-- The gate of the reference clock. -/
def reference : Pll → Field 8
  | .system => OscillatorControl.systemRef
  | .audio => OscillatorControl.audioRef

/-- Bring the analog part up: a ramp or the settle word at once. -/
def bringUp (p : Pll) (w : Wiring) (r : Ramp) : Action Board Unit :=
  match w.sequencer with
  | .ramped => do
    let step : Action Board Unit := do
      Board.store (.pll p .power) r.low
      w.wait Ramp.dwell
      Board.store (.pll p .power) r.high
      w.wait Ramp.dwell
    step.repeated Ramp.steps
    Board.store (.pll p .power) r.settle
  | .direct | .custom _ _ => do
    Board.store (.pll p .power) r.settle
    w.wait Ramp.settleWait

/-- Program the PLL behind its closed gate. -/
def program (p : Pll) (w : Wiring) (d : Divider) : Action Board Unit := do
  Board.store (.pll p .analog0) p.recipe.analog0
  Board.store (.pll p .analog1) p.recipe.analog1
  Board.store (.pll p .divider) d.word
  Board.change (.pll p .output) (PllOutput.den.put d.den.toNat)
  p.bringUp w (p.recipe.ramp d.hasFraction)

def start (p : Pll) (w : Wiring) (d : Divider) (lockWait : UInt32) : Action Board Unit := do
  w.setOscillator p.reference false
  p.program w d
  w.wait gateWait
  w.setOscillator p.reference true
  w.wait referenceWait
  w.wait (min lockWait lockWaitLimit)
  Board.change (.pll p .output) (PllOutput.halfTap.put 1)

def powerDown (p : Pll) : Action Board Unit :=
  Board.store (.pll p .power) p.recipe.powerDown

end Pll

namespace Wiring

/-- Start the oscillator if it does not run, then select it for the core high-speed
clock. -/
def selectOscillator (w : Wiring) (o : Oscillator) : Action Board Unit := do
  let enable := match o with
    | .crystal => OscillatorControl.crystal
    | .rc => OscillatorControl.rc
  let control ← w.oscillators
  if !enable.isSet control then
    w.setOscillator enable true
    w.wait o.startup
  w.setOscillator OscillatorControl.useRc (o = .rc)

end Wiring
end ClockControl
