import ClockControl.Pll.Sequencer
import ClockControl.Tree

/-! A whole clock configuration, and the check that it suits the silicon. -/
namespace ClockControl

structure Configuration where
  /-- Crystal frequency. -/
  crystal : Hertz
  /-- Source of the core high-speed clock. -/
  oscillator : Oscillator
  /-- System PLL; none powers it down. -/
  spll : Option SystemRatio
  /-- Audio PLL; none powers it down. -/
  aupll : Option AudioRatio
  tree : Tree
  /-- Extra wait for the lock of a PLL, in microseconds. -/
  lockWait : UInt32
deriving DecidableEq, Repr

/-- The longest wait for a lock; a longer request is cut to it. -/
def lockWaitLimit : UInt32 := 10

namespace Configuration

/-- The evaluation board: system PLL at eight times the crystal, everything else on the
undivided crystal. -/
def standard : Configuration where
  crystal := boardCrystal
  oscillator := .crystal
  spll := some ⟨8, 0⟩
  aupll := none
  tree := .undivided
  lockWait := lockWaitLimit

/-- Touches no hardware. The first fault in the order of the fields is the one reported. -/
def check (c : Configuration) (s : Sequencer) : Attempt Unit := do
  if let some ratio := c.spll then
    discard <| ratio.plan s c.crystal
  if let some ratio := c.aupll then
    discard <| ratio.plan s c.crystal
  c.tree.check
  if c.tree.source = .spll ∧ c.spll = none then
    .refuse .systemPllStopped

end Configuration
end ClockControl
