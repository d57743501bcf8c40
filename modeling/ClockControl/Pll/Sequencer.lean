import ClockControl.Pll.Ratio

/-! The revisions of the silicon, which differ in the multipliers they take and in how the
analog part is brought up, and what a revision makes of a requested multiplier. -/
namespace ClockControl

inductive Sequencer where
  /-- First silicon: a bias ramp. -/
  | ramped
  /-- Updated silicon: the settle word at once. -/
  | direct
  /-- Multipliers from `low` to `high`, brought up like the updated silicon. -/
  | custom (low high : UInt8)
deriving DecidableEq, Repr

namespace Sequencer

def low : Sequencer → UInt8
  | .ramped => 6
  | .direct => 6
  | .custom low _ => low

/-- Up to 127 the doubled multiplier and its carry fit the 8-bit field. -/
def high : Sequencer → UInt8
  | .ramped => 127
  | .direct => 10
  | .custom _ high => high

def accepts (s : Sequencer) (n : UInt8) : Bool := s.low ≤ n && n ≤ s.high

def permit (s : Sequencer) (n : UInt8) : Attempt Unit :=
  if s.accepts n then pure () else .refuse .multiplierRange

end Sequencer

/-- The divider fields and the frequency, if the silicon takes the multiplier. -/
def SystemRatio.plan (r : SystemRatio) (s : Sequencer) (crystal : Hertz) :
    Attempt (Divider × Hertz) := do
  s.permit r.n
  let divider ← r.divider
  return (divider, ← r.frequency crystal)

/-- The divider fields and the frequency, if the fraction is at most one and the silicon
takes the multiplier. -/
def AudioRatio.plan (r : AudioRatio) (s : Sequencer) (crystal : Hertz) :
    Attempt (Divider × Hertz) := do
  if r.d < r.k then
    .refuse .fractionAboveOne
  else
    s.permit r.n
    let divider ← r.divider
    return (divider, ← r.frequency crystal)

end ClockControl
