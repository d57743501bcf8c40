import ClockControl.Board

/-! Waiting. A busy wait counts core cycles, from the core frequency that is published. -/
namespace ClockControl

/-- Who counts a wait: a timer outside, or the core in a busy wait. -/
inductive Delay where
  | timer | core
deriving DecidableEq, Repr

/-- Core cycles for a wait, of which the low 32 bits count. While no core frequency is
published the core is taken to run from the RC oscillator. -/
def waitCycles (published : Option Clocks) (us : UInt32) : Attempt UInt32 := do
  let core := (published.bind (·.core.hertz?)).getD rcFrequency
  let product ← Checked.mul 64 core.raw.toNat us.toNat
  return (← Checked.div product 1000000).toUInt32

/-- A busy wait of so many microseconds. -/
def busyWait (us : UInt32) : Action Board Unit := do
  .emit (.spin us (← waitCycles (← Action.state).published us))

namespace Delay

def wait (d : Delay) (us : UInt32) : Action Board Unit :=
  match d with
  | .timer => .emit (.wait us)
  | .core => busyWait us

end Delay

/-- A busy wait in nanoseconds, rounded up to microseconds. -/
def busyWaitNanoseconds (ns : UInt32) : Action Board Unit :=
  busyWait ((ns.toNat + 999) / 1000).toUInt32

/-- A busy wait in milliseconds, each one on its own. -/
def busyWaitEachMillisecond (ms : UInt32) : Action Board Unit :=
  (busyWait 1000).repeated ms.toNat

end ClockControl
