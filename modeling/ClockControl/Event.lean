import ClockControl.Configuration
import ClockControl.Failure
import ClockControl.Pmu.Cycle

/-! What the controller does that the world outside can see: stores, bus cycles, waits, and
the notes of its log; and the line of text that each of them has in a trace. -/
namespace ClockControl

inductive Level where
  | trace | debug | warn | error
deriving DecidableEq, Repr

def Level.text : Level → String
  | .trace => "TRACE"
  | .debug => "DEBUG"
  | .warn => "WARN"
  | .error => "ERROR"

/-- An entry of the log. -/
inductive Note where
  | publishing (clocks : Clocks)
  | coreHs (f : Hertz)
  /-- A PLL runs at `f`, or is off. -/
  | pll (p : Pll) (f : Option Hertz)
  | configured (clocks : Clocks)
  | tree (t : Tree)
  | parked
  | cycleLost (reg : Byte)
  | systemPllInUse
  | systemRefused (ratio : SystemRatio) (e : ClockError)
  | audioRefused (ratio : AudioRatio) (e : ClockError)
  | bootFailed (e : ClockError)
deriving DecidableEq, Repr

namespace Note

def level : Note → Level
  | .publishing _ | .coreHs _ | .pll _ _ | .configured _ => .debug
  | .tree _ | .parked => .trace
  | .cycleLost _ | .systemPllInUse | .systemRefused _ _ | .audioRefused _ _ => .warn
  | .bootFailed _ => .error

def text : Note → String
  | .publishing clocks => "rcc: publishing " ++ clocks.text
  | .coreHs f => "rcc: core_hsclk " ++ f.text
  | .pll p (some f) => "rcc: " ++ p.name ++ " " ++ f.text
  | .pll p none => "rcc: " ++ p.name ++ " off"
  | .configured clocks => "rcc: " ++ clocks.text
  | .tree t => "rcc: tree " ++ t.text
  | .parked => "rcc: mcu parked on core_hsclk"
  | .cycleLost reg => "pmu: ool transfer to 0x" ++ Text.hex 1 reg.toNat ++ " timed out"
  | .systemPllInUse => "rcc: spll busy, mcu clock still selects it"
  | .systemRefused r e => "rcc: rejected spll n=" ++ toString r.n.toNat ++ " m="
      ++ toString r.m.toNat ++ ": " ++ e.text
  | .audioRefused r e => "rcc: rejected aupll n=" ++ toString r.n.toNat ++ " k="
      ++ toString r.k.toNat ++ " d=" ++ toString r.d.toNat ++ ": " ++ e.text
  | .bootFailed e => "rcc: clock configuration failed: " ++ e.text

end Note

inductive Event where
  /-- A store to a register of the block. -/
  | store (r : Register) (value : Word)
  /-- A bus cycle of the PMU, with the byte that passed unless the cycle failed. -/
  | cycle (via : Access) (c : Cycle) (byte : Option Byte)
  /-- A wait of so many microseconds, left to the delay. -/
  | wait (us : UInt32)
  /-- A busy wait: the microseconds asked for, and the core cycles spent on them. -/
  | spin (us cycles : UInt32)
  | note (n : Note)
deriving DecidableEq, Repr

namespace Event

def cycleLine : Cycle → Option Byte → String
  | .read reg, some value => "r" ++ Text.hex 2 reg.toNat ++ "=" ++ Text.hex 2 value.toNat
  | .read reg, none => "r" ++ Text.hex 2 reg.toNat ++ "!"
  | .write reg value, done => "p" ++ Text.hex 2 reg.toNat ++ "=" ++ Text.hex 2 value.toNat
      ++ if done.isSome then "" else "!"

/-- The line for an event. A cycle through the bridge shows only in its stores, and notes
show only in a verbose trace. -/
def line? (verbose : Bool) : Event → Option String
  | .store r value => some ("w" ++ Text.hex 2 r.offset ++ "=" ++ Text.hex 8 value.toNat)
  | .cycle .direct c byte => some (cycleLine c byte)
  | .cycle .bridge _ _ => none
  | .wait us => some ("d" ++ toString us.toNat)
  | .spin _ cycles => some ("c" ++ toString cycles.toNat)
  | .note n => if verbose then some (n.level.text ++ ": " ++ n.text) else none

end Event
end ClockControl
