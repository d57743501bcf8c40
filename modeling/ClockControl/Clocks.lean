import ClockControl.Frequency
import ClockControl.Text

/-! The frequencies of the clocks, and the constants of the board and of the silicon. -/
namespace ClockControl

/-- Source of the core high-speed clock. -/
inductive Oscillator where
  | crystal | rc
deriving DecidableEq, Repr

/-- Source of the MCU clock tree. -/
inductive McuSource where
  | coreHs | spll
deriving DecidableEq, Repr

namespace McuSource

def code : McuSource → Nat
  | .coreHs => 0
  | .spll => 1

/-- The source that the low bit of `n` names. -/
def ofCode (n : Nat) : McuSource := if n % 2 = 0 then .coreHs else .spll

def name : McuSource → String
  | .coreHs => "CoreHs"
  | .spll => "Spll"

@[simp] theorem ofCode_code (s : McuSource) : ofCode s.code = s := by cases s <;> rfl

end McuSource

/-- The crystal of the evaluation board. -/
def boardCrystal : Hertz := ⟨24000000⟩

/-- The internal RC oscillator that can feed the core high-speed clock. -/
def rcFrequency : Hertz := ⟨24000000⟩

/-- Clock of the USB and of other fixed-rate domains. -/
def fixed48Frequency : Hertz := ⟨48000000⟩

/-- The low-power RC oscillator. -/
def lowPowerFrequency : Hertz := ⟨57000⟩

namespace Oscillator

/-- Start-up time in microseconds. -/
def startup : Oscillator → UInt32
  | .crystal => 1000
  | .rc => 10

def frequency (crystal : Hertz) : Oscillator → Hertz
  | .crystal => crystal
  | .rc => rcFrequency

end Oscillator

@[ext] structure Clocks where
  /-- Core high-speed clock: the crystal or the RC oscillator. -/
  coreHs : Rate
  /-- System PLL. -/
  spll : Rate
  /-- Audio PLL. -/
  aupll : Rate
  /-- MCU core. -/
  core : Rate
  dsp : Rate
  fixed48 : Rate
  lowPower : Rate
deriving DecidableEq, Repr

namespace Clocks

/-- Before anything is configured only the free-running oscillators are known. -/
def reset : Clocks where
  coreHs := .stopped
  spll := .stopped
  aupll := .stopped
  core := .stopped
  dsp := .stopped
  fixed48 := .ofHertz fixed48Frequency
  lowPower := .ofHertz lowPowerFrequency

def toList (c : Clocks) : List Rate :=
  [c.coreHs, c.spll, c.aupll, c.core, c.dsp, c.fixed48, c.lowPower]

def text (c : Clocks) : String :=
  Text.record "Clocks" [
    ("core_hsclk", c.coreHs.text),
    ("spll", c.spll.text),
    ("aupll", c.aupll.text),
    ("core", c.core.text),
    ("dsp", c.dsp.text),
    ("fixed_48m", c.fixed48.text),
    ("lprc", c.lowPower.text)]

end Clocks
end ClockControl
