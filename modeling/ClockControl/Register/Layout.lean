import ClockControl.Register.Field
import ClockControl.Text

/-! The bit layouts of the structured registers: the clock tree, the two PLLs, the
peripheral multiplexers and dividers, the PMU bridge, and the PMU's oscillator control. -/
namespace ClockControl

/-- The fields of a register of `size` bits, from the lowest bit up. No two of them share
a bit; bits that belong to no field are reserved. -/
structure Layout (size : Nat) where
  name : String
  fields : List (Field size)
  disjoint : fields.Pairwise Field.Disjoint

namespace Layout

def field? (l : Layout size) (name : String) : Option (Field size) :=
  l.fields.find? (·.name == name)

/-- A field's value: a number, or a truth value for a flag. -/
def valueText (f : Field size) (raw : BitVec size) : String :=
  if f.isFlag then toString (f.isSet raw) else toString (f.get raw)

/-- The register on one line: the raw word, then each field. -/
def describe (l : Layout size) (raw : BitVec size) : String :=
  Text.record l.name ((".0", toString raw.toNat) ::
    l.fields.map fun f => (f.name, valueText f raw))

end Layout

namespace TreeControl

def source : Field 32 := .bits "mcu_clk_sel" 0 1
def soc : Field 32 := .bits "soc_div" 4 4
def mcu : Field 32 := .bits "mcu_div" 8 4
def bus0 : Field 32 := .bits "apb0_div" 12 2
def bus1 : Field 32 := .bits "apb1_div" 14 2
def bus2 : Field 32 := .bits "apb2_div" 16 2

/-- Source of the MCU clock and the dividers of the tree below it. -/
def layout : Layout 32 := ⟨"SocclkCtl", [source, soc, mcu, bus0, bus1, bus2], by decide⟩

end TreeControl

namespace PllDivider

def n : Field 32 := .bits "n" 0 8
def frac : Field 32 := .bits "frac" 16 16

/-- Multiplier of a PLL: half steps, and the fraction of a half step. -/
def layout : Layout 32 := ⟨"PllDiv", [n, frac], by decide⟩

end PllDivider

namespace PllOutput

def den : Field 32 := .bits "den" 0 16
def halfTap : Field 32 := .flag "div2_en" 16

/-- Output of a PLL: the denominator of the fraction less one, and the tap at half the
output frequency. -/
def layout : Layout 32 := ⟨"PllOut", [den, halfTap], by decide⟩

end PllOutput

namespace MainMux

def uart : Field 32 := .bits "uart" 0 1
def i2c : Field 32 := .bits "i2c" 1 1
def timer01 : Field 32 := .bits "timer01" 2 1
def timer23 : Field 32 := .bits "timer23" 3 1
def spim0 : Field 32 := .bits "spim0" 4 1
def spim1 : Field 32 := .bits "spim1" 5 1
def spis : Field 32 := .bits "spis" 6 1
def can : Field 32 := .bits "can" 7 1
def spimX8 : Field 32 := .bits "spim_x8" 8 2
def sdio : Field 32 := .bits "sdio" 10 2
def ospi : Field 32 := .bits "ospi" 12 2
def qspi0 : Field 32 := .bits "qspi0" 14 2
def qspi1 : Field 32 := .bits "qspi1" 16 2
def display : Field 32 := .bits "display" 18 2
def psram : Field 32 := .bits "psram" 20 2

/-- Sources of the general purpose and the fast domains. -/
def layout : Layout 32 := ⟨"ClockSel0", [uart, i2c, timer01, timer23, spim0, spim1, spis, can,
  spimX8, sdio, ospi, qspi0, qspi1, display, psram], by decide⟩

end MainMux

namespace AudioMux

def pdm : Field 32 := .bits "pdm" 0 2
def i2s : Field 32 := .bits "i2s" 2 2
def spdif : Field 32 := .bits "spdif" 4 2

/-- Sources of the audio domains. -/
def layout : Layout 32 := ⟨"ClockSel1", [pdm, i2s, spdif], by decide⟩

end AudioMux

namespace GeneralDivider

def uart : Field 32 := .bits "uart" 0 4
def i2c : Field 32 := .bits "i2c" 4 4
def timer01 : Field 32 := .bits "timer01" 8 4
def timer23 : Field 32 := .bits "timer23" 12 4
def spim0 : Field 32 := .bits "spim0" 16 4
def spim1 : Field 32 := .bits "spim1" 20 4
def spis : Field 32 := .bits "spis" 24 4
def can : Field 32 := .bits "can" 28 4

/-- Dividers of the general purpose domains. -/
def layout : Layout 32 := ⟨"BlockClockDiv0",
  [uart, i2c, timer01, timer23, spim0, spim1, spis, can], by decide⟩

end GeneralDivider

namespace FastDivider

def spimX8 : Field 32 := .bits "spim_x8" 0 4
def sdio : Field 32 := .bits "sdio" 4 4
def ospi : Field 32 := .bits "ospi" 8 4
def qspi0 : Field 32 := .bits "qspi0" 12 4
def qspi1 : Field 32 := .bits "qspi1" 16 4

/-- Dividers of the fast serial and memory card domains. -/
def layout : Layout 32 := ⟨"BlockClockDiv1", [spimX8, sdio, ospi, qspi0, qspi1], by decide⟩

end FastDivider

namespace DisplayDivider

def display : Field 32 := .bits "display" 0 8
def psram : Field 32 := .bits "psram" 8 4

/-- Dividers of the display and its memory. -/
def layout : Layout 32 := ⟨"BlockClockDiv2", [display, psram], by decide⟩

end DisplayDivider

namespace AudioDivider

def pdm : Field 32 := .bits "pdm" 0 8
def i2s : Field 32 := .bits "i2s" 8 8
def spdif : Field 32 := .bits "spdif" 16 8

/-- Dividers of the audio domains. -/
def layout : Layout 32 := ⟨"AudioClockDiv", [pdm, i2s, spdif], by decide⟩

end AudioDivider

namespace BridgeControl

def addr : Field 32 := .bits "addr" 0 8
def data : Field 32 := .bits "wdata" 8 8
def write : Field 32 := .flag "write" 16
def start : Field 32 := .flag "start" 31

/-- Control of the bridge to the PMU. Software sets `start`; the hardware clears it when the
cycle is over. -/
def layout : Layout 32 := ⟨"OolCtrl", [addr, data, write, start], by decide⟩

end BridgeControl

namespace OscillatorControl

def crystal : Field 8 := .flag "xtal_en" 0
def rc : Field 8 := .flag "rc_en" 1
def useRc : Field 8 := .flag "hs_sel_rc" 2
def systemRef : Field 8 := .flag "spll_ref_en" 4
def audioRef : Field 8 := .flag "aupll_ref_en" 5

/-- The PMU's oscillator control: enables of the crystal and of the RC oscillator, choice
of the RC oscillator, and the reference gates of the PLLs. -/
def layout : Layout 8 := ⟨"OscCtrl", [crystal, rc, useRc, systemRef, audioRef], by decide⟩

end OscillatorControl

/-- The layouts of the 32-bit registers. -/
def Layout.wide : List (Layout 32) :=
  [TreeControl.layout, PllDivider.layout, PllOutput.layout, MainMux.layout, AudioMux.layout,
    GeneralDivider.layout, FastDivider.layout, DisplayDivider.layout, AudioDivider.layout,
    BridgeControl.layout]

end ClockControl
