import ClockControl.Clocks
import ClockControl.Register.Image

/-! The peripheral clock domains, the multiplexers and dividers that feed them, and the
frequency that each one has now. -/
namespace ClockControl

/-- What a multiplexer can select. -/
inductive Source where
  | coreHs | spll | spllHalf | aupll | aupllHalf | fixed48
deriving DecidableEq, Repr

namespace Source

def name : Source → String
  | .coreHs => "CoreHs"
  | .spll => "Spll"
  | .spllHalf => "SpllDiv2"
  | .aupll => "Aupll"
  | .aupllHalf => "AupllDiv2"
  | .fixed48 => "Fixed48m"

/-- Half of a PLL's frequency, while its half-rate tap is on. -/
def tap (m : Image) (pll : Pll) (rate : Rate) : Attempt (Option Hertz) :=
  if PllOutput.halfTap.isSet (m.load (.pll pll .output)) then
    rate.hertz?.mapM (·.dividedBy 2)
  else
    pure none

/-- The frequency of a source, if it runs. -/
def frequency (m : Image) (c : Clocks) : Source → Attempt (Option Hertz)
  | .coreHs => pure c.coreHs.hertz?
  | .spll => pure c.spll.hertz?
  | .spllHalf => tap m .system c.spll
  | .aupll => pure c.aupll.hertz?
  | .aupllHalf => tap m .audio c.aupll
  | .fixed48 => pure c.fixed48.hertz?

end Source

/-- The kinds of multiplexer. -/
inductive Mux where
  | general | fast | audio
deriving DecidableEq, Repr

namespace Mux

/-- What the codes of a multiplexer select, from code 0 on. -/
def sources : Mux → List Source
  | .general => [.coreHs, .spllHalf]
  | .fast => [.coreHs, .spll, .spllHalf, .aupll]
  | .audio => [.coreHs, .aupll, .aupllHalf, .fixed48]

/-- Only the low bits of a code count. -/
def select (m : Mux) (code : Nat) : Source :=
  m.sources.getD (code % m.sources.length) .coreHs

def code (m : Mux) (s : Source) : Nat := m.sources.idxOf s

end Mux

inductive Domain where
  | uart | gpio | i2c | timer01 | timer23 | spiMaster0 | spiMaster1 | spiSlave | spiMasterX8
  | can | sdio | ospi | qspi0 | qspi1 | display | psram | pdm | i2s | spdif | usb
deriving DecidableEq, Repr

/-- What feeds a domain: a source of its own or one that a multiplexer selects, and a
divider that stores the divisor less one. -/
inductive Feed where
  | fixed (source : Source)
  | muxed (mux : Mux) (code : Slot) (divider : Slot)

namespace Domain

/-- The domains in the order of their indices. -/
def all : List Domain :=
  [.uart, .gpio, .i2c, .timer01, .timer23, .spiMaster0, .spiMaster1, .spiSlave, .spiMasterX8,
    .can, .sdio, .ospi, .qspi0, .qspi1, .display, .psram, .pdm, .i2s, .spdif, .usb]

def index (d : Domain) : Nat := all.idxOf d

def ofIndex (index : UInt8) : Attempt Domain :=
  match all[index.toNat]? with
  | some d => pure d
  | none => .error (.error (.noDomain index))

def name : Domain → String
  | .uart => "Uart"
  | .gpio => "Gpio"
  | .i2c => "I2c"
  | .timer01 => "Timer01"
  | .timer23 => "Timer23"
  | .spiMaster0 => "SpiMaster0"
  | .spiMaster1 => "SpiMaster1"
  | .spiSlave => "SpiSlave"
  | .spiMasterX8 => "SpiMasterX8"
  | .can => "Can"
  | .sdio => "Sdio"
  | .ospi => "Ospi"
  | .qspi0 => "Qspi0"
  | .qspi1 => "Qspi1"
  | .display => "Display"
  | .psram => "Psram"
  | .pdm => "Pdm"
  | .i2s => "I2s"
  | .spdif => "Spdif"
  | .usb => "Usb"

def feed : Domain → Feed
  | .uart => general MainMux.uart GeneralDivider.uart
  | .gpio => .fixed .coreHs
  | .i2c => general MainMux.i2c GeneralDivider.i2c
  | .timer01 => general MainMux.timer01 GeneralDivider.timer01
  | .timer23 => general MainMux.timer23 GeneralDivider.timer23
  | .spiMaster0 => general MainMux.spim0 GeneralDivider.spim0
  | .spiMaster1 => general MainMux.spim1 GeneralDivider.spim1
  | .spiSlave => general MainMux.spis GeneralDivider.spis
  | .spiMasterX8 => fast MainMux.spimX8 ⟨.fastDivider, FastDivider.spimX8⟩
  | .can => general MainMux.can GeneralDivider.can
  | .sdio => fast MainMux.sdio ⟨.fastDivider, FastDivider.sdio⟩
  | .ospi => fast MainMux.ospi ⟨.fastDivider, FastDivider.ospi⟩
  | .qspi0 => fast MainMux.qspi0 ⟨.fastDivider, FastDivider.qspi0⟩
  | .qspi1 => fast MainMux.qspi1 ⟨.fastDivider, FastDivider.qspi1⟩
  | .display => fast MainMux.display ⟨.displayDivider, DisplayDivider.display⟩
  | .psram => fast MainMux.psram ⟨.displayDivider, DisplayDivider.psram⟩
  | .pdm => audio AudioMux.pdm AudioDivider.pdm
  | .i2s => audio AudioMux.i2s AudioDivider.i2s
  | .spdif => audio AudioMux.spdif AudioDivider.spdif
  | .usb => .fixed .fixed48
where
  general (code divider : Field 32) : Feed :=
    .muxed .general ⟨.mainMux, code⟩ ⟨.generalDivider, divider⟩
  fast (code : Field 32) (divider : Slot) : Feed :=
    .muxed .fast ⟨.mainMux, code⟩ divider
  audio (code divider : Field 32) : Feed :=
    .muxed .audio ⟨.audioMux, code⟩ ⟨.audioDivider, divider⟩

/-- The frequency of a domain, if its source runs. A source that runs but divides to
nothing still counts as running, at 0 Hz. -/
def frequency (d : Domain) (m : Image) (c : Clocks) : Attempt (Option Hertz) := do
  match d.feed with
  | .fixed source => source.frequency m c
  | .muxed mux code divider =>
    let divisor ← Checked.add 32 (divider.get m) 1
    (← (mux.select (code.get m)).frequency m c).mapM (·.dividedBy divisor)

end Domain
end ClockControl
