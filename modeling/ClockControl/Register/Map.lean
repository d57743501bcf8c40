import ClockControl.Register.Layout

/-! Where the registers of the clock block are. -/
namespace ClockControl

abbrev Word := BitVec 32

abbrev Byte := BitVec 8

/-- The two PLLs. The system PLL can drive the MCU, the audio PLL cannot. -/
inductive Pll where
  | system | audio
deriving DecidableEq, Repr

inductive PllPart where
  | analog0 | analog1 | divider | power | output
deriving DecidableEq, Repr

inductive Register where
  | treeControl
  | pll (p : Pll) (part : PllPart)
  | mainMux
  | audioMux
  | generalDivider
  | fastDivider
  | displayDivider
  | audioDivider
  | bridgeControl
  | bridgeData
  | diagnostic
deriving DecidableEq, Repr

def Pll.name : Pll → String
  | .system => "spll"
  | .audio => "aupll"

/-- Word index of the first register of a PLL. -/
def Pll.base : Pll → Fin 64
  | .system => 4
  | .audio => 12

namespace PllPart

def name : PllPart → String
  | .analog0 => "analog0"
  | .analog1 => "analog1"
  | .divider => "div"
  | .power => "power"
  | .output => "out"

def index : PllPart → Fin 64
  | .analog0 => 0
  | .analog1 => 1
  | .divider => 2
  | .power => 3
  | .output => 4

def all : List PllPart := [.analog0, .analog1, .divider, .power, .output]

end PllPart

namespace Register

/-- Address of the block. -/
def baseAddress : Nat := 0xE0050000

/-- Number of the oscillator control register in the PMU. -/
def oscillatorControl : Byte := 0x12#8

def name : Register → String
  | .treeControl => "socclk_ctl"
  | .pll p part => p.name ++ "." ++ part.name
  | .mainMux => "clock_sel0"
  | .audioMux => "clock_sel1"
  | .generalDivider => "block_clock_div0"
  | .fastDivider => "block_clock_div1"
  | .displayDivider => "block_clock_div2"
  | .audioDivider => "audio_clock_div"
  | .bridgeControl => "ool_ctrl"
  | .bridgeData => "ool_rdata"
  | .diagnostic => "sw_diag"

/-- The word of the block that the register is. -/
def index : Register → Fin 64
  | .treeControl => 1
  | .pll p part => p.base + part.index
  | .mainMux => 20
  | .audioMux => 21
  | .generalDivider => 24
  | .fastDivider => 25
  | .displayDivider => 26
  | .audioDivider => 27
  | .bridgeControl => 56
  | .bridgeData => 57
  | .diagnostic => 63

def offset (r : Register) : Nat := 4 * r.index

/-- The layout of a structured register; the others are plain words. -/
def layout? : Register → Option (Layout 32)
  | .treeControl => some TreeControl.layout
  | .pll _ .divider => some PllDivider.layout
  | .pll _ .output => some PllOutput.layout
  | .mainMux => some MainMux.layout
  | .audioMux => some AudioMux.layout
  | .generalDivider => some GeneralDivider.layout
  | .fastDivider => some FastDivider.layout
  | .displayDivider => some DisplayDivider.layout
  | .audioDivider => some AudioDivider.layout
  | .bridgeControl => some BridgeControl.layout
  | _ => none

/-- The registers outside the PLLs. -/
def single : List Register :=
  [.treeControl, .mainMux, .audioMux, .generalDivider, .fastDivider, .displayDivider,
    .audioDivider, .bridgeControl, .bridgeData, .diagnostic]

def all : List Register :=
  single ++ PllPart.all.map (.pll .system) ++ PllPart.all.map (.pll .audio)

def ofName? (name : String) : Option Register := all.find? (·.name == name)

/-- Byte offsets by name: registers, PLLs, and the parts inside a PLL. -/
def offsets : List (String × Nat) :=
  single.map (fun r => (r.name, r.offset)) ++
    [Pll.system, .audio].map (fun p => (p.name, 4 * p.base.val)) ++
    PllPart.all.map (fun p => ("pll." ++ p.name, 4 * p.index.val))

theorem mem_all (r : Register) : r ∈ all := by
  rcases r with _ | ⟨⟨⟩, ⟨⟩⟩ | _ | _ | _ | _ | _ | _ | _ | _ | _ <;> decide

theorem index_inj {r s : Register} (h : r.index = s.index) : r = s := by
  have key : ∀ r ∈ all, ∀ s ∈ all, r.index = s.index → r = s := by decide
  exact key r (mem_all r) s (mem_all s) h

end Register
end ClockControl
