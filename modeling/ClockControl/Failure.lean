/-! Why a request ends without an answer: the controller refuses it or the hardware
does not respond (`ClockError`), or the program cannot go on at all (`Halt`). -/
namespace ClockControl

/-- The reasons for which a parameter is refused. -/
inductive Reason where
  | multiplierField
  | audioDenominator
  | audioFraction
  | systemFraction
  | frequency
  | fractionAboveOne
  | multiplierRange
  | coreDivider
  | busDivider
  | systemPllStopped
  | systemPllInUse
  | other (text : String)
deriving DecidableEq, Repr

def Reason.text : Reason → String
  | .multiplierField => "PLL multiplier overflows the divider field"
  | .audioDenominator => "AUPLL fraction denominator does not fit 16 bits"
  | .audioFraction => "AUPLL fraction out of range"
  | .systemFraction => "SPLL fraction out of range"
  | .frequency => "PLL output frequency overflows"
  | .fractionAboveOne => "AUPLL K exceeds D"
  | .multiplierRange => "PLL N outside the supported range"
  | .coreDivider => "SOC/MCU divider outside 1..=16"
  | .busDivider => "APB divider outside 1..=4"
  | .systemPllStopped => "MCU clock on SPLL but SPLL is powered down"
  | .systemPllInUse => "SPLL drives the MCU clock"
  | .other text => text

/-- An error that the caller of the controller sees. -/
inductive ClockError where
  /-- A parameter is outside what the hardware accepts; nothing was written. -/
  | refused (reason : Reason)
  /-- The PMU did not complete an access to `reg`. -/
  | timeout (reg : BitVec 8)
  /-- No peripheral domain has this index. -/
  | noDomain (index : UInt8)
deriving DecidableEq, Repr

namespace ClockError

/-- The compact form that fits the low half of the diagnostic word: the kind of error
in the high byte, the register or index in the low one. -/
def code : ClockError → BitVec 16
  | .refused _ => 0x0100#16
  | .timeout reg => 0x0200#16 ||| reg.setWidth 16
  | .noDomain index => 0x0300#16 ||| index.toBitVec.setWidth 16

def text : ClockError → String
  | .refused reason => "InvalidParameter \x7b reason: \"" ++ reason.text ++ "\" \x7d"
  | .timeout reg => "Timeout \x7b reg: " ++ toString reg.toNat ++ " \x7d"
  | .noDomain index => "UnsupportedDomain \x7b index: " ++ toString index.toNat ++ " \x7d"

end ClockError

/-- The arithmetic operations that can leave the range of a machine word. -/
inductive Operator where
  | add | subtract | multiply
deriving DecidableEq, Repr

/-- What stops the program for good. -/
inductive Halt where
  | overflow (operator : Operator)
  | divideByZero
  | clocksUnpublished
  | bootedTwice
deriving DecidableEq, Repr

def Halt.text : Halt → String
  | .overflow .add => "attempt to add with overflow"
  | .overflow .subtract => "attempt to subtract with overflow"
  | .overflow .multiply => "attempt to multiply with overflow"
  | .divideByZero => "attempt to divide by zero"
  | .clocksUnpublished => "rcc: clocks read before init"
  | .bootedTwice => "init called more than once!"

inductive Failure where
  | error (e : ClockError)
  | halt (h : Halt)
deriving DecidableEq, Repr

/-- A computation that gives an answer, reports an error or halts. -/
abbrev Attempt (α : Type) := Except Failure α

namespace Attempt

def refuse (reason : Reason) : Attempt α := .error (.error (.refused reason))

def halt (h : Halt) : Attempt α := .error (.halt h)

/-- An attempt in two steps has an answer only if both have one. -/
theorem bind_ok {x : Attempt α} {f : α → Attempt β} {y : β} (h : (x >>= f) = .ok y) :
    ∃ a, x = .ok a ∧ f a = .ok y := by
  cases x with
  | error e => cases h
  | ok a => exact ⟨a, rfl, h⟩

end Attempt
end ClockControl
