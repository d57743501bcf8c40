import ClockControl.Register.Map

/-! The analog settings of the PLLs, as calibrated for the silicon. -/
namespace ClockControl

/-- Bias words of a start-up: the ramp goes back and forth between `low` and `high`, then
`settle` stays. -/
structure Ramp where
  low : Word
  high : Word
  settle : Word
deriving DecidableEq, Repr

structure Recipe where
  analog0 : Word
  analog1 : Word
  powerDown : Word
  /-- For a multiplier with a fraction. -/
  fractional : Ramp
  /-- For a whole number of half steps. -/
  integer : Ramp
deriving DecidableEq, Repr

def Recipe.ramp (r : Recipe) (fractional : Bool) : Ramp :=
  if fractional then r.fractional else r.integer

def Pll.recipe : Pll → Recipe
  | .system => {
      analog0 := 0x3C8C5B21#32
      analog1 := 0x0004A31F#32
      powerDown := 0x00000C00#32
      fractional := ⟨0x000030F0#32, 0x000037F0#32, 0x000032F0#32⟩
      integer := ⟨0x000010F0#32, 0x000017F0#32, 0x000012F0#32⟩ }
  | .audio => {
      analog0 := 0x3C8C5A21#32
      analog1 := 0x0004A21F#32
      powerDown := 0x00000C00#32
      fractional := ⟨0x000070F0#32, 0x000077F0#32, 0x000072F0#32⟩
      integer := ⟨0x000050F0#32, 0x000057F0#32, 0x000052F0#32⟩ }

end ClockControl
