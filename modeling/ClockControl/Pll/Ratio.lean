import ClockControl.Frequency
import ClockControl.Pll.Divider

/-! The multipliers that a caller asks of a PLL, their divider fields, and the frequencies
they give. The fields are found from the doubled multiplier: a doubled fraction above one
carries into the half steps. -/
namespace ClockControl

/-- `n + m / 0xFFFF` times the crystal, for the system PLL. -/
structure SystemRatio where
  n : UInt8
  m : UInt16
deriving DecidableEq, Repr

/-- `n + k / d` times the crystal, for the audio PLL. -/
structure AudioRatio where
  n : UInt8
  k : UInt32
  d : UInt32
deriving DecidableEq, Repr

/-- `n` times the crystal and a fraction of it, in 32 bits. -/
def outputFrequency (n : UInt8) (crystal : Hertz) (fraction : Nat) : Attempt Hertz :=
  let f := n.toNat * crystal.raw.toNat + fraction
  if f < UInt32.size then pure ⟨f.toUInt32⟩ else .refuse .frequency

namespace SystemRatio

def divider (r : SystemRatio) : Attempt Divider := do
  let n ← Checked.mul 32 r.n.toNat 2
  let m ← Checked.mul 32 r.m.toNat 2
  if Divider.fullScale < m then
    let n ← Checked.add 32 n 1
    let m ← Checked.sub m Divider.fullScale
    return ⟨← Divider.fitSteps n, m.toUInt16, 0⟩
  else
    return ⟨← Divider.fitSteps n, m.toUInt16, 0⟩

def frequency (r : SystemRatio) (crystal : Hertz) : Attempt Hertz := do
  match ← Divider.mulDiv r.m.toNat crystal.raw.toNat Divider.fullScale with
  | some fraction => outputFrequency r.n crystal fraction
  | none => .refuse .systemFraction

theorem frequency_eq (r : SystemRatio) (crystal : Hertz) :
    r.frequency crystal =
      outputFrequency r.n crystal (r.m.toNat * crystal.raw.toNat / Divider.fullScale) := by
  have hm := r.m.toNat_lt
  have hc := crystal.raw.toNat_lt
  have product : r.m.toNat * crystal.raw.toNat ≤ 65535 * 4294967295 :=
    Nat.mul_le_mul (by omega) (by omega)
  have fits : r.m.toNat * crystal.raw.toNat < UInt64.size := Nat.lt_of_le_of_lt product (by decide)
  have quotient : r.m.toNat * crystal.raw.toNat / Divider.fullScale < UInt32.size := by
    simp only [Divider.fullScale, UInt32.size]
    omega
  rw [frequency, Divider.mulDiv_eq fits, if_neg (by decide), if_pos quotient]
  rfl

end SystemRatio

namespace AudioRatio

/-- Half steps, and the part of the doubled `k` that is left over `d`. Exactly one half is
a half step of its own and leaves nothing. -/
def carried (r : AudioRatio) : Attempt (Nat × Nat) := do
  let n ← Checked.mul 32 r.n.toNat 2
  let k ← Checked.mul 64 r.k.toNat 2
  let d := r.d.toNat
  if k ≠ 0 ∧ k = d then
    return (← Checked.add 32 n 1, 0)
  else if d < k then
    return (← Checked.add 32 n 1, ← Checked.sub k d)
  else
    return (n, k)

/-- The fields for the fraction `k / d`, in lowest terms and rescaled to `0xFFFF`. -/
def fraction (k d : Nat) : Attempt (UInt16 × UInt16) := do
  let g := Divider.euclid k d
  let k ← Checked.div k g
  let d ← Checked.div d g
  if Divider.fullScale + 1 < d then
    .refuse .audioDenominator
  else
    match ← Divider.mulDiv k Divider.fullScale d with
    | some frac => return (frac.toUInt16, (← Checked.sub d 1).toUInt16)
    | none => .refuse .audioFraction

/-- The fields for `n + k / d`. The caller sees to `k ≤ d`; for a larger `k` one carry is
taken and the low 32 bits of the rest count. -/
def divider (r : AudioRatio) : Attempt Divider := do
  let (n, k) ← r.carried
  let n ← Divider.fitSteps n
  if k = 0 then
    return ⟨n, 0, 0⟩
  else
    let (frac, den) ← fraction (k % UInt32.size) r.d.toNat
    return ⟨n, frac, den⟩

/-- Taken from `k / d` as asked for, not from the rescaled fraction. -/
def frequency (r : AudioRatio) (crystal : Hertz) : Attempt Hertz :=
  if r.k = 0 ∨ r.d = 0 then
    outputFrequency r.n crystal 0
  else do
    match ← Divider.mulDiv r.k.toNat crystal.raw.toNat r.d.toNat with
    | some fraction => outputFrequency r.n crystal fraction
    | none => .refuse .audioFraction

/-- Neither the doubling nor the carry leaves its word. -/
theorem carried_eq (r : AudioRatio) : r.carried = .ok (
    let n := 2 * r.n.toNat
    let k := 2 * r.k.toNat
    if k ≠ 0 ∧ k = r.d.toNat then (n + 1, 0)
    else if r.d.toNat < k then (n + 1, k - r.d.toNat)
    else (n, k)) := by
  have hn := r.n.toNat_lt
  have hk := r.k.toNat_lt
  simp only [carried, Checked.mul_eq (show r.n.toNat * 2 < 2 ^ 32 by omega),
    Checked.mul_eq (show r.k.toNat * 2 < 2 ^ 64 by omega), Nat.mul_comm _ 2, bind, Except.bind,
    pure, Except.pure, Checked.add_eq (show 2 * r.n.toNat + 1 < 2 ^ 32 by omega)]
  split
  · rfl
  · split
    · rw [Checked.sub_eq (by omega)]
    · rfl

end AudioRatio
end ClockControl
