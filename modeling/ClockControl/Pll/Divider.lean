import ClockControl.Checked
import ClockControl.Register.Map

/-! The divider fields of a PLL and the arithmetic that finds them. The output is
`(n + frac / 0xFFFF) / 2` times the crystal: `n` counts half steps and `frac` is the
fraction of one more. -/
namespace ClockControl

structure Divider where
  n : UInt8
  frac : UInt16
  /-- Denominator of the reduced fraction, less one; 0 where there is no fraction. -/
  den : UInt16
deriving DecidableEq, Repr

namespace Divider

/-- The value of `frac` that stands for a whole half step. -/
def fullScale : Nat := 0xFFFF

def hasFraction (d : Divider) : Bool := d.frac != 0

/-- The contents of the divider register. -/
def word (d : Divider) : Word :=
  PllDivider.frac.put d.frac.toNat (PllDivider.n.put d.n.toNat 0)

/-- `u * v / z`, rounded down; none for `z = 0` and for a quotient of more than 32 bits. -/
def mulDiv (u v z : Nat) : Attempt (Option Nat) := do
  if z = 0 then
    return none
  let quotient ← Checked.div (← Checked.mul 64 u v) z
  return if quotient < UInt32.size then some quotient else none

/-- Greatest common divisor by repeated remainders. -/
def euclid (a b : Nat) : Nat :=
  if _ : b = 0 then a else euclid b (a % b)
termination_by b
decreasing_by exact Nat.mod_lt a (Nat.pos_of_ne_zero ‹_›)

/-- The half steps, which have to fit the 8-bit field. -/
def fitSteps (n : Nat) : Attempt UInt8 :=
  if n < UInt8.size then pure n.toUInt8 else .refuse .multiplierField

theorem mulDiv_eq {u v : Nat} (h : u * v < UInt64.size) (z : Nat) :
    mulDiv u v z =
      .ok (if z = 0 then none else if u * v / z < UInt32.size then some (u * v / z) else none) := by
  have product : Checked.mul 64 u v = .ok (u * v) := Checked.mul_eq h
  unfold mulDiv
  by_cases hz : z = 0
  · simp [hz, pure, Except.pure]
  · simp [hz, product, Checked.div_eq hz, bind, Except.bind, pure, Except.pure]

theorem euclid_eq_gcd (a b : Nat) : euclid a b = a.gcd b := by
  induction b using Nat.strongRecOn generalizing a with
  | _ b ih =>
    rw [euclid]
    split
    · simp_all
    · rename_i h
      rw [ih _ (Nat.mod_lt a (Nat.pos_of_ne_zero h)), Nat.gcd_comm b, ← Nat.gcd_rec, Nat.gcd_comm]

@[simp] theorem get_n_word (d : Divider) : PllDivider.n.get d.word = d.n.toNat := by
  have keep : PllDivider.n.keep d.n.toNat = d.n.toNat := Field.keep_of_lt d.n.toNat_lt rfl
  simp (disch := decide) [word, Field.get_put_of_disjoint, keep]

@[simp] theorem get_frac_word (d : Divider) : PllDivider.frac.get d.word = d.frac.toNat := by
  have keep : PllDivider.frac.keep d.frac.toNat = d.frac.toNat :=
    Field.keep_of_lt d.frac.toNat_lt rfl
  simp [word, keep]

end Divider
end ClockControl
