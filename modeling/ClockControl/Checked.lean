import ClockControl.Failure

/-! Arithmetic on machine words that halts where the result leaves the word, instead of
wrapping. Operands and results are natural numbers; `width` is the size of the word. -/
namespace ClockControl.Checked

-- The power of the core library, whatever else is imported.
attribute [local instance (high)] instPowNat instNatPowNat

def add (width a b : Nat) : Attempt Nat :=
  if a + b < 2 ^ width then pure (a + b) else .halt (.overflow .add)

def sub (a b : Nat) : Attempt Nat :=
  if b ≤ a then pure (a - b) else .halt (.overflow .subtract)

def mul (width a b : Nat) : Attempt Nat :=
  if a * b < 2 ^ width then pure (a * b) else .halt (.overflow .multiply)

def div (a b : Nat) : Attempt Nat :=
  if b = 0 then .halt .divideByZero else pure (a / b)

theorem add_eq {width a b : Nat} (h : a + b < 2 ^ width) : add width a b = .ok (a + b) :=
  if_pos h

theorem sub_eq {a b : Nat} (h : b ≤ a) : sub a b = .ok (a - b) := if_pos h

theorem mul_eq {width a b : Nat} (h : a * b < 2 ^ width) : mul width a b = .ok (a * b) :=
  if_pos h

theorem div_eq {a b : Nat} (h : b ≠ 0) : div a b = .ok (a / b) := if_neg h

end ClockControl.Checked
