import ClockControl.Proofs.Pll.Fraction
import Mathlib.Data.Nat.Fib.Basic

/-! Lowest terms. Euclid's loop never divides by 0 and comes to its end in words of 32 bits: the
remainders fall at least as fast as the Fibonacci numbers, which leave room for 46 passes. What it
ends with is the greatest common divisor, so the audio PLL reduces the fraction that the carry
leaves to lowest terms of the same value. Main statement: `euclid_reduces`. -/
namespace ClockControl

namespace Divider
variable {a b : UInt32}

/-- One pass of Euclid's loop, in words of 32 bits. -/
def euclidPass (a b : UInt32) : Attempt (UInt32 × UInt32) :=
  if b = 0 then .halt .divideByZero else pure (b, a % b)

/-- What Euclid's loop ends with, if it comes to its end within so many passes. -/
def euclidLoop : Nat → UInt32 → UInt32 → Attempt (Option UInt32)
  | 0, a, b => pure (if b = 0 then some a else none)
  | n + 1, a, b =>
    if b = 0 then
      pure (some a)
    else do
      let (a, b) ← euclidPass a b
      euclidLoop n a b

/-- The most passes that two words of 32 bits can take. -/
def passLimit : Nat := 46

/-- `p / q` is `k / d` in lowest terms. -/
structure Reduced (k d p q : Nat) : Prop where
  coprime : p.Coprime q
  numerator : 0 < p
  denominator : 0 < q
  ratio : p * d = k * q

theorem reduced {k d : Nat} (hk : 0 < k) (hd : 0 < d) :
    Reduced k d (k / euclid k d) (d / euclid k d) := by
  rw [euclid_eq_gcd]
  have positive : 0 < k.gcd d := Nat.gcd_pos_of_pos_left d hk
  constructor
  · exact Nat.coprime_div_gcd_div_gcd positive
  · exact Nat.div_pos (Nat.le_of_dvd hk (Nat.gcd_dvd_left k d)) positive
  · exact Nat.div_pos (Nat.le_of_dvd hd (Nat.gcd_dvd_right k d)) positive
  · calc k / k.gcd d * d = k * d / k.gcd d := Nat.div_mul_right_comm (Nat.gcd_dvd_left k d) d
      _ = k * (d / k.gcd d) := Nat.mul_div_assoc k (Nat.gcd_dvd_right k d)

/-- So many passes are enough, and the loop ends with the divisor that is found. -/
def Ends (n : Nat) (a b : UInt32) : Prop :=
  ∃ g, euclidLoop n a b = .ok (some g) ∧ g.toNat = euclid a.toNat b.toNat

theorem toNat_pos {w : UInt32} (h : w ≠ 0) : 0 < w.toNat :=
  Nat.pos_of_ne_zero fun zero => h (UInt32.toNat_inj.1 zero)

theorem ends_of_zero (n : Nat) (a : UInt32) : Ends n a 0 := by
  refine ⟨a, ?_, ?_⟩
  · cases n <;> rfl
  · rw [euclid]
    rfl

/-- A pass divides by the second word, which is not 0, and keeps the common divisors. -/
theorem ends_of_pass {n : Nat} (h : b ≠ 0) (rest : Ends n b (a % b)) : Ends (n + 1) a b := by
  obtain ⟨g, ends, divisor⟩ := rest
  have passed : euclidPass a b = .ok (b, a % b) := if_neg h
  have positive : b.toNat ≠ 0 := Nat.ne_of_gt (toNat_pos h)
  refine ⟨g, ?_, ?_⟩
  · rw [euclidLoop, if_neg h, passed]
    exact ends
  · rw [divisor, UInt32.toNat_mod, euclid.eq_def a.toNat, dif_neg positive]

/-- The first word holds the second at least once, and the remainder beside it. -/
theorem add_mod_le {a b : Nat} (order : b ≤ a) : b + a % b ≤ a := by
  have rest : a % b ≤ a - b := by
    rw [Nat.mod_eq_sub_mod order]
    exact Nat.mod_le _ _
  omega

/-- A loop that has passes left to make started from words no smaller than Fibonacci numbers. -/
theorem ends_of_small {n : Nat} (order : b.toNat < a.toNat)
    (small : a.toNat < Nat.fib (n + 3) ∨ b.toNat < Nat.fib (n + 2)) : Ends n a b := by
  induction n generalizing a b with
  | zero =>
    have first : Nat.fib 2 = 1 ∧ Nat.fib 3 = 2 := by decide
    simp only [Nat.zero_add, first] at small
    have zero : b = 0 := UInt32.toNat_inj.1 (show b.toNat = 0 by omega)
    rw [zero]
    exact ends_of_zero 0 a
  | succ n ih =>
    by_cases zero : b = 0
    · rw [zero]
      exact ends_of_zero _ a
    · have rest : (a % b).toNat = a.toNat % b.toNat := UInt32.toNat_mod a b
      have below : a.toNat % b.toNat < b.toNat := Nat.mod_lt _ (toNat_pos zero)
      have holds := add_mod_le (Nat.le_of_lt order)
      have small : a.toNat < Nat.fib (n + 2) + Nat.fib (n + 3) ∨ b.toNat < Nat.fib (n + 3) := by
        rwa [← Nat.fib_add_two]
      refine ends_of_pass zero (ih ?_ ?_)
      · rwa [rest]
      · -- If the second word is not small enough, the remainder beside it is.
        rw [rest]
        omega

/-- The Fibonacci number of `passLimit + 2` is the first that does not fit a word. Words in the
wrong order take one pass to change places. -/
theorem ends_within_limit (a b : UInt32) : Ends passLimit a b := by
  have limit : (2 : Nat) ^ 32 ≤ Nat.fib 48 := by decide +kernel
  by_cases zero : b = 0
  · rw [zero]
    exact ends_of_zero _ a
  · have order : (a % b).toNat < b.toNat := by
      rw [UInt32.toNat_mod]
      exact Nat.mod_lt _ (toNat_pos zero)
    have small : b.toNat < Nat.fib (45 + 3) := Nat.lt_of_lt_of_le b.toNat_lt limit
    exact ends_of_pass zero (ends_of_small order (.inl small))

/-- What the loop ends with is not 0, so that both words can be divided by it. -/
theorem divided_reduced {k d : Nat} (hk : 0 < k) (hd : 0 < d) :
    ∃ p q, Checked.div k (euclid k d) = .ok p ∧ Checked.div d (euclid k d) = .ok q ∧
      Reduced k d p q := by
  have nonzero : euclid k d ≠ 0 := by
    rw [euclid_eq_gcd]
    exact Nat.gcd_ne_zero_left (Nat.ne_of_gt hk)
  exact ⟨_, _, Checked.div_eq nonzero, Checked.div_eq nonzero, reduced hk hd⟩

/-- Euclid's loop never divides by 0 and ends in at most 46 passes, with a common divisor that all
common divisors divide. A fraction that is divided by it is in lowest terms; and what the carry
leaves to the audio PLL is a proper fraction. -/
theorem euclid_reduces :
    (∀ a b : UInt32, let g := euclid a.toNat b.toNat
      (∃ w, euclidLoop passLimit a b = .ok (some w) ∧ w.toNat = g) ∧ g ∣ a.toNat ∧ g ∣ b.toNat ∧
      (∀ c, c ∣ a.toNat → c ∣ b.toNat → c ∣ g) ∧ (g = 0 ↔ a = 0 ∧ b = 0)) ∧
    (∀ k d : Nat, 0 < k → k ≤ d → ∃ p q, Checked.div k (euclid k d) = .ok p ∧
      Checked.div d (euclid k d) = .ok q ∧ Reduced k d p q) ∧
    ∀ r : AudioRatio, r.k ≤ r.d → ∃ n k, r.carried = .ok (n, k) ∧ k ≤ r.d.toNat := by
  refine ⟨?_, ?_, ?_⟩
  · intro a b g
    have divisor : g = a.toNat.gcd b.toNat := euclid_eq_gcd _ _
    have zero (w : UInt32) : w.toNat = 0 ↔ w = 0 := UInt32.toNat_inj (b := 0)
    refine ⟨ends_within_limit a b, ?_⟩
    rw [divisor, Nat.gcd_eq_zero_iff, zero, zero]
    exact ⟨Nat.gcd_dvd_left _ _, Nat.gcd_dvd_right _ _, fun c => Nat.dvd_gcd, Iff.rfl⟩
  · intro k d some proper
    exact divided_reduced some (Nat.lt_of_lt_of_le some proper)
  · intro r proper
    obtain ⟨k, carried, bound, -⟩ := AudioRatio.carried_rest (UInt32.le_iff_toNat_le.1 proper)
    exact ⟨_, k, carried, bound⟩

/-- Two Fibonacci numbers in the wrong order take all of the passes. -/
theorem slowest_words_reduced :
    euclidLoop 45 1836311903 2971215073 = .ok none ∧
    (∃ w, euclidLoop passLimit 1836311903 2971215073 = .ok (some w) ∧ w = 1) ∧
    (∃ p q, Checked.div 12 (euclid 12 18) = .ok p ∧ Checked.div 18 (euclid 12 18) = .ok q ∧
      Reduced 12 18 p q) ∧
    ∃ n k, AudioRatio.carried ⟨8, 3, 4⟩ = .ok (n, k) ∧ k ≤ 4 := by
  obtain ⟨ends, lowest, carry⟩ := euclid_reduces
  obtain ⟨⟨w, ended, divisor⟩, -⟩ := ends 1836311903 2971215073
  have one : euclid 1836311903 2971215073 = 1 := by
    rw [euclid_eq_gcd]
    decide
  refine ⟨by decide +kernel, ⟨w, ended, UInt32.toNat_inj.1 (divisor.trans one)⟩,
    lowest 12 18 (by decide) (by decide), carry ⟨8, 3, 4⟩ (by decide)⟩

end Divider
end ClockControl
