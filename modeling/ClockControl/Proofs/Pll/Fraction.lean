import ClockControl.Proofs.Pll.Ratio
import Mathlib.Algebra.Order.Floor.Semifield
import Mathlib.Data.Rat.Floor
import Mathlib.Tactic.FieldSimp
import Mathlib.Tactic.Linarith
import Mathlib.Tactic.LinearCombination

/-! The arithmetic of the audio PLL. The divider fields depend on the value of the fraction alone:
they hold the half steps in the doubled multiplier, what these leave of it rescaled and rounded down,
and its denominator in lowest terms. So the frequency lies between what the fields give and what the
next fraction would give. Main statements: `divider_eq_rest`, `plan_encodes` and
`divider_approximates`. -/
namespace ClockControl.AudioRatio
variable {r : AudioRatio} {d : Divider} {crystal f : Hertz}

/-- The multiplier is `numerator / denominator`, where a fraction over 0 counts as none. -/
def denominator (r : AudioRatio) : Nat := max 1 r.d.toNat

def numerator (r : AudioRatio) : Nat := r.n.toNat * r.denominator + r.k.toNat

theorem denominator_pos (r : AudioRatio) : 0 < r.denominator := Nat.le_max_left 1 _

theorem plan_ok {s : Sequencer} (h : r.plan s crystal = .ok (d, f)) :
    r.k.toNat ≤ r.d.toNat ∧ r.divider = .ok d ∧ r.frequency crystal = .ok f := by
  unfold plan at h
  split at h
  · cases h
  · rename_i proper
    obtain ⟨-, -, h⟩ := Attempt.bind_ok h
    obtain ⟨divider, hd, h⟩ := Attempt.bind_ok h
    obtain ⟨frequency, hf, h⟩ := Attempt.bind_ok h
    cases h
    exact ⟨UInt32.le_iff_toNat_le.1 (UInt32.not_lt.1 proper), hd, hf⟩

/-- A fraction of 0, or over 0, adds nothing. -/
theorem part_of_whole (whole : r.k = 0 ∨ r.d = 0) :
    r.k.toNat * crystal.raw.toNat / r.d.toNat = 0 := by
  obtain zero | zero := whole
  · rw [zero, UInt32.toNat_zero, Nat.zero_mul, Nat.zero_div]
  · rw [zero, UInt32.toNat_zero, Nat.div_zero]

/-- What the fraction adds has to fit 32 bits, and then the sum. -/
theorem frequency_eq_of_part (r : AudioRatio) (crystal : Hertz) : r.frequency crystal =
    if r.k.toNat * crystal.raw.toNat / r.d.toNat < UInt32.size then
      outputFrequency r.n crystal (r.k.toNat * crystal.raw.toNat / r.d.toNat)
    else
      .refuse .audioFraction := by
  unfold frequency
  split
  · rename_i whole
    rw [part_of_whole whole]
    rfl
  · rename_i part
    have positive : r.d.toNat ≠ 0 := fun zero => part (.inr (UInt32.toNat_inj.1 zero))
    have product := Nat.mul_lt_mul_of_lt_of_lt r.k.toNat_lt crystal.raw.toNat_lt
    rw [show 2 ^ 32 * 2 ^ 32 = UInt64.size by decide] at product
    rw [Divider.mulDiv_eq product, if_neg positive]
    split
    · rfl
    · rfl

/-- Nothing but the sum can be refused where the fraction is proper. -/
theorem frequency_eq (proper : r.k.toNat ≤ r.d.toNat) (crystal : Hertz) : r.frequency crystal =
    outputFrequency r.n crystal (r.k.toNat * crystal.raw.toNat / r.d.toNat) := by
  have quotient : r.k.toNat * crystal.raw.toNat / r.d.toNat < UInt32.size := by
    refine Nat.lt_of_le_of_lt ?_ crystal.raw.toNat_lt
    exact Nat.div_le_of_le_mul (Nat.mul_le_mul_right _ proper)
  rw [frequency_eq_of_part, if_pos quotient]

/-- The whole part, and the fractional part rounded down. -/
theorem frequency_ok (h : r.frequency crystal = .ok f) (proper : r.k.toNat ≤ r.d.toNat) :
    f.raw.toNat =
      r.n.toNat * crystal.raw.toNat + r.k.toNat * crystal.raw.toNat / r.d.toNat := by
  rw [frequency_eq proper] at h
  exact outputFrequency_ok h

/-- The whole and the fractional part together, rounded down once. -/
theorem frequency_exact (h : r.frequency crystal = .ok f) (proper : r.k.toNat ≤ r.d.toNat) :
    f.raw.toNat = r.numerator * crystal.raw.toNat / r.denominator := by
  have fraction : r.k.toNat * crystal.raw.toNat / r.d.toNat =
      r.k.toNat * crystal.raw.toNat / r.denominator := by
    rcases Nat.eq_zero_or_pos r.d.toNat with zero | positive
    · have none : r.k.toNat = 0 := by omega
      rw [none, Nat.zero_mul, Nat.zero_div, Nat.zero_div]
    · rw [denominator, Nat.max_eq_right positive]
  rw [frequency_ok h proper, fraction, numerator,
    Divider.whole_add_part _ _ _ r.denominator_pos]

/-- The fraction of the multiplier; none where it is over 0. -/
def part (r : AudioRatio) : ℚ := r.k.toNat / r.d.toNat

/-- The half steps of the multiplier. A doubled fraction of one or more makes one of them. -/
def halfSteps (r : AudioRatio) : Nat :=
  if 1 ≤ 2 * r.part then 2 * r.n.toNat + 1 else 2 * r.n.toNat

/-- What the half steps leave of the doubled fraction. -/
def rest (r : AudioRatio) : ℚ := if 1 ≤ 2 * r.part then 2 * r.part - 1 else 2 * r.part

/-- The fraction of a number, rounded down. -/
theorem part_floor (r : AudioRatio) (c : Nat) :
    r.k.toNat * c / r.d.toNat = ⌊r.part * c⌋₊ := by
  rw [part, div_mul_eq_mul_div, ← Nat.cast_mul, Nat.floor_div_eq_div]

theorem part_nonneg (r : AudioRatio) : 0 ≤ r.part :=
  div_nonneg (Nat.cast_nonneg _) (Nat.cast_nonneg _)

theorem part_le_one (proper : r.k.toNat ≤ r.d.toNat) : r.part ≤ 1 :=
  div_le_one_of_le₀ (Nat.cast_le.2 proper) (Nat.cast_nonneg _)

theorem rest_nonneg (r : AudioRatio) : 0 ≤ r.rest := by
  have part := r.part_nonneg
  unfold rest
  split <;> linarith

theorem rest_le_one (proper : r.k.toNat ≤ r.d.toNat) : r.rest ≤ 1 := by
  have part := part_le_one proper
  unfold rest
  split <;> linarith

/-- Half steps and rest are the doubled multiplier. -/
theorem halfSteps_add_rest (r : AudioRatio) : r.halfSteps + r.rest = 2 * (r.n.toNat + r.part) := by
  unfold halfSteps rest
  split
  · push_cast
    ring
  · push_cast
    ring

theorem halfSteps_lt_iff (r : AudioRatio) : r.halfSteps < UInt8.size ↔ r.n.toNat ≤ 127 :=
  Divider.steps_lt_iff _ _

/-- The fraction makes a half step if its doubled numerator reaches the denominator. -/
theorem one_le_part_iff (proper : r.k.toNat ≤ r.d.toNat) :
    1 ≤ 2 * r.part ↔ 0 < r.k.toNat ∧ r.d.toNat ≤ 2 * r.k.toNat := by
  unfold part
  obtain zero | positive := Nat.eq_zero_or_pos r.d.toNat
  · have none : r.k.toNat = 0 := by omega
    simp [zero, none]
  · have cast : (0 : ℚ) < r.d.toNat := Nat.cast_pos.2 positive
    rw [← mul_div_assoc, one_le_div cast]
    norm_cast
    omega

/-- The denominator of a quotient in lowest terms. -/
theorem den_div (k : Nat) {d : Nat} (h : d ≠ 0) : ((k : ℚ) / d).den = d / k.gcd d := by
  have made : mkRat (k : ℤ) d = (k : ℚ) / d := by
    rw [Rat.mkRat_eq_div]
    rfl
  rw [← made, Rat.den_mkRat, if_neg h, Int.natAbs_natCast, Nat.gcd_comm]

/-- A half step taken off leaves the denominator as it is. -/
theorem den_rest (h : r.d.toNat ≠ 0) :
    r.rest.den = r.d.toNat / (2 * r.k.toNat).gcd r.d.toNat := by
  have doubled : 2 * r.part = (2 * r.k.toNat : ℕ) / r.d.toNat := by
    unfold part
    push_cast
    ring
  unfold rest
  rw [doubled]
  split
  · rw [← Nat.cast_one (R := ℚ), Rat.sub_natCast_den, den_div _ h]
  · exact den_div _ h

/-- Carrying splits the doubled multiplier into half steps and the rest. -/
theorem carried_rest (proper : r.k.toNat ≤ r.d.toNat) : ∃ k, r.carried = .ok (r.halfSteps, k) ∧
    k ≤ r.d.toNat ∧ r.rest = k / r.d.toNat := by
  have carries := one_le_part_iff proper
  rw [carried_eq]
  unfold halfSteps rest
  by_cases carry : 1 ≤ 2 * r.part
  · obtain ⟨some, enough⟩ := carries.1 carry
    have positive : (r.d.toNat : ℚ) ≠ 0 := Nat.cast_ne_zero.2 (by omega)
    refine ⟨2 * r.k.toNat - r.d.toNat, ?_, by omega, ?_⟩
    · rw [if_pos carry]
      by_cases half : 2 * r.k.toNat = r.d.toNat
      · rw [if_pos ⟨by omega, half⟩, half, Nat.sub_self]
      · rw [if_neg (by omega), if_pos (by omega)]
    · rw [if_pos carry, part, Nat.cast_sub enough]
      push_cast
      field_simp
  · have below : ¬(0 < r.k.toNat ∧ r.d.toNat ≤ 2 * r.k.toNat) := fun h => carry (carries.2 h)
    refine ⟨2 * r.k.toNat, ?_, by omega, ?_⟩
    · rw [if_neg carry, if_neg (by omega), if_neg (by omega)]
    · rw [if_neg carry, part]
      push_cast
      ring

/-- The number that is found for the fraction field. -/
def rescaled (q : ℚ) : Nat := ⌊Divider.fullScale * q⌋₊

theorem rescaled_le {q : ℚ} (h : q ≤ 1) : rescaled q ≤ Divider.fullScale := by
  have scaled : Divider.fullScale * q ≤ Divider.fullScale :=
    mul_le_of_le_one_right (Nat.cast_nonneg _) h
  exact (Nat.floor_le_floor scaled).trans_eq (Nat.floor_natCast _)

/-- A proper fraction comes to its value in lowest terms. -/
theorem fraction_eq {k d : Nat} (part : k ≠ 0) (proper : k ≤ d) : fraction k d =
    if Divider.fullScale + 1 < ((k : ℚ) / d).den then
      .refuse .audioDenominator
    else
      pure ((rescaled (k / d)).toUInt16, (((k : ℚ) / d).den - 1).toUInt16) := by
  have positive : 0 < k.gcd d := Nat.gcd_pos_of_pos_left d (Nat.pos_of_ne_zero part)
  have whole : 1 ≤ d / k.gcd d :=
    Nat.div_pos (Nat.le_of_dvd (by omega) (Nat.gcd_dvd_right k d)) positive
  have reduced : k / k.gcd d ≤ d / k.gcd d := Nat.div_le_div_right proper
  have value : rescaled (k / d) = k / k.gcd d * Divider.fullScale / (d / k.gcd d) := by
    rw [← Nat.mul_div_mul_right _ _ positive, Nat.div_mul_cancel (Nat.gcd_dvd_right k d),
      Nat.mul_right_comm, Nat.div_mul_cancel (Nat.gcd_dvd_left k d), rescaled, ← mul_div_assoc,
      ← Nat.cast_mul, Nat.floor_div_eq_div, Nat.mul_comm]
  rw [den_div k (by omega), value, fraction, Divider.euclid_eq_gcd]
  simp only [Checked.div_eq (Nat.ne_of_gt positive), bind, Except.bind]
  split
  · rfl
  · rename_i narrow
    have product : k / k.gcd d * Divider.fullScale < UInt64.size := by
      simp only [Divider.fullScale, UInt64.size] at narrow ⊢
      omega
    have quotient : k / k.gcd d * Divider.fullScale / (d / k.gcd d) < UInt32.size := by
      refine Nat.lt_of_le_of_lt ?_ (show Divider.fullScale < UInt32.size by decide)
      exact Nat.div_le_of_le_mul (Nat.mul_le_mul_right _ reduced)
    simp only [Divider.mulDiv_eq product, if_neg (Nat.ne_of_gt whole), if_pos quotient,
      Checked.sub_eq whole]

/-- The divider fields are a matter of the half steps and the rest. Where nothing is left the
denominator is 1, and the fields come out as those of a whole number. -/
theorem divider_eq_rest (proper : r.k.toNat ≤ r.d.toNat) : r.divider = (do
    let n ← Divider.fitSteps r.halfSteps
    if Divider.fullScale + 1 < r.rest.den then
      .refuse .audioDenominator
    else
      return ⟨n, (rescaled r.rest).toUInt16, (r.rest.den - 1).toUInt16⟩) := by
  obtain ⟨k, carried, bound, rest⟩ := carried_rest proper
  have small : k < UInt32.size := Nat.lt_of_le_of_lt bound r.d.toNat_lt
  rw [divider, carried]
  refine congrArg (Divider.fitSteps r.halfSteps >>= ·) (funext fun n => ?_)
  by_cases none : k = 0
  · have nothing : r.rest = 0 := by
      rw [rest, none, Nat.cast_zero, zero_div]
    rw [if_pos none, nothing, if_neg (by decide), rescaled, mul_zero, Nat.floor_zero]
    rfl
  · rw [if_neg none, Nat.mod_eq_of_lt small, fraction_eq none bound, rest]
    split
    · rfl
    · rfl

/-- The fields hold the numbers that were found for them, and nothing of them is cut off: the half
steps, the rest rescaled and rounded down, and the denominator of the rest less one. -/
structure Holds (r : AudioRatio) (d : Divider) : Prop where
  steps : d.n.toNat = r.halfSteps
  frac : d.frac.toNat = rescaled r.rest
  den : d.den.toNat + 1 = r.rest.den

/-- What is accepted fits the fields as it is. -/
theorem holds_of_ok (h : r.divider = .ok d) (proper : r.k.toNat ≤ r.d.toNat) :
    r.Holds d ∧ r.rest.den ≤ Divider.fullScale + 1 := by
  rw [divider_eq_rest proper] at h
  obtain ⟨n, steps, h⟩ := Attempt.bind_ok h
  split at h
  · cases h
  · rename_i narrow
    cases h
    have frac := rescaled_le (rest_le_one proper)
    have den := r.rest.den_pos
    have fits : rescaled r.rest < UInt16.size := Nat.lt_of_le_of_lt frac (by decide)
    have fits' : r.rest.den - 1 < UInt16.size := by
      simp only [Divider.fullScale, UInt16.size] at narrow ⊢
      omega
    refine ⟨⟨Divider.fitSteps_ok steps, UInt16.toNat_ofNat_of_lt' fits, ?_⟩, Nat.not_lt.1 narrow⟩
    calc (r.rest.den - 1).toUInt16.toNat + 1
        = r.rest.den - 1 + 1 := congrArg (· + 1) (UInt16.toNat_ofNat_of_lt' fits')
      _ = r.rest.den := Nat.sub_add_cancel den

/-- The fields hold the doubled multiplier, rounded down. -/
theorem Holds.floor (h : r.Holds d) : d.n.toNat * Divider.fullScale + d.frac.toNat =
    ⌊2 * Divider.fullScale * (r.n.toNat + r.part)⌋₊ := by
  have scaled : 2 * Divider.fullScale * (r.n.toNat + r.part) =
      Divider.fullScale * r.rest + (r.halfSteps * Divider.fullScale : ℕ) := by
    push_cast
    linear_combination (-(Divider.fullScale : ℚ)) * r.halfSteps_add_rest
  have positive : 0 ≤ Divider.fullScale * r.rest := mul_nonneg (Nat.cast_nonneg _) r.rest_nonneg
  rw [scaled, Nat.floor_add_natCast positive, h.steps, h.frac, rescaled, Nat.add_comm]

/-- The multiplier as a number. -/
theorem numerator_div (proper : r.k.toNat ≤ r.d.toNat) :
    (r.numerator : ℚ) / r.denominator = r.n.toNat + r.part := by
  have positive : (r.denominator : ℚ) ≠ 0 := Nat.cast_ne_zero.2 (Nat.ne_of_gt r.denominator_pos)
  have part : (r.k.toNat : ℚ) / r.denominator = r.part := by
    obtain zero | some := Nat.eq_zero_or_pos r.d.toNat
    · have none : r.k.toNat = 0 := by omega
      rw [AudioRatio.part, none, Nat.cast_zero, zero_div, zero_div]
    · rw [AudioRatio.part, denominator, Nat.max_eq_right some]
  rw [numerator, Nat.cast_add, Nat.cast_mul, add_div, mul_div_cancel_right₀ _ positive, part]

/-- The same in whole numbers. -/
theorem divider_floor (h : r.divider = .ok d) (proper : r.k.toNat ≤ r.d.toNat) :
    d.n.toNat * Divider.fullScale + d.frac.toNat =
      2 * r.numerator * Divider.fullScale / r.denominator := by
  have scaled : 2 * Divider.fullScale * (r.n.toNat + r.part) =
      (2 * r.numerator * Divider.fullScale : ℕ) / r.denominator := by
    rw [← numerator_div proper]
    push_cast
    ring
  rw [(holds_of_ok h proper).1.floor, scaled, Nat.floor_div_eq_div]

/-- The divider register of a plan encodes its frequency up to the rounding of its fraction. -/
theorem plan_encodes {s : Sequencer} (h : r.plan s crystal = .ok (d, f)) :
    Divider.frequencyOf d.word crystal ≤ f.raw.toNat ∧
      (0 < f.raw.toNat → f.raw.toNat * 131070 <
        (Divider.multiplierOf d.word + 1) * crystal.raw.toNat) := by
  obtain ⟨proper, divider, frequency⟩ := plan_ok h
  have multiplier : Divider.multiplierOf d.word = 2 * r.numerator * 65535 / r.denominator :=
    (Divider.multiplierOf_word d).trans (divider_floor divider proper)
  have below : Divider.multiplierOf d.word * r.denominator ≤ 2 * r.numerator * 65535 := by
    rw [multiplier]
    exact Nat.div_mul_le_self _ _
  have above : 2 * r.numerator * 65535 < r.denominator * (Divider.multiplierOf d.word + 1) := by
    rw [multiplier]
    exact Nat.lt_mul_div_succ _ r.denominator_pos
  have output : f.raw.toNat * r.denominator ≤ r.numerator * crystal.raw.toNat := by
    rw [frequency_exact frequency proper]
    exact Nat.div_mul_le_self _ _
  constructor
  · rw [frequency_exact frequency proper, Nat.le_div_iff_mul_le r.denominator_pos]
    refine Nat.le_of_mul_le_mul_left ?_ (show 0 < 131070 by decide)
    calc 131070 * (Divider.frequencyOf d.word crystal * r.denominator)
        = Divider.frequencyOf d.word crystal * 131070 * r.denominator := by ring
      _ ≤ Divider.multiplierOf d.word * crystal.raw.toNat * r.denominator :=
        Nat.mul_le_mul_right _ (Nat.div_mul_le_self _ _)
      _ = Divider.multiplierOf d.word * r.denominator * crystal.raw.toNat := by ring
      _ ≤ 2 * r.numerator * 65535 * crystal.raw.toNat := Nat.mul_le_mul_right _ below
      _ = 131070 * (r.numerator * crystal.raw.toNat) := by ring
  · intro running
    have crystal_pos : 0 < crystal.raw.toNat := by
      refine Nat.pos_of_ne_zero fun zero => ?_
      rw [frequency_exact frequency proper, zero, Nat.mul_zero, Nat.zero_div] at running
      exact Nat.lt_irrefl 0 running
    refine Nat.lt_of_mul_lt_mul_left (a := r.denominator) ?_
    calc r.denominator * (f.raw.toNat * 131070)
        = f.raw.toNat * r.denominator * 131070 := by ring
      _ ≤ r.numerator * crystal.raw.toNat * 131070 := Nat.mul_le_mul_right _ output
      _ = 2 * r.numerator * 65535 * crystal.raw.toNat := by ring
      _ < r.denominator * (Divider.multiplierOf d.word + 1) * crystal.raw.toNat :=
        Nat.mul_lt_mul_of_pos_right above crystal_pos
      _ = r.denominator * ((Divider.multiplierOf d.word + 1) * crystal.raw.toNat) := by ring

/-- The fields of an accepted multiplier hold it to the last bit of the fraction, rounded down. The
half steps are those of the doubled multiplier, the denominator is that of the doubled fraction in
lowest terms, and no field is cut off. -/
theorem divider_approximates (proper : r.k.toNat ≤ r.d.toNat) (h : r.divider = .ok d) :
    let multiplier : ℚ := r.n.toNat + r.k.toNat / r.d.toNat
    let fields : ℚ := d.n.toNat * 65535 + d.frac.toNat
    fields ≤ 131070 * multiplier ∧ 131070 * multiplier < fields + 1 ∧
      (d.n.toNat = if 0 < r.k.toNat ∧ r.d.toNat ≤ 2 * r.k.toNat then 2 * r.n.toNat + 1
        else 2 * r.n.toNat) ∧
      (0 < r.k.toNat → d.den.toNat + 1 = r.d.toNat / (2 * r.k.toNat).gcd r.d.toNat) ∧
      r.Holds d := by
  intro multiplier fields
  obtain ⟨holds, -⟩ := holds_of_ok h proper
  have sum : fields = ⌊131070 * multiplier⌋₊ := by
    have scale : (2 * Divider.fullScale : ℚ) = 131070 := by norm_num [Divider.fullScale]
    have floor := holds.floor
    rw [scale] at floor
    rw [show (131070 * multiplier) = 131070 * (r.n.toNat + r.part) from rfl, ← floor]
    push_cast [Divider.fullScale]
    rfl
  have positive : 0 ≤ 131070 * multiplier :=
    mul_nonneg (by norm_num) (add_nonneg (Nat.cast_nonneg _) r.part_nonneg)
  refine ⟨?_, ?_, ?_, ?_, holds⟩
  · rw [sum]
    exact Nat.floor_le positive
  · rw [sum]
    exact Nat.lt_floor_add_one _
  · rw [holds.steps, halfSteps]
    simp only [one_le_part_iff proper]
  · intro some
    rw [holds.den, den_rest (by omega)]

/-- The doubled fraction 98305/65536 has the largest denominator that fits, and makes a half step of
which 32769/65536 are left. -/
theorem largest_denominator_kept :
    let r : AudioRatio := ⟨7, 98305, 131072⟩
    let d : Divider := ⟨15, 32768, 65535⟩
    r.k.toNat ≤ r.d.toNat ∧ r.divider = .ok d ∧
      (15 * 65535 + 32768 : ℚ) ≤ 131070 * (7 + 98305 / 131072) ∧
      131070 * (7 + 98305 / 131072) < (15 * 65535 + 32768 : ℚ) + 1 ∧
      65535 + 1 = 131072 / (2 * 98305 : ℕ).gcd 131072 ∧ r.Holds d := by
  intro r d
  have proper : r.k.toNat ≤ r.d.toNat := by decide
  have accepted : r.divider = .ok d := by decide +kernel
  obtain ⟨below, above, -, den, holds⟩ := divider_approximates proper accepted
  refine ⟨proper, accepted, ?_, ?_, den (by decide), holds⟩
  · simpa [r, d] using below
  · simpa [r, d] using above

end ClockControl.AudioRatio
