import ClockControl.Clocks
import ClockControl.Proofs.Pll.Fraction

/-! What the PLLs put out, and where they agree. A frequency is the multiplier times the crystal,
rounded down once, and refused only where that does not fit 32 bits. The audio PLL takes a
multiplier of the system PLL as a fraction over full scale; reducing and rescaling undo each other
there, so that both PLLs have the same half steps, fraction field and frequency. Main statements:
`refused_only_if_too_large` and `asked_of_either_pll`. -/
namespace ClockControl

/-- The attempt gives `f` where that fits 32 bits; a larger one it refuses, for a reason that `P`
allows. -/
structure Attempt.Gives (x : Attempt Hertz) (f : Nat) (P : Reason → Prop) : Prop where
  fits : f < 2 ^ 32 → ∃ g, x = .ok g ∧ g.raw.toNat = f
  large : 2 ^ 32 ≤ f → ∃ reason, x = .refuse reason ∧ P reason

theorem Attempt.Gives.mono {x : Attempt Hertz} {f : Nat} {P Q : Reason → Prop} (h : x.Gives f P)
    (weaker : ∀ reason, P reason → Q reason) : x.Gives f Q where
  fits := h.fits
  large large := by
    obtain ⟨reason, refused, allowed⟩ := h.large large
    exact ⟨reason, refused, weaker reason allowed⟩

/-- The sum is refused as it would be step by step, in words of 32 bits: a product that overflows
makes a sum that does. -/
theorem outputFrequency_eq_checked (n : UInt8) (crystal : Hertz) (fraction : Nat) :
    outputFrequency n crystal fraction =
      match Checked.mul 32 n.toNat crystal.raw.toNat >>= (Checked.add 32 · fraction) with
      | .ok f => pure ⟨f.toUInt32⟩
      | .error _ => .refuse .frequency := by
  by_cases product : n.toNat * crystal.raw.toNat < 2 ^ 32
  · rw [Checked.mul_eq product]
    by_cases sum : n.toNat * crystal.raw.toNat + fraction < 2 ^ 32
    · exact (if_pos sum).trans (by simp [bind, Except.bind, Checked.add_eq sum])
    · have overflow : Checked.add 32 (n.toNat * crystal.raw.toNat) fraction =
          .halt (.overflow .add) := if_neg sum
      exact (if_neg sum).trans (by simp [bind, Except.bind, overflow, Attempt.halt])
  · have sum : ¬n.toNat * crystal.raw.toNat + fraction < 2 ^ 32 := by omega
    have overflow : Checked.mul 32 n.toNat crystal.raw.toNat = .halt (.overflow .multiply) :=
      if_neg product
    rw [overflow]
    exact if_neg sum

/-- What fits 32 bits is given as it is, and the rest refused. -/
theorem outputFrequency_gives (n : UInt8) (crystal : Hertz) (fraction : Nat) :
    (outputFrequency n crystal fraction).Gives (n.toNat * crystal.raw.toNat + fraction)
      (· = .frequency) := by
  constructor
  · intro fits
    exact ⟨_, if_pos fits, UInt32.toNat_ofNat_of_lt' fits⟩
  · intro large
    exact ⟨.frequency, if_neg (Nat.not_lt.2 large), rfl⟩

namespace AudioRatio
variable (r : AudioRatio) (crystal : Hertz)

/-- The multiplier times the crystal, rounded down. A fraction over 0 adds nothing. -/
def output : Nat :=
  if r.d = 0 then r.n.toNat * crystal.raw.toNat
  else (r.n.toNat * r.d.toNat + r.k.toNat) * crystal.raw.toNat / r.d.toNat

/-- The whole part, and what the fraction adds. -/
theorem output_eq : r.output crystal =
    r.n.toNat * crystal.raw.toNat + r.k.toNat * crystal.raw.toNat / r.d.toNat := by
  unfold output
  split
  · rename_i zero
    rw [part_of_whole (.inr zero), Nat.add_zero]
  · rename_i some
    have positive : 0 < r.d.toNat :=
      Nat.pos_of_ne_zero fun zero => some (UInt32.toNat_inj.1 zero)
    rw [Divider.whole_add_part _ _ _ positive]

/-- A fraction that is refused is more than one, and the sum would be too large as well. -/
theorem frequency_gives : (r.frequency crystal).Gives (r.output crystal)
    fun reason => reason = .frequency ∨ reason = .audioFraction ∧ r.d < r.k := by
  rw [output_eq, frequency_eq_of_part]
  split
  · exact (outputFrequency_gives r.n crystal _).mono fun _ => .inl
  · rename_i wide
    have large : 2 ^ 32 ≤ r.k.toNat * crystal.raw.toNat / r.d.toNat := Nat.not_lt.1 wide
    have improper : r.d < r.k := by
      refine UInt32.not_le.1 fun proper => wide ?_
      refine Nat.lt_of_le_of_lt ?_ crystal.raw.toNat_lt
      exact Nat.div_le_of_le_mul (Nat.mul_le_mul_right _ (UInt32.le_iff_toNat_le.1 proper))
    constructor
    · intro fits
      omega
    · intro _
      exact ⟨.audioFraction, rfl, .inr ⟨rfl, improper⟩⟩

end AudioRatio

namespace SystemRatio
variable (r : SystemRatio)

/-- The multiplier times the crystal, rounded down. -/
def output (crystal : Hertz) : Nat :=
  (r.n.toNat * 0xFFFF + r.m.toNat) * crystal.raw.toNat / 0xFFFF

theorem frequency_gives (crystal : Hertz) :
    (r.frequency crystal).Gives (r.output crystal) (· = .frequency) := by
  rw [frequency_eq, output, ← Divider.whole_add_part _ _ _ (by decide)]
  exact outputFrequency_gives r.n crystal _

end SystemRatio

/-- The frequency of either PLL is its multiplier times the crystal, rounded down once. It is
refused only where it does not fit 32 bits, and as an output that overflows: nothing on the way to
it is refused by itself, but for a fraction of the audio PLL that is more than one. -/
theorem refused_only_if_too_large (crystal : Hertz) :
    (∀ r : SystemRatio,
      (r.frequency crystal).Gives (r.output crystal) (· = .frequency)) ∧
    (∀ r : AudioRatio, (r.frequency crystal).Gives (r.output crystal)
      fun reason => reason = .frequency ∨ reason = .audioFraction ∧ r.d < r.k) ∧
    Reason.frequency.text = "PLL output frequency overflows" :=
  ⟨fun r => r.frequency_gives crystal, fun r => r.frequency_gives crystal, rfl⟩

/-- Just below 2^32 Hz and at it: 256 times the crystal, and a fraction of 2^32 - 1. -/
theorem largest_output_accepted :
    (∃ g, SystemRatio.frequency ⟨255, 0xFFFF⟩ ⟨16777215⟩ = .ok g ∧ g.raw = 4294967040) ∧
    SystemRatio.frequency ⟨255, 0xFFFF⟩ ⟨16777216⟩ = .refuse .frequency ∧
    (∃ g, AudioRatio.frequency ⟨0, 4294967295, 1⟩ ⟨1⟩ = .ok g ∧ g.raw = 4294967295) ∧
    ∃ reason, AudioRatio.frequency ⟨1, 4294967295, 1⟩ ⟨1⟩ = .refuse reason := by
  obtain ⟨system, -⟩ := refused_only_if_too_large ⟨16777215⟩
  obtain ⟨system', -⟩ := refused_only_if_too_large ⟨16777216⟩
  obtain ⟨-, audio, -⟩ := refused_only_if_too_large ⟨1⟩
  obtain ⟨g, accepted, value⟩ := (system ⟨255, 0xFFFF⟩).fits (by decide)
  obtain ⟨_, refused, rfl⟩ := (system' ⟨255, 0xFFFF⟩).large (by decide)
  obtain ⟨g', accepted', value'⟩ := (audio ⟨0, 4294967295, 1⟩).fits (by decide)
  obtain ⟨reason, refused', -⟩ := (audio ⟨1, 4294967295, 1⟩).large (by decide)
  exact ⟨⟨g, accepted, UInt32.toNat_inj.1 value⟩, refused,
    ⟨g', accepted', UInt32.toNat_inj.1 value'⟩, reason, refused'⟩

namespace SystemRatio
variable (r : SystemRatio)

/-- The multiplier as one of the audio PLL, its fraction over full scale. -/
def forAudio : AudioRatio := ⟨r.n, r.m.toUInt32, 0xFFFF⟩

theorem forAudio_proper : r.forAudio.k.toNat ≤ r.forAudio.d.toNat := by
  have bound := r.m.toNat_lt
  show r.m.toUInt32.toNat ≤ 65535
  rw [UInt16.toNat_toUInt32]
  omega

theorem forAudio_part : 2 * r.forAudio.part = (2 * r.m.toNat : ℕ) / (Divider.fullScale : ℕ) := by
  have k : r.forAudio.k.toNat = r.m.toNat := UInt16.toNat_toUInt32 r.m
  rw [AudioRatio.part, k, Nat.cast_mul, mul_div_assoc]
  rfl

/-- Full scale is odd, so a doubled fraction never reaches it without passing it. -/
theorem forAudio_carries : 1 ≤ 2 * r.forAudio.part ↔ Divider.fullScale < 2 * r.m.toNat := by
  have positive : (0 : ℚ) < (Divider.fullScale : ℕ) := Nat.cast_pos.2 (by decide)
  have full : Divider.fullScale = 65535 := rfl
  rw [forAudio_part, one_le_div positive, Nat.cast_le]
  omega

theorem forAudio_halfSteps : r.forAudio.halfSteps = r.halfSteps := by
  simp only [AudioRatio.halfSteps, halfSteps, forAudio_carries]
  rfl

theorem forAudio_rest : r.forAudio.rest = r.rest / (Divider.fullScale : ℕ) := by
  have nonzero : ((Divider.fullScale : ℕ) : ℚ) ≠ 0 := Nat.cast_ne_zero.2 (by decide)
  simp only [AudioRatio.rest, rest, forAudio_carries]
  split
  · rename_i carry
    rw [forAudio_part, Nat.cast_sub (Nat.le_of_lt carry), sub_div, div_self nonzero]
  · exact r.forAudio_part

/-- What full scale divides is rescaled to itself. -/
theorem forAudio_rescaled : AudioRatio.rescaled r.forAudio.rest = r.rest := by
  have nonzero : ((Divider.fullScale : ℕ) : ℚ) ≠ 0 := Nat.cast_ne_zero.2 (by decide)
  rw [AudioRatio.rescaled, forAudio_rest, mul_div_cancel₀ _ nonzero, Nat.floor_natCast]

theorem forAudio_narrow : r.forAudio.rest.den ≤ Divider.fullScale := by
  rw [forAudio_rest, AudioRatio.den_div _ (by decide)]
  exact Nat.div_le_self _ _

/-- The divider fields differ in the denominator at most. -/
theorem forAudio_divider : r.forAudio.divider = (do
    return { ← r.divider with den := (r.forAudio.rest.den - 1).toUInt16 }) := by
  have narrow : ¬Divider.fullScale + 1 < r.forAudio.rest.den :=
    Nat.not_lt.2 (Nat.le_succ_of_le r.forAudio_narrow)
  rw [AudioRatio.divider_eq_rest r.forAudio_proper, divider_eq, forAudio_halfSteps,
    forAudio_rescaled]
  simp only [if_neg narrow, bind_assoc, pure_bind]

theorem forAudio_frequency (crystal : Hertz) :
    r.forAudio.frequency crystal = r.frequency crystal := by
  rw [AudioRatio.frequency_eq r.forAudio_proper, frequency_eq]
  show outputFrequency r.n crystal (r.m.toUInt32.toNat * crystal.raw.toNat / 0xFFFF) = _
  rw [UInt16.toNat_toUInt32]
  rfl

/-- A multiplier may be asked of either PLL: both refuse it for its half steps, or both take it with
the same half steps and fraction, and the frequency is the same, refusals included. -/
theorem asked_of_either_pll :
    (127 < r.n.toNat → r.divider = .refuse .multiplierField ∧
      r.forAudio.divider = .refuse .multiplierField) ∧
    (r.n.toNat ≤ 127 → ∃ d d', r.divider = .ok d ∧ r.forAudio.divider = .ok d' ∧
      d'.n = d.n ∧ d'.frac = d.frac ∧ d'.hasFraction = d.hasFraction ∧ d'.word = d.word) ∧
    ∀ crystal, r.forAudio.frequency crystal = r.frequency crystal := by
  refine ⟨?_, ?_, r.forAudio_frequency⟩
  · intro high
    refine ⟨divider_refused high, ?_⟩
    rw [forAudio_divider, divider_refused high]
    rfl
  · intro low
    obtain ⟨d, accepted⟩ := divider_accepted low
    have asked : r.forAudio.divider =
        .ok { d with den := (r.forAudio.rest.den - 1).toUInt16 } := by
      rw [forAudio_divider, accepted]
      rfl
    exact ⟨d, _, accepted, asked, rfl, rfl, rfl, rfl⟩

/-- 0x8000/0xFFFF is a little more than a half: doubled, it makes a half step and leaves
1/0xFFFF. -/
theorem half_asked_of_either : ∃ d d', divider ⟨8, 0x8000⟩ = .ok d ∧
    (forAudio ⟨8, 0x8000⟩).divider = .ok d' ∧ d = ⟨17, 1, 0⟩ ∧ d'.n = 17 ∧ d'.frac = 1 ∧
      (forAudio ⟨8, 0x8000⟩).frequency boardCrystal = .ok ⟨204000183⟩ ∧
      (forAudio ⟨128, 0⟩).divider = .refuse .multiplierField := by
  obtain ⟨-, taken, frequency⟩ := asked_of_either_pll ⟨8, 0x8000⟩
  obtain ⟨refused, -⟩ := asked_of_either_pll ⟨128, 0⟩
  obtain ⟨d, d', accepted, asked, n, frac, -⟩ := taken (by decide)
  have fields : (divider ⟨8, 0x8000⟩).toOption = some ⟨17, 1, 0⟩ := by decide +kernel
  have output : (⟨8, 0x8000⟩ : SystemRatio).frequency boardCrystal = .ok ⟨204000183⟩ := by
    decide +kernel
  rw [accepted] at fields
  have same : d = ⟨17, 1, 0⟩ := Option.some.inj fields
  rw [same] at n frac
  exact ⟨d, d', accepted, asked, same, n, frac, (frequency boardCrystal).trans output,
    (refused (by decide)).2⟩

end SystemRatio
end ClockControl
