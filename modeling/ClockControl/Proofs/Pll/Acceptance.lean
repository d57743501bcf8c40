import ClockControl.Proofs.Pll.Fraction

/-! Which multipliers are accepted. An attempt decides a condition if it has an answer where the
condition holds and is refused elsewhere, so that it never halts; a chain of checks decides the
conditions of its links one after another. Main statements: `SystemRatio.plan_decides` and
`AudioRatio.plan_decides`. -/
namespace ClockControl

namespace Attempt

/-- The attempt has an answer if `P`, and is refused if not. -/
def Decides (x : Attempt α) (P : Prop) : Prop :=
  P ∧ (∃ y, x = .ok y) ∨ ¬P ∧ ∃ reason, x = .refuse reason

namespace Decides
variable {x : Attempt α} {P Q : Prop}

theorem pure (y : α) : (pure y : Attempt α).Decides True := .inl ⟨trivial, y, rfl⟩

theorem congr (h : x.Decides P) (same : P ↔ Q) : x.Decides Q := by
  rwa [propext same] at h

theorem refused_iff (h : x.Decides P) : (∃ reason, x = .refuse reason) ↔ ¬P := by
  obtain ⟨accepted, y, rfl⟩ | ⟨rejected, refused⟩ := h
  · constructor
    · rintro ⟨reason, refused⟩
      cases refused
    · exact fun rejected => absurd accepted rejected
  · exact ⟨fun _ => rejected, fun _ => refused⟩

/-- It fails in no other way. -/
theorem refused_of_error {e : Failure} (h : x.Decides P) (failed : x = .error e) :
    ∃ reason, e = .error (.refused reason) := by
  obtain ⟨-, y, ok⟩ | ⟨-, reason, refused⟩ := h
  · rw [failed] at ok
    cases ok
  · rw [failed] at refused
    cases refused
    exact ⟨reason, rfl⟩

/-- What follows a check is tried only where the check has an answer. -/
theorem bind {f : α → Attempt β} (hx : x.Decides P) (hf : ∀ y, x = .ok y → (f y).Decides Q) :
    (x >>= f).Decides (P ∧ Q) := by
  obtain ⟨accepted, y, rfl⟩ | ⟨rejected, reason, rfl⟩ := hx
  · exact (hf y rfl).congr (and_iff_right accepted).symm
  · exact .inr ⟨fun ⟨accepted, _⟩ => rejected accepted, reason, rfl⟩

/-- A step that always has an answer does not matter. -/
theorem map {f : α → β} (h : x.Decides P) : (do return f (← x)).Decides P :=
  (h.bind fun _ _ => pure _).congr (and_iff_left trivial)

theorem guard {c : Prop} [Decidable c] {reason : Reason} (h : ¬c → x.Decides P) :
    (if c then refuse reason else x).Decides (¬c ∧ P) := by
  by_cases hc : c
  · rw [if_pos hc]
    exact .inr ⟨fun ⟨not, _⟩ => not hc, reason, rfl⟩
  · rw [if_neg hc]
    exact (h hc).congr (and_iff_right hc).symm

/-- An answer or a refusal, by a condition. -/
theorem choice {c : Prop} [Decidable c] (y : α) (reason : Reason) :
    (if c then Pure.pure y else refuse reason : Attempt α).Decides c := by
  by_cases hc : c
  · rw [if_pos hc]
    exact .inl ⟨hc, y, rfl⟩
  · rw [if_neg hc]
    exact .inr ⟨hc, reason, rfl⟩

end Decides
end Attempt

namespace Sequencer

/-- The multipliers that the silicon takes. -/
def Supports (s : Sequencer) (n : UInt8) : Prop :=
  match s with
  | .ramped => 6 ≤ n.toNat ∧ n.toNat ≤ 127
  | .direct => 6 ≤ n.toNat ∧ n.toNat ≤ 10
  | .custom low high => low ≤ n ∧ n ≤ high

instance (s : Sequencer) (n : UInt8) : Decidable (s.Supports n) :=
  match s with
  | .ramped | .direct | .custom _ _ => inferInstanceAs (Decidable (_ ∧ _))

theorem accepts_iff (s : Sequencer) (n : UInt8) : s.accepts n = true ↔ s.Supports n := by
  rw [accepts, Bool.and_eq_true, decide_eq_true_iff, decide_eq_true_iff]
  cases s with
  | ramped => exact and_congr UInt8.le_iff_toNat_le UInt8.le_iff_toNat_le
  | direct => exact and_congr UInt8.le_iff_toNat_le UInt8.le_iff_toNat_le
  | custom low high => exact Iff.rfl

theorem permit_decides (s : Sequencer) (n : UInt8) : (s.permit n).Decides (s.Supports n) :=
  (Attempt.Decides.choice _ _).congr (s.accepts_iff n)

end Sequencer

theorem Divider.fitSteps_decides (n : Nat) : (fitSteps n).Decides (n < UInt8.size) :=
  .choice _ _

theorem outputFrequency_decides (n : UInt8) (crystal : Hertz) (fraction : Nat) :
    (outputFrequency n crystal fraction).Decides
      (n.toNat * crystal.raw.toNat + fraction < UInt32.size) :=
  .choice _ _

namespace SystemRatio
variable (r : SystemRatio) (s : Sequencer) (crystal : Hertz)

/-- Nothing but the half steps can be refused. -/
theorem divider_decides : r.divider.Decides (r.n.toNat ≤ 127) := by
  rw [divider_eq]
  exact (Divider.fitSteps_decides r.halfSteps).map.congr r.halfSteps_lt_iff

theorem frequency_decides : (r.frequency crystal).Decides
    (r.n.toNat * crystal.raw.toNat + r.m.toNat * crystal.raw.toNat / Divider.fullScale <
      UInt32.size) := by
  rw [frequency_eq]
  exact outputFrequency_decides ..

/-- The silicon does not take the multiplier, its half steps do not fit their field, or the output
does not fit 32 bits. -/
def Unfit : Prop :=
  ¬s.Supports r.n ∨ 127 < r.n.toNat ∨
    2 ^ 32 ≤ r.n.toNat * crystal.raw.toNat + r.m.toNat * crystal.raw.toNat / 0xFFFF

theorem plan_decides : (r.plan s crystal).Decides ¬r.Unfit s crystal := by
  have checks : (r.plan s crystal).Decides _ := (s.permit_decides r.n).bind fun _ _ =>
    r.divider_decides.bind fun _ _ => (r.frequency_decides crystal).map
  refine checks.congr ?_
  simp only [Unfit, not_or, not_not, Nat.not_lt, Nat.not_le]
  rfl

end SystemRatio

namespace AudioRatio
variable {r : AudioRatio}

/-- The half steps fit if the multiplier is at most 127, and the fraction if its reduced
denominator does. -/
theorem divider_decides (proper : r.k.toNat ≤ r.d.toNat) : r.divider.Decides (r.n.toNat ≤ 127 ∧
    r.d.toNat / (2 * r.k.toNat).gcd r.d.toNat ≤ Divider.fullScale + 1) := by
  have narrow : ¬Divider.fullScale + 1 < r.rest.den ↔
      r.d.toNat / (2 * r.k.toNat).gcd r.d.toNat ≤ Divider.fullScale + 1 := by
    rw [Nat.not_lt]
    by_cases zero : r.d.toNat = 0
    · have whole : r.rest = 0 := by
        simp [rest, part, zero]
      rw [whole, zero, Nat.zero_div]
      exact iff_of_true (by decide) (Nat.zero_le _)
    · rw [den_rest zero]
  have steps := (Divider.fitSteps_decides r.halfSteps).congr r.halfSteps_lt_iff
  rw [divider_eq_rest proper]
  refine steps.bind fun n _ => ?_
  exact (Attempt.Decides.guard fun _ => .pure _).congr ((and_iff_left trivial).trans narrow)

theorem frequency_decides (proper : r.k.toNat ≤ r.d.toNat) (crystal : Hertz) :
    (r.frequency crystal).Decides
      (r.n.toNat * crystal.raw.toNat + r.k.toNat * crystal.raw.toNat / r.d.toNat <
        UInt32.size) := by
  rw [frequency_eq proper]
  exact outputFrequency_decides ..

/-- The fraction is more than one, the silicon does not take the multiplier, its half steps do not
fit their field, the reduced denominator of its fraction does not, or the output does not fit 32
bits. -/
def Unfit (r : AudioRatio) (s : Sequencer) (crystal : Hertz) : Prop :=
  r.d < r.k ∨ ¬s.Supports r.n ∨ 127 < r.n.toNat ∨
    65536 < r.d.toNat / (2 * r.k.toNat).gcd r.d.toNat ∨
    2 ^ 32 ≤ r.n.toNat * crystal.raw.toNat + r.k.toNat * crystal.raw.toNat / r.d.toNat

theorem plan_decides (r : AudioRatio) (s : Sequencer) (crystal : Hertz) :
    (r.plan s crystal).Decides ¬r.Unfit s crystal := by
  have checks : (r.plan s crystal).Decides _ := .guard fun improper => by
    have proper : r.k.toNat ≤ r.d.toNat := UInt32.le_iff_toNat_le.1 (UInt32.not_lt.1 improper)
    exact (s.permit_decides r.n).bind fun _ _ => (divider_decides proper).bind fun _ _ =>
      (frequency_decides proper crystal).map
  refine checks.congr ?_
  simp only [Unfit, not_or, not_not, Nat.not_lt, Nat.not_le, and_assoc]
  rfl

end AudioRatio
end ClockControl
