import ClockControl.Pll.Sequencer

/-! The arithmetic of the system PLL. Doubling and carrying lose nothing: the multiplier can be read
back from the divider fields, and they give the frequency that was computed from it. Main
statements: `plan_encodes` and `divider_lossless`. -/
namespace ClockControl

namespace Divider

/-- The frequency that the fields of the system PLL's divider register give. -/
def frequencyOf (control : Word) (crystal : Hertz) : Nat :=
  (PllDivider.n.get control * 65535 + PllDivider.frac.get control) * crystal.raw.toNat / 131070

/-- The half steps in the fields of the divider register, in units of 1/65535. -/
def multiplierOf (control : Word) : Nat :=
  PllDivider.n.get control * 65535 + PllDivider.frac.get control

@[simp] theorem multiplierOf_word (d : Divider) :
    multiplierOf d.word = d.n.toNat * 65535 + d.frac.toNat := by
  rw [multiplierOf, get_n_word, get_frac_word]

/-- Half steps that fit their field are kept as they are. -/
theorem fitSteps_ok {n : Nat} {field : UInt8} (h : fitSteps n = .ok field) : field.toNat = n := by
  unfold fitSteps at h
  split at h
  · rename_i fits
    cases h
    exact UInt8.toNat_ofNat_of_lt' fits
  · cases h

/-- With or without a carry, the half steps fit if the multiplier is at most 127. -/
theorem steps_lt_iff (carry : Prop) [Decidable carry] (n : Nat) :
    (if carry then 2 * n + 1 else 2 * n) < UInt8.size ↔ n ≤ 127 := by
  simp only [UInt8.size]
  split <;> omega

/-- A whole part and a part rounded down are both together rounded down once. -/
theorem whole_add_part (n k c : Nat) {d : Nat} (h : 0 < d) :
    n * c + k * c / d = (n * d + k) * c / d := by
  rw [Nat.add_mul, Nat.mul_right_comm, Nat.add_comm (_ * d), Nat.add_mul_div_right _ _ h,
    Nat.add_comm]

end Divider

/-- An output frequency that is accepted is the sum of its parts. -/
theorem outputFrequency_ok {n : UInt8} {crystal f : Hertz} {fraction : Nat}
    (h : outputFrequency n crystal fraction = .ok f) :
    f.raw.toNat = n.toNat * crystal.raw.toNat + fraction := by
  unfold outputFrequency at h
  simp only at h
  split at h
  · rename_i fits
    cases h
    exact UInt32.toNat_ofNat_of_lt' fits
  · cases h

namespace SystemRatio
variable {r : SystemRatio} {d : Divider} {crystal f : Hertz}

/-- The half steps of the multiplier. A doubled fraction above full scale makes one of them. -/
def halfSteps (r : SystemRatio) : Nat :=
  if Divider.fullScale < 2 * r.m.toNat then 2 * r.n.toNat + 1 else 2 * r.n.toNat

/-- What the half steps leave of the doubled fraction. -/
def rest (r : SystemRatio) : Nat :=
  if Divider.fullScale < 2 * r.m.toNat then 2 * r.m.toNat - Divider.fullScale else 2 * r.m.toNat

theorem halfSteps_lt_iff (r : SystemRatio) : r.halfSteps < UInt8.size ↔ r.n.toNat ≤ 127 :=
  Divider.steps_lt_iff _ _

theorem rest_lt (r : SystemRatio) : r.rest < UInt16.size := by
  have hm := r.m.toNat_lt
  have full : Divider.fullScale = 65535 := rfl
  rw [rest, UInt16.size]
  split <;> omega

/-- Half steps and rest are the doubled multiplier. -/
theorem halfSteps_add_rest (r : SystemRatio) :
    r.halfSteps * Divider.fullScale + r.rest =
      2 * (r.n.toNat * Divider.fullScale + r.m.toNat) := by
  have full : Divider.fullScale = 65535 := rfl
  unfold halfSteps rest
  split
  · rw [full] at *
    omega
  · rw [full] at *
    omega

/-- A doubled fraction is even, and what a half step leaves of it is odd. -/
theorem rest_eq_zero_iff (r : SystemRatio) : r.rest = 0 ↔ r.m = 0 := by
  have none : r.m = 0 ↔ r.m.toNat = 0 := UInt16.toNat_inj.symm
  have full : Divider.fullScale = 65535 := rfl
  rw [none, rest]
  split <;> omega

/-- The divider fields are the half steps and the rest. -/
theorem divider_eq (r : SystemRatio) : r.divider = (do
    return ⟨← Divider.fitSteps r.halfSteps, r.rest.toUInt16, 0⟩) := by
  have hn := r.n.toNat_lt
  have hm := r.m.toNat_lt
  simp only [divider, halfSteps, rest, Checked.mul_eq (show r.n.toNat * 2 < 2 ^ 32 by omega),
    Checked.mul_eq (show r.m.toNat * 2 < 2 ^ 32 by omega), Nat.mul_comm _ 2, bind, Except.bind,
    Checked.add_eq (show 2 * r.n.toNat + 1 < 2 ^ 32 by omega)]
  split
  · rw [Checked.sub_eq (by omega)]
  · rfl

theorem divider_refused (high : 127 < r.n.toNat) : r.divider = .refuse .multiplierField := by
  have steps : ¬r.halfSteps < UInt8.size := mt r.halfSteps_lt_iff.1 (Nat.not_le.2 high)
  rw [divider_eq, Divider.fitSteps, if_neg steps]
  rfl

theorem divider_accepted (low : r.n.toNat ≤ 127) : ∃ d, r.divider = .ok d := by
  rw [divider_eq, Divider.fitSteps, if_pos (r.halfSteps_lt_iff.2 low)]
  exact ⟨_, rfl⟩

/-- Fields that are accepted hold the numbers that they were made of. -/
theorem divider_ok (h : r.divider = .ok d) :
    d.n.toNat = r.halfSteps ∧ d.frac.toNat = r.rest ∧ d.den = 0 := by
  rw [divider_eq] at h
  obtain ⟨n, steps, h⟩ := Attempt.bind_ok h
  cases h
  exact ⟨Divider.fitSteps_ok steps, UInt16.toNat_ofNat_of_lt' r.rest_lt, rfl⟩

/-- The fields hold the doubled multiplier exactly. -/
theorem divider_exact (h : r.divider = .ok d) :
    d.n.toNat * Divider.fullScale + d.frac.toNat =
      2 * (r.n.toNat * Divider.fullScale + r.m.toNat) := by
  obtain ⟨steps, frac, -⟩ := divider_ok h
  rw [steps, frac, halfSteps_add_rest]

/-- The system PLL has no denominator. -/
theorem divider_den (h : r.divider = .ok d) : d.den = 0 := (divider_ok h).2.2

/-- The whole part, and the fractional part rounded down. -/
theorem frequency_ok (h : r.frequency crystal = .ok f) : f.raw.toNat =
    r.n.toNat * crystal.raw.toNat + r.m.toNat * crystal.raw.toNat / Divider.fullScale := by
  rw [frequency_eq] at h
  exact outputFrequency_ok h

/-- The whole and the fractional part together, rounded down once. -/
theorem frequency_exact (h : r.frequency crystal = .ok f) : f.raw.toNat =
    (r.n.toNat * Divider.fullScale + r.m.toNat) * crystal.raw.toNat / Divider.fullScale := by
  rw [frequency_ok h, Divider.whole_add_part _ _ _ (by decide)]

theorem plan_ok {s : Sequencer} (h : r.plan s crystal = .ok (d, f)) :
    r.divider = .ok d ∧ r.frequency crystal = .ok f := by
  unfold plan at h
  obtain ⟨-, -, h⟩ := Attempt.bind_ok h
  obtain ⟨divider, hd, h⟩ := Attempt.bind_ok h
  obtain ⟨frequency, hf, h⟩ := Attempt.bind_ok h
  cases h
  exact ⟨hd, hf⟩

/-- The fields give the frequency that is computed from the multiplier. -/
theorem frequency_of_divider (divider : r.divider = .ok d) (frequency : r.frequency crystal = .ok f) :
    f.raw.toNat = (d.n.toNat * Divider.fullScale + d.frac.toNat) * crystal.raw.toNat /
      (2 * Divider.fullScale) := by
  rw [divider_exact divider, frequency_exact frequency, Nat.mul_assoc,
    Nat.mul_div_mul_left _ _ (by decide)]

/-- The divider register of a plan encodes its frequency. -/
theorem plan_encodes {s : Sequencer} (h : r.plan s crystal = .ok (d, f)) :
    f.raw.toNat = Divider.frequencyOf d.word crystal := by
  obtain ⟨divider, frequency⟩ := plan_ok h
  rw [Divider.frequencyOf, Divider.get_n_word, Divider.get_frac_word]
  exact frequency_of_divider divider frequency

/-- The multiplier that a divider register was made of. -/
def ofWord (control : Word) : SystemRatio :=
  let n := PllDivider.n.get control
  ⟨(n / 2).toUInt8, ((n % 2 * Divider.fullScale + PllDivider.frac.get control) / 2).toUInt16⟩

/-- A multiplier is read back from its divider register. -/
theorem ofWord_word (h : r.divider = .ok d) : ofWord d.word = r := by
  obtain ⟨steps, frac, -⟩ := divider_ok h
  have n : d.n.toNat / 2 = r.n.toNat := by
    rw [steps, halfSteps]
    split <;> omega
  have m : (d.n.toNat % 2 * Divider.fullScale + d.frac.toNat) / 2 = r.m.toNat := by
    rw [steps, frac, halfSteps, rest]
    split <;> simp only [Divider.fullScale] at * <;> omega
  rw [ofWord, Divider.get_n_word, Divider.get_frac_word, n, m]
  show mk (.ofNat r.n.toNat) (.ofNat r.m.toNat) = r
  rw [UInt8.ofNat_toNat, UInt16.ofNat_toNat]

/-- Two multipliers with the same divider register are the same. -/
theorem word_injective {r' : SystemRatio} {d' : Divider} (h : r.divider = .ok d)
    (h' : r'.divider = .ok d') (same : d'.word = d.word) : r' = r :=
  calc r' = ofWord d'.word := (ofWord_word h').symm
    _ = ofWord d.word := congrArg ofWord same
    _ = r := ofWord_word h

/-- Multipliers of up to 127 are accepted, and the divider keeps all of them: it holds the doubled
multiplier, which can be read back from the register, and gives the frequency that is computed from
the multiplier itself. -/
theorem divider_lossless (r : SystemRatio) :
    (127 < r.n.toNat → r.divider = .refuse .multiplierField) ∧
      (r.n.toNat ≤ 127 → ∃ d, r.divider = .ok d ∧
        d.n.toNat * 65535 + d.frac.toNat = 2 * (r.n.toNat * 65535 + r.m.toNat) ∧
        d.den = 0 ∧ (d.hasFraction = true ↔ r.m ≠ 0) ∧ ofWord d.word = r ∧
        (∀ (r' : SystemRatio) (d' : Divider), r'.divider = .ok d' → d'.word = d.word → r' = r) ∧
        ∀ crystal f, r.frequency crystal = .ok f → f.raw.toNat =
          (d.n.toNat * 65535 + d.frac.toNat) * crystal.raw.toNat / 131070) := by
  constructor
  · exact divider_refused
  · intro low
    obtain ⟨d, h⟩ := divider_accepted low
    have fraction : d.hasFraction = true ↔ r.m ≠ 0 := by
      rw [Divider.hasFraction, bne_iff_ne, ne_eq, ← UInt16.toNat_inj, UInt16.toNat_zero,
        (divider_ok h).2.1, rest_eq_zero_iff]
    exact ⟨d, h, divider_exact h, divider_den h, fraction, ofWord_word h,
      fun r' d' h' same => word_injective h h' same, fun crystal f hf => frequency_of_divider h hf⟩

/-- The largest multiplier that is accepted fills both fields. -/
theorem largest_multiplier_read_back :
    let r : SystemRatio := ⟨127, 0xFFFF⟩
    let d : Divider := ⟨255, 0xFFFF, 0⟩
    r.n.toNat ≤ 127 ∧ r.divider = .ok d ∧ ofWord d.word = r ∧
      (200 : UInt8).toNat > 127 ∧ divider ⟨200, 0⟩ = .refuse .multiplierField := by
  intro r d
  have low : r.n.toNat ≤ 127 := by decide
  obtain ⟨d', accepted, -, -, -, decoded, -⟩ := r.divider_lossless.2 low
  have fields : r.divider.toOption = some d := by decide +kernel
  rw [accepted] at fields
  have same : d' = d := Option.some.inj fields
  rw [same] at accepted decoded
  exact ⟨low, accepted, decoded, by decide, (divider_lossless ⟨200, 0⟩).1 (by decide)⟩

end SystemRatio

end ClockControl
