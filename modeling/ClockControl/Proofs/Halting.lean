import ClockControl.Proofs.Admission
import ClockControl.Proofs.Readback

/-! What halts the program. No request to a controller does, whatever it asks for, nor does a
question for the frequency of a domain; of the functions behind them only the divider of the audio
PLL can, if it is asked for a fraction over 0 that no controller lets pass. Main statement:
`controller_never_halts`. -/
namespace ClockControl

namespace Attempt

/-- The program cannot go on. -/
def Halts (x : Attempt α) : Prop := ∃ h, x = .halt h

variable {x : Attempt α}

@[simp] theorem not_halts_pure (y : α) : ¬(pure y : Attempt α).Halts := nofun

@[simp] theorem not_halts_ok (y : α) : ¬Halts (.ok y : Attempt α) := nofun

@[simp] theorem not_halts_refuse (reason : Reason) : ¬(refuse reason : Attempt α).Halts := nofun

@[simp] theorem not_halts_error (e : ClockError) : ¬Halts (.error (.error e) : Attempt α) := nofun

/-- Two steps halt in the first one, or in the second one. -/
theorem halts_bind (x : Attempt α) (f : α → Attempt β) :
    (x >>= f).Halts ↔ x.Halts ∨ ∃ y, x = .ok y ∧ (f y).Halts := by
  cases x with
  | error e =>
    constructor
    · rintro ⟨h, halt⟩
      cases halt
      exact .inl ⟨h, rfl⟩
    · rintro (⟨h, halt⟩ | ⟨y, ok, -⟩)
      · cases halt
        exact ⟨h, rfl⟩
      · cases ok
  | ok y =>
    constructor
    · exact fun halt => .inr ⟨y, rfl, halt⟩
    · rintro (⟨h, halt⟩ | ⟨_, same, halt⟩)
      · cases halt
      · cases same
        exact halt

@[simp] theorem halts_map (f : α → β) : (f <$> x).Halts ↔ x.Halts := by
  simp [← bind_pure_comp, halts_bind]

theorem Decides.not_halts {P : Prop} (h : x.Decides P) : ¬x.Halts := by
  rintro ⟨cause, halt⟩
  obtain ⟨reason, refused⟩ := h.refused_of_error halt
  cases refused

end Attempt

open Attempt (Halts)

theorem outputFrequency_not_halts (n : UInt8) (crystal : Hertz) (fraction : Nat) :
    ¬(outputFrequency n crystal fraction).Halts :=
  (outputFrequency_decides n crystal fraction).not_halts

namespace AudioRatio

/-- A fraction can be reduced unless it is 0 over 0. What is left of it over 0 is refused. -/
theorem fraction_halts_iff {k d : Nat} (hk : k < UInt32.size) :
    (fraction k d).Halts ↔ k = 0 ∧ d = 0 := by
  unfold fraction
  by_cases nothing : k.gcd d = 0
  · have zero := Nat.gcd_eq_zero_iff.1 nothing
    have divided : Checked.div k 0 = .halt .divideByZero := rfl
    simp only [Divider.euclid_eq_gcd, nothing, divided]
    exact iff_of_true ⟨_, rfl⟩ zero
  · have some : ¬(k = 0 ∧ d = 0) := fun zero => nothing (Nat.gcd_eq_zero_iff.2 zero)
    have small : k / k.gcd d * Divider.fullScale < UInt64.size := by
      have reduced := Nat.div_le_self k (k.gcd d)
      simp only [Divider.fullScale, UInt64.size, UInt32.size] at hk ⊢
      omega
    simp only [Divider.euclid_eq_gcd, Checked.div_eq nothing, bind, Except.bind, some, iff_false]
    split
    · exact Attempt.not_halts_refuse _
    · rw [Divider.mulDiv_eq small]
      by_cases whole : d / k.gcd d = 0
      · simp only [if_pos whole]
        exact Attempt.not_halts_refuse _
      · have positive : 1 ≤ d / k.gcd d := Nat.pos_of_ne_zero whole
        simp only [if_neg whole, Checked.sub_eq positive]
        split
        · exact Attempt.not_halts_ok _
        · exact Attempt.not_halts_refuse _

/-- The fields for so many half steps and the fraction that is left. -/
theorem fields_halts_iff (n k : Nat) (d : UInt32) : (do
    let field ← Divider.fitSteps n
    if k = 0 then
      return ⟨field, 0, 0⟩
    else
      let (frac, den) ← fraction (k % UInt32.size) d.toNat
      return ⟨field, frac, den⟩ : Attempt Divider).Halts ↔
        n < UInt8.size ∧ k ≠ 0 ∧ k % UInt32.size = 0 ∧ d.toNat = 0 := by
  have small : k % UInt32.size < UInt32.size := Nat.mod_lt k (by decide)
  by_cases fits : n < UInt8.size
  · have field : Divider.fitSteps n = pure n.toUInt8 := if_pos fits
    by_cases whole : k = 0
    · simp [field, whole]
    · simp [field, fits, whole, fraction_halts_iff small]
  · have refused : Divider.fitSteps n = .refuse .multiplierField := if_neg fits
    rw [refused]
    exact iff_of_false (Attempt.not_halts_refuse _) fun h => fits h.1

/-- Only 0 over 0 cannot be reduced, and the low 32 bits of a doubled `k` are 0 for just one `k`. -/
theorem divider_halts_iff (r : AudioRatio) :
    r.divider.Halts ↔ r.n.toNat ≤ 127 ∧ r.d = 0 ∧ r.k.toNat = 2 ^ 31 := by
  have hk := r.k.toNat_lt
  have zero : r.d = 0 ↔ r.d.toNat = 0 := by
    rw [← UInt32.toNat_inj]
    rfl
  have fields (n k : Nat) := fields_halts_iff n k r.d
  simp only [UInt32.size, UInt8.size] at fields
  rw [divider, carried_eq, zero]
  dsimp only
  split
  · refine (fields _ _).trans ?_
    omega
  · split
    · refine (fields _ _).trans ?_
      omega
    · refine (fields _ _).trans ?_
      omega

theorem frequency_not_halts (r : AudioRatio) (crystal : Hertz) : ¬(r.frequency crystal).Halts := by
  have product := Nat.mul_lt_mul_of_lt_of_lt r.k.toNat_lt crystal.raw.toNat_lt
  rw [show 2 ^ 32 * 2 ^ 32 = UInt64.size by decide] at product
  unfold frequency
  split
  · exact outputFrequency_not_halts _ _ _
  · rw [Divider.mulDiv_eq product, Attempt.halts_bind]
    rintro (halt | ⟨quotient, -, halt⟩)
    · exact Attempt.not_halts_ok _ halt
    · cases quotient with
      | some fraction => exact outputFrequency_not_halts _ _ _ halt
      | none => exact Attempt.not_halts_refuse _ halt

end AudioRatio

namespace Controller
variable {rig : Rig} {r : Run Rig Unit} {request : Attempt Task}

/-- A task fails by a missed access only. -/
theorem Answers.not_halts {P : Prop} (answers : Answers r rig request)
    (decides : request.Decides P) : ¬r.outcome.Halts := by
  cases request with
  | ok k =>
    obtain ⟨ready, rfl⟩ := answers
    rintro ⟨cause, halt⟩
    obtain ⟨lost, -⟩ := (perform_takes ready).of_error halt
    cases lost
  | error e =>
    obtain ⟨ns, -, rfl⟩ := answers
    obtain ⟨reason, rfl⟩ := decides.refused_of_error rfl
    exact Attempt.not_halts_error _

theorem check_not_halts (c : Configuration) (rig : Rig) : ¬((check c).run rig).outcome.Halts := by
  rw [run_check]
  exact (c.check_decides _).not_halts

theorem apply_not_halts (c : Configuration) (rig : Rig) : ¬((apply c).run rig).outcome.Halts := by
  rintro ⟨cause, halt⟩
  cases checked : c.check rig.controller.wiring.sequencer with
  | error e =>
    rw [run_apply_of_error checked] at halt
    refine (c.check_decides rig.controller.wiring.sequencer).not_halts ⟨cause, ?_⟩
    rw [checked]
    exact halt
  | ok =>
    obtain ⟨refused, -⟩ | ⟨⟨lost, -⟩, -⟩ := (leads_apply_cases checked).of_error halt
    · cases refused
    · cases lost

end Controller

theorem Operation.not_halts (op : Operation) (rig : Rig) : ¬(op.action.run rig).outcome.Halts := by
  cases op with
  | setOscillator o => exact (Controller.setOscillator_answers o rig).not_halts (.pure _)
  | setSpll ratio lockWait =>
    have answers := Controller.setSpll_answers ratio lockWait rig
    exact answers.not_halts (Task.ofSystem_decides rig ratio lockWait)
  | setAupll ratio lockWait =>
    have answers := Controller.setAupll_answers ratio lockWait rig
    exact answers.not_halts (Task.ofAudio_decides rig ratio lockWait)
  | setTree t => exact (Controller.setTree_answers t rig).not_halts (Task.ofTree_decides rig t)
  | check c => exact Controller.check_not_halts c rig
  | apply c => exact Controller.apply_not_halts c rig
  | recordFault e =>
    have run : (recordFault e).action.run rig = _ := Controller.run_recordFault e rig
    rw [run]
    exact Attempt.not_halts_ok _

/-- On no rig and whichever accesses to the PMU fail does an operation halt or a question for the
frequency of a domain, and neither do the divider fields of the system PLL or the frequency of a
PLL. The divider fields of the audio PLL do so exactly for 2 ^ 31 over 0 and multipliers up to
127. -/
theorem controller_never_halts :
    (∀ (rig : Rig) (op : Operation), ¬(op.action.run rig).outcome.Halts) ∧
    (∀ (rig : Rig) (d : Domain), ∃ f, ((Controller.domainFrequency d).run rig).outcome = .ok f) ∧
    (∀ (r : SystemRatio) (crystal : Hertz), ¬r.divider.Halts ∧ ¬(r.frequency crystal).Halts) ∧
    (∀ (r : AudioRatio) (crystal : Hertz), ¬(r.frequency crystal).Halts) ∧
    ∀ r : AudioRatio, r.divider.Halts ↔ r.n.toNat ≤ 127 ∧ r.d = 0 ∧ r.k.toNat = 2 ^ 31 := by
  refine ⟨fun rig op => op.not_halts rig, ?_, ?_, AudioRatio.frequency_not_halts,
    AudioRatio.divider_halts_iff⟩
  · intro rig d
    exact d.frequency_ok rig.board.image rig.controller.clocks
  · intro r crystal
    exact ⟨r.divider_decides.not_halts, (r.frequency_decides crystal).not_halts⟩

end ClockControl
