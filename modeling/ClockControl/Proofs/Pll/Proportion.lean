import ClockControl.Proofs.Pll.Fraction
import ClockControl.Proofs.Task

/-! However its fraction is written, a multiplier of the audio PLL counts by its value. The divider and
the frequency come out the same, refusals included, and so does all that is made of the request; only
the log names the numbers that were asked for. Main statement: `equal_fractions`. -/
namespace ClockControl

def Event.isNote : Event → Bool
  | .note _ => true
  | .store _ _ | .cycle _ _ _ | .wait _ | .spin _ _ => false

namespace Run

/-- What a run shows beside its notes. -/
def shown (r : Run σ α) : List (Moment σ) := r.trace.filter fun m => !m.event.isNote

/-- Two runs that differ in their notes at most. -/
structure Alike (r r' : Run σ α) : Prop where
  outcome : r'.outcome = r.outcome
  after : r'.after = r.after
  shown : r'.shown = r.shown

theorem shown_notes (outcome : Attempt α) (s : σ) (ns : List Note) :
    (⟨outcome, s, ns.map fun n => ⟨s, .note n⟩⟩ : Run σ α).shown = [] := by
  simp [shown, Event.isNote]

end Run

/-- Two requests that come to the same task differ in the warnings of a refusal at most. -/
theorem Controller.Answers.alike {r r' : Run Rig Unit} {rig : Rig} {request : Attempt Task}
    (answers : Answers r rig request) (answers' : Answers r' rig request) : r.Alike r' := by
  cases request with
  | ok k =>
    obtain ⟨-, rfl⟩ := answers
    obtain ⟨-, rfl⟩ := answers'
    exact ⟨rfl, rfl, rfl⟩
  | error e =>
    obtain ⟨ns, -, rfl⟩ := answers
    obtain ⟨ns', -, rfl⟩ := answers'
    exact ⟨rfl, rfl, by rw [Run.shown_notes, Run.shown_notes]⟩

namespace AudioRatio
variable {r r' : AudioRatio}

/-- Two proper multipliers of the same value. -/
structure Equals (r r' : AudioRatio) : Prop where
  proper : r.k.toNat ≤ r.d.toNat
  proper' : r'.k.toNat ≤ r'.d.toNat
  n : r'.n = r.n
  part : r'.part = r.part

/-- Fractions with the same cross products have the same value. -/
theorem part_eq_of_cross (positive : 0 < r.d.toNat) (positive' : 0 < r'.d.toNat)
    (cross : r.k.toNat * r'.d.toNat = r'.k.toNat * r.d.toNat) : r'.part = r.part := by
  have d : (r.d.toNat : ℚ) ≠ 0 := Nat.cast_ne_zero.2 (Nat.ne_of_gt positive)
  have d' : (r'.d.toNat : ℚ) ≠ 0 := Nat.cast_ne_zero.2 (Nat.ne_of_gt positive')
  rw [AudioRatio.part, AudioRatio.part, div_eq_div_iff d' d]
  exact_mod_cast cross.symm

namespace Equals

theorem divider (h : r.Equals r') : r'.divider = r.divider := by
  have halfSteps : r'.halfSteps = r.halfSteps := by
    rw [AudioRatio.halfSteps, AudioRatio.halfSteps, h.part, h.n]
  have rest : r'.rest = r.rest := by
    rw [AudioRatio.rest, AudioRatio.rest, h.part]
  rw [divider_eq_rest h.proper', divider_eq_rest h.proper, halfSteps, rest]

theorem frequency (h : r.Equals r') (crystal : Hertz) :
    r'.frequency crystal = r.frequency crystal := by
  rw [frequency_eq h.proper', frequency_eq h.proper, part_floor, part_floor, h.part, h.n]

theorem plan (h : r.Equals r') (s : Sequencer) (crystal : Hertz) :
    r'.plan s crystal = r.plan s crystal := by
  have proper : ¬r.d < r.k := UInt32.not_lt.2 (UInt32.le_iff_toNat_le.2 h.proper)
  have proper' : ¬r'.d < r'.k := UInt32.not_lt.2 (UInt32.le_iff_toNat_le.2 h.proper')
  rw [AudioRatio.plan, AudioRatio.plan, if_neg proper, if_neg proper', h.n, h.divider, h.frequency]

/-- A request comes to the same, whichever of the two it is for. -/
theorem alike (h : r.Equals r') (lockWait : UInt32) (rig : Rig) :
    ((Controller.setAupll (some r) lockWait).run rig).Alike
      ((Controller.setAupll (some r') lockWait).run rig) := by
  have request : Task.ofAudio (some r') lockWait rig = Task.ofAudio (some r) lockWait rig := by
    simp only [Task.ofAudio, h.plan]
  have answers' := Controller.setAupll_answers (some r') lockWait rig
  rw [request] at answers'
  exact (Controller.setAupll_answers (some r) lockWait rig).alike answers'

end Equals

/-- Equal fractions have the same divider and the same frequency, refusals included, and a request
for the one makes of the rig what a request for the other would make of it. -/
theorem equal_fractions (positive : 0 < r.d.toNat) (positive' : 0 < r'.d.toNat)
    (proper : r.k.toNat ≤ r.d.toNat) (proper' : r'.k.toNat ≤ r'.d.toNat) (n : r'.n = r.n)
    (cross : r.k.toNat * r'.d.toNat = r'.k.toNat * r.d.toNat) :
    r'.divider = r.divider ∧ (∀ crystal, r'.frequency crystal = r.frequency crystal) ∧
      ∀ lockWait rig, ((Controller.setAupll (some r) lockWait).run rig).Alike
        ((Controller.setAupll (some r') lockWait).run rig) := by
  have h : r.Equals r' := ⟨proper, proper', n, part_eq_of_cross positive positive' cross⟩
  exact ⟨h.divider, h.frequency, h.alike⟩

/-- One third is two sixths. -/
theorem third_in_sixths :
    let r : AudioRatio := ⟨8, 1, 3⟩
    let r' : AudioRatio := ⟨8, 2, 6⟩
    r.k.toNat ≤ r.d.toNat ∧ r'.k.toNat ≤ r'.d.toNat ∧
      r.k.toNat * r'.d.toNat = r'.k.toNat * r.d.toNat ∧
      r'.divider = .ok ⟨16, 43690, 2⟩ ∧ r'.frequency boardCrystal = .ok ⟨200000000⟩ ∧
      ∀ lockWait rig, ((Controller.setAupll (some r) lockWait).run rig).Alike
        ((Controller.setAupll (some r') lockWait).run rig) := by
  intro r r'
  have positive : 0 < r.d.toNat := by decide
  have positive' : 0 < r'.d.toNat := by decide
  have proper : r.k.toNat ≤ r.d.toNat := by decide
  have proper' : r'.k.toNat ≤ r'.d.toNat := by decide
  have cross : r.k.toNat * r'.d.toNat = r'.k.toNat * r.d.toNat := by decide
  obtain ⟨divider, frequency, alike⟩ := equal_fractions positive positive' proper proper' rfl cross
  refine ⟨proper, proper', cross, ?_, ?_, alike⟩
  · rw [divider]
    decide +kernel
  · rw [frequency]
    decide +kernel

end AudioRatio
end ClockControl
