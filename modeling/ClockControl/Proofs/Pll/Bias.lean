import ClockControl.Proofs.Pll.Fraction
import ClockControl.Proofs.Pll.Startup

/-! Which bias words a start-up stores. They are those of one ramp, in order, and the fraction field
of the divider alone decides which. That field is 0 for a whole number of half steps, and for one
rest more: 1/65536 has a denominator that fits, and comes to nothing when it is rescaled. Main
statements: `Pll.start_biases` and `AudioRatio.integer_ramp_iff`. -/
namespace ClockControl

/-- The words that a ramp takes the bias through, in order. -/
def Ramp.words (r : Ramp) : Sequencer → List Word
  | .ramped => (List.replicate Ramp.steps [r.low, r.high]).flatten ++ [r.settle]
  | .direct | .custom _ _ => [r.settle]

namespace Pll

/-- The bias word of the PLL that an event stores. -/
def bias? (p : Pll) : Event → Option Word
  | .store r v => if r = .pll p .power then some v else none
  | _ => none

/-- The bias words that are stored for the PLL, in order. -/
def biases (p : Pll) (trace : List (Moment σ)) : List Word :=
  trace.filterMap fun m => p.bias? m.event

@[simp] theorem biases_append (p : Pll) (xs ys : List (Moment σ)) :
    p.biases (xs ++ ys) = p.biases xs ++ p.biases ys :=
  List.filterMap_append

/-- What stores nothing to the PLL stores no bias word. -/
theorem biases_eq_nil {p : Pll} {trace : List (Moment σ)}
    (h : ∀ m ∈ trace, p.Stores m.event = false) : p.biases trace = [] := by
  refine List.filterMap_eq_nil_iff.2 fun m hm => ?_
  have other := h m hm
  unfold bias?
  split
  · rename_i r v stored
    rw [stored] at other
    refine if_neg fun same => ?_
    rw [same] at other
    exact absurd other (by simp [Stores])
  · rfl

/-- The action takes the bias through these words, and through all of them if it succeeds. -/
def Biases (p : Pll) (a : Action Board Unit) (words : List Word) : Prop :=
  ∀ b, p.biases (a.run b).trace <+: words ∧
    ((a.run b).outcome = .ok () → p.biases (a.run b).trace = words)

namespace Biases
variable {p : Pll} {w : Wiring} {a a' : Action Board Unit} {words words' : List Word}

theorem nothing : p.Biases (pure ()) [] := fun _ => ⟨List.nil_prefix, fun _ => rfl⟩

theorem bind (ha : p.Biases a words) (ha' : p.Biases a' words') :
    p.Biases (a >>= fun _ => a') (words ++ words') := by
  intro b
  obtain ⟨begun, done⟩ := ha b
  rcases h : a.run b with ⟨e | x, s, trace⟩
  · rw [h] at begun
    rw [Action.run_bind_error h]
    exact ⟨begun.trans (List.prefix_append words words'), nofun⟩
  · rw [h] at done
    obtain ⟨begun', done'⟩ := ha' s
    rw [Action.run_bind_ok h]
    simp only [biases_append, done rfl]
    exact ⟨(List.prefix_append_right_inj words).2 begun', fun ok => by rw [done' ok]⟩

theorem repeated (ha : p.Biases a words) (n : Nat) :
    p.Biases (a.repeated n) (List.replicate n words).flatten := by
  induction n with
  | zero => exact nothing
  | succ n ih => exact ha.bind ih

/-- Work that stores nothing to the PLL leaves its bias as it is. -/
theorem of_omits (h : ∀ b, ∀ m ∈ (a.run b).trace, p.Stores m.event = false) : p.Biases a [] := by
  intro b
  rw [biases_eq_nil (h b)]
  exact ⟨List.nil_prefix, fun _ => rfl⟩

theorem wait (us : UInt32) : p.Biases (w.wait us) [] :=
  of_omits fun b => stores_wait p w b us

theorem gate (on : Bool) : p.Biases (w.setOscillator p.reference on) [] :=
  of_omits (stores_setOscillator p w p.reference on)

theorem power (v : Word) : p.Biases (Board.store (.pll p .power) v) [v] := by
  intro b
  have stored : p.biases ((Board.store (.pll p .power) v).run b).trace = [v] := by
    rw [run_store]
    simp [biases, bias?]
  rw [stored]
  exact ⟨List.prefix_refl _, fun _ => rfl⟩

theorem store {part : PllPart} (other : part ≠ .power) (v : Word) :
    p.Biases (Board.store (.pll p part) v) [] := by
  intro b
  rw [run_store]
  simp [biases, bias?, other]

theorem change {part : PllPart} (other : part ≠ .power) (f : Word → Word) :
    p.Biases (Board.change (.pll p part) f) [] := by
  intro b
  rw [run_change]
  simp [biases, bias?, other]

theorem bringUp (r : Ramp) : p.Biases (p.bringUp w r) (r.words w.sequencer) := by
  have at_once : p.Biases (do
      Board.store (.pll p .power) r.settle
      w.wait Ramp.settleWait) [r.settle] := (power r.settle).bind (wait _)
  have round : p.Biases (do
      Board.store (.pll p .power) r.low
      w.wait Ramp.dwell
      Board.store (.pll p .power) r.high
      w.wait Ramp.dwell) [r.low, r.high] :=
    (power r.low).bind ((wait _).bind ((power r.high).bind (wait _)))
  unfold Pll.bringUp
  cases w.sequencer with
  | ramped => exact (round.repeated Ramp.steps).bind (power r.settle)
  | direct => exact at_once
  | custom low high => exact at_once

theorem program (d : Divider) :
    p.Biases (p.program w d) ((p.recipe.ramp d.hasFraction).words w.sequencer) := by
  refine (store (by decide) _).bind ((store (by decide) _).bind ?_)
  exact (store (by decide) _).bind ((change (by decide) _).bind (bringUp _))

theorem letThrough (lockWait : UInt32) : p.Biases (p.letThrough w lockWait) [] := by
  refine (wait _).bind ((gate true).bind ?_)
  exact (wait _).bind ((wait _).bind (change (by decide) _))

end Biases

/-- A start-up takes the bias through the ramp that the fraction field calls for. -/
theorem start_biases (p : Pll) (w : Wiring) (d : Divider) (lockWait : UInt32) :
    p.Biases (p.start w d lockWait) ((p.recipe.ramp d.hasFraction).words w.sequencer) := by
  have started : p.Biases (p.start w d lockWait)
      ([] ++ ((p.recipe.ramp d.hasFraction).words w.sequencer ++ [])) :=
    (Biases.gate false).bind ((Biases.program d).bind (Biases.letThrough lockWait))
  rwa [List.nil_append, List.append_nil] at started

end Pll

namespace AudioRatio
variable {r : AudioRatio} {d : Divider}

/-- The multiplier is a whole number of half steps. -/
def Whole (r : AudioRatio) : Prop := r.k = 0 ∨ 2 * r.k.toNat = r.d.toNat

/-- The half steps leave 1/65536 of one. -/
def Sliver (r : AudioRatio) : Prop :=
  0 < r.k.toNat ∧
    (131072 * r.k.toNat = r.d.toNat ∨ 131072 * r.k.toNat = 65537 * r.d.toNat)

instance (r : AudioRatio) : Decidable r.Whole := inferInstanceAs (Decidable (_ ∨ _))

instance (r : AudioRatio) : Decidable r.Sliver := inferInstanceAs (Decidable (_ ∧ _))

/-- A rest comes of itself, or of a half step more. -/
theorem rest_eq_iff {q : ℚ} (low : 0 ≤ q) (high : q < 1) :
    r.rest = q ↔ 2 * r.part = q ∨ 2 * r.part = q + 1 := by
  unfold rest
  split
  · constructor
    · intro h
      exact .inr (by linarith)
    · rintro (h | h) <;> linarith
  · constructor
    · intro h
      exact .inl h
    · rintro (h | h) <;> linarith

/-- Fractions are compared across. -/
theorem part_eq_iff (some : 0 < r.d.toNat) {a b : Nat} (positive : 0 < b) :
    2 * r.part = a / b ↔ 2 * r.k.toNat * b = a * r.d.toNat := by
  have d : (r.d.toNat : ℚ) ≠ 0 := Nat.cast_ne_zero.2 (Nat.ne_of_gt some)
  have b : (b : ℚ) ≠ 0 := Nat.cast_ne_zero.2 (Nat.ne_of_gt positive)
  rw [part, ← mul_div_assoc, div_eq_div_iff d b]
  norm_cast

theorem rest_eq_zero_iff (proper : r.k.toNat ≤ r.d.toNat) : r.rest = 0 ↔ r.Whole := by
  have none : r.k = 0 ↔ r.k.toNat = 0 := UInt32.toNat_inj.symm
  rw [rest_eq_iff le_rfl zero_lt_one, Whole, none]
  obtain zero | some := Nat.eq_zero_or_pos r.d.toNat
  · have nothing : r.k.toNat = 0 := by omega
    simp [part, nothing]
  · have whole : 2 * r.part = 0 ↔ r.k.toNat = 0 := by
      simpa using part_eq_iff (a := 0) some Nat.one_pos
    have half : 2 * r.part = 0 + 1 ↔ 2 * r.k.toNat = r.d.toNat := by
      simpa using part_eq_iff (a := 1) some Nat.one_pos
    rw [whole, half]

theorem rest_eq_sliver_iff (proper : r.k.toNat ≤ r.d.toNat) : r.rest = 1 / 65536 ↔ r.Sliver := by
  rw [rest_eq_iff (by norm_num) (by norm_num), Sliver]
  obtain zero | some := Nat.eq_zero_or_pos r.d.toNat
  · have nothing : r.k.toNat = 0 := by omega
    norm_num [part, nothing]
  · have plain : (1 / 65536 : ℚ) = (1 : ℕ) / (65536 : ℕ) := by norm_num
    have carried : (1 / 65536 + 1 : ℚ) = (65537 : ℕ) / (65536 : ℕ) := by norm_num
    have fractions := or_congr (part_eq_iff (a := 1) (b := 65536) some (by decide))
      (part_eq_iff (a := 65537) (b := 65536) some (by decide))
    rw [← plain, ← carried] at fractions
    refine fractions.trans ?_
    constructor <;> omega

/-- Of the fractions that fit, only 1/65536 is rescaled to nothing. -/
theorem rescaled_eq_zero_iff {q : ℚ} (low : 0 ≤ q) (fits : q.den ≤ Divider.fullScale + 1) :
    rescaled q = 0 ↔ q = 0 ∨ q = 1 / 65536 := by
  rw [rescaled, Nat.floor_eq_zero, Divider.fullScale] at *
  constructor
  · intro small
    obtain ⟨num, hnum⟩ := Int.eq_ofNat_of_zero_le (Rat.num_nonneg.2 low)
    have value : q = num / q.den := by
      conv_lhs => rw [← Rat.num_div_den q, hnum]
      rfl
    have positive : (0 : ℚ) < q.den := Nat.cast_pos.2 q.den_pos
    have across : 65535 * num < q.den := by
      rw [value, ← mul_div_assoc, div_lt_one positive] at small
      exact_mod_cast small
    have few : num = 0 ∨ num = 1 ∧ q.den = 65536 := by omega
    obtain none | ⟨one, den⟩ := few
    · rw [value, none, Nat.cast_zero, zero_div]
      exact .inl rfl
    · rw [value, one, den]
      norm_num
  · rintro (rfl | rfl) <;> norm_num

/-- The fraction field does not tell a sliver from a whole number of half steps. -/
theorem frac_eq_zero_iff (proper : r.k.toNat ≤ r.d.toNat) (h : r.divider = .ok d) :
    d.frac = 0 ↔ r.Whole ∨ r.Sliver := by
  obtain ⟨holds, fits⟩ := holds_of_ok h proper
  rw [← UInt16.toNat_inj, UInt16.toNat_zero, holds.frac, rescaled_eq_zero_iff r.rest_nonneg fits,
    rest_eq_zero_iff proper, rest_eq_sliver_iff proper]

/-- Where the fraction field is 0, the denominator tells them apart. -/
theorem den_of_frac_eq_zero (proper : r.k.toNat ≤ r.d.toNat) (h : r.divider = .ok d)
    (zero : d.frac = 0) : d.den = if r.Whole then 0 else 65535 := by
  obtain ⟨holds, -⟩ := holds_of_ok h proper
  have den := holds.den
  rw [← UInt16.toNat_inj]
  split
  · rename_i whole
    rw [(rest_eq_zero_iff proper).2 whole, Rat.den_zero] at den
    exact Nat.succ_inj.1 den
  · rename_i part
    have sliver := ((frac_eq_zero_iff proper h).1 zero).resolve_left part
    have least : (1 / 65536 : ℚ).den = 65536 := by decide +kernel
    rw [(rest_eq_sliver_iff proper).2 sliver, least] at den
    exact Nat.succ_inj.1 den

/-- The divider of an accepted multiplier has no fraction, and the PLL is started with the integer
ramp, for a whole number of half steps and for a sliver; for the sliver the denominator is that of
its fraction all the same. -/
theorem integer_ramp_iff (proper : r.k.toNat ≤ r.d.toNat) (h : r.divider = .ok d) :
    (d.hasFraction = false ↔ r.Whole ∨ r.Sliver) ∧
      (d.frac = 0 → d.den = if r.Whole then 0 else 65535) ∧
      ∀ (w : Wiring) (lockWait : UInt32), Pll.Biases .audio (Pll.start .audio w d lockWait)
        ((if r.Whole ∨ r.Sliver then (Pll.recipe .audio).integer
          else (Pll.recipe .audio).fractional).words w.sequencer) := by
  have flag : d.hasFraction = false ↔ r.Whole ∨ r.Sliver := by
    rw [← frac_eq_zero_iff proper h, Divider.hasFraction, bne_eq_false_iff_eq]
  refine ⟨flag, den_of_frac_eq_zero proper h, fun w lockWait => ?_⟩
  have biases := Pll.start_biases .audio w d lockWait
  unfold Recipe.ramp at biases
  split
  · rename_i none
    rw [flag.2 none, if_neg Bool.false_ne_true] at biases
    exact biases
  · rename_i some
    rw [Bool.eq_true_of_not_eq_false (mt flag.1 some), if_pos rfl] at biases
    exact biases

/-- A rest of 1/65535 is the least that the fraction field can hold. -/
theorem least_fraction_kept :
    let r : AudioRatio := ⟨8, 1, 131070⟩
    let d : Divider := ⟨16, 1, 65534⟩
    r.k.toNat ≤ r.d.toNat ∧ r.divider = .ok d ∧ d.hasFraction = true ∧
      ∀ (w : Wiring) (lockWait : UInt32), Pll.Biases .audio (Pll.start .audio w d lockWait)
        ((Pll.recipe .audio).fractional.words w.sequencer) := by
  intro r d
  have proper : r.k.toNat ≤ r.d.toNat := by decide
  have accepted : r.divider = .ok d := by decide +kernel
  have neither : ¬(r.Whole ∨ r.Sliver) := by decide
  obtain ⟨flag, -, biases⟩ := integer_ramp_iff proper accepted
  rw [if_neg neither] at biases
  exact ⟨proper, accepted, Bool.eq_true_of_not_eq_false (mt flag.1 neither), biases⟩

/-- A rest of 1/65536 is accepted with its denominator and started as if there were none. -/
theorem sliver_started_as_whole :
    let r : AudioRatio := ⟨8, 1, 131072⟩
    let d : Divider := ⟨16, 0, 65535⟩
    r.k.toNat ≤ r.d.toNat ∧ r.k ≠ 0 ∧ 2 * r.k.toNat ≠ r.d.toNat ∧ r.divider = .ok d ∧
      d.hasFraction = false ∧ d.frac = 0 ∧ d.den ≠ 0 ∧
      let run := (Pll.start .audio ⟨.direct, .direct, .timer⟩ d 10).run .blank
      run.outcome = .ok () ∧ Pll.biases .audio run.trace = [(Pll.recipe .audio).integer.settle] := by
  decide +kernel

end AudioRatio
end ClockControl
