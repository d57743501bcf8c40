import ClockControl.Proofs.Footprint

/-! How long a busy wait lasts. Its cycles are counted in 64 bits, from the core frequency that is
published, and 32 bits of the count are kept. So a wait is as long as asked, to within a cycle,
where its cycles fit 32 bits; one that is longer is cut short by 2^32 cycles at least. Main
statement: `busyWait_spans_iff`. -/
namespace ClockControl

/-- The published frequency of a core that runs, or else that of the RC oscillator, in Hz. -/
def corePace : Option Clocks → Nat
  | some clocks => if clocks.core = .stopped then 24000000 else clocks.core.raw.toNat
  | none => 24000000

/-- So many cycles at `f` Hz are so many microseconds, to within one cycle. -/
structure Spans (cycles f us : Nat) : Prop where
  enough : cycles * 1000000 ≤ f * us
  close : f * us < (cycles + 1) * 1000000

theorem spans_iff {cycles f us : Nat} : Spans cycles f us ↔ cycles = f * us / 1000000 := by
  constructor
  · rintro ⟨enough, close⟩
    omega
  · rintro rfl
    constructor <;> omega

theorem corePace_eq (published : Option Clocks) :
    ((published.bind (·.core.hertz?)).getD rcFrequency).raw.toNat = corePace published := by
  cases published with
  | none => rfl
  | some clocks =>
    show (clocks.core.hertz?.getD rcFrequency).raw.toNat =
      if clocks.core = .stopped then 24000000 else clocks.core.raw.toNat
    cases running : clocks.core.hertz? with
    | none =>
      rw [if_pos ((Rate.hertz?_eq_none_iff _).1 running)]
      rfl
    | some f =>
      obtain ⟨core, some⟩ := (Rate.hertz?_eq_some_iff _ _).1 running
      have started : clocks.core ≠ .stopped := by
        rw [core]
        exact fun stopped => some (congrArg Rate.raw stopped)
      rw [if_neg started, core]
      rfl

theorem corePace_lt (published : Option Clocks) : corePace published < UInt32.size := by
  rw [← corePace_eq]
  exact UInt32.toNat_lt_size _

/-- The low 32 bits of the whole count. -/
theorem busyCycles_toNat (published : Option Clocks) (us : UInt32) :
    (busyCycles published us).toNat = corePace published * us.toNat / 1000000 % UInt32.size := by
  rw [busyCycles, corePace_eq]
  exact UInt32.toNat_ofNat'

theorem run_busyWait (us : UInt32) (b : Board) :
    (busyWait us).run b = ⟨.ok (), b, [⟨b, .spin us (busyCycles b.published us)⟩]⟩ :=
  run_wait ⟨.direct, .direct, .core⟩ us b

section
variable (published : Option Clocks) {us : UInt32}

theorem busyCycles_spans_iff : Spans (busyCycles published us).toNat (corePace published) us.toNat ↔
    corePace published * us.toNat / 1000000 < UInt32.size := by
  rw [spans_iff, busyCycles_toNat]
  exact Nat.mod_eq_iff_lt (by decide)

/-- Nothing is cut off a wait of a second, however fast the core is. -/
theorem fits_of_second (short : us ≤ 1000000) :
    corePace published * us.toNat / 1000000 < UInt32.size := by
  have second : us.toNat ≤ 1000000 := UInt32.le_iff_toNat_le.1 short
  calc corePace published * us.toNat / 1000000
    _ ≤ corePace published * 1000000 / 1000000 :=
      Nat.div_le_div_right (Nat.mul_le_mul_left _ second)
    _ = corePace published := Nat.mul_div_cancel _ (by decide)
    _ < UInt32.size := corePace_lt published

/-- A wait that fits takes no fewer cycles than a shorter one. -/
theorem busyCycles_mono {shorter : UInt32} (order : shorter ≤ us)
    (fits : corePace published * us.toNat / 1000000 < UInt32.size) :
    busyCycles published shorter ≤ busyCycles published us := by
  have count : corePace published * shorter.toNat / 1000000 ≤
      corePace published * us.toNat / 1000000 :=
    Nat.div_le_div_right (Nat.mul_le_mul_left _ (UInt32.le_iff_toNat_le.1 order))
  rw [UInt32.le_iff_toNat_le, busyCycles_toNat, busyCycles_toNat, Nat.mod_eq_of_lt fits,
    Nat.mod_eq_of_lt (Nat.lt_of_le_of_lt count fits)]
  exact count

theorem busyCycles_short (long : UInt32.size ≤ corePace published * us.toNat / 1000000) :
    (busyCycles published us).toNat + UInt32.size ≤ corePace published * us.toNat / 1000000 := by
  rw [busyCycles_toNat, Nat.mod_eq_sub_mod long]
  have rest := Nat.mod_le (corePace published * us.toNat / 1000000 - UInt32.size) UInt32.size
  omega

end

/-- A busy wait changes nothing and spends some cycles of the core. They span the microseconds
asked for exactly where they fit 32 bits, and then a shorter wait spends no more of them. Otherwise
the wait is short by 2^32 cycles at least. -/
theorem busyWait_spans_iff (b : Board) (us : UInt32) : ∀ wait ∈ [busyWait, Delay.core.wait],
    let f := corePace b.published
    ∃ c, (wait us).run b = ⟨.ok (), b, [⟨b, .spin us c⟩]⟩ ∧
      (Spans c.toNat f us.toNat ↔ f * us.toNat / 1000000 < UInt32.size) ∧
      (f * us.toNat / 1000000 < UInt32.size → ∀ shorter ≤ us, ∃ c',
        (wait shorter).run b = ⟨.ok (), b, [⟨b, .spin shorter c'⟩]⟩ ∧ c' ≤ c) ∧
      (UInt32.size ≤ f * us.toNat / 1000000 → c.toNat + UInt32.size ≤ f * us.toNat / 1000000) := by
  intro wait hwait f
  have run (us : UInt32) :
      (wait us).run b = ⟨.ok (), b, [⟨b, .spin us (busyCycles b.published us)⟩]⟩ := by
    obtain rfl | rfl : wait = busyWait ∨ wait = Delay.core.wait := by simpa using hwait
    · exact run_busyWait us b
    · exact run_busyWait us b
  refine ⟨_, run us, busyCycles_spans_iff _, ?_, busyCycles_short _⟩
  intro fits shorter order
  exact ⟨_, run shorter, busyCycles_mono _ order fits⟩

/-- A second at the pace of the RC oscillator, and the longest wait that it gets right. -/
theorem longest_wait_spanned :
    (∃ c, (busyWait 1000000).run .blank = ⟨.ok (), .blank, [⟨.blank, .spin 1000000 c⟩]⟩ ∧
      Spans c.toNat 24000000 1000000) ∧
    ∃ c, (Delay.core.wait 178956970).run .blank =
        ⟨.ok (), .blank, [⟨.blank, .spin 178956970 c⟩]⟩ ∧
      Spans c.toNat 24000000 178956970 ∧ ∃ c',
        (Delay.core.wait 1000000).run .blank = ⟨.ok (), .blank, [⟨.blank, .spin 1000000 c'⟩]⟩ ∧
          c' ≤ c := by
  obtain ⟨second, run, spans, -⟩ := busyWait_spans_iff .blank 1000000 busyWait (by simp)
  obtain ⟨c, run', spans', longer, -⟩ :=
    busyWait_spans_iff .blank 178956970 Delay.core.wait (by simp)
  exact ⟨⟨second, run, spans.2 (fits_of_second none (by decide))⟩, c, run',
    spans'.2 (by decide), longer (by decide) 1000000 (by decide)⟩

/-- One microsecond more, and the core waits for 8 cycles. -/
theorem long_wait_cut_short :
    (busyWait 178956971).run .blank = ⟨.ok (), .blank, [⟨.blank, .spin 178956971 8⟩]⟩ ∧
    ¬Spans 8 (corePace none) 178956971 ∧
    (busyWait 178956970).run .blank =
      ⟨.ok (), .blank, [⟨.blank, .spin 178956970 4294967280⟩]⟩ := by
  have long : busyCycles none 178956971 = 8 := by decide +kernel
  have short : busyCycles none 178956970 = 4294967280 := by decide +kernel
  refine ⟨?_, ?_, ?_⟩
  · rw [run_busyWait, show Board.blank.published = none from rfl, long]
  · rw [spans_iff]
    decide
  · rw [run_busyWait, show Board.blank.published = none from rfl, short]

end ClockControl
