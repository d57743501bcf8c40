import ClockControl.Pll.Startup
import ClockControl.Proofs.Pmu.Transfer

/-! What a piece of hardware work may touch. A footprint names registers of the block and flags
of the oscillator control; work confined to it stores to nothing else, changes nothing else, and
fails only by missing an access. Main statements: `Action.Confined.selectOscillator`
and `Action.Confined.start`. -/
namespace ClockControl

/-- Core cycles of a busy wait, by the published clocks. -/
def busyCycles (published : Option Clocks) (us : UInt32) : UInt32 :=
  (((published.bind (·.core.hertz?)).getD rcFrequency).raw.toNat * us.toNat / 1000000).toUInt32

/-- The product fits 64 bits, so a busy wait always has its count. -/
theorem waitCycles_eq (published : Option Clocks) (us : UInt32) :
    waitCycles published us = .ok (busyCycles published us) := by
  have core := ((published.bind (·.core.hertz?)).getD rcFrequency).raw.toNat_lt
  have product := Nat.mul_lt_mul_of_lt_of_lt core us.toNat_lt
  rw [show 2 ^ 32 * 2 ^ 32 = 2 ^ 64 by decide] at product
  rw [waitCycles, Checked.mul_eq product]
  rfl

/-- The event of a wait. -/
def Delay.event (d : Delay) (published : Option Clocks) (us : UInt32) : Event :=
  match d with
  | .timer => .wait us
  | .core => .spin us (busyCycles published us)

theorem run_wait (w : Wiring) (us : UInt32) (b : Board) :
    (w.wait us).run b = ⟨.ok (), b, [⟨b, w.delay.event b.published us⟩]⟩ := by
  obtain ⟨sequencer, access, delay⟩ := w
  cases delay with
  | timer => rfl
  | core =>
    simp [Wiring.wait, Delay.wait, busyWait, waitCycles_eq, Action.run_bind, Delay.event]

/-- A property of hardware work that the steps of a start-up have, and that work built from them
has as well. -/
structure Pll.Steps (p : Pll) (w : Wiring) (P : Action Board Unit → Prop) : Prop where
  nothing : P (pure ())
  bind {a b : Action Board Unit} : P a → P b → P (a >>= fun _ => b)
  wait (us : UInt32) : P (w.wait us)
  store (part : PllPart) (v : Word) : P (Board.store (.pll p part) v)
  change (part : PllPart) (f : Word → Word) : P (Board.change (.pll p part) f)
  gate (on : Bool) : P (w.setOscillator p.reference on)

namespace Pll.Steps
variable {p : Pll} {w : Wiring} {P : Action Board Unit → Prop}

theorem repeated (h : p.Steps w P) {a : Action Board Unit} (ha : P a) (n : Nat) :
    P (a.repeated n) := by
  induction n with
  | zero => exact h.nothing
  | succ n ih => exact h.bind ha ih

theorem bringUp (h : p.Steps w P) (r : Ramp) : P (p.bringUp w r) := by
  unfold Pll.bringUp
  cases w.sequencer with
  | ramped =>
    refine h.bind (h.repeated ?_ Ramp.steps) (h.store .power _)
    refine h.bind (h.store .power _) (h.bind (h.wait _) ?_)
    exact h.bind (h.store .power _) (h.wait _)
  | direct => exact h.bind (h.store .power _) (h.wait _)
  | custom low high => exact h.bind (h.store .power _) (h.wait _)

theorem program (h : p.Steps w P) (d : Divider) : P (p.program w d) := by
  refine h.bind (h.store .analog0 _) (h.bind (h.store .analog1 _) ?_)
  refine h.bind (h.store .divider _) (h.bind (h.change .output _) ?_)
  exact h.bringUp _

theorem start (h : p.Steps w P) (d : Divider) (lockWait : UInt32) : P (p.start w d lockWait) := by
  refine h.bind (h.gate false) (h.bind (h.program d) (h.bind (h.wait _) ?_))
  refine h.bind (h.gate true) (h.bind (h.wait _) (h.bind (h.wait _) ?_))
  exact h.change .output _

end Pll.Steps

/-- The gate of a PLL's reference, as the PMU has it: 0 while it is closed. -/
def Pll.gate (p : Pll) (m : RegisterFile) : Nat :=
  match p with
  | .system => OscillatorControl.systemRef.get (m.read Register.oscillatorControl)
  | .audio => OscillatorControl.audioRef.get (m.read Register.oscillatorControl)

theorem Pll.gate_eq (p : Pll) (m : RegisterFile) :
    p.gate m = p.reference.get (m.read Register.oscillatorControl) := by
  cases p <;> rfl

/-- Registers of the block, and flags of the oscillator control. -/
structure Footprint where
  registers : List Register
  flags : List (Field 8)

namespace Footprint

/-- Every bit of the oscillator control outside the flags is as before. -/
def KeepsFlags (F : Footprint) (old new : Byte) : Prop :=
  ∀ g : Field 8, (∀ f ∈ F.flags, g.Disjoint f) → g.get new = g.get old

/-- Nothing outside the footprint differs, but for the bridge and the count of accesses. -/
structure Keeps (F : Footprint) (a b : Board) : Prop where
  words : ∀ i : Fin 64, i ≠ Register.bridgeControl.index → i ≠ Register.bridgeData.index →
    (∀ r ∈ F.registers, r.index ≠ i) → b.image.get i = a.image.get i
  pmu : ∀ reg, reg ≠ Register.oscillatorControl → b.pmu.read reg = a.pmu.read reg
  flags : F.KeepsFlags (a.pmu.read Register.oscillatorControl)
    (b.pmu.read Register.oscillatorControl)
  busy : b.busy = a.busy
  fails : b.fails = a.fails
  published : b.published = a.published
  booted : b.booted = a.booted
  accesses : a.accesses ≤ b.accesses

/-- An event that stays within the footprint: a store to one of its registers, a cycle on the
oscillator control that changes none but its flags, or a wait. -/
def Allows (F : Footprint) (m : Moment Board) : Prop :=
  match m.event with
  | .store r _ => r ∈ F.registers ∨ r = .bridgeControl
  | .cycle _ (.read reg) _ => reg = Register.oscillatorControl
  | .cycle _ (.write reg value) _ => reg = Register.oscillatorControl ∧
      F.KeepsFlags (m.before.pmu.read Register.oscillatorControl) value
  | .spin us cycles => cycles = busyCycles m.before.published us
  | .wait _ | .note _ => True

/-- The registers of a PLL, and the gate of its reference. -/
def pll (p : Pll) : Footprint := ⟨PllPart.all.map (.pll p), [p.reference]⟩

/-- The enables of the oscillators, and the choice between them. -/
def oscillators : Footprint :=
  ⟨[], [OscillatorControl.crystal, OscillatorControl.rc, OscillatorControl.useRc]⟩

def tree : Footprint := ⟨[.treeControl], []⟩

theorem mem_pll (p : Pll) (part : PllPart) : Register.pll p part ∈ (pll p).registers := by
  have known : part ∈ PllPart.all := by cases part <;> decide
  exact List.mem_map_of_mem known

theorem treeControl_notMem_pll (p : Pll) : Register.treeControl ∉ (pll p).registers := by
  cases p <;> decide

theorem treeControl_notMem_oscillators : Register.treeControl ∉ oscillators.registers :=
  List.not_mem_nil

/-- Neither a register of the PLL nor the gate of its reference is in the footprint. -/
structure Avoids (F : Footprint) (p : Pll) : Prop where
  registers : ∀ part, Register.pll p part ∉ F.registers
  flags : ∀ f ∈ F.flags, p.reference.Disjoint f

theorem tree_avoids (p : Pll) : tree.Avoids p where
  registers part h := by
    have same := List.mem_singleton.1 h
    cases same
  flags f h := absurd h List.not_mem_nil

theorem oscillators_avoids (p : Pll) : oscillators.Avoids p where
  registers part h := absurd h List.not_mem_nil
  flags f h := by
    simp only [oscillators, List.mem_cons, List.not_mem_nil, or_false] at h
    obtain rfl | rfl | rfl := h <;> cases p <;> decide

theorem pll_avoids {p q : Pll} (h : p ≠ q) : (pll q).Avoids p where
  registers part hr := by
    obtain ⟨other, -, same⟩ := List.mem_map.1 hr
    cases same
    exact h rfl
  flags f hf := by
    obtain rfl := List.mem_singleton.1 hf
    cases p <;> cases q
    · exact absurd rfl h
    · decide
    · decide
    · exact absurd rfl h

theorem audio_avoids : (pll .audio).Avoids .system := pll_avoids nofun

variable {F : Footprint} {a b c : Board} {via : Access}

theorem Keeps.refl (b : Board) : F.Keeps b b :=
  ⟨fun _ _ _ _ => rfl, fun _ _ => rfl, fun _ _ => rfl, rfl, rfl, rfl, rfl, Nat.le_refl _⟩

theorem Keeps.trans (h : F.Keeps a b) (h' : F.Keeps b c) : F.Keeps a c where
  words i hc hd hr := (h'.words i hc hd hr).trans (h.words i hc hd hr)
  pmu reg hr := (h'.pmu reg hr).trans (h.pmu reg hr)
  flags g hg := (h'.flags g hg).trans (h.flags g hg)
  busy := h'.busy.trans h.busy
  fails := h'.fails.trans h.fails
  published := h'.published.trans h.published
  booted := h'.booted.trans h.booted
  accesses := Nat.le_trans h.accesses h'.accesses

theorem Keeps.load (h : F.Keeps a b) {r : Register} (hr : r ∉ F.registers)
    (hc : r ≠ .bridgeControl) (hd : r ≠ .bridgeData) : b.image.load r = a.image.load r := by
  apply h.words r.index
  · intro e
    exact hc (Register.index_inj e)
  · intro e
    exact hd (Register.index_inj e)
  · intro s hs e
    have same := Register.index_inj e
    exact hr (same ▸ hs)

theorem Keeps.load_tree (h : F.Keeps a b) (tree : Register.treeControl ∉ F.registers) :
    b.image.load .treeControl = a.image.load .treeControl :=
  h.load tree nofun nofun

theorem Keeps.answers (h : F.Keeps a b) (n : Nat) : b.Answers via n ↔ a.Answers via n := by
  rw [Board.Answers, Board.Answers, h.fails, h.busy]

/-- A missed access stays missed, seen from earlier. -/
theorem Keeps.misses (h : F.Keeps a b) (missed : b.Misses via c) : a.Misses via c := by
  obtain ⟨n, above, upTo, unanswered⟩ := missed
  exact ⟨n, Nat.lt_of_le_of_lt h.accesses above, upTo, fun hn => unanswered ((h.answers n).2 hn)⟩

theorem Keeps.of_meanwhile (h : a.Meanwhile b) : F.Keeps a b where
  words i hc hd _ := h.alike.image i hc hd
  pmu reg _ := by rw [h.pmu]
  flags g _ := by rw [h.pmu]
  busy := h.alike.busy
  fails := h.alike.fails
  published := h.alike.published
  booted := h.alike.booted
  accesses := h.accesses

/-- The run stays within the footprint at every moment, and fails only by a missed access. -/
structure Holds (F : Footprint) (via : Access) (b : Board) (r : Run Board α) : Prop where
  moments : ∀ m ∈ r.trace, F.Keeps b m.before ∧ F.Allows m
  after : F.Keeps b r.after
  failure : ∀ e, r.outcome = .error e →
    e = .error (.timeout Register.oscillatorControl) ∧ b.Misses via r.after

end Footprint

/-- Every run of the action stays within the footprint. -/
def Action.Confined (a : Action Board α) (F : Footprint) (via : Access) : Prop :=
  ∀ b, F.Holds via b (a.run b)

namespace Action.Confined
variable {F : Footprint} {via : Access}

theorem pure (x : α) : (pure x : Action Board α).Confined F via := by
  intro b
  constructor
  · intro m hm
    cases hm
  · exact .refl b
  · intro e he
    cases he

theorem bind {a : Action Board α} {f : α → Action Board β} (ha : a.Confined F via)
    (hf : ∀ x, (f x).Confined F via) : (a >>= f).Confined F via := by
  intro b
  have first := ha b
  rcases h : a.run b with ⟨e | x, mid, before⟩
  · rw [run_bind_error h]
    rw [h] at first
    exact ⟨first.moments, first.after, fun _ he => first.failure _ (by cases he; rfl)⟩
  · rw [run_bind_ok h]
    rw [h] at first
    have second := hf x mid
    constructor
    · intro m hm
      rcases List.mem_append.1 hm with hm | hm
      · exact first.moments m hm
      · obtain ⟨keeps, allowed⟩ := second.moments m hm
        exact ⟨first.after.trans keeps, allowed⟩
    · exact first.after.trans second.after
    · intro e he
      obtain ⟨timeout, missed⟩ := second.failure e he
      exact ⟨timeout, first.after.misses missed⟩

theorem wait (w : Wiring) (us : UInt32) : (w.wait us).Confined F via := by
  intro b
  rw [run_wait]
  constructor
  · intro m hm
    obtain rfl := List.mem_singleton.1 hm
    constructor
    · exact .refl b
    · cases w.delay with
      | timer => trivial
      | core => rfl
  · exact .refl b
  · intro e he
    cases he

theorem store_latch {r : Register} (hr : r ∈ F.registers) (hc : r ≠ .bridgeControl) (v : Word)
    (b : Board) : F.Holds via b ⟨.ok (), b.latch r v, [⟨b, .store r v⟩]⟩ := by
  constructor
  · intro m hm
    obtain rfl := List.mem_singleton.1 hm
    exact ⟨.refl b, .inl hr⟩
  · show F.Keeps b (b.latch r v)
    rw [Board.latch_of_ne hc]
    have elsewhere : ∀ i : Fin 64, (∀ s ∈ F.registers, s.index ≠ i) →
        (b.image.store r v).get i = b.image.get i := by
      intro i hi
      rw [Image.get_store, if_neg (hi r hr)]
    exact ⟨fun i _ _ => elsewhere i, fun _ _ => rfl, fun _ _ => rfl, rfl, rfl, rfl, rfl,
      Nat.le_refl _⟩
  · intro e he
    cases he

theorem store {r : Register} (hr : r ∈ F.registers) (hc : r ≠ .bridgeControl) (v : Word) :
    (Board.store r v).Confined F via := by
  intro b
  rw [Board.run_store]
  exact store_latch hr hc v b

theorem change {r : Register} (hr : r ∈ F.registers) (hc : r ≠ .bridgeControl) (f : Word → Word) :
    (Board.change r f).Confined F via := by
  intro b
  rw [Board.run_change hc]
  exact store_latch hr hc _ b

theorem allows_read {m : Moment Board}
    (h : (Cycle.read Register.oscillatorControl).Shows via m.event) : F.Allows m := by
  obtain ⟨before, event⟩ := m
  cases h with
  | store => exact .inr rfl
  | cycle => rfl
  | lost => trivial

theorem allows_write {m : Moment Board} {value : Byte}
    (hv : F.KeepsFlags (m.before.pmu.read Register.oscillatorControl) value)
    (h : (Cycle.write Register.oscillatorControl value).Shows via m.event) : F.Allows m := by
  obtain ⟨before, event⟩ := m
  cases h with
  | store => exact .inr rfl
  | cycle => exact ⟨rfl, hv⟩
  | lost => trivial

theorem oscillators (w : Wiring) : w.oscillators.Confined F w.access := by
  intro b
  have reading : Pmu.Transfer _ _ b _ (w.oscillators.run b) :=
    Pmu.read_transfer w.access Register.oscillatorControl b
  have counted := reading.accesses
  constructor
  · intro m hm
    obtain ⟨meanwhile, shows⟩ := reading.moments m hm
    exact ⟨.of_meanwhile meanwhile, allows_read shows⟩
  · have pmu : (w.oscillators.run b).after.pmu = b.pmu := by
      by_cases h : b.Answers w.access (b.accesses + 1)
      · exact (reading.answered h).2
      · exact (reading.lost h).2
    exact .of_meanwhile ⟨reading.alike, pmu, by omega⟩
  · intro e he
    by_cases h : b.Answers w.access (b.accesses + 1)
    · rw [(reading.answered h).1] at he
      cases he
    · rw [(reading.lost h).1] at he
      cases he
      exact ⟨rfl, b.accesses + 1, by omega, by omega, h⟩

theorem setOscillator (w : Wiring) {f : Field 8} (hf : f ∈ F.flags) (on : Bool) :
    (w.setOscillator f on).Confined F w.access := by
  intro b
  have changes : Pmu.Changes _ _ _ b ((w.setOscillator f on).run b) :=
    Pmu.change_changes w.access Register.oscillatorControl (f.put on.toNat) b
  have flags (old : Byte) : F.KeepsFlags old (f.put on.toNat old) :=
    fun g hg => Field.get_put_of_disjoint (hg f hf) _ _
  constructor
  · intro m hm
    obtain ⟨meanwhile, shows | shows⟩ := changes.moments m hm
    · exact ⟨.of_meanwhile meanwhile, allows_read shows⟩
    · constructor
      · exact .of_meanwhile meanwhile
      · refine allows_write ?_ shows
        rw [meanwhile.pmu]
        exact flags _
  · rcases changes.cases with ⟨_, pmu⟩ | ⟨_, pmu, _⟩
    · have alike := changes.alike
      have words := fun i hc hd (_ : ∀ r ∈ F.registers, r.index ≠ i) => alike.image i hc hd
      refine ⟨words, ?_, ?_, alike.busy, alike.fails, alike.published, alike.booted,
        changes.accesses_le⟩
      · intro reg hr
        rw [pmu, RegisterFile.read_write_of_ne hr]
      · rw [pmu, RegisterFile.read_write_self]
        exact flags _
    · exact .of_meanwhile ⟨changes.alike, pmu, changes.accesses_le⟩
  · intro e he
    rcases changes.cases with ⟨ok, _⟩ | ⟨lost, _, missed⟩
    · rw [ok] at he
      cases he
    · rw [lost] at he
      cases he
      exact ⟨rfl, missed⟩

theorem ite {c : Prop} [Decidable c] {a b : Action Board α} (ha : a.Confined F via)
    (hb : b.Confined F via) : (if c then a else b).Confined F via := by
  split
  · exact ha
  · exact hb

theorem selectOscillator (w : Wiring) (o : Oscillator) :
    (w.selectOscillator o).Confined .oscillators w.access := by
  have flag {f : Field 8} (hf : f ∈ Footprint.oscillators.flags) (on : Bool) :
      (w.setOscillator f on).Confined .oscillators w.access := setOscillator w hf on
  have select := flag (f := OscillatorControl.useRc) (by simp [Footprint.oscillators])
  unfold Wiring.selectOscillator
  refine bind (oscillators w) fun control => ite ?_ (select _)
  refine bind (flag ?_ true) fun _ => bind (wait w _) fun _ => select _
  cases o <;> simp [Footprint.oscillators]

section Start
variable (p : Pll) (w : Wiring)

theorem store_pll (part : PllPart) (v : Word) :
    (Board.store (.pll p part) v).Confined (.pll p) via :=
  store (Footprint.mem_pll p part) nofun v

theorem start (d : Divider) (lockWait : UInt32) :
    (p.start w d lockWait).Confined (.pll p) w.access := by
  have steps : p.Steps w fun a => a.Confined (.pll p) w.access := by
    constructor
    · exact pure ()
    · exact fun ha hb => bind ha fun _ => hb
    · exact wait w
    · exact store_pll p
    · exact fun part => change (Footprint.mem_pll p part) nofun
    · exact setOscillator w (List.mem_singleton_self _)
  exact steps.start d lockWait

theorem powerDown : p.powerDown.Confined (.pll p) via :=
  store_pll p .power _

end Start

end Action.Confined
end ClockControl
