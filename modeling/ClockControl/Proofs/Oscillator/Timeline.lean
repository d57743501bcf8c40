import ClockControl.Proofs.Effect
import Mathlib.Algebra.Ring.Nat

/-! The life of the oscillators as the PMU shows it: which of them are enabled, which one is
selected, and how much delay has been asked for since each was started. An orderly timeline only
ever adds to the enables, and selects an oscillator only once it is enabled and warm. Main
statements: `Orderly.snoc`, what one more event has to see to, and `Calm.idles`. -/
namespace ClockControl

namespace Oscillator

/-- The oscillator that the control selects. -/
def chosen (control : Byte) : Oscillator :=
  if OscillatorControl.useRc.isSet control then .rc else .crystal

def Enabled (o : Oscillator) (control : Byte) : Prop := o.enable.isSet control = true

instance (o : Oscillator) (control : Byte) : Decidable (o.Enabled control) :=
  inferInstanceAs (Decidable (_ = _))

section Put
variable {o : Oscillator} {f : Field 8} {value : Nat} {control : Byte}

theorem enabled_put (h : o.enable.Disjoint f) :
    o.Enabled (f.put value control) ↔ o.Enabled control := by
  rw [Enabled, Enabled, Field.isSet, Field.isSet, Field.get_put_of_disjoint h]

theorem chosen_put (h : OscillatorControl.useRc.Disjoint f) :
    chosen (f.put value control) = chosen control := by
  rw [chosen, chosen, Field.isSet, Field.isSet, Field.get_put_of_disjoint h]

theorem enabled_raised (o : Oscillator) (control : Byte) :
    o.Enabled (o.enable.put 1 control) := by
  rw [Enabled, Field.isSet, Field.get_put, keep_enable]
  rfl

theorem chosen_select (o : Oscillator) (control : Byte) :
    chosen (OscillatorControl.useRc.put (decide (o = .rc)).toNat control) = o := by
  rw [chosen, Field.isSet, Field.get_put]
  cases o <;> rfl

theorem enable_disjoint_useRc (o : Oscillator) :
    o.enable.Disjoint OscillatorControl.useRc := by
  cases o <;> decide

theorem enable_disjoint_reference (o : Oscillator) (p : Pll) :
    o.enable.Disjoint p.reference := by
  cases o <;> cases p <;> decide

theorem enable_disjoint_enable {o p : Oscillator} (h : o ≠ p) : o.enable.Disjoint p.enable := by
  cases o <;> cases p <;> first | decide | exact absurd rfl h

end Put

end Oscillator

namespace RegisterFile

/-- The selected oscillator is enabled. -/
def Running (m : RegisterFile) : Prop :=
  (Oscillator.chosen (m.read Register.oscillatorControl)).Enabled
    (m.read Register.oscillatorControl)

/-- From one state of the PMU to a later one: nothing changes but the oscillator control without its
reserved bits, no enable is cleared, and an enabled selection is not lost. -/
structure Grown (m n : RegisterFile) : Prop where
  others : ∀ reg, reg ≠ Register.oscillatorControl → n.read reg = m.read reg
  reserved : ∀ i ∈ [3, 6, 7], (n.read Register.oscillatorControl).getLsbD i =
    (m.read Register.oscillatorControl).getLsbD i
  enabled : ∀ o : Oscillator, o.Enabled (m.read Register.oscillatorControl) →
    o.Enabled (n.read Register.oscillatorControl)
  running : m.Running → n.Running

theorem Grown.refl (m : RegisterFile) : m.Grown m :=
  ⟨fun _ _ => rfl, fun _ _ => rfl, fun _ => id, id⟩

theorem Grown.trans {m n o : RegisterFile} (h : m.Grown n) (h' : n.Grown o) : m.Grown o where
  others reg hr := (h'.others reg hr).trans (h.others reg hr)
  reserved i hi := (h'.reserved i hi).trans (h.reserved i hi)
  enabled o ho := h'.enabled o (h.enabled o ho)
  running hm := h'.running (h.running hm)

end RegisterFile

/-- The PMU once the event is over. -/
def Moment.result (m : Moment Board) : RegisterFile :=
  match m.event with
  | .cycle _ c (some _) => c.apply m.before.pmu
  | _ => m.before.pmu

/-- The microseconds of delay that an event asks for. -/
def Event.requested : Event → Nat
  | .wait us | .spin us _ => us.toNat
  | _ => 0

/-- The microseconds of delay that a list of moments asks for. -/
def delayIn (ms : List (Moment Board)) : Nat := (ms.map (·.event.requested)).sum

theorem Delay.requested_event (d : Delay) (published : Option Clocks) (us : UInt32) :
    (d.event published us).requested = us.toNat := by
  cases d <;> rfl

namespace Oscillator

/-- The event starts the oscillator. -/
def Starts (o : Oscillator) (m : Moment Board) : Prop :=
  ¬o.Enabled m.before.oscillators ∧ o.Enabled (m.result.read Register.oscillatorControl)

instance (o : Oscillator) (m : Moment Board) : Decidable (o.Starts m) :=
  inferInstanceAs (Decidable (_ ∧ _))

/-- The event moves the selection to the oscillator. -/
def Takes (o : Oscillator) (m : Moment Board) : Prop :=
  chosen m.before.oscillators ≠ o ∧ chosen (m.result.read Register.oscillatorControl) = o

instance (o : Oscillator) (m : Moment Board) : Decidable (o.Takes m) :=
  inferInstanceAs (Decidable (_ ∧ _))

/-- The microseconds for which an oscillator that has been started is to be waited for. -/
def warmUp : Oscillator → Nat
  | .crystal => 1000
  | .rc => 10

theorem warmUp_le_startup (o : Oscillator) : o.warmUp ≤ o.startup.toNat := by
  cases o <;> decide

/-- If the oscillator was started, it has been waited for since. -/
def Warm (o : Oscillator) (past : List (Moment Board)) : Prop :=
  ∀ front m back, past = front ++ m :: back → o.Starts m → o.warmUp ≤ delayIn back

end Oscillator

/-- The last moment is the one split off, or comes after it. -/
theorem snoc_eq_append_cons {past front back : List α} {m n : α}
    (split : past ++ [m] = front ++ n :: back) :
    (past = front ∧ m = n ∧ back = []) ∨
      ∃ rest, past = front ++ n :: rest ∧ back = rest ++ [m] := by
  rcases List.eq_nil_or_concat back with rfl | ⟨rest, x, rfl⟩
  · obtain ⟨rfl, same⟩ := List.append_inj' split rfl
    obtain ⟨rfl, -⟩ := List.cons.inj same
    exact .inl ⟨rfl, rfl, rfl⟩
  · rw [List.concat_eq_append, ← List.cons_append, ← List.append_assoc] at split
    obtain ⟨earlier, last⟩ := List.append_inj' split rfl
    obtain ⟨rfl, -⟩ := List.cons.inj last
    exact .inr ⟨rest, earlier, List.concat_eq_append⟩

/-- An event that does not start the oscillator leaves it warm, or a wait makes it so. -/
theorem Oscillator.Warm.snoc {o : Oscillator} {past : List (Moment Board)} {m : Moment Board}
    (quiet : ¬o.Starts m) (h : o.Warm past ∨ o.warmUp ≤ m.event.requested) :
    o.Warm (past ++ [m]) := by
  intro front n back split starts
  obtain ⟨rfl, rfl, rfl⟩ | ⟨rest, earlier, rfl⟩ := snoc_eq_append_cons split
  · exact absurd starts quiet
  · rw [delayIn, List.map_append, List.sum_append, List.map_singleton, List.sum_singleton]
    obtain warm | long := h
    · exact Nat.le_trans (warm front n rest earlier starts) (Nat.le_add_right _ _)
    · exact Nat.le_trans long (Nat.le_add_left _ _)

/-- The states that the PMU goes through, the last one included. -/
def pmuStates (past : List (Moment Board)) (b : Board) : List RegisterFile :=
  past.map (·.before.pmu) ++ [b.pmu]

theorem pmuStates_snoc {past : List (Moment Board)} {b b' : Board} {m : Moment Board}
    (before : m.before.pmu = b.pmu) :
    pmuStates (past ++ [m]) b' = pmuStates past b ++ [b'.pmu] := by
  rw [pmuStates, pmuStates, List.map_append, List.map_singleton, before]

theorem pmuStates_congr {b b' : Board} (same : b'.pmu = b.pmu) (past : List (Moment Board)) :
    pmuStates past b' = pmuStates past b := by
  rw [pmuStates, pmuStates, same]

theorem last_mem_pmuStates (past : List (Moment Board)) (b : Board) : b.pmu ∈ pmuStates past b :=
  List.mem_append_right _ (List.mem_singleton_self _)

/-- What has happened to the oscillators since the PMU was in the state `start`. -/
structure Orderly (start : RegisterFile) (past : List (Moment Board)) (b : Board) : Prop where
  /-- Each state of the PMU is what the event before has made of it. -/
  traced : pmuStates past b = start :: past.map Moment.result
  grown : (pmuStates past b).Pairwise RegisterFile.Grown
  selected : ∀ front m back, past = front ++ m :: back → ∀ o : Oscillator, o.Takes m →
    o.Enabled m.before.oscillators ∧ o.Warm front
  /-- Once a selection has been told of, the selected oscillator stays enabled. -/
  noted : ∀ front m back, past = front ++ m :: back → ∀ f, m.event = .note (.coreHs f) →
    ∀ state ∈ pmuStates (m :: back) b, state.Running

/-- The moment leaves the PMU as it is on the board, and does not tell of a selection. -/
structure Idle (b : Board) (m : Moment Board) : Prop where
  before : m.before.pmu = b.pmu
  result : m.result = b.pmu
  note : ∀ f, m.event ≠ .note (.coreHs f)

theorem Idle.not_starts {b : Board} {m : Moment Board} (h : Idle b m) (o : Oscillator) :
    ¬o.Starts m := by
  rintro ⟨disabled, enabled⟩
  rw [h.result, ← h.before] at enabled
  exact disabled enabled

theorem Idle.not_takes {b : Board} {m : Moment Board} (h : Idle b m) (o : Oscillator) :
    ¬o.Takes m := by
  rintro ⟨other, chosen⟩
  rw [h.result, ← h.before] at chosen
  exact other chosen

namespace Orderly
variable {start : RegisterFile} {past : List (Moment Board)} {b b' : Board} {m : Moment Board}

theorem refl (b : Board) : Orderly b.pmu [] b where
  traced := rfl
  grown := List.pairwise_singleton _ _
  selected front m back split := by simp at split
  noted front m back split := by simp at split

theorem congr (h : Orderly start past b) (same : b'.pmu = b.pmu) : Orderly start past b' where
  traced := by
    rw [pmuStates_congr same]
    exact h.traced
  grown := by
    rw [pmuStates_congr same]
    exact h.grown
  selected := h.selected
  noted front m back := by
    rw [pmuStates_congr same]
    exact h.noted front m back

theorem snoc (h : Orderly start past b) (before : m.before.pmu = b.pmu)
    (result : m.result = b'.pmu) (grown : b.pmu.Grown b'.pmu)
    (selected : ∀ o : Oscillator, o.Takes m → o.Enabled m.before.oscillators ∧ o.Warm past)
    (noted : ∀ f, m.event = .note (.coreHs f) → b.pmu.Running) :
    Orderly start (past ++ [m]) b' := by
  constructor
  · rw [pmuStates_snoc before, h.traced, List.map_append, List.map_singleton, result,
      List.cons_append]
  · rw [pmuStates_snoc before]
    refine List.pairwise_append.2 ⟨h.grown, List.pairwise_singleton _ _, ?_⟩
    intro p hp q hq
    obtain rfl := List.mem_singleton.1 hq
    obtain hp | hp := List.mem_append.1 hp
    · have reached := (List.pairwise_append.1 h.grown).2.2 p hp _ (List.mem_singleton_self _)
      exact reached.trans grown
    · obtain rfl := List.mem_singleton.1 hp
      exact grown
  · intro front n back split o takes
    obtain ⟨rfl, rfl, rfl⟩ | ⟨rest, earlier, rfl⟩ := snoc_eq_append_cons split
    · exact selected o takes
    · exact h.selected front n rest earlier o takes
  · intro front n back split f event
    obtain ⟨rfl, rfl, rfl⟩ | ⟨rest, earlier, rfl⟩ := snoc_eq_append_cons split
    · have running := noted f event
      rw [← before] at running
      refine List.forall_mem_cons.2 ⟨running, List.forall_mem_singleton.2 ?_⟩
      rw [before] at running
      exact grown.running running
    · have running := h.noted front n rest earlier f event
      rw [← List.cons_append, pmuStates_snoc before]
      refine List.forall_mem_append.2 ⟨running, List.forall_mem_singleton.2 ?_⟩
      exact grown.running (running _ (last_mem_pmuStates _ _))

theorem idle (h : Orderly start past b) (idle : Idle b m) (same : b'.pmu = b.pmu) :
    Orderly start (past ++ [m]) b' := by
  refine h.snoc idle.before (idle.result.trans same.symm) ?_ ?_ ?_
  · rw [same]
    exact .refl _
  · intro o takes
    exact absurd takes (idle.not_takes o)
  · intro f event
    exact absurd event (idle.note f)

/-- From a state in which the selected oscillator is enabled it stays enabled. -/
theorem running_of_start (h : Orderly start past b) (running : start.Running)
    {n : RegisterFile} (hn : n ∈ pmuStates past b) : n.Running := by
  have grown := h.grown
  rw [h.traced] at grown hn
  obtain rfl | hn := List.mem_cons.1 hn
  · exact running
  · exact ((List.pairwise_cons.1 grown).1 n hn).running running

end Orderly

/-- An orderly timeline on which every oscillator that was started is warm. -/
structure Calm (start : RegisterFile) (past : List (Moment Board)) (b : Board) : Prop where
  orderly : Orderly start past b
  warm : ∀ o : Oscillator, o.Warm past

namespace Calm
variable {start : RegisterFile} {past : List (Moment Board)} {b b' : Board} {m : Moment Board}

theorem refl (b : Board) : Calm b.pmu [] b where
  orderly := .refl b
  warm o front m back split := by simp at split

theorem congr (h : Calm start past b) (same : b'.pmu = b.pmu) : Calm start past b' :=
  ⟨h.orderly.congr same, h.warm⟩

theorem idle (h : Calm start past b) (idle : Idle b m) (same : b'.pmu = b.pmu) :
    Calm start (past ++ [m]) b' where
  orderly := h.orderly.idle idle same
  warm o := .snoc (idle.not_starts o) (.inl (h.warm o))

theorem idles (h : Calm start past b) {trace : List (Moment Board)}
    (idle : ∀ m ∈ trace, Idle b m) (same : b'.pmu = b.pmu) : Calm start (past ++ trace) b' := by
  induction trace generalizing past with
  | nil =>
    rw [List.append_nil]
    exact h.congr same
  | cons m trace ih =>
    obtain ⟨first, others⟩ := List.forall_mem_cons.1 idle
    have rest := ih (h.idle first rfl) others
    rwa [List.append_assoc] at rest

end Calm

end ClockControl
