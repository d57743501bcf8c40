import ClockControl.Proofs.Path
import ClockControl.Proofs.Pll.Startup

/-! The system PLL is left alone while the MCU runs from it. A task either avoids the PLL, or it
has found the MCU on the core high-speed clock and does not touch the tree. Main statement:
`system_pll_touched_only_when_free`. -/
namespace ClockControl

/-- A bus cycle that changes the gate of the PLL's reference. -/
def Pll.Turns (p : Pll) (m : Moment Board) : Prop :=
  match m.event with
  | .cycle _ c (some _) => p.gate (c.apply m.before.pmu) ≠ p.gate m.before.pmu
  | _ => False

/-- A store to a register of the PLL, or a bus cycle that changes the gate of its reference. -/
def Pll.Touches (p : Pll) (m : Moment Rig) : Prop :=
  p.Stores m.event ∨ p.Turns ⟨m.before.board, m.event⟩

namespace Footprint
variable {F : Footprint} {p : Pll}

/-- Work that avoids a PLL does not store to it. -/
theorem Avoids.stores (h : F.Avoids p) {m : Moment Board} (hm : F.Allows m) :
    p.Stores m.event = false :=
  Pll.stores_of_allows hm h.registers

/-- Work that avoids a PLL leaves its gate alone. -/
theorem Avoids.turns (h : F.Avoids p) {m : Moment Board} (hm : F.Allows m) : ¬p.Turns m := by
  obtain ⟨before, event⟩ := m
  intro turns
  cases event with
  | cycle via c byte =>
    cases byte with
    | none => exact turns
    | some byte =>
      cases c with
      | read reg => exact turns rfl
      | write reg value =>
        obtain ⟨rfl, flags⟩ := hm
        apply turns
        rw [Cycle.apply, Pll.gate_eq, Pll.gate_eq, RegisterFile.read_write_self]
        exact flags p.reference h.flags
  | _ => exact turns

end Footprint

/-- A task that does not avoid the system PLL works on that PLL, and has found it free. -/
theorem Task.avoids_or_free {rig : Rig} {k : Task} (ready : k.Ready rig) :
    k.footprint.Avoids .system ∨ k.footprint = .pll .system ∧ rig.source = .coreHs := by
  cases k with
  | park => exact .inl (Footprint.tree_avoids _)
  | oscillator o => exact .inl (Footprint.oscillators_avoids _)
  | tree t => exact .inl (Footprint.tree_avoids _)
  | powerDown p =>
    cases p with
    | system => exact .inr ⟨rfl, ready rfl⟩
    | audio => exact .inl Footprint.audio_avoids
  | start p divider f lockWait =>
    cases p with
    | system => exact .inr ⟨rfl, ready.1 rfl⟩
    | audio => exact .inl Footprint.audio_avoids

namespace Rig

theorem source_of_keeps {rig rig' : Rig} {F : Footprint} (h : F.Keeps rig.board rig'.board)
    (tree : Register.treeControl ∉ F.registers) : rig'.source = rig.source := by
  rw [source, source, h.load_tree tree]

/-- A note touches nothing. -/
theorem not_touches_of_note {p : Pll} {m : Moment Rig} {n : Note} (h : m.event = .note n) :
    ¬p.Touches m := by
  obtain ⟨before, event⟩ := m
  cases h
  rintro (stores | turns)
  · cases stores
  · exact turns

/-- What touches the system PLL in a stage finds the MCU on the core high-speed clock. -/
theorem Stage.source_of_touches {rig : Rig} {r : Run Rig Unit} (h : rig.Stage r) {m : Moment Rig}
    (hm : m ∈ r.trace) (touches : Pll.Touches .system m) : m.before.source = .coreHs := by
  cases h with
  | note n =>
    obtain rfl := List.mem_singleton.1 hm
    exact absurd touches (not_touches_of_note rfl)
  | crystal f => cases hm
  | fault e =>
    obtain rfl := List.mem_singleton.1 hm
    obtain stores | turns := touches
    · cases stores
    · cases turns
  | task k ready =>
    obtain ⟨n, event⟩ | moment := perform_shows ready hm
    · exact absurd touches (not_touches_of_note event)
    · obtain avoids | ⟨own, free⟩ := Task.avoids_or_free ready
      · obtain stores | turns := touches
        · rw [avoids.stores moment.allows] at stores
          cases stores
        · exact absurd turns (avoids.turns moment.allows)
      · have keeps := moment.keeps
        rw [own] at keeps
        rw [source_of_keeps keeps (Footprint.treeControl_notMem_pll _), free]

/-- Whatever is asked of a controller in whatever order, and whichever accesses to the PMU fail:
the MCU runs from the core high-speed clock whenever the system PLL is touched. -/
theorem system_pll_touched_only_when_free (rig : Rig) (ops : List Operation) :
    ∀ m ∈ ((Operation.sequence ops).run rig).trace,
      Pll.Touches .system m → m.before.source = .coreHs := by
  intro m hm touches
  obtain ⟨earlier, rig', r, -, step, shown⟩ := (sequence_path rig ops).stage_of_mem hm
  exact step.source_of_touches shown touches

/-- A start-up on a blank board is such a run; its last store turns the tap on. -/
theorem system_pll_started_when_free : ∃ m : Moment Rig,
    m ∈ ((Operation.sequence [.setSpll (some ⟨8, 0⟩) 10]).run
      ⟨.blank, .fresh (.standard .core) boardCrystal⟩).trace ∧
    m.event = .store (.pll .system .output) 0x10000#32 ∧ m.before.source = .coreHs := by
  have shown : Event.store (.pll .system .output) 0x10000#32 ∈
      (((Operation.sequence [.setSpll (some ⟨8, 0⟩) 10]).run
        ⟨.blank, .fresh (.standard .core) boardCrystal⟩).trace).map (·.event) := by
    decide +kernel
  obtain ⟨m, hm, event⟩ := List.mem_map.1 shown
  have touches : Pll.Touches .system m := .inl (by rw [event]; rfl)
  exact ⟨m, hm, event, system_pll_touched_only_when_free _ _ m hm touches⟩

end Rig
end ClockControl
