import ClockControl.Proofs.Path

/-! The stores of a run. A task stores to the registers of its footprint and to the control
register of the bridge, and the diagnostic register is in no footprint. Main statements:
`Answers.stores`, and `omits_diagnostic`: of all operations only the record of a failure stores to
that register. -/
namespace ClockControl

/-- The register and the word of a store. -/
def Event.stored? : Event → Option (Register × Word)
  | .store r v => some (r, v)
  | .cycle _ _ _ | .wait _ | .spin _ _ | .note _ => none

theorem Event.stored?_eq_some_iff (e : Event) (w : Register × Word) :
    e.stored? = some w ↔ e = .store w.1 w.2 := by
  obtain ⟨r, v⟩ := w
  cases e <;> simp [stored?]

namespace Run

/-- What a run stores, in order. -/
def stores (r : Run σ α) : List (Register × Word) := r.events.filterMap Event.stored?

theorem mem_stores {r : Run σ α} {w : Register × Word} :
    w ∈ r.stores ↔ ∃ m ∈ r.trace, m.event = .store w.1 w.2 := by
  simp [stores, events, Event.stored?_eq_some_iff]

/-- Notes are no stores. -/
theorem stores_eq_nil {r : Run σ α} (notes : ∀ m ∈ r.trace, ∃ n, m.event = .note n) :
    r.stores = [] := by
  apply List.eq_nil_iff_forall_not_mem.2
  intro w hw
  obtain ⟨m, hm, stored⟩ := mem_stores.1 hw
  obtain ⟨n, note⟩ := notes m hm
  rw [note] at stored
  cases stored

@[simp] theorem stores_mapState (f : σ → τ) (r : Run σ α) : (r.mapState f).stores = r.stores := by
  simp only [stores, events, mapState, List.map_map, Function.comp_def]

end Run

/-- No run of the action stores to the register. -/
def Action.Omits (a : Action σ α) (r : Register) : Prop := ∀ s, ∀ w ∈ (a.run s).stores, w.1 ≠ r

namespace Action.Omits
variable {r : Register}

theorem of_quiet {a : Action σ α} (h : ∀ s, ∀ m ∈ (a.run s).trace, ∃ n, m.event = .note n) :
    a.Omits r := by
  intro s w hw
  rw [Run.stores_eq_nil (h s)] at hw
  cases hw

theorem note (n : Note) : (note n : Action σ Unit).Omits r :=
  of_quiet fun _ _ hm => ⟨n, congrArg Moment.event (List.mem_singleton.1 hm)⟩

theorem update (f : σ → σ) : (update f).Omits r := of_quiet fun _ _ hm => nomatch hm

theorem bind {a : Action σ α} {f : α → Action σ β} (ha : a.Omits r) (hf : ∀ x, (f x).Omits r) :
    (a >>= f).Omits r := by
  intro s w hw
  have first := ha s w
  rcases h : a.run s with ⟨e | x, s', trace⟩
  · rw [run_bind_error h] at hw
    rw [h] at first
    exact first hw
  · rw [run_bind_ok h, Run.stores, Run.events, List.map_append, List.filterMap_append] at hw
    rw [h] at first
    obtain hw | hw := List.mem_append.1 hw
    · exact first hw
    · exact hf x s' w hw

theorem state {f : σ → Action σ α} (hf : ∀ s, (f s).Omits r) : (state >>= f).Omits r :=
  bind (of_quiet fun _ _ hm => nomatch hm) hf

end Action.Omits

/-- No task works on the diagnostic register. -/
theorem Task.diagnostic_notMem (k : Task) : Register.diagnostic ∉ k.footprint.registers := by
  have tree : Register.diagnostic ∉ Footprint.tree.registers := by decide
  have pll (p : Pll) : Register.diagnostic ∉ (Footprint.pll p).registers := by
    cases p <;> decide
  cases k with
  | park => exact tree
  | oscillator o => exact List.not_mem_nil
  | powerDown p => exact pll p
  | start p d f lockWait => exact pll p
  | tree t => exact tree

namespace Controller
variable {rig : Rig} {r : Run Rig Unit} {request : Attempt Task}

/-- The board sees the work of a task, and then notes. -/
theorem perform_onBoard (k : Task) (rig : Rig) :
    let work := (k.work rig.controller.wiring).run rig.board
    let r := ((perform k).run rig).mapState (·.board)
    r.outcome = work.outcome ∧ r.after.pmu = work.after.pmu ∧
      ∃ notes, r.trace = work.trace ++ notes ∧ ∀ m ∈ notes, ∃ n, m.event = .note n := by
  intro work r
  have lifted (trace : List (Moment Board)) :
      (rig.lift trace).map (fun m => ⟨m.before.board, m.event⟩) = trace := by
    rw [Rig.lift, List.map_map]
    exact List.map_id _
  rcases hw : (k.work rig.controller.wiring).run rig.board with ⟨e | x, b, trace⟩
  · simp only [work, r, hw, run_perform_error hw, Run.mapState, lifted]
    exact ⟨trivial, rfl, [], (List.append_nil _).symm, List.forall_mem_nil _⟩
  · simp only [work, r, hw, run_perform_ok hw, Run.mapState, List.map_append, lifted]
    refine ⟨trivial, rfl, _, rfl, ?_⟩
    intro m hm
    rw [← List.map_append] at hm
    obtain ⟨moment, hmoment, rfl⟩ := List.mem_map.1 hm
    exact Rig.event_of_conclusion hmoment

/-- What a task stores is stored by its work. -/
theorem stores_perform (k : Task) (rig : Rig) :
    ((perform k).run rig).stores = ((k.work rig.controller.wiring).run rig.board).stores := by
  obtain ⟨-, -, notes, trace, silent⟩ := perform_onBoard k rig
  have nothing := Run.stores_eq_nil (r := ⟨.ok (), rig.board, notes⟩) silent
  rw [← Run.stores_mapState (·.board)]
  simp only [Run.stores, Run.events] at nothing ⊢
  rw [trace, List.map_append, List.filterMap_append, nothing, List.append_nil]

theorem perform_stores {k : Task} (ready : k.Ready rig) {w : Register × Word}
    (hw : w ∈ ((perform k).run rig).stores) :
    w.1 = .bridgeControl ∨ w.1 ∈ k.footprint.registers := by
  obtain ⟨m, hm, stored⟩ := Run.mem_stores.1 hw
  obtain ⟨n, note⟩ | shown := Rig.perform_shows ready hm
  · rw [note] at stored
    cases stored
  · have allows := shown.allows
    rw [stored] at allows
    exact allows.symm

/-- What is stored for a request is stored by the task that it has come to. -/
theorem Answers.stores (answers : Answers r rig request) {w : Register × Word}
    (hw : w ∈ r.stores) :
    ∃ k, request = .ok k ∧ (w.1 = .bridgeControl ∨ w.1 ∈ k.footprint.registers) := by
  cases request with
  | ok k =>
    obtain ⟨ready, rfl⟩ := answers
    exact ⟨k, rfl, perform_stores ready hw⟩
  | error e =>
    obtain ⟨ns, -, rfl⟩ := answers
    have notes : ∀ m ∈ ns.map fun n => (⟨rig, .note n⟩ : Moment Rig), ∃ n, m.event = .note n := by
      simp
    rw [Run.stores_eq_nil notes] at hw
    cases hw

theorem Answers.omits_diagnostic (answers : Answers r rig request) :
    ∀ w ∈ r.stores, w.1 ≠ .diagnostic := by
  intro w hw same
  obtain ⟨k, -, bridge | inside⟩ := answers.stores hw
  · rw [same] at bridge
    cases bridge
  · exact k.diagnostic_notMem (same ▸ inside)

theorem park_omits_diagnostic : park.Omits .diagnostic := by
  intro rig
  cases source : rig.source with
  | coreHs =>
    rw [run_park_of_coreHs source]
    exact fun _ hw => nomatch hw
  | spll =>
    have answers : Answers (park.run rig) rig (.ok .park) := ⟨source, run_park_of_spll source⟩
    exact answers.omits_diagnostic

theorem check_omits (c : Configuration) (r : Register) : (check c).Omits r :=
  .state fun _ => .of_quiet fun _ _ hm => nomatch hm

theorem apply_omits_diagnostic (c : Configuration) : (apply c).Omits .diagnostic := by
  refine (check_omits c _).bind fun _ => (Action.Omits.update _).bind fun _ => ?_
  refine park_omits_diagnostic.bind fun _ => ?_
  refine .bind (fun rig => (setOscillator_answers c.oscillator rig).omits_diagnostic) fun _ => ?_
  refine .bind (fun rig => (setSpll_answers c.spll c.lockWait rig).omits_diagnostic) fun _ => ?_
  refine .bind (fun rig => (setAupll_answers c.aupll c.lockWait rig).omits_diagnostic) fun _ => ?_
  refine .bind (fun rig => (setTree_answers c.tree rig).omits_diagnostic) fun _ => ?_
  exact .state fun _ => .note _

end Controller

/-- Only the record of a failure stores to the diagnostic register. -/
theorem Operation.omits_diagnostic {op : Operation} (other : ∀ e, op ≠ .recordFault e) :
    op.action.Omits .diagnostic := by
  cases op with
  | setOscillator o =>
    exact fun rig => (Controller.setOscillator_answers o rig).omits_diagnostic
  | setSpll ratio lockWait =>
    exact fun rig => (Controller.setSpll_answers ratio lockWait rig).omits_diagnostic
  | setAupll ratio lockWait =>
    exact fun rig => (Controller.setAupll_answers ratio lockWait rig).omits_diagnostic
  | setTree t => exact fun rig => (Controller.setTree_answers t rig).omits_diagnostic
  | check c => exact Controller.check_omits c _
  | apply c => exact Controller.apply_omits_diagnostic c
  | recordFault e => exact absurd rfl (other e)

end ClockControl
