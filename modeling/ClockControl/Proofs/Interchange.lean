import ClockControl.Proofs.Retry
import ClockControl.Proofs.Stores

/-! The sources are independent. Each of the three requests that set one works on registers, flags
and a clock of its own, and none is decided by what another one changes. Main statement:
`source_steps_interchange`. -/
namespace ClockControl

namespace Rig

/-- What decides a request that sets a source is the same on the two rigs. -/
structure SameTerms (rig rig' : Rig) : Prop where
  wiring : rig'.controller.wiring = rig.controller.wiring
  crystal : rig'.controller.crystal = rig.controller.crystal
  tree : rig'.board.image.load .treeControl = rig.board.image.load .treeControl

/-- The same controller, on boards that show the same and have the same clocks published. -/
structure Shows (rig rig' : Rig) : Prop where
  board : rig.board.Shows rig'.board
  controller : rig'.controller = rig.controller
  published : rig'.board.published = rig.board.published

theorem Shows.refl (rig : Rig) : rig.Shows rig := ⟨⟨.refl _, rfl⟩, rfl, rfl⟩

end Rig

namespace Step

/-- The clocks with the clock of the step at `r`. -/
def enter (r : Rate) (control : Word) (c : Clocks) : Step → Clocks
  | .oscillator => { c with coreHs := r }.derived control
  | .pll .system => (c.setPll .system r).derived control
  | .pll .audio => c.setPll .audio r

/-- Whichever clock the tree runs from, the DSP and core clocks are derived from it anew. -/
theorem enter_comm {i j : Step} (other : i ≠ j) (r r' : Rate) (control : Word) (c : Clocks) :
    i.enter r control (j.enter r' control c) = j.enter r' control (i.enter r control c) := by
  cases source : McuSource.selectedBy control <;>
    rcases i with _ | ⟨_ | _⟩ <;> rcases j with _ | ⟨_ | _⟩ <;>
    simp [enter, Clocks.derived, Clocks.setPll, source] at other ⊢

end Step

namespace Task

/-- The step that a task is. -/
def step? : Task → Option Step
  | .oscillator _ => some .oscillator
  | .powerDown p | .start p _ _ _ => some (.pll p)
  | .park | .tree _ => none

variable {k k' : Task} {i j : Step} {rig mid mid' last last' : Rig}

theorem step_of_system {ratio : Option SystemRatio} {lockWait : UInt32}
    (requested : ofSystem ratio lockWait rig = .ok k) : k.step? = some (.pll .system) := by
  unfold ofSystem at requested
  split at requested
  · cases requested
  · cases ratio with
    | none =>
      cases requested
      rfl
    | some ratio =>
      obtain ⟨_, -, planned⟩ := Attempt.bind_ok requested
      cases planned
      rfl

theorem step_of_audio {ratio : Option AudioRatio} {lockWait : UInt32}
    (requested : ofAudio ratio lockWait rig = .ok k) : k.step? = some (.pll .audio) := by
  cases ratio with
  | none =>
    cases requested
    rfl
  | some ratio =>
    obtain ⟨_, -, planned⟩ := Attempt.bind_ok requested
    cases planned
    rfl

theorem footprint_of_step (h : k.step? = some i) : k.footprint = i.footprint := by
  cases k <;> cases h <;> rfl

theorem record_of_step (h : k.step? = some i) (crystal : Hertz) :
    ∃ r, ∀ control c, k.record crystal control c = i.enter r control c := by
  cases k with
  | park => cases h
  | tree t => cases h
  | oscillator o =>
    cases h
    exact ⟨.ofHertz (o.frequency crystal), fun _ _ => rfl⟩
  | powerDown p =>
    cases h
    cases p <;> exact ⟨.stopped, fun _ _ => rfl⟩
  | start p d f lockWait =>
    cases h
    cases p <;> exact ⟨.ofHertz f, fun _ _ => rfl⟩

theorem record_comm (h : k.step? = some i) (h' : k'.step? = some j) (other : i ≠ j)
    (crystal : Hertz) (control : Word) (c : Clocks) :
    k.record crystal control (k'.record crystal control c) =
      k'.record crystal control (k.record crystal control c) := by
  obtain ⟨r, record⟩ := record_of_step h crystal
  obtain ⟨r', record'⟩ := record_of_step h' crystal
  simp only [record, record']
  exact Step.enter_comm other r r' control c

/-- A task that is a step changes nothing that decides another one. -/
theorem Takes.sameTerms (takes : k.Takes rig mid) (h : k.step? = some i) : rig.SameTerms mid where
  wiring := takes.wiring
  crystal := takes.crystal
  tree := by
    refine takes.load ?_ nofun nofun
    rw [footprint_of_step h]
    exact i.treeControl_notMem

/-- Two different steps come to the same in either order. -/
theorem Takes.interchange (h : k.step? = some i) (h' : k'.step? = some j) (other : i ≠ j)
    (first : k.Takes rig mid) (second : k'.Takes mid last)
    (first' : k'.Takes rig mid') (second' : k.Takes mid' last') : last.Shows last' := by
  have apart : k.footprint.Apart k'.footprint := by
    rw [footprint_of_step h, footprint_of_step h']
    exact Step.apart other
  have tree : last.board.image.load .treeControl = rig.board.image.load .treeControl :=
    ((second.sameTerms h').tree).trans (first.sameTerms h).tree
  have tree' : last'.board.image.load .treeControl = rig.board.image.load .treeControl :=
    ((second'.sameTerms h).tree).trans (first'.sameTerms h').tree
  have clocks : last'.controller.clocks = last.controller.clocks := by
    rw [second'.clocks, first'.clocks, second.clocks, first.clocks, first.crystal, first'.crystal,
      tree, tree', (first.sameTerms h).tree, (first'.sameTerms h').tree]
    exact record_comm h h' other _ _ _
  have controller : last'.controller = last.controller := by
    ext1
    · rw [second'.wiring, first'.wiring, second.wiring, first.wiring]
    · rw [second'.crystal, first'.crystal, second.crystal, first.crystal]
    · exact clocks
    · rw [second'.attached, first'.attached, second.attached, first.attached]
  refine ⟨⟨?_, ?_⟩, controller, ?_⟩
  · have there := (image_agree first.image (k := k')).trans second.image
    have back := (image_agree first'.image (k := k)).trans second'.image
    rw [image_comm apart] at back
    exact there.symm.trans back
  · rw [second.pmu, first.oscillators, first.pmu, second'.pmu, first'.oscillators, first'.pmu,
      RegisterFile.write_write, RegisterFile.write_write, oscillators_comm apart]
  · rw [second'.published, first'.published, second.published, first.published, controller,
      first.attached, first'.attached]
    cases rig.controller.attached <;> rfl

end Task

namespace Operation

/-- The step that an operation is. -/
def step? : Operation → Option Step
  | .setOscillator _ => some .oscillator
  | .setSpll _ _ => some (.pll .system)
  | .setAupll _ _ => some (.pll .audio)
  | .setTree _ | .check _ | .apply _ | .recordFault _ => none

/-- An operation that sets one source. -/
structure Asks (op : Operation) (i : Step) (request : Rig → Attempt Task) : Prop where
  requests : op.Requests request
  step : ∀ {rig : Rig} {k : Task}, request rig = .ok k → k.step? = some i
  congr : ∀ {rig rig' : Rig}, rig.SameTerms rig' → request rig' = request rig

theorem exists_asks {op : Operation} {i : Step} (h : op.step? = some i) :
    ∃ request, op.Asks i request := by
  cases op with
  | setOscillator o =>
    cases h
    refine ⟨_, setOscillator_requests o, ?_, fun _ => rfl⟩
    intro rig k requested
    cases requested
    rfl
  | setSpll ratio lockWait =>
    cases h
    refine ⟨_, setSpll_requests ratio lockWait, ?_, ?_⟩
    · intro rig k requested
      exact Task.step_of_system requested
    · intro rig rig' same
      unfold Task.ofSystem Rig.source
      rw [same.tree, same.wiring, same.crystal]
  | setAupll ratio lockWait =>
    cases h
    refine ⟨_, setAupll_requests ratio lockWait, ?_, ?_⟩
    · intro rig k requested
      exact Task.step_of_audio requested
    · intro rig rig' same
      unfold Task.ofAudio
      rw [same.wiring, same.crystal]
  | setTree t => cases h
  | check c => cases h
  | apply c => cases h
  | recordFault e => cases h

/-- What a request comes to while every access is answered. -/
def Comes (request : Attempt Task) (rig rig' : Rig) : Prop :=
  match request with
  | .ok k => k.Takes rig rig'
  | .error _ => rig' = rig

/-- Neither of two operations has missed an access if none has been missed by the two. -/
theorem answered_of_both {op op' : Operation} {rig : Rig}
    (answered : ¬rig.Misses (op'.action.run (op.action.run rig).after).after) :
    ¬rig.Misses (op.action.run rig).after ∧
      ¬(op.action.run rig).after.Misses (op'.action.run (op.action.run rig).after).after := by
  constructor
  · intro missed
    exact answered ((Rig.operation_precedes _ op').misses_later missed)
  · intro missed
    exact answered ((rig.operation_precedes op).misses missed)

namespace Asks
variable {op op' : Operation} {i j : Step} {request request' : Rig → Attempt Task} {rig : Rig}

theorem comes (asks : op.Asks i request) (answered : ¬rig.Misses (op.action.run rig).after) :
    (op.action.run rig).outcome = (request rig).map (fun _ => ()) ∧
      Comes (request rig) rig (op.action.run rig).after := by
  cases requested : request rig with
  | error e =>
    have answers := asks.requests.answers rig
    rw [requested] at answers
    obtain ⟨ns, -, run⟩ := answers
    rw [run]
    exact ⟨rfl, rfl⟩
  | ok k =>
    have ok := asks.requests.ok_of_answered requested answered
    obtain ⟨k', requested', takes⟩ := asks.requests.takes ok
    rw [requested] at requested'
    cases requested'
    exact ⟨ok, takes⟩

theorem sameTerms (asks : op.Asks i request) (answered : ¬rig.Misses (op.action.run rig).after) :
    rig.SameTerms (op.action.run rig).after := by
  have comes := (asks.comes answered).2
  cases requested : request rig with
  | error e =>
    rw [requested] at comes
    have unchanged : (op.action.run rig).after = rig := comes
    rw [unchanged]
    exact ⟨rfl, rfl, rfl⟩
  | ok k =>
    rw [requested] at comes
    have takes : k.Takes rig (op.action.run rig).after := comes
    exact takes.sameTerms (asks.step requested)

/-- An operation that comes second makes of the request what it would have made of it at first. -/
theorem comes_second (asks : op.Asks i request) (asks' : op'.Asks j request')
    (answered : ¬rig.Misses (op'.action.run (op.action.run rig).after).after) :
    (op'.action.run (op.action.run rig).after).outcome = (request' rig).map (fun _ => ()) ∧
      Comes (request' rig) (op.action.run rig).after
        (op'.action.run (op.action.run rig).after).after := by
  obtain ⟨first, second⟩ := answered_of_both answered
  have comes := asks'.comes second
  rwa [asks'.congr (asks.sameTerms first)] at comes

/-- A request that is refused has no part in what two operations come to, and two tasks come to the
same in either order. -/
theorem interchange (asks : op.Asks i request) (asks' : op'.Asks j request') (other : i ≠ j)
    (answered : ¬rig.Misses (op'.action.run (op.action.run rig).after).after)
    (answered' : ¬rig.Misses (op.action.run (op'.action.run rig).after).after) :
    (op'.action.run (op.action.run rig).after).after.Shows
      (op.action.run (op'.action.run rig).after).after := by
  have mid := (asks.comes (answered_of_both answered).1).2
  have last := (asks.comes_second asks' answered).2
  have mid' := (asks'.comes (answered_of_both answered').1).2
  have last' := (asks'.comes_second asks answered').2
  cases requested : request rig with
  | error e =>
    rw [requested] at mid last'
    have unchanged : (op.action.run rig).after = rig := mid
    have unchanged' : (op.action.run _).after = (op'.action.run rig).after := last'
    rw [unchanged', unchanged]
    exact .refl _
  | ok k =>
    rw [requested] at mid last'
    cases requested' : request' rig with
    | error e =>
      rw [requested'] at mid' last
      have unchanged : (op'.action.run rig).after = rig := mid'
      have unchanged' : (op'.action.run _).after = (op.action.run rig).after := last
      rw [unchanged', unchanged]
      exact .refl _
    | ok k' =>
      rw [requested'] at mid' last
      exact Task.Takes.interchange (asks.step requested) (asks'.step requested') other mid last mid'
        last'

end Asks

end Operation

namespace Controller
variable {p : Pll} {rig : Rig} {k : Task} {r : Run Rig Unit} {request : Attempt Task}

/-- The clock of the PLL and the gate of its reference are the same on the two rigs. -/
structure Spared (p : Pll) (rig rig' : Rig) : Prop where
  clock : rig'.controller.clocks.pll p = rig.controller.clocks.pll p
  reference : p.gate rig'.board.pmu = p.gate rig.board.pmu

theorem Spared.refl (p : Pll) (rig : Rig) : Spared p rig rig := ⟨rfl, rfl⟩

/-- From beginning to end, a task spares the PLL that it avoids. -/
theorem perform_spares (ready : k.Ready rig) (avoids : k.footprint.Avoids p) :
    Spared p rig ((perform k).run rig).after ∧
      ∀ m ∈ ((perform k).run rig).trace, Spared p rig m.before := by
  have reference {b : Board} (kept : k.footprint.Keeps rig.board b) :
      p.gate b.pmu = p.gate rig.board.pmu := by
    rw [Pll.gate_eq, Pll.gate_eq]
    exact kept.flags p.reference avoids.flags
  apply Rig.perform_throughout ready
  · exact fun b kept => ⟨rfl, reference kept⟩
  · exact fun b kept => ⟨Task.record_pll avoids _ _ _, reference kept⟩
  · exact fun rig' h => ⟨h.clock, h.reference⟩

theorem Answers.spares (answers : Answers r rig request)
    (avoids : ∀ k, request = .ok k → k.footprint.Avoids p) :
    Spared p rig r.after ∧ ∀ m ∈ r.trace, Spared p rig m.before := by
  cases request with
  | ok k =>
    obtain ⟨ready, rfl⟩ := answers
    exact perform_spares ready (avoids k rfl)
  | error e =>
    obtain ⟨ns, -, rfl⟩ := answers
    refine ⟨.refl p rig, fun m hm => ?_⟩
    obtain ⟨n, -, rfl⟩ := List.mem_map.1 hm
    exact .refl p rig

end Controller

/-- How a request that sets a source keeps to itself. -/
structure Operation.Private (i : Step) (rig : Rig) (r : Run Rig Unit) : Prop where
  stores : ∀ w ∈ r.stores, w.1 = .bridgeControl ∨ ∃ p part, i = .pll p ∧ w.1 = .pll p part
  untouched : ∀ w ∈ r.stores, w.1 ≠ .diagnostic ∧ w.1 ≠ .treeControl
  spares : ∀ p, i ≠ .pll p → Controller.Spared p rig r.after ∧
    ∀ m ∈ r.trace, Controller.Spared p rig m.before

theorem Step.mem_footprint {i : Step} {r : Register} (h : r ∈ i.footprint.registers) :
    ∃ p part, i = .pll p ∧ r = .pll p part := by
  cases i with
  | oscillator => cases h
  | pll p =>
    obtain ⟨part, -, rfl⟩ := List.mem_map.1 h
    exact ⟨p, part, rfl, rfl⟩

namespace Operation
variable {op op' : Operation} {i j : Step}

theorem Asks.private {request : Rig → Attempt Task} (asks : op.Asks i request) (rig : Rig) :
    Private i rig (op.action.run rig) := by
  have answers := asks.requests.answers rig
  have own {w : Register × Word} (hw : w ∈ (op.action.run rig).stores) :
      w.1 = .bridgeControl ∨ ∃ p part, i = .pll p ∧ w.1 = .pll p part := by
    obtain ⟨k, requested, bridge | inside⟩ := answers.stores hw
    · exact .inl bridge
    · rw [Task.footprint_of_step (asks.step requested)] at inside
      exact .inr (Step.mem_footprint inside)
  constructor
  · exact fun w hw => own hw
  · intro w hw
    obtain bridge | ⟨p, part, -, inside⟩ := own hw
    · rw [bridge]
      exact ⟨nofun, nofun⟩
    · rw [inside]
      exact ⟨nofun, nofun⟩
  · intro p other
    refine answers.spares fun k requested => ?_
    rw [Task.footprint_of_step (asks.step requested)]
    exact Step.avoids other

/-- From any state, two requests that set different sources come to the same in either order, as
long as every access to the PMU is answered; refusals are the same, and so is everything but the
bridge. Whichever accesses fail, each of them stores to its own PLL and the bridge alone, and leaves
the clock and the reference of every other PLL as they are. -/
theorem source_steps_interchange (sets : op.step? = some i) (sets' : op'.step? = some j)
    (other : i ≠ j) (rig : Rig) :
    let r := (sequence [op, op']).run rig
    let r' := (sequence [op', op]).run rig
    (¬rig.Misses r.after → ¬rig.Misses r'.after →
      (∃ x y, r.outcome = .ok [x, y] ∧ r'.outcome = .ok [y, x]) ∧ r.after.Shows r'.after) ∧
    Private i rig (op.action.run rig) ∧ Private j rig (op'.action.run rig) := by
  intro r r'
  obtain ⟨request, asks⟩ := exists_asks sets
  obtain ⟨request', asks'⟩ := exists_asks sets'
  refine ⟨fun answered answered' => ⟨?_, ?_⟩, asks.private rig, asks'.private rig⟩
  · have first := (asks.comes (answered_of_both answered).1).1
    have second := (asks.comes_second asks' answered).1
    have first' := (asks'.comes (answered_of_both answered').1).1
    have second' := (asks'.comes_second asks answered').1
    have outcome' : r'.outcome = .ok [(op'.action.run rig).outcome,
        (op.action.run (op'.action.run rig).after).outcome] := rfl
    refine ⟨_, _, rfl, ?_⟩
    rw [outcome', first, second, first', second']
  · exact asks.interchange asks' other answered answered'

/-- The two PLLs, started one after the other on the ramp, through the bridge. -/
theorem plls_started_in_either_order :
    let rig : Rig := ⟨.blank, (Controller.fresh (.standard .timer) boardCrystal).attach none⟩
    let spll : Operation := .setSpll (some ⟨8, 0⟩) 10
    let aupll : Operation := .setAupll (some ⟨8, 1, 3⟩) 10
    let r := (sequence [spll, aupll]).run rig
    let r' := (sequence [aupll, spll]).run rig
    r.outcome = .ok [.ok (), .ok ()] ∧ r'.outcome = .ok [.ok (), .ok ()] ∧
      r.after.Shows r'.after ∧ r.after.controller.clocks.spll = ⟨192000000⟩ ∧
      r.after.controller.clocks.aupll = ⟨200000000⟩ := by
  intro rig spll aupll r r'
  have different : Step.pll .system ≠ .pll .audio := by decide
  have sets : spll.step? = some (.pll .system) := rfl
  have sets' : aupll.step? = some (.pll .audio) := rfl
  obtain ⟨interchange, -, -⟩ := source_steps_interchange sets sets' different rig
  have answered : ¬rig.Misses r.after := Controller.blank_answers _ _
  have answered' : ¬rig.Misses r'.after := Controller.blank_answers _ _
  have found : r.outcome = .ok [.ok (), .ok ()] ∧ r'.outcome = .ok [.ok (), .ok ()] ∧
      r.after.controller.clocks.spll = ⟨192000000⟩ ∧
      r.after.controller.clocks.aupll = ⟨200000000⟩ := by
    decide +kernel
  exact ⟨found.1, found.2.1, (interchange answered answered').2, found.2.2⟩

end Operation
end ClockControl
