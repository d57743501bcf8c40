import ClockControl.Proofs.Application
import ClockControl.Proofs.Pll.Acceptance
import Mathlib.Data.List.Forall2

/-! The sequencer and the wait for a lock are a matter of time. Two controllers whose sequencers both
take the multipliers that are asked for answer alike and come to the same after every operation,
whatever they wait for and whichever accesses to the PMU fail. Main statement:
`sequencer_affects_timing_only`. -/
namespace ClockControl

/-- Two runs with the same outcome and with states that `R` relates, whatever they show. -/
structure Run.Agree (R : σ → τ → Prop) (r : Run σ α) (r' : Run τ α) : Prop where
  outcome : r'.outcome = r.outcome
  after : R r.after r'.after

/-- Runs that agree fail alike or answer alike. -/
theorem Run.Agree.cases {R : σ → τ → Prop} {r : Run σ α} {r' : Run τ α} (h : r.Agree R r') :
    ∃ s s' trace trace', R s s' ∧
      ((∃ e, r = ⟨.error e, s, trace⟩ ∧ r' = ⟨.error e, s', trace'⟩) ∨
        ∃ x, r = ⟨.ok x, s, trace⟩ ∧ r' = ⟨.ok x, s', trace'⟩) := by
  obtain ⟨outcome, s, trace⟩ := r
  obtain ⟨outcome', s', trace'⟩ := r'
  obtain ⟨rfl, after⟩ := h
  refine ⟨s, s', trace, trace', after, ?_⟩
  cases outcome' with
  | error e => exact .inl ⟨e, rfl, rfl⟩
  | ok x => exact .inr ⟨x, rfl, rfl⟩

/-- Begun in related states, the two actions have runs that agree. -/
def Action.Agree (R : σ → τ → Prop) (a : Action σ α) (a' : Action τ α) : Prop :=
  ∀ s s', R s s' → (a.run s).Agree R (a'.run s')

namespace Action.Agree
variable {R : σ → τ → Prop}

theorem refl (a : Action σ α) : a.Agree Eq a := by
  rintro s _ rfl
  exact ⟨rfl, rfl⟩

theorem ofAttempt (x : Attempt α) :
    (ofAttempt x : Action σ α).Agree R (Action.ofAttempt x : Action τ α) :=
  fun _ _ h => ⟨rfl, h⟩

theorem update {f : σ → σ} {f' : τ → τ} (h : ∀ s s', R s s' → R (f s) (f' s')) :
    (update f).Agree R (Action.update f') :=
  fun s s' hs => ⟨rfl, h s s' hs⟩

theorem bind {a : Action σ α} {a' : Action τ α} {f : α → Action σ β} {f' : α → Action τ β}
    (ha : a.Agree R a') (hf : ∀ x, (f x).Agree R (f' x)) : (a >>= f).Agree R (a' >>= f') := by
  intro s s' h
  obtain ⟨t, t', _, _, after, ⟨e, hr, hr'⟩ | ⟨x, hr, hr'⟩⟩ := (ha s s' h).cases
  · rw [run_bind_error hr, run_bind_error hr']
    exact ⟨rfl, after⟩
  · rw [run_bind_ok hr, run_bind_ok hr']
    obtain ⟨outcome, after⟩ := hf x t t' after
    exact ⟨outcome, after⟩

theorem attempt {a : Action σ α} {a' : Action τ α} (h : a.Agree R a') :
    a.attempt.Agree R a'.attempt := by
  intro s s' hs
  obtain ⟨outcome, after⟩ := h s s' hs
  exact ⟨congrArg Except.ok outcome, after⟩

theorem mapM {f : α → Action σ γ} {f' : β → Action τ γ} {xs : List α} {ys : List β}
    (h : List.Forall₂ (fun x y => (f x).Agree R (f' y)) xs ys) :
    (xs.mapM f).Agree R (ys.mapM f') := by
  induction h with
  | nil => exact ofAttempt (.ok [])
  | cons first _ ih =>
    rw [List.mapM_cons, List.mapM_cons]
    exact bind first fun z => bind ih fun zs => ofAttempt (.ok (z :: zs))

end Action.Agree

/-- The same wiring with another sequencer. -/
def Wiring.sequenced (w : Wiring) (s : Sequencer) : Wiring := { w with sequencer := s }

/-- The same rig with another sequencer. -/
def Rig.sequenced (rig : Rig) (s : Sequencer) : Rig :=
  { rig with controller.wiring := rig.controller.wiring.sequenced s }

/-- Two rigs that differ in nothing but their sequencers. -/
structure Rig.Retimed (s s' : Sequencer) (rig rig' : Rig) : Prop where
  sequencer : rig.controller.wiring.sequencer = s
  same : rig' = rig.sequenced s'

namespace Pll
variable (p : Pll) (w : Wiring) (s : Sequencer)

theorem wait_agree (w w' : Wiring) (us us' : UInt32) : (w.wait us).Agree Eq (w'.wait us') := by
  rintro b _ rfl
  rw [run_wait, run_wait]
  exact ⟨rfl, rfl⟩

/-- With a ramp or without, what is programmed is the same. -/
theorem program_agree (d : Divider) : (p.program w d).Agree Eq (p.program (w.sequenced s) d) := by
  rintro b _ rfl
  obtain ⟨trace, run, -⟩ := run_program p w d b
  obtain ⟨trace', run', -⟩ := run_program p (w.sequenced s) d b
  rw [run, run']
  exact ⟨rfl, rfl⟩

theorem start_agree (d : Divider) (lockWait lockWait' : UInt32) :
    (p.start w d lockWait).Agree Eq (p.start (w.sequenced s) d lockWait') := by
  have gate (on : Bool) : (w.setOscillator p.reference on).Agree Eq
      ((w.sequenced s).setOscillator p.reference on) := .refl _
  have wait (us us' : UInt32) := wait_agree w (w.sequenced s) us us'
  rw [start_eq, start_eq]
  refine (gate false).bind fun _ => (program_agree p w s d).bind fun _ => ?_
  refine (wait _ _).bind fun _ => (gate true).bind fun _ => (wait _ _).bind fun _ => ?_
  exact (wait _ _).bind fun _ => .refl _

end Pll

namespace Task

/-- The task with another wait for the lock. -/
def waiting (us : UInt32) : Task → Task
  | .start p d f _ => .start p d f us
  | k => k

theorem record_waiting (k : Task) (us : UInt32) (crystal : Hertz) (control : Word) (c : Clocks) :
    (k.waiting us).record crystal control c = k.record crystal control c := by
  cases k with
  | start p d f lockWait => cases p <;> rfl
  | _ => rfl

theorem work_agree (k : Task) (us : UInt32) (w : Wiring) (s : Sequencer) :
    (k.work w).Agree Eq ((k.waiting us).work (w.sequenced s)) := by
  cases k with
  | start p d f lockWait => exact p.start_agree w s d lockWait us
  | _ => exact .refl _

end Task

/-- The sequencers both take the multiplier. -/
def Sequencer.BothAccept (s s' : Sequencer) (n : UInt8) : Prop :=
  s.Supports n ∧ s'.Supports n

instance (s s' : Sequencer) (n : UInt8) : Decidable (s.BothAccept s' n) :=
  inferInstanceAs (Decidable (_ ∧ _))

theorem Sequencer.BothAccept.permit {s s' : Sequencer} {n : UInt8} (h : s.BothAccept s' n) :
    s'.permit n = s.permit n := by
  have first := (s.accepts_iff n).2 h.1
  have second := (s'.accepts_iff n).2 h.2
  rw [Sequencer.permit, Sequencer.permit, first, second]

theorem SystemRatio.plan_retimed {r : SystemRatio} {s s' : Sequencer} (h : s.BothAccept s' r.n)
    (crystal : Hertz) : r.plan s' crystal = r.plan s crystal := by
  rw [plan, plan, h.permit]

theorem AudioRatio.plan_retimed {r : AudioRatio} {s s' : Sequencer} (h : s.BothAccept s' r.n)
    (crystal : Hertz) : r.plan s' crystal = r.plan s crystal := by
  rw [plan, plan, h.permit]

/-- The multipliers that a configuration asks for. -/
def Configuration.multipliers (c : Configuration) : List UInt8 :=
  c.spll.toList.map (·.n) ++ c.aupll.toList.map (·.n)

/-- Whether a request can be planned depends on the plan of the ratio that is asked for alone. -/
theorem Configuration.planned_congr {ratio : Option α} {plan plan' : α → Attempt β}
    (same : ∀ r, ratio = some r → plan' r = plan r) : planned ratio plan' = planned ratio plan := by
  cases ratio with
  | none => rfl
  | some r => rw [planned, planned, same r rfl]

theorem Configuration.check_retimed {c : Configuration} {s s' : Sequencer}
    (fits : ∀ n ∈ c.multipliers, s.BothAccept s' n) (us : UInt32) :
    ({ c with lockWait := us } : Configuration).check s' = c.check s := by
  have system : planned c.spll (·.plan s' c.crystal) = planned c.spll (·.plan s c.crystal) := by
    apply planned_congr
    intro r hr
    exact r.plan_retimed (fits r.n (by simp [multipliers, hr])) _
  have audio : planned c.aupll (·.plan s' c.crystal) = planned c.aupll (·.plan s c.crystal) := by
    apply planned_congr
    intro r hr
    exact r.plan_retimed (fits r.n (by simp [multipliers, hr])) _
  rw [check_eq, check_eq, system, audio]

namespace Operation

/-- The operation with another wait for the lock. -/
def waiting (us : UInt32) : Operation → Operation
  | .setSpll ratio _ => .setSpll ratio us
  | .setAupll ratio _ => .setAupll ratio us
  | .check c => .check { c with lockWait := us }
  | .apply c => .apply { c with lockWait := us }
  | op => op

/-- The multipliers that an operation asks for. -/
def multipliers : Operation → List UInt8
  | .setSpll ratio _ => ratio.toList.map (·.n)
  | .setAupll ratio _ => ratio.toList.map (·.n)
  | .check c | .apply c => c.multipliers
  | .setOscillator _ | .setTree _ | .recordFault _ => []

end Operation

namespace Controller
open Rig (Retimed)
variable {s s' : Sequencer}

theorem perform_agree (k : Task) (us : UInt32) :
    (perform k).Agree (Retimed s s') (perform (k.waiting us)) := by
  rintro rig _ ⟨sequencer, rfl⟩
  have work := k.work_agree us rig.controller.wiring s' rig.board rig.board rfl
  obtain ⟨b, _, _, _, rfl, ⟨e, hr, hr'⟩ | ⟨_, hr, hr'⟩⟩ := work.cases
  · have run' : (perform (k.waiting us)).run (rig.sequenced s') = _ := run_perform_error hr'
    rw [run_perform_error hr, run']
    exact ⟨rfl, sequencer, rfl⟩
  · have run' : (perform (k.waiting us)).run (rig.sequenced s') = _ := run_perform_ok hr'
    rw [run_perform_ok hr, run']
    refine ⟨rfl, sequencer, ?_⟩
    have entered : (rig.sequenced s').enter (k.waiting us) b = (rig.enter k b).sequenced s' := by
      simp only [Rig.enter, Rig.setClocks, k.record_waiting us]
      rfl
    rw [entered]
    rfl

/-- Operations that make of the same request the same task, but for its wait. -/
theorem agree_of_answers {a a' : Action Rig Unit} {request request' : Rig → Attempt Task}
    (us : UInt32) (answers : ∀ rig, Answers (a.run rig) rig (request rig))
    (answers' : ∀ rig, Answers (a'.run rig) rig (request' rig))
    (same : ∀ rig : Rig, rig.controller.wiring.sequencer = s →
      request' (rig.sequenced s') = (request rig).map (Task.waiting us)) :
    a.Agree (Retimed s s') a' := by
  rintro rig _ ⟨sequencer, rfl⟩
  have here := answers rig
  have there := answers' (rig.sequenced s')
  rw [same rig sequencer] at there
  cases hr : request rig with
  | ok k =>
    rw [hr] at here there
    rw [here.2, there.2]
    exact perform_agree k us rig _ ⟨sequencer, rfl⟩
  | error e =>
    rw [hr] at here there
    obtain ⟨ns, -, run⟩ := here
    obtain ⟨ns', -, run'⟩ := there
    rw [run, run']
    exact ⟨rfl, sequencer, rfl⟩

theorem setOscillator_agree (o : Oscillator) :
    (setOscillator o).Agree (Retimed s s') (setOscillator o) :=
  agree_of_answers 0 (setOscillator_answers o) (setOscillator_answers o) fun _ _ => rfl

theorem setSpll_agree {ratio : Option SystemRatio} (lockWait us : UInt32)
    (fits : ∀ r, ratio = some r → s.BothAccept s' r.n) :
    (setSpll ratio lockWait).Agree (Retimed s s') (setSpll ratio us) := by
  refine agree_of_answers us (setSpll_answers ratio lockWait) (setSpll_answers ratio us) ?_
  intro rig sequencer
  have source : (rig.sequenced s').source = rig.source := rfl
  unfold Task.ofSystem
  rw [source, sequencer]
  split
  · rfl
  · cases ratio with
    | none => rfl
    | some r =>
      have plan : r.plan (rig.sequenced s').controller.wiring.sequencer
          (rig.sequenced s').controller.crystal = r.plan s rig.controller.crystal :=
        SystemRatio.plan_retimed (fits r rfl) _
      simp only [plan]
      cases r.plan s rig.controller.crystal <;> rfl

theorem setAupll_agree {ratio : Option AudioRatio} (lockWait us : UInt32)
    (fits : ∀ r, ratio = some r → s.BothAccept s' r.n) :
    (setAupll ratio lockWait).Agree (Retimed s s') (setAupll ratio us) := by
  refine agree_of_answers us (setAupll_answers ratio lockWait) (setAupll_answers ratio us) ?_
  intro rig sequencer
  cases ratio with
  | none => rfl
  | some r =>
    have plan : r.plan (rig.sequenced s').controller.wiring.sequencer
        (rig.sequenced s').controller.crystal = r.plan s rig.controller.crystal :=
      AudioRatio.plan_retimed (fits r rfl) _
    simp only [Task.ofAudio, plan, sequencer]
    cases r.plan s rig.controller.crystal <;> rfl

theorem setTree_agree (t : Tree) : (setTree t).Agree (Retimed s s') (setTree t) := by
  refine agree_of_answers 0 (setTree_answers t) (setTree_answers t) fun rig _ => ?_
  have clocks : (rig.sequenced s').controller.clocks = rig.controller.clocks := rfl
  unfold Task.ofTree
  rw [clocks]
  cases t.check with
  | error e => rfl
  | ok =>
    by_cases stopped : t.source = .spll ∧ rig.controller.clocks.spll.hertz? = none
    · simp only [if_pos stopped]
      rfl
    · simp only [if_neg stopped]
      rfl

theorem park_agree : park.Agree (Retimed s s') park := by
  rintro rig _ ⟨sequencer, rfl⟩
  have source : (rig.sequenced s').source = rig.source := rfl
  cases free : rig.source with
  | coreHs =>
    rw [run_park_of_coreHs free, run_park_of_coreHs (source.trans free)]
    exact ⟨rfl, sequencer, rfl⟩
  | spll =>
    rw [run_park_of_spll free, run_park_of_spll (source.trans free)]
    exact perform_agree .park 0 rig _ ⟨sequencer, rfl⟩

theorem check_agree {c : Configuration} (fits : ∀ n ∈ c.multipliers, s.BothAccept s' n)
    (us : UInt32) : (check c).Agree (Retimed s s') (check { c with lockWait := us }) := by
  rintro rig _ ⟨sequencer, rfl⟩
  have checked : ({ c with lockWait := us } : Configuration).check
      (rig.sequenced s').controller.wiring.sequencer = c.check s := c.check_retimed fits us
  rw [run_check, run_check, checked, sequencer]
  exact ⟨rfl, sequencer, rfl⟩

theorem apply_agree {c : Configuration} (fits : ∀ n ∈ c.multipliers, s.BothAccept s' n)
    (us : UInt32) : (apply c).Agree (Retimed s s') (apply { c with lockWait := us }) := by
  have crystal (rig rig' : Rig) (h : Retimed s s' rig rig') :
      Retimed s s' { rig with controller.crystal := c.crystal }
        { rig' with controller.crystal := c.crystal } := by
    obtain ⟨sequencer, rfl⟩ := h
    exact ⟨sequencer, rfl⟩
  have system (r : SystemRatio) (hr : c.spll = some r) : s.BothAccept s' r.n :=
    fits r.n (by simp [Configuration.multipliers, hr])
  have audio (r : AudioRatio) (hr : c.aupll = some r) : s.BothAccept s' r.n :=
    fits r.n (by simp [Configuration.multipliers, hr])
  refine (check_agree fits us).bind fun _ => (Action.Agree.update crystal).bind fun _ => ?_
  refine park_agree.bind fun _ => (setOscillator_agree c.oscillator).bind fun _ => ?_
  refine (setSpll_agree _ us system).bind fun _ => (setAupll_agree _ us audio).bind fun _ => ?_
  refine (setTree_agree c.tree).bind fun _ => ?_
  rintro rig _ ⟨sequencer, rfl⟩
  exact ⟨rfl, sequencer, rfl⟩

end Controller

namespace Operation
variable {s s' : Sequencer}

theorem agree {op : Operation} (fits : ∀ n ∈ op.multipliers, s.BothAccept s' n) (us : UInt32) :
    op.action.Agree (Rig.Retimed s s') (op.waiting us).action := by
  cases op with
  | setOscillator o => exact Controller.setOscillator_agree o
  | setSpll ratio lockWait =>
    refine Controller.setSpll_agree lockWait us fun r hr => fits r.n ?_
    simp [multipliers, hr]
  | setAupll ratio lockWait =>
    refine Controller.setAupll_agree lockWait us fun r hr => fits r.n ?_
    simp [multipliers, hr]
  | setTree t => exact Controller.setTree_agree t
  | check c => exact Controller.check_agree fits us
  | apply c => exact Controller.apply_agree fits us
  | recordFault e =>
    rintro rig _ ⟨sequencer, rfl⟩
    exact ⟨rfl, sequencer, rfl⟩

/-- The two scripts ask for the same, and may differ in what they wait for the lock of a PLL. -/
def SameButWaits (ops ops' : List Operation) : Prop :=
  List.Forall₂ (fun op op' => ∃ us, op' = op.waiting us) ops ops'

theorem sequence_agree {ops ops' : List Operation} (same : SameButWaits ops ops')
    (fits : ∀ op ∈ ops, ∀ n ∈ op.multipliers, s.BothAccept s' n) :
    (sequence ops).Agree (Rig.Retimed s s') (sequence ops') := by
  apply Action.Agree.mapM
  induction same with
  | nil => exact .nil
  | cons first rest ih =>
    obtain ⟨us, rfl⟩ := first
    obtain ⟨fits, later⟩ := List.forall_mem_cons.1 fits
    exact .cons (agree fits us).attempt (ih later)

end Operation

namespace Rig

/-- Two controllers differ in their sequencers alone, and the same is asked of both but for the waits
for a lock. If both sequencers take every multiplier that is asked for, then whichever accesses to
the PMU fail, the results up to every operation are the same, and so are the boards, the controllers
but for their sequencers, and the frequencies of the domains. -/
theorem sequencer_affects_timing_only (rig : Rig) (s' : Sequencer) {ops ops' : List Operation}
    (same : Operation.SameButWaits ops ops')
    (fits : ∀ op ∈ ops, ∀ n ∈ op.multipliers, rig.controller.wiring.sequencer.BothAccept s' n)
    (n : Nat) :
    let r := (Operation.sequence (ops.take n)).run rig
    let r' := (Operation.sequence (ops'.take n)).run (rig.sequenced s')
    r'.outcome = r.outcome ∧ r'.after = r.after.sequenced s' ∧
      ∀ d, ((Controller.domainFrequency d).run r'.after).outcome =
        ((Controller.domainFrequency d).run r.after).outcome := by
  intro r r'
  have fits : ∀ op ∈ ops.take n, ∀ n ∈ op.multipliers, _ := fun op hop =>
    fits op (List.mem_of_mem_take hop)
  obtain ⟨outcome, -, after⟩ := Operation.sequence_agree (List.forall₂_take n same) fits rig
    (rig.sequenced s') ⟨rfl, rfl⟩
  refine ⟨outcome, after, fun d => ?_⟩
  rw [show r'.after = _ from after]
  rfl

/-- The system PLL is started on the ramp and without it, its second start-up is cut short behind the
closed gate, and the MCU and the audio PLL are set all the same. -/
theorem ramp_and_settle_word_alike :
    let rig : Rig :=
      ⟨{ Board.blank with fails := (· == 7) }, .fresh ⟨.ramped, .direct, .timer⟩ boardCrystal⟩
    let tree : Operation := .setTree { Tree.undivided with source := .spll }
    let ops : List Operation :=
      [.setSpll (some ⟨8, 0⟩) 10, .setSpll (some ⟨10, 0⟩) 10, tree, .setAupll (some ⟨8, 1, 3⟩) 10]
    let ops' : List Operation :=
      [.setSpll (some ⟨8, 0⟩) 0, .setSpll (some ⟨10, 0⟩) 5000, tree, .setAupll (some ⟨8, 1, 3⟩) 3]
    let r := (Operation.sequence ops).run rig
    let r' := (Operation.sequence ops').run (rig.sequenced (.custom 6 10))
    let lost : Failure := .error (.timeout Register.oscillatorControl)
    r.outcome = .ok [.ok (), .error lost, .ok (), .ok ()] ∧ r'.outcome = r.outcome ∧
      r'.after = r.after.sequenced (.custom 6 10) ∧ r'.events.length < r.events.length := by
  intro rig tree ops ops' r r' lost
  have same : Operation.SameButWaits ops ops' :=
    .cons ⟨0, rfl⟩ (.cons ⟨5000, rfl⟩ (.cons ⟨0, rfl⟩ (.cons ⟨3, rfl⟩ .nil)))
  have fits : ∀ op ∈ ops, ∀ n ∈ op.multipliers, Sequencer.BothAccept .ramped (.custom 6 10) n := by
    decide +kernel
  obtain ⟨outcome, after, -⟩ := sequencer_affects_timing_only rig (.custom 6 10) same fits 4
  have found : r.outcome = .ok [.ok (), .error lost, .ok (), .ok ()] ∧
      r'.events.length < r.events.length := by
    decide +kernel
  exact ⟨found.1, outcome, after, found.2⟩

end Rig
end ClockControl
