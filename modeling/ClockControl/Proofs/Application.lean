import ClockControl.Proofs.Interruption
import ClockControl.Proofs.Pll.Fraction
import Mathlib.Control.Monad.Basic

/-! The course of an application. A configuration that passes the check meets with no refusal up to
its tree: the MCU is parked, and one step after another sets the oscillator and the two PLLs, unless
a step misses an access. Main statements: `leads_steps`, `leads_prepare` and `leads_apply_cases`. -/
namespace ClockControl

/-- The steps of an application between the check and the tree. -/
inductive Step where
  | oscillator
  | pll (p : Pll)
deriving DecidableEq

namespace Step

def order : List Step := [.oscillator, .pll .system, .pll .audio]

def footprint : Step → Footprint
  | .oscillator => .oscillators
  | .pll p => .pll p

theorem treeControl_notMem (i : Step) : Register.treeControl ∉ i.footprint.registers := by
  cases i with
  | oscillator => exact Footprint.treeControl_notMem_oscillators
  | pll p => exact Footprint.treeControl_notMem_pll p

theorem avoids {i : Step} {p : Pll} (h : i ≠ .pll p) : i.footprint.Avoids p := by
  cases i with
  | oscillator => exact Footprint.oscillators_avoids p
  | pll q => exact Footprint.pll_avoids fun same => h (congrArg _ same.symm)

theorem apart {i j : Step} (h : i ≠ j) : i.footprint.Apart j.footprint := by
  cases j with
  | pll p => exact (avoids h).apart.symm
  | oscillator =>
    cases i with
    | oscillator => exact absurd rfl h
    | pll p => exact (avoids (i := .oscillator) nofun).apart

end Step

namespace Configuration
variable {c : Configuration} {s : Sequencer} {p : Pll} {k : Task}

/-- What a configuration that passes the check has been found to have. -/
structure Sound (c : Configuration) (s : Sequencer) : Prop where
  spll : ∀ r, c.spll = some r → ∃ d f, r.plan s c.crystal = .ok (d, f)
  aupll : ∀ r, c.aupll = some r → ∃ d f, r.plan s c.crystal = .ok (d, f)
  tree : c.tree.check = .ok ()
  source : c.tree.source = .spll → c.spll ≠ none

/-- Nothing is asked for, or what is asked for can be planned. -/
def planned (ratio : Option α) (plan : α → Attempt β) : Attempt Unit :=
  match ratio with
  | some r => discard (plan r)
  | none => pure ()

theorem planned_ok {ratio : Option α} {plan : α → Attempt β} {u : Unit}
    (h : planned ratio plan = .ok u) {r : α} (hr : ratio = some r) : ∃ p, plan r = .ok p := by
  rw [hr, planned] at h
  cases hp : plan r with
  | error e =>
    rw [hp] at h
    cases h
  | ok p => exact ⟨p, rfl⟩

theorem check_eq (c : Configuration) (s : Sequencer) : c.check s = (do
    planned c.spll (·.plan s c.crystal)
    planned c.aupll (·.plan s c.crystal)
    c.tree.check
    if c.tree.source = .spll ∧ c.spll = none then
      .refuse .systemPllStopped) := by
  unfold check planned
  cases c.spll <;> cases c.aupll <;> rfl

theorem sound_of_check (h : c.check s = .ok ()) : c.Sound s := by
  rw [check_eq] at h
  obtain ⟨_, spll, h⟩ := Attempt.bind_ok h
  obtain ⟨_, aupll, h⟩ := Attempt.bind_ok h
  obtain ⟨_, tree, h⟩ := Attempt.bind_ok h
  constructor
  · intro r hr
    obtain ⟨⟨d, f⟩, plan⟩ := planned_ok spll hr
    exact ⟨d, f, plan⟩
  · intro r hr
    obtain ⟨⟨d, f⟩, plan⟩ := planned_ok aupll hr
    exact ⟨d, f, plan⟩
  · exact tree
  · intro source none
    rw [if_pos ⟨source, none⟩] at h
    cases h

/-- The frequency in hertz that the core high-speed clock is asked for. -/
def coreHs (c : Configuration) : Nat :=
  match c.oscillator with
  | .crystal => c.crystal.raw.toNat
  | .rc => 24000000

/-- The frequency of a PLL in hertz; none powers it down. A fraction of 0 or over 0 adds nothing. -/
def frequency (c : Configuration) : Pll → Option Nat
  | .system => c.spll.map fun r =>
    r.n.toNat * c.crystal.raw.toNat + r.m.toNat * c.crystal.raw.toNat / 65535
  | .audio => c.aupll.map fun r =>
    if r.k = 0 ∨ r.d = 0 then r.n.toNat * c.crystal.raw.toNat
    else r.n.toNat * c.crystal.raw.toNat + r.k.toNat * c.crystal.raw.toNat / r.d.toNat

theorem frequency_oscillator (c : Configuration) :
    (c.oscillator.frequency c.crystal).raw.toNat = c.coreHs := by
  unfold coreHs
  cases c.oscillator <;> rfl

/-- The task that sets a PLL. -/
def task (c : Configuration) (s : Sequencer) : Pll → Attempt Task
  | .system =>
    match c.spll with
    | none => pure (.powerDown .system)
    | some ratio => do
      let (divider, f) ← ratio.plan s c.crystal
      return .start .system divider f c.lockWait
  | .audio =>
    match c.aupll with
    | none => pure (.powerDown .audio)
    | some ratio => do
      let (divider, f) ← ratio.plan s c.crystal
      return .start .audio divider f c.lockWait

/-- A PLL is powered down, or started at its frequency. -/
theorem task_cases (h : c.task s p = .ok k) :
    c.frequency p = none ∧ k = .powerDown p ∨
      ∃ d f, c.frequency p = some f.raw.toNat ∧ k = .start p d f c.lockWait := by
  cases p with
  | system =>
    unfold task at h
    cases ratio : c.spll with
    | none =>
      simp only [ratio] at h
      cases h
      exact .inl ⟨by simp [frequency, ratio], rfl⟩
    | some r =>
      simp only [ratio] at h
      obtain ⟨⟨d, f⟩, plan, h⟩ := Attempt.bind_ok h
      cases h
      obtain ⟨-, hf⟩ := SystemRatio.plan_ok plan
      refine .inr ⟨d, f, ?_, rfl⟩
      rw [frequency, ratio, SystemRatio.frequency_ok hf]
      rfl
  | audio =>
    unfold task at h
    cases ratio : c.aupll with
    | none =>
      simp only [ratio] at h
      cases h
      exact .inl ⟨by simp [frequency, ratio], rfl⟩
    | some r =>
      simp only [ratio] at h
      obtain ⟨⟨d, f⟩, plan, h⟩ := Attempt.bind_ok h
      cases h
      obtain ⟨proper, -, hf⟩ := AudioRatio.plan_ok plan
      refine .inr ⟨d, f, ?_, rfl⟩
      simp only [frequency, ratio, Option.map_some, AudioRatio.frequency_ok hf proper]
      split
      · rename_i zero
        obtain zero | zero := zero
        · simp [zero]
        · simp [zero]
      · rfl

theorem footprint_of_task (h : c.task s p = .ok k) : k.footprint = .pll p := by
  obtain ⟨-, rfl⟩ | ⟨d, f, -, rfl⟩ := task_cases h <;> rfl

theorem Sound.task (sound : c.Sound s) (p : Pll) : ∃ k, c.task s p = .ok k := by
  unfold Configuration.task
  cases p with
  | system =>
    cases ratio : c.spll with
    | none => exact ⟨_, rfl⟩
    | some r =>
      obtain ⟨d, f, plan⟩ := sound.spll r ratio
      exact ⟨.start .system d f c.lockWait, by simp only [plan]; rfl⟩
  | audio =>
    cases ratio : c.aupll with
    | none => exact ⟨_, rfl⟩
    | some r =>
      obtain ⟨d, f, plan⟩ := sound.aupll r ratio
      exact ⟨.start .audio d f c.lockWait, by simp only [plan]; rfl⟩

/-- The task of a step. -/
def sets (c : Configuration) (s : Sequencer) : Step → Attempt Task
  | .oscillator => .ok (.oscillator c.oscillator)
  | .pll p => c.task s p

theorem footprint_of_sets {i : Step} (h : c.sets s i = .ok k) : k.footprint = i.footprint := by
  cases i with
  | oscillator =>
    cases h
    rfl
  | pll p => exact footprint_of_task h

theorem Sound.sets (sound : c.Sound s) (i : Step) : ∃ k, c.sets s i = .ok k := by
  cases i with
  | oscillator => exact ⟨_, rfl⟩
  | pll p => exact sound.task p

variable {rig : Rig}

theorem ofSystem_eq (crystal : rig.controller.crystal = c.crystal) (free : rig.source = .coreHs) :
    Task.ofSystem c.spll c.lockWait rig = c.task rig.controller.wiring.sequencer .system := by
  unfold Task.ofSystem
  rw [free, if_neg nofun, crystal]
  rfl

theorem ofAudio_eq (crystal : rig.controller.crystal = c.crystal) :
    Task.ofAudio c.aupll c.lockWait rig = c.task rig.controller.wiring.sequencer .audio := by
  unfold Task.ofAudio
  rw [crystal]
  rfl

end Configuration

namespace Controller
variable {start rig : Rig} {c : Configuration} {past : List (Moment Rig)}

theorem run_check (c : Configuration) (rig : Rig) :
    (check c).run rig = ⟨c.check rig.controller.wiring.sequencer, rig, []⟩ := by
  rw [check, Action.run_bind_quiet (Action.run_state rig)]
  exact Action.run_liftM _ rig

/-- The rig with the crystal of the configuration, the MCU on the core high-speed clock. -/
inductive Parked (start : Rig) (c : Configuration) (rig : Rig) : Prop where
  | already (same : rig = { start with controller.crystal := c.crystal })
      (source : rig.source = .coreHs)
  | moved (park : Task.park.Takes { start with controller.crystal := c.crystal } rig)

/-- The rig when an application has come to its tree. -/
inductive Prepared (start : Rig) (c : Configuration) (rig : Rig) : Prop where
  | intro {parked clocked powered : Rig} {spll aupll : Task}
      (setsSystem : c.task start.controller.wiring.sequencer .system = .ok spll)
      (setsAudio : c.task start.controller.wiring.sequencer .audio = .ok aupll)
      (park : Parked start c parked)
      (oscillator : (Task.oscillator c.oscillator).Takes parked clocked)
      (system : spll.Takes clocked powered)
      (audio : aupll.Takes powered rig)

/-- The rig when an application has come to its end. -/
def Applied (start : Rig) (c : Configuration) (rig : Rig) : Prop :=
  ∃ mid, Prepared start c mid ∧ (Task.tree c.tree).Takes mid rig

namespace Parked

theorem source (h : Parked start c rig) : rig.source = .coreHs := by
  cases h with
  | already same source => exact source
  | moved park =>
    rw [Rig.source, park.image.load_tree, Task.image, Image.load_store_self,
      McuSource.selectedBy_select]

theorem crystal (h : Parked start c rig) : rig.controller.crystal = c.crystal := by
  cases h with
  | already same source => rw [same]
  | moved park => exact park.crystal

theorem precedes (h : Parked start c rig) : start.Precedes rig := by
  cases h with
  | already same source =>
    rw [same]
    exact ⟨rfl, rfl, rfl, Nat.le_refl _⟩
  | moved park => exact ⟨park.wiring, park.busy, park.fails, park.accesses⟩

end Parked

/-- Steps that are done one after another. -/
inductive Progress (c : Configuration) (s : Sequencer) : List Step → Rig → Rig → Prop where
  | nil {rig : Rig} : Progress c s [] rig rig
  | cons {rig mid rig' : Rig} {i : Step} {steps : List Step} {k : Task}
      (sets : c.sets s i = .ok k) (takes : k.Takes rig mid) (rest : Progress c s steps mid rig') :
      Progress c s (i :: steps) rig rig'

namespace Progress
variable {s : Sequencer} {steps : List Step} {mid rig' : Rig}

theorem snoc {i : Step} {k : Task} (h : Progress c s steps rig mid) (sets : c.sets s i = .ok k)
    (takes : k.Takes mid rig') : Progress c s (steps ++ [i]) rig rig' := by
  induction h with
  | nil => exact .cons sets takes .nil
  | cons first before _ ih => exact .cons first before (ih takes)

/-- What each step keeps. -/
theorem keeps {P : Rig → Prop} (h : Progress c s steps rig rig') (base : P rig)
    (step : ∀ {i k rig rig'}, i ∈ steps → c.sets s i = .ok k → k.Takes rig rig' → P rig → P rig') :
    P rig' := by
  induction h with
  | nil => exact base
  | cons sets takes _ ih =>
    exact ih (step List.mem_cons_self sets takes base) fun hi => step (List.mem_cons_of_mem _ hi)

theorem load_tree (h : Progress c s steps rig rig') :
    rig'.board.image.load .treeControl = rig.board.image.load .treeControl := by
  refine h.keeps (P := fun rig' => rig'.board.image.load .treeControl = _) rfl ?_
  intro i k rig rig' _ sets takes same
  have outside : Register.treeControl ∉ k.footprint.registers := by
    rw [Configuration.footprint_of_sets sets]
    exact i.treeControl_notMem
  exact (takes.load outside nofun nofun).trans same

theorem crystal (h : Progress c s steps rig rig') :
    rig'.controller.crystal = rig.controller.crystal :=
  h.keeps (P := fun rig' => rig'.controller.crystal = _) rfl
    fun _ _ takes same => takes.crystal.trans same

theorem precedes (h : Progress c s steps rig rig') : rig.Precedes rig' :=
  h.keeps (P := rig.Precedes) ⟨rfl, rfl, rfl, Nat.le_refl _⟩
    fun _ _ takes before => before.trans takes.precedes

end Progress

/-- An application that has parked the MCU and done these steps. -/
inductive Passed (start : Rig) (c : Configuration) (done : List Step) : Assertion Rig where
  | intro {past : List (Moment Rig)} {parked rig : Rig} (park : Parked start c parked)
      (progress : Progress c start.controller.wiring.sequencer done parked rig)
      (within : Rig.Within (.tree :: done.map Step.footprint) past) : Passed start c done past rig

/-- An application that has missed an access at one of its steps. -/
inductive Halted (start : Rig) (c : Configuration) : Assertion Rig where
  | intro {past : List (Moment Rig)} {parked mid rig : Rig} {done rest : List Step} {i : Step}
      {k : Task} (order : Step.order = done ++ i :: rest) (park : Parked start c parked)
      (progress : Progress c start.controller.wiring.sequencer done parked mid)
      (sets : c.sets start.controller.wiring.sequencer i = .ok k) (cuts : k.Cuts mid rig)
      (within : Rig.Within (.tree :: (done ++ [i]).map Step.footprint) past) :
      Halted start c past rig

namespace Passed
variable {done : List Step}

theorem precedes (h : Passed start c done past rig) : start.Precedes rig := by
  obtain ⟨park, progress, -⟩ := h
  exact park.precedes.trans progress.precedes

theorem crystal (h : Passed start c done past rig) : rig.controller.crystal = c.crystal := by
  obtain ⟨park, progress, -⟩ := h
  exact progress.crystal.trans park.crystal

theorem source (h : Passed start c done past rig) : rig.source = .coreHs := by
  obtain ⟨park, progress, -⟩ := h
  rw [Rig.source, progress.load_tree]
  exact park.source

theorem prepared (h : Passed start c Step.order past rig) : Prepared start c rig := by
  obtain ⟨park, progress, -⟩ := h
  obtain _ | ⟨setsOscillator, oscillator, progress⟩ := progress
  obtain _ | ⟨setsSystem, system, progress⟩ := progress
  obtain _ | ⟨setsAudio, audio, progress⟩ := progress
  cases progress
  cases setsOscillator
  exact .intro setsSystem setsAudio park oscillator system audio

end Passed

theorem leads_park (start : Rig) (c : Configuration) :
    park.Leads (fun _ => Passed start c []) (fun _ _ _ => False) []
      { start with controller.crystal := c.crystal } := by
  cases source : Rig.source { start with controller.crystal := c.crystal } with
  | coreHs =>
    refine (Action.leads_of_run (run_park_of_coreHs source)).2 ?_
    exact .intro (.already rfl source) .nil .nil
  | spll =>
    have answers : Answers (park.run { start with controller.crystal := c.crystal }) _
        (.ok .park) := ⟨source, run_park_of_spll source⟩
    have task : park.Leads _ _ [] _ := leads_task_of_tree answers (List.mem_singleton_self _)
    have shows := leads_within answers (Rig.Within.nil : Rig.Within [] [])
    refine (task.and shows).mono ?_ ?_
    · intro _ past rig ⟨takes, within⟩
      exact .intro (.moved takes) .nil within
    · exact fun _ _ _ => And.left

/-- What does not pass the check is not begun. -/
theorem run_apply_of_error {e : Failure}
    (refused : c.check rig.controller.wiring.sequencer = .error e) :
    (apply c).run rig = ⟨.error e, rig, []⟩ := by
  have checked : (check c).run rig = ⟨.error e, rig, []⟩ := by
    rw [run_check, refused]
  exact Action.run_bind_error checked

/-- What each step asks of the controller. -/
def step (c : Configuration) : Step → Action Rig Unit
  | .oscillator => setOscillator c.oscillator
  | .pll .system => setSpll c.spll c.lockWait
  | .pll .audio => setAupll c.aupll c.lockWait

theorem prepare_eq (c : Configuration) : prepare c = (do
    check c
    .update ({ · with controller.crystal := c.crystal })
    park
    Step.order.forM (step c)) := by
  simp only [prepare, Step.order, List.forM_eq_forM, List.forM_cons, List.forM_nil, step,
    bind_pure_unit]

theorem step_answers (i : Step) (crystal : rig.controller.crystal = c.crystal)
    (free : rig.source = .coreHs) :
    Answers ((step c i).run rig) rig (c.sets rig.controller.wiring.sequencer i) := by
  cases i with
  | oscillator => exact setOscillator_answers c.oscillator rig
  | pll p =>
    cases p with
    | system =>
      have answers := setSpll_answers c.spll c.lockWait rig
      rwa [Configuration.ofSystem_eq crystal free] at answers
    | audio =>
      have answers := setAupll_answers c.aupll c.lockWait rig
      rwa [Configuration.ofAudio_eq crystal] at answers

/-- With the MCU parked one step after another is done, until one misses an access. -/
theorem leads_steps (sound : c.Sound start.controller.wiring.sequencer) {done rest : List Step}
    (order : Step.order = done ++ rest) (passed : Passed start c done past rig) :
    (rest.forM (step c)).Leads (fun _ => Passed start c Step.order)
      (fun e past rig => Lost start e past rig ∧ Halted start c past rig) past rig := by
  induction rest generalizing done past rig with
  | nil =>
    rw [List.append_nil] at order
    rw [List.forM_eq_forM, List.forM_nil, Action.leads_pure, order]
    exact passed
  | cons i rest ih =>
    obtain ⟨k, sets⟩ := sound.sets i
    have before := passed.precedes
    have answers := step_answers i passed.crystal passed.source
    rw [before.wiring, sets] at answers
    obtain ⟨park, progress, within⟩ := passed
    have footprints : (.tree :: done.map Step.footprint) ++ [k.footprint] =
        .tree :: (done ++ [i]).map Step.footprint := by
      rw [Configuration.footprint_of_sets sets, List.map_append]
      rfl
    have shows := leads_within answers within
    rw [footprints] at shows
    rw [List.forM_eq_forM, List.forM_cons]
    refine (((leads_task answers).and shows).failure ?_).next ?_
    · intro e past rig ⟨⟨lost, cuts⟩, within⟩
      exact ⟨Lost.earlier before e past lost, .intro order park progress sets cuts within⟩
    · intro past rig ⟨takes, within⟩
      refine ih ?_ (.intro park (progress.snoc sets takes) within)
      rw [order, List.append_assoc]
      rfl

/-- Once it has passed the check, an application comes to its tree unless it misses an access. -/
theorem leads_prepare (checked : c.check start.controller.wiring.sequencer = .ok ()) :
    (prepare c).Leads (fun _ _ => Prepared start c)
      (fun e past rig => Lost start e past rig ∧ Halted start c past rig) [] start := by
  have sound := Configuration.sound_of_check checked
  have passed : (check c).run start = ⟨.ok (), start, []⟩ := by
    rw [run_check, checked]
  rw [prepare_eq, Action.leads_congr (Action.run_bind_quiet passed), Action.leads_bind,
    Action.leads_update]
  refine ((leads_park start c).failure fun _ _ _ => False.elim).next fun past parked park => ?_
  exact (leads_steps sound rfl park).answer fun _ _ _ => Passed.prepared

namespace Prepared

theorem precedes (h : Prepared start c rig) : start.Precedes rig := by
  obtain ⟨-, -, park, oscillator, system, audio⟩ := h
  exact ((park.precedes.trans oscillator.precedes).trans system.precedes).trans audio.precedes

theorem crystal (h : Prepared start c rig) : rig.controller.crystal = c.crystal := by
  obtain ⟨-, -, park, oscillator, system, audio⟩ := h
  rw [audio.crystal, system.crystal, oscillator.crystal, park.crystal]

theorem source (h : Prepared start c rig) : rig.source = .coreHs := by
  obtain ⟨setsSystem, setsAudio, park, oscillator, system, audio⟩ := h
  have progress : Progress c start.controller.wiring.sequencer Step.order _ rig :=
    .cons rfl oscillator (.cons setsSystem system (.cons setsAudio audio .nil))
  rw [Rig.source, progress.load_tree]
  exact park.source

end Prepared

/-- What becomes of an application that has passed the check: it comes to its end, or its tree is
refused since the system PLL counts as stopped, or it misses an access at one of its steps. -/
theorem leads_apply_cases (checked : c.check start.controller.wiring.sequencer = .ok ()) :
    (apply c).Leads (fun _ _ => Applied start c)
      (fun e past rig =>
        (e = .error (.refused .systemPllStopped) ∧ Prepared start c rig ∧
          c.tree.source = .spll ∧ rig.controller.clocks.spll.hertz? = none) ∨
        Lost start e past rig ∧ Halted start c past rig) [] start := by
  have sound := Configuration.sound_of_check checked
  rw [apply_eq]
  refine ((leads_prepare checked).failure fun _ _ _ => .inr).next fun past mid prepared => ?_
  have answers := setTree_answers c.tree mid
  unfold Task.ofTree at answers
  rw [sound.tree] at answers
  by_cases stopped : c.tree.source = .spll ∧ mid.controller.clocks.spll.hertz? = none
  · simp only [if_pos stopped] at answers
    obtain ⟨ns, -, run⟩ := answers
    exact (Action.leads_of_run_error (Action.run_bind_error run)).2 (.inl ⟨rfl, prepared, stopped⟩)
  · simp only [if_neg stopped] at answers
    have task : (setTree c.tree).Leads _ _ past mid :=
      leads_task_of_tree answers (List.mem_singleton_self _)
    refine (task.failure fun _ _ _ => False.elim).next fun past rig takes => ?_
    rw [Action.leads_bind, Action.leads_state, Action.leads_note]
    exact ⟨mid, prepared, takes⟩

end Controller
end ClockControl
