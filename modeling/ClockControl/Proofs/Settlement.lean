import ClockControl.Proofs.Admission
import ClockControl.Proofs.Completion
import ClockControl.Proofs.Derivation

/-! What an application comes to. The clocks, the tree register and the power words that it leaves
are those of its configuration, whatever came before; and applying the configuration again changes
nothing. Main statement: `apply_settles`. -/
namespace ClockControl

/-- The two boards show the same, but for the bridge. -/
structure Board.Shows (a b : Board) : Prop where
  image : a.image.Agree b.image
  pmu : b.pmu = a.pmu

namespace Board.Shows
variable {a b d : Board}

theorem trans (h : a.Shows b) (h' : b.Shows d) : a.Shows d :=
  ⟨h.image.trans h'.image, h'.pmu.trans h.pmu⟩

theorem done {k : Task} (h : a.Shows b) (done : k.Done a) : k.Done b := by
  apply done.congr
  · intro r hr
    obtain ⟨hc, hd⟩ := Task.footprint_ordinary hr
    exact h.image.load hc hd
  · intro g hg
    rw [Board.oscillators, h.pmu]

end Board.Shows

namespace Task
variable {k : Task} {rig rig' : Rig}

/-- A task that is done already shows nothing new. -/
theorem Takes.shows (h : k.Takes rig rig') (done : k.Done rig.board) :
    rig.board.Shows rig'.board where
  image := by
    have image := h.image
    rwa [done.image] at image
  pmu := by rw [h.pmu, done.oscillators, Board.oscillators, RegisterFile.write_read]

end Task

namespace Controller
variable {start rig : Rig} {c : Configuration}

/-- A PLL has been set by the task of the configuration. -/
def Sets (start : Rig) (c : Configuration) (rig : Rig) (p : Pll) : Prop :=
  ∃ k, c.task start.controller.wiring.sequencer p = .ok k ∧ k.Done rig.board ∧
    (rig.controller.clocks.pll p).raw.toNat = (c.frequency p).getD 0

theorem sets_of_takes {rig' : Rig} {p : Pll} {k : Task}
    (task : c.task start.controller.wiring.sequencer p = .ok k) (takes : k.Takes rig rig') :
    Sets start c rig' p := by
  refine ⟨k, task, takes.done, ?_⟩
  obtain ⟨none, rfl⟩ | ⟨d, f, some, rfl⟩ := Configuration.task_cases task
  · rw [takes.pll_powerDown, none]
    rfl
  · rw [takes.pll_start, some]
    rfl

theorem Sets.kept {rig' : Rig} {p : Pll} {k : Task} (h : Sets start c rig p)
    (takes : k.Takes rig rig') (avoids : k.footprint.Avoids p) : Sets start c rig' p := by
  obtain ⟨own, task, done, clock⟩ := h
  have apart : own.footprint.Apart k.footprint := by
    rw [Configuration.footprint_of_task task]
    exact avoids.apart
  exact ⟨own, task, done.kept takes apart, by rw [takes.pll avoids, clock]⟩

namespace Prepared

/-- What every task keeps, from the parked rig on or from the start. -/
theorem induct {P : Rig → Prop} (h : Prepared start c rig)
    (base : P { start with controller.crystal := c.crystal })
    (step : ∀ (k : Task) (rig rig' : Rig), k.Takes rig rig' → P rig → P rig') : P rig := by
  obtain ⟨-, -, park, oscillator, system, audio⟩ := h
  apply step _ _ _ audio
  apply step _ _ _ system
  apply step _ _ _ oscillator
  cases park with
  | already same source => rwa [same]
  | moved park => exact step _ _ _ park base

theorem fixed (h : Prepared start c rig) :
    rig.controller.clocks.fixed48 = start.controller.clocks.fixed48 ∧
      rig.controller.clocks.lowPower = start.controller.clocks.lowPower := by
  refine h.induct (P := fun rig => rig.controller.clocks.fixed48 = _ ∧
    rig.controller.clocks.lowPower = _) ⟨rfl, rfl⟩ ?_
  intro k rig rig' takes ⟨fixed48, lowPower⟩
  obtain ⟨same48, samePower⟩ := k.record_fixed rig.controller.crystal
    (rig'.board.image.load .treeControl) rig.controller.clocks
  rw [takes.clocks]
  exact ⟨same48.trans fixed48, samePower.trans lowPower⟩

theorem attached (h : Prepared start c rig) :
    rig.controller.attached = start.controller.attached := by
  refine h.induct (P := fun rig => rig.controller.attached = _) rfl ?_
  intro k rig rig' takes same
  exact takes.attached.trans same

/-- A controller that is not attached publishes nothing. -/
theorem published (h : Prepared start c rig) (detached : start.controller.attached = false) :
    rig.board.published = start.board.published := by
  have silent := h.induct (P := fun rig => rig.controller.attached = false ∧
    rig.board.published = start.board.published) ⟨detached, rfl⟩ ?_
  · exact silent.2
  · intro k rig rig' takes ⟨detached, same⟩
    refine ⟨takes.attached.trans detached, ?_⟩
    rw [takes.published, detached, if_neg nofun, same]

theorem oscillator (h : Prepared start c rig) :
    (Task.oscillator c.oscillator).Done rig.board ∧
      rig.controller.clocks.coreHs = .ofHertz (c.oscillator.frequency c.crystal) := by
  obtain ⟨setsSystem, setsAudio, park, oscillator, system, audio⟩ := h
  have apart {p : Pll} {k : Task} (footprint : k.footprint = .pll p) :
      Footprint.oscillators.Apart k.footprint := by
    rw [footprint]
    exact (Footprint.oscillators_avoids p).apart.symm
  have systemFootprint := Configuration.footprint_of_task setsSystem
  have audioFootprint := Configuration.footprint_of_task setsAudio
  constructor
  · exact (oscillator.done.kept system (apart systemFootprint)).kept audio (apart audioFootprint)
  · rw [audio.clocks, Task.record_coreHs (Task.ne_oscillator audioFootprint), system.clocks,
      Task.record_coreHs (Task.ne_oscillator systemFootprint), oscillator.clocks, park.crystal]
    exact Clocks.derived_coreHs _ _

theorem sets (h : Prepared start c rig) (p : Pll) : Sets start c rig p := by
  obtain ⟨setsSystem, setsAudio, park, oscillator, system, audio⟩ := h
  cases p with
  | system =>
    refine (sets_of_takes setsSystem system).kept audio ?_
    rw [Configuration.footprint_of_task setsAudio]
    exact Footprint.audio_avoids
  | audio => exact sets_of_takes setsAudio audio

end Prepared

end Controller

/-- The fields of the tree register give the tree. -/
structure Tree.Reads (t : Tree) (control : Word) : Prop where
  source : McuSource.selectedBy control = t.source
  soc : TreeControl.soc.get control + 1 = t.soc.toNat
  mcu : TreeControl.mcu.get control + 1 = t.mcu.toNat
  bus0 : TreeControl.bus0.get control + 1 = t.bus0.toNat
  bus1 : TreeControl.bus1.get control + 1 = t.bus1.toNat
  bus2 : TreeControl.bus2.get control + 1 = t.bus2.toNat

theorem Tree.reads_of_writes {t : Tree} {control : Word} (checked : t.check = .ok ())
    (written : ∀ w ∈ t.writes, w.1.get control = w.1.keep w.2) : t.Reads control := by
  simp only [writes, List.forall_mem_cons, List.not_mem_nil, false_imp_iff, implies_true,
    and_true] at written
  obtain ⟨soc, mcu, bus0, bus1, bus2, source⟩ := written
  simp only [check_eq_ok_iff, coreInRange, busInRange, Bool.and_eq_true, inRange_iff] at checked
  obtain ⟨⟨hs, hm⟩, ⟨h0, h1⟩, h2⟩ := checked
  have keep {f : Field 32} {top n : Nat} (bits : f.isFlag = false) (width : 2 ^ f.width = top)
      (range : 1 ≤ n ∧ n ≤ top) : f.keep (n - 1) + 1 = n := by
    rw [Field.keep_of_lt (by omega) bits]
    omega
  constructor
  · rw [McuSource.selectedBy, source]
    cases t.source <;> rfl
  · rw [soc]
    exact keep rfl rfl hs
  · rw [mcu]
    exact keep rfl rfl hm
  · rw [bus0]
    exact keep rfl rfl h0
  · rw [bus1]
    exact keep rfl rfl h1
  · rw [bus2]
    exact keep rfl rfl h2

/-- What a configuration comes to, from the clocks `before`. Nothing but the fixed oscillators is
taken from them. -/
structure Configuration.Settled (c : Configuration) (before : Clocks) (rig : Rig) : Prop where
  crystal : rig.controller.crystal = c.crystal
  coreHs : rig.controller.clocks.coreHs.raw.toNat = c.coreHs
  pll : ∀ p, (rig.controller.clocks.pll p).raw.toNat = (c.frequency p).getD 0
  derived :
    let clocks := rig.controller.clocks
    match c.tree.source with
    | .coreHs => clocks.dsp = clocks.coreHs ∧
        clocks.core.raw.toNat = clocks.coreHs.raw.toNat / c.tree.mcu.toNat
    | .spll => clocks.dsp.raw.toNat = clocks.spll.raw.toNat / c.tree.soc.toNat ∧
        clocks.core.raw.toNat = clocks.spll.raw.toNat / (c.tree.soc.toNat * c.tree.mcu.toNat)
  fixed48 : rig.controller.clocks.fixed48 = before.fixed48
  lowPower : rig.controller.clocks.lowPower = before.lowPower
  tree : c.tree.Reads (rig.board.image.load .treeControl)
  power : ∀ p : Pll, rig.board.image.load (.pll p .power) =
    match c.frequency p with
    | none => p.recipe.powerDown
    | some _ =>
      if PllDivider.frac.get (rig.board.image.load (.pll p .divider)) = 0 then
        p.recipe.integer.settle
      else
        p.recipe.fractional.settle

namespace Controller
variable {start rig : Rig} {c : Configuration} {p : Pll}

theorem Sets.power (h : Sets start c rig p) : rig.board.image.load (.pll p .power) =
    match c.frequency p with
    | none => p.recipe.powerDown
    | some _ =>
      if PllDivider.frac.get (rig.board.image.load (.pll p .divider)) = 0 then
        p.recipe.integer.settle
      else
        p.recipe.fractional.settle := by
  obtain ⟨k, task, done, -⟩ := h
  obtain ⟨none, rfl⟩ | ⟨d, f, some, rfl⟩ := Configuration.task_cases task
  · rw [none]
    exact done
  · rw [some]
    exact Pll.Started.settled done

theorem Applied.sets (h : Applied start c rig) (p : Pll) : Sets start c rig p := by
  obtain ⟨mid, prepared, takes⟩ := h
  exact (prepared.sets p).kept takes (Footprint.tree_avoids p)

theorem Applied.wiring (h : Applied start c rig) :
    rig.controller.wiring = start.controller.wiring := by
  obtain ⟨mid, prepared, takes⟩ := h
  exact (prepared.precedes.trans takes.precedes).wiring

theorem Applied.attached (h : Applied start c rig) :
    rig.controller.attached = start.controller.attached := by
  obtain ⟨mid, prepared, takes⟩ := h
  exact takes.attached.trans prepared.attached

theorem Applied.settled (h : Applied start c rig) : c.Settled start.controller.clocks rig := by
  have sets := h.sets
  obtain ⟨mid, prepared, takes⟩ := h
  obtain ⟨fixed48, lowPower⟩ := prepared.fixed
  obtain ⟨-, coreHs⟩ := prepared.oscillator
  have clocks : rig.controller.clocks =
      mid.controller.clocks.derived (rig.board.image.load .treeControl) := takes.clocks
  have tree : c.tree.Reads (rig.board.image.load .treeControl) :=
    Tree.reads_of_writes takes.ready.1 takes.done
  constructor
  · exact takes.crystal.trans prepared.crystal
  · rw [clocks, Clocks.derived_coreHs, coreHs]
    exact c.frequency_oscillator
  · intro p
    obtain ⟨k, -, -, clock⟩ := sets p
    exact clock
  · have follow := mid.controller.clocks.derived_follow (rig.board.image.load .treeControl)
    rw [← clocks, Clocks.Follow, tree.source, tree.soc, tree.mcu] at follow
    cases source : c.tree.source with
    | coreHs =>
      rw [source] at follow
      exact ⟨Rate.eq_of_toNat follow.1, follow.2⟩
    | spll =>
      rw [source] at follow
      obtain ⟨dsp, core⟩ := follow
      exact ⟨dsp, by rw [core, dsp, Nat.div_div_eq_div_mul]⟩
  · rw [clocks, Clocks.derived_eq]
    exact fixed48
  · rw [clocks, Clocks.derived_eq]
    exact lowPower
  · exact tree
  · intro p
    exact (sets p).power

end Controller

namespace Configuration.Settled
variable {c : Configuration} {before before' : Clocks} {rig rig' : Rig}

/-- The configuration alone makes the clocks, but for those of the fixed oscillators. -/
theorem clocks_eq (h : c.Settled before rig) (h' : c.Settled before' rig')
    (fixed48 : rig'.controller.clocks.fixed48 = rig.controller.clocks.fixed48)
    (lowPower : rig'.controller.clocks.lowPower = rig.controller.clocks.lowPower) :
    rig'.controller.clocks = rig.controller.clocks := by
  have coreHs : rig'.controller.clocks.coreHs = rig.controller.clocks.coreHs :=
    Rate.eq_of_toNat (h'.coreHs.trans h.coreHs.symm)
  have pll (p : Pll) : rig'.controller.clocks.pll p = rig.controller.clocks.pll p :=
    Rate.eq_of_toNat ((h'.pll p).trans (h.pll p).symm)
  have spll : rig'.controller.clocks.spll = rig.controller.clocks.spll := pll .system
  have aupll : rig'.controller.clocks.aupll = rig.controller.clocks.aupll := pll .audio
  have derived : rig'.controller.clocks.dsp = rig.controller.clocks.dsp ∧
      rig'.controller.clocks.core = rig.controller.clocks.core := by
    have ours := h.derived
    have theirs := h'.derived
    cases source : c.tree.source with
    | coreHs =>
      simp only [source] at ours theirs
      exact ⟨by rw [theirs.1, ours.1, coreHs],
        Rate.eq_of_toNat (by rw [theirs.2, ours.2, coreHs])⟩
    | spll =>
      simp only [source] at ours theirs
      exact ⟨Rate.eq_of_toNat (by rw [theirs.1, ours.1, spll]),
        Rate.eq_of_toNat (by rw [theirs.2, ours.2, spll])⟩
  exact Clocks.ext coreHs spll aupll derived.2 derived.1 fixed48 lowPower

end Configuration.Settled

namespace Controller
variable {start rig rig' : Rig} {c : Configuration}

/-- A task that is done already, up to the tree of a rig that has been parked. -/
theorem Parked.shows (h : Parked start c rig) (tree : (Task.tree c.tree).Done start.board) :
    ∃ control, (start.board.image.store .treeControl control).Agree rig.board.image ∧
      Field.putAll c.tree.writes control = start.board.image.load .treeControl ∧
      rig.board.pmu = start.board.pmu := by
  have written : Field.putAll c.tree.writes (start.board.image.load .treeControl) =
      start.board.image.load .treeControl := Field.putAll_eq_self tree
  cases h with
  | already same source =>
    refine ⟨_, ?_, written, by rw [same]⟩
    rw [Image.store_eq_self rfl, same]
    exact .refl _
  | moved park =>
    refine ⟨_, park.image, ?_, ?_⟩
    · rw [Tree.putAll_writes_select, written]
    · rw [park.pmu]
      exact RegisterFile.write_read _ _

/-- What is done away from the tree stays done while the MCU is parked. -/
theorem Parked.done (h : Parked start c rig) {k : Task} (done : k.Done start.board)
    (apart : k.footprint.Apart .tree) : k.Done rig.board := by
  cases h with
  | already same source =>
    rw [same]
    exact done
  | moved park =>
    have before : k.Done ({ start with controller.crystal := c.crystal } : Rig).board := done
    exact before.kept park apart

/-- The task that sets a PLL is done once the PLL is set. -/
theorem Sets.done {p : Pll} {k : Task} (h : Sets start c rig p)
    (task : c.task start.controller.wiring.sequencer p = .ok k) : k.Done rig.board := by
  obtain ⟨own, same, done, -⟩ := h
  rw [same] at task
  cases task
  exact done

/-- An application that follows on another of the same configuration finds everything as it is to
be. -/
theorem Applied.shows (h : Applied start c rig) (h' : Applied rig c rig') :
    rig.board.Shows rig'.board := by
  have sets := h.sets
  have sequencer := h.wiring
  obtain ⟨mid, prepared, takes⟩ := h
  have selected := prepared.oscillator.1.kept takes Footprint.oscillators_apart_tree
  obtain ⟨mid', ⟨setsSystem, setsAudio, park, oscillator, system, audio⟩, takes'⟩ := h'
  rw [sequencer] at setsSystem setsAudio
  obtain ⟨control, parked, written, pmu⟩ := park.shows takes.done
  have away {k : Task} {p : Pll} (task : c.task start.controller.wiring.sequencer p = .ok k) :
      k.footprint.Apart .tree := by
    rw [Configuration.footprint_of_task task]
    exact (Footprint.tree_avoids p).apart
  -- Nothing between the parking and the tree shows.
  have first := oscillator.shows (park.done selected Footprint.oscillators_apart_tree)
  have second := system.shows
    (first.done (park.done ((sets .system).done setsSystem) (away setsSystem)))
  have third := audio.shows ((first.trans second).done
    (park.done ((sets .audio).done setsAudio) (away setsAudio)))
  have same := (first.trans second).trans third
  have here := parked.trans same.image
  have found : mid'.board.image.load .treeControl = control :=
    here.load_tree.trans (Image.load_store_self _ _ _)
  constructor
  · have last := takes'.image
    rw [Task.image, Tree.select_divided, found, written] at last
    have restored := here.store .treeControl (rig.board.image.load .treeControl)
    rw [Image.store_store_self, Image.store_eq_self rfl] at restored
    exact restored.trans last
  · have last := takes'.pmu
    rw [Task.oscillators, Board.oscillators, RegisterFile.write_read] at last
    rw [last, same.pmu, pmu]

/-- Two controllers that agree where the configuration sets nothing agree once it is applied. -/
theorem Applied.controller_congr {start' : Rig} (h : Applied start c rig)
    (h' : Applied start' c rig')
    (wiring : start'.controller.wiring = start.controller.wiring)
    (attached : start'.controller.attached = start.controller.attached)
    (fixed48 : start'.controller.clocks.fixed48 = start.controller.clocks.fixed48)
    (lowPower : start'.controller.clocks.lowPower = start.controller.clocks.lowPower) :
    rig'.controller = rig.controller := by
  have settled := h.settled
  have settled' := h'.settled
  have clocks := settled.clocks_eq settled'
    (settled'.fixed48.trans (fixed48.trans settled.fixed48.symm))
    (settled'.lowPower.trans (lowPower.trans settled.lowPower.symm))
  exact Controller.ext (h'.wiring.trans (wiring.trans h.wiring.symm))
    (settled'.crystal.trans settled.crystal.symm) clocks
    (h'.attached.trans (attached.trans h.attached.symm))

theorem Applied.controller_eq (h : Applied start c rig) (h' : Applied rig c rig') :
    rig'.controller = rig.controller :=
  h.controller_congr h' h.wiring h.attached h.settled.fixed48 h.settled.lowPower

/-- The clocks of an attached controller are published, those of another are not. -/
theorem Applied.published (h : Applied start c rig) : rig.board.published =
    if start.controller.attached then some rig.controller.clocks else start.board.published := by
  obtain ⟨mid, prepared, takes⟩ := h
  rw [takes.published, prepared.attached]
  cases attached : start.controller.attached with
  | true => rfl
  | false => exact prepared.published attached

/-- What an application answers is applied. -/
theorem applied_of_ok (applied : ((apply c).run rig).outcome = .ok ()) :
    c.check rig.controller.wiring.sequencer = .ok () ∧
      Applied rig c ((apply c).run rig).after := by
  cases checked : c.check rig.controller.wiring.sequencer with
  | error e =>
    rw [run_apply_of_error checked] at applied
    cases applied
  | ok => exact ⟨rfl, (leads_apply_cases checked).of_ok applied⟩

/-- An application that follows on another of the same configuration goes through, unless it misses
an access. -/
theorem Applied.again (h : Applied start c rig)
    (checked : c.check start.controller.wiring.sequencer = .ok ())
    (answered : ¬rig.Misses ((apply c).run rig).after) :
    ((apply c).run rig).outcome = .ok () := by
  have fits := h.not_starves checked
  rw [← h.wiring] at checked
  exact apply_ok_of_answered checked fits answered

/-- Whatever came before, an application that comes to its end has settled its configuration; and
another of the same configuration comes to its end, unless it misses an access, and changes neither
the registers, but for the bridge, nor the PMU, the controller and the published clocks. -/
theorem apply_settles (rig : Rig) (c : Configuration)
    (applied : ((apply c).run rig).outcome = .ok ()) :
    let after := ((apply c).run rig).after
    let again := (apply c).run after
    c.Settled rig.controller.clocks after ∧
      (¬after.Misses again.after → again.outcome = .ok () ∧
        after.board.Shows again.after.board ∧ again.after.controller = after.controller ∧
        again.after.board.published = after.board.published) := by
  intro after again
  obtain ⟨checked, first⟩ := applied_of_ok applied
  constructor
  · exact first.settled
  · intro answered
    have ok : again.outcome = .ok () := first.again checked answered
    obtain ⟨-, second⟩ := applied_of_ok ok
    have controller := first.controller_eq second
    refine ⟨ok, first.shows second, controller, ?_⟩
    rw [second.published, first.published, first.attached, controller]
    split <;> rfl

/-- From a core of 192 MHz on the system PLL to one of 8.5 MHz, with another crystal and the audio
PLL, twice. -/
theorem settled_after_another :
    let fresh : Rig := ⟨.blank, (fresh ⟨.direct, .direct, .timer⟩ boardCrystal).attach none⟩
    let rig := ((apply { Configuration.standard with
      tree := { Tree.undivided with source := .spll } }).run fresh).after
    let c : Configuration :=
      ⟨⟨16000000⟩, .rc, some ⟨8, 0⟩, some ⟨8, 1, 3⟩, ⟨.spll, 3, 5, 1, 2, 4⟩, 10⟩
    let after := ((apply c).run rig).after
    let again := (apply c).run after
    rig.source = .spll ∧ ((apply c).run rig).outcome = .ok () ∧
      c.Settled rig.controller.clocks after ∧ after.controller.clocks.core = ⟨8533333⟩ ∧
      ¬after.Misses again.after ∧ again.outcome = .ok () ∧ after.board.Shows again.after.board := by
  intro fresh rig c after again
  have applied : ((apply c).run rig).outcome = .ok () := by decide +kernel
  obtain ⟨settled, idempotent⟩ := apply_settles rig c applied
  have before : fresh.Precedes after :=
    ((Rig.Path.refl.apply _).run.precedes).trans (Rig.Path.refl.apply c).run.precedes
  have answered : ¬after.Misses again.after :=
    fun missed => blank_answers _ _ (before.misses missed)
  obtain ⟨ok, shows, -, -⟩ := idempotent answered
  have core : rig.source = .spll ∧ after.controller.clocks.core = ⟨8533333⟩ := by decide +kernel
  exact ⟨core.1, applied, settled, core.2, answered, ok, shows⟩

end Controller
end ClockControl
