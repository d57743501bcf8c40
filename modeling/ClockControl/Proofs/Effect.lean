import ClockControl.Proofs.Pll.Startup
import ClockControl.Proofs.Task

/-! What a task makes of a rig. Once its work is done the block and the oscillator control are
functions of what they held before, whatever the wiring and the course of the work. Main statement:
`perform_takes`, a task that is ready takes this step or misses an access. -/
namespace ClockControl

/-- The oscillator control of the PMU. -/
abbrev Board.oscillators (b : Board) : Byte := b.pmu.read Register.oscillatorControl

namespace Oscillator

/-- The flag that starts the oscillator. -/
def enable : Oscillator → Field 8
  | .crystal => OscillatorControl.crystal
  | .rc => OscillatorControl.rc

/-- The oscillator control with the oscillator started and selected. -/
def selected (o : Oscillator) (control : Byte) : Byte :=
  OscillatorControl.useRc.put (decide (o = .rc)).toNat (o.enable.put 1 control)

theorem enable_mem (o : Oscillator) : o.enable ∈ Footprint.oscillators.flags := by
  cases o <;> simp [Footprint.oscillators, enable]

theorem useRc_mem : OscillatorControl.useRc ∈ Footprint.oscillators.flags := by
  simp [Footprint.oscillators]

theorem keep_enable (o : Oscillator) : o.enable.keep 1 = 1 := by cases o <;> rfl

/-- An oscillator that runs need not be started. -/
theorem put_enable {o : Oscillator} {control : Byte} (h : o.enable.isSet control = true) :
    o.enable.put 1 control = control := by
  apply Field.put_eq_self
  have small : o.enable.get control < 2 := by
    cases o <;> exact Field.get_lt _ control
  have nonzero : o.enable.get control ≠ 0 := bne_iff_ne.1 h
  rw [o.keep_enable]
  omega

theorem selectOscillator_eq (w : Wiring) (o : Oscillator) : w.selectOscillator o = (do
    let control ← w.oscillators
    if !o.enable.isSet control then
      w.setOscillator o.enable true
      w.wait o.startup
    w.setOscillator OscillatorControl.useRc (o = .rc)) := by
  cases o <;> rfl

end Oscillator

section Work
variable {w : Wiring} {b : Board} {past : List (Moment Board)} {E : Failure → Assertion Board}

theorem leads_oscillators (lost : ∀ e past b', b'.pmu = b.pmu → E e past b') :
    w.oscillators.Leads (fun control _ b' => control = b.oscillators ∧ b'.pmu = b.pmu) E
      past b := by
  have reading : Pmu.Transfer _ _ b _ (w.oscillators.run b) :=
    Pmu.read_transfer w.access Register.oscillatorControl b
  rcases hr : w.oscillators.run b with ⟨e | control, b', trace⟩
  · rw [hr] at reading
    refine (Action.leads_of_run_error hr).2 ?_
    by_cases h : b.Answers w.access (b.accesses + 1)
    · cases (reading.answered h).1
    · exact lost _ _ _ (reading.lost h).2
  · rw [hr] at reading
    refine (Action.leads_of_run hr).2 ?_
    by_cases h : b.Answers w.access (b.accesses + 1)
    · obtain ⟨value, pmu⟩ := reading.answered h
      cases value
      exact ⟨rfl, pmu⟩
    · cases (reading.lost h).1

theorem leads_setOscillator (f : Field 8) (on : Bool)
    (lost : ∀ e past b', b'.pmu = b.pmu → E e past b') :
    (w.setOscillator f on).Leads (fun _ _ b' => b'.pmu =
      b.pmu.write Register.oscillatorControl (f.put on.toNat b.oscillators)) E past b := by
  have changes : Pmu.Changes _ _ _ b ((w.setOscillator f on).run b) :=
    Pmu.change_changes w.access Register.oscillatorControl (f.put on.toNat) b
  rcases hr : (w.setOscillator f on).run b with ⟨e | u, b', trace⟩
  · rw [hr] at changes
    refine (Action.leads_of_run_error hr).2 ?_
    obtain ⟨ok, -⟩ | ⟨-, pmu, -⟩ := changes.cases
    · cases ok
    · exact lost _ _ _ pmu
  · rw [hr] at changes
    refine (Action.leads_of_run hr).2 ?_
    obtain ⟨-, pmu⟩ | ⟨lost, -⟩ := changes.cases
    · exact pmu
    · cases lost

theorem leads_wait (us : UInt32) {P : Assertion Board} (h : ∀ past, P past b) :
    (w.wait us).Leads (fun _ => P) E past b :=
  (Action.leads_of_run (run_wait w us b)).2 (h _)

/-- Whether or not the oscillator had to be started, it is selected in the end. A missed access
leaves the PMU as it was, or with the oscillator started. -/
theorem leads_selectOscillator (o : Oscillator) :
    (w.selectOscillator o).Leads (fun _ _ b' => b'.pmu =
      b.pmu.write Register.oscillatorControl (o.selected b.oscillators))
      (fun _ _ b' => b'.pmu = b.pmu ∨
        b'.pmu = b.pmu.write Register.oscillatorControl (o.enable.put 1 b.oscillators))
      past b := by
  have select {past : List (Moment Board)} {b' : Board}
      (started : b'.pmu = b.pmu.write Register.oscillatorControl (o.enable.put 1 b.oscillators)) :
      (w.setOscillator OscillatorControl.useRc (o = .rc)).Leads (fun _ _ b'' => b''.pmu =
        b.pmu.write Register.oscillatorControl (o.selected b.oscillators))
        (fun _ _ b'' => b''.pmu = b.pmu ∨
          b''.pmu = b.pmu.write Register.oscillatorControl (o.enable.put 1 b.oscillators))
        past b' := by
    refine (leads_setOscillator _ _ fun _ _ b'' same => .inr (same.trans started)).answer
      fun _ _ b'' pmu => ?_
    rw [pmu, Board.oscillators, started, RegisterFile.read_write_self, RegisterFile.write_write]
    rfl
  rw [Oscillator.selectOscillator_eq, Action.leads_bind]
  refine (leads_oscillators fun _ _ _ => .inl).answer fun control past b' ⟨found, pmu⟩ => ?_
  subst found
  cases running : o.enable.isSet b.oscillators with
  | true =>
    apply select
    rw [pmu, Oscillator.put_enable running, Board.oscillators, RegisterFile.write_read]
  | false =>
    refine (leads_setOscillator _ _ fun _ _ b'' same => .inl (same.trans pmu)).next
      fun past b'' started => ?_
    have same : b''.pmu = b.pmu.write Register.oscillatorControl
        (o.enable.put 1 b.oscillators) := by
      rw [started, Board.oscillators, pmu]
      rfl
    refine (leads_wait _ fun _ => same).next fun past b'' started => select started

end Work

namespace Task

/-- The block once the work is done. -/
def image (k : Task) (m : Image) : Image :=
  match k with
  | .park => m.store .treeControl (TreeControl.select .coreHs (m.load .treeControl))
  | .oscillator _ => m
  | .powerDown p => m.store (.pll p .power) p.recipe.powerDown
  | .start p divider _ _ => p.tapped (p.programmed divider m)
  | .tree t =>
    m.store .treeControl (TreeControl.select t.source (t.divided (m.load .treeControl)))

/-- The oscillator control once the work is done. -/
def oscillators (k : Task) (control : Byte) : Byte :=
  match k with
  | .oscillator o => o.selected control
  | .start p _ _ _ => p.reference.put 1 control
  | .park | .powerDown _ | .tree _ => control

/-- The work changes no word outside its footprint. -/
theorem image_get {k : Task} {i : Fin 64} (outside : ∀ r ∈ k.footprint.registers, r.index ≠ i)
    (m : Image) : (k.image m).get i = m.get i := by
  have tree (control : Word) (outside : ∀ r ∈ Footprint.tree.registers, r.index ≠ i) :
      (m.store .treeControl control).get i = m.get i := by
    rw [Image.get_store, if_neg (outside _ (List.mem_singleton_self _))]
  have other {p : Pll} (outside : ∀ r ∈ (Footprint.pll p).registers, r.index ≠ i)
      (part : PllPart) : (Register.pll p part).index ≠ i :=
    outside _ (Footprint.mem_pll p part)
  cases k with
  | park => exact tree _ outside
  | oscillator o => rfl
  | powerDown p => rw [image, Image.get_store, if_neg (other outside .power)]
  | start p divider f lockWait =>
    simp only [image, Pll.tapped, Pll.programmed, Image.get_store, if_neg (other outside _)]
  | tree t => exact tree _ outside

/-- The work changes no register outside its footprint. -/
theorem image_load {k : Task} {r : Register} (h : r ∉ k.footprint.registers) (m : Image) :
    (k.image m).load r = m.load r := by
  apply image_get
  intro s hs same
  exact h (Register.index_inj same ▸ hs)

/-- The work changes no flag outside its footprint. -/
theorem oscillators_keeps (k : Task) (control : Byte) :
    k.footprint.KeepsFlags control (k.oscillators control) := by
  intro g hg
  cases k with
  | park => rfl
  | oscillator o =>
    rw [oscillators, Oscillator.selected, Field.get_put_of_disjoint (hg _ Oscillator.useRc_mem),
      Field.get_put_of_disjoint (hg _ o.enable_mem)]
  | powerDown p => rfl
  | start p divider f lockWait =>
    exact Field.get_put_of_disjoint (hg p.reference (List.mem_singleton_self _)) _ _
  | tree t => rfl

/-- The clocks with the one that the task sets, before the DSP and core clocks are derived. -/
def own (k : Task) (crystal : Hertz) (c : Clocks) : Clocks :=
  match k with
  | .park | .tree _ => c
  | .oscillator o => { c with coreHs := .ofHertz (o.frequency crystal) }
  | .powerDown p => c.setPll p .stopped
  | .start p _ f _ => c.setPll p (.ofHertz f)

/-- What deriving the DSP and core clocks leaves alone is as the task itself has set it. -/
theorem record_of_derived {g : Clocks → α} {control : Word}
    (derived : ∀ c : Clocks, g (c.derived control) = g c) (k : Task) (crystal : Hertz)
    (c : Clocks) : g (k.record crystal control c) = g (k.own crystal c) := by
  cases k with
  | park => exact derived _
  | oscillator o => exact derived _
  | powerDown p =>
    cases p with
    | system => exact derived _
    | audio => rfl
  | start p d f lockWait =>
    cases p with
    | system => exact derived _
    | audio => rfl
  | tree t => exact derived _

/-- Work that avoids a PLL leaves its clock as it was. -/
theorem record_pll {k : Task} {p : Pll} (avoids : k.footprint.Avoids p) (crystal : Hertz)
    (control : Word) (c : Clocks) : (k.record crystal control c).pll p = c.pll p := by
  have other {q : Pll} (avoids : (Footprint.pll q).Avoids p) (r : Rate) :
      (c.setPll q r).pll p = c.pll p := by
    have different : q ≠ p := by
      rintro rfl
      exact avoids.registers .power (Footprint.mem_pll q .power)
    cases p <;> cases q <;> first | rfl | exact absurd rfl different
  rw [record_of_derived (g := (·.pll p)) fun c => Clocks.derived_pll c control p]
  cases k with
  | park => rfl
  | oscillator o => cases p <;> rfl
  | powerDown q => exact other avoids _
  | start q divider f lockWait => exact other avoids _
  | tree t => rfl

/-- Work on a PLL is not the choice of an oscillator. -/
theorem ne_oscillator {k : Task} {p : Pll} (h : k.footprint = .pll p) (o : Oscillator) :
    k ≠ .oscillator o := by
  rintro rfl
  have empty : ([] : List Register) = (Footprint.pll p).registers := congrArg (·.registers) h
  cases p <;> exact nomatch empty

/-- Only the choice of an oscillator changes the core high-speed clock. -/
theorem record_coreHs {k : Task} (other : ∀ o, k ≠ .oscillator o) (crystal : Hertz)
    (control : Word) (c : Clocks) : (k.record crystal control c).coreHs = c.coreHs := by
  rw [record_of_derived (g := (·.coreHs)) fun c => Clocks.derived_coreHs c control]
  cases k with
  | park => rfl
  | oscillator o => exact absurd rfl (other o)
  | powerDown p => cases p <;> rfl
  | start p divider f lockWait => cases p <;> rfl
  | tree t => rfl

/-- The fixed oscillators keep their clocks. -/
theorem record_fixed (k : Task) (crystal : Hertz) (control : Word) (c : Clocks) :
    (k.record crystal control c).fixed48 = c.fixed48 ∧
      (k.record crystal control c).lowPower = c.lowPower := by
  have derived (c : Clocks) : ((c.derived control).fixed48, (c.derived control).lowPower) =
      (c.fixed48, c.lowPower) := by
    rw [Clocks.derived_eq]
  rw [← Prod.mk.injEq, record_of_derived (g := fun c => (c.fixed48, c.lowPower)) derived]
  cases k with
  | park => rfl
  | oscillator o => rfl
  | powerDown p => cases p <;> rfl
  | start p d f lockWait => cases p <;> rfl
  | tree t => rfl

variable {rig rig' : Rig} {k : Task}

theorem work_effect (ready : k.Ready rig) {w : Wiring} {b b' : Board} {trace : List (Moment Board)}
    (work : (k.work w).run b = ⟨.ok (), b', trace⟩) :
    (k.image b.image).Agree b'.image ∧
      b'.pmu = b.pmu.write Register.oscillatorControl (k.oscillators b.oscillators) := by
  cases k with
  | park =>
    rw [run_park] at work
    cases work
    exact ⟨.refl _, (RegisterFile.write_read _ _).symm⟩
  | oscillator o =>
    have kept := (Action.Confined.selectOscillator w o b).after
    have leads : (w.selectOscillator o).Leads _ _ [] b := leads_selectOscillator o
    have run : (w.selectOscillator o).run b = ⟨.ok (), b', trace⟩ := work
    rw [run] at kept
    constructor
    · intro i hc hd
      exact kept.words i hc hd fun r hr => absurd hr List.not_mem_nil
    · exact (Action.leads_of_run run).1 leads
  | powerDown p =>
    have run : p.powerDown.run b = _ := Pll.run_store p .power p.recipe.powerDown b
    have same : p.powerDown.run b = ⟨.ok (), b', trace⟩ := work
    rw [run] at same
    cases same
    exact ⟨.refl _, (RegisterFile.write_read _ _).symm⟩
  | start p divider f lockWait =>
    have starts := Pll.start_starts p w divider lockWait b
    have run : (p.start w divider lockWait).run b = ⟨.ok (), b', trace⟩ := work
    rw [run] at starts
    cases starts with
    | done image pmu last => exact ⟨image, pmu⟩
  | tree t =>
    rw [run_tree w ready.1] at work
    cases work
    exact ⟨.refl _, (RegisterFile.write_read _ _).symm⟩

/-- Everything that a task which has come to its end has made of a rig, but for the course of the
accesses to the PMU. -/
structure Takes (k : Task) (rig rig' : Rig) : Prop where
  ready : k.Ready rig
  image : (k.image rig.board.image).Agree rig'.board.image
  pmu : rig'.board.pmu = rig.board.pmu.write Register.oscillatorControl
    (k.oscillators rig.board.oscillators)
  controller : rig'.controller = { rig.controller with
    clocks := k.record rig.controller.crystal (rig'.board.image.load .treeControl)
      rig.controller.clocks }
  published : rig'.board.published =
    if rig.controller.attached then some rig'.controller.clocks else rig.board.published
  busy : rig'.board.busy = rig.board.busy
  fails : rig'.board.fails = rig.board.fails
  booted : rig'.board.booted = rig.board.booted
  accesses : rig.board.accesses ≤ rig'.board.accesses

namespace Takes

theorem wiring (h : k.Takes rig rig') : rig'.controller.wiring = rig.controller.wiring := by
  rw [h.controller]

theorem crystal (h : k.Takes rig rig') : rig'.controller.crystal = rig.controller.crystal := by
  rw [h.controller]

theorem attached (h : k.Takes rig rig') : rig'.controller.attached = rig.controller.attached := by
  rw [h.controller]

theorem clocks (h : k.Takes rig rig') : rig'.controller.clocks =
    k.record rig.controller.crystal (rig'.board.image.load .treeControl)
      rig.controller.clocks := by
  rw [h.controller]

theorem oscillators (h : k.Takes rig rig') :
    rig'.board.oscillators = k.oscillators rig.board.oscillators := by
  rw [Board.oscillators, h.pmu, RegisterFile.read_write_self]

theorem load (h : k.Takes rig rig') {r : Register} (outside : r ∉ k.footprint.registers)
    (hc : r ≠ .bridgeControl) (hd : r ≠ .bridgeData) :
    rig'.board.image.load r = rig.board.image.load r :=
  (h.image.load hc hd).trans (image_load outside _)

/-- The clock of a PLL that the task avoids. -/
theorem pll (h : k.Takes rig rig') {p : Pll} (avoids : k.footprint.Avoids p) :
    rig'.controller.clocks.pll p = rig.controller.clocks.pll p := by
  rw [h.clocks, record_pll avoids]

theorem pll_powerDown {p : Pll} (h : (powerDown p).Takes rig rig') :
    rig'.controller.clocks.pll p = .stopped := by
  rw [h.clocks, record_of_derived (g := (·.pll p)) fun c => Clocks.derived_pll c _ p]
  cases p <;> rfl

theorem pll_start {p : Pll} {d : Divider} {f : Hertz} {lockWait : UInt32}
    (h : (start p d f lockWait).Takes rig rig') : rig'.controller.clocks.pll p = .ofHertz f := by
  rw [h.clocks, record_of_derived (g := (·.pll p)) fun c => Clocks.derived_pll c _ p]
  cases p <;> rfl

/-- A flag that the task leaves alone. -/
theorem flag (h : k.Takes rig rig') {g : Field 8}
    (disjoint : ∀ f ∈ k.footprint.flags, g.Disjoint f) :
    g.get rig'.board.oscillators = g.get rig.board.oscillators := by
  rw [h.oscillators]
  exact k.oscillators_keeps _ g disjoint

end Takes

end Task

/-- An access to the PMU has gone without an answer on the way from one rig to the other. -/
def Rig.Misses (rig rig' : Rig) : Prop :=
  rig.board.Misses rig.controller.wiring.access rig'.board

/-- The rig is a later one under the same controller, with the same fate in store for its accesses
to the PMU. -/
structure Rig.Precedes (rig rig' : Rig) : Prop where
  wiring : rig'.controller.wiring = rig.controller.wiring
  busy : rig'.board.busy = rig.board.busy
  fails : rig'.board.fails = rig.board.fails
  accesses : rig.board.accesses ≤ rig'.board.accesses

namespace Rig.Precedes
variable {rig rig' rig'' : Rig}

theorem trans (h : rig.Precedes rig') (h' : rig'.Precedes rig'') : rig.Precedes rig'' where
  wiring := h'.wiring.trans h.wiring
  busy := h'.busy.trans h.busy
  fails := h'.fails.trans h.fails
  accesses := Nat.le_trans h.accesses h'.accesses

/-- A missed access stays missed, seen from earlier. -/
theorem misses (h : rig.Precedes rig') (missed : rig'.Misses rig'') : rig.Misses rig'' := by
  obtain ⟨n, above, upTo, unanswered⟩ := missed
  refine ⟨n, Nat.lt_of_le_of_lt h.accesses above, upTo, ?_⟩
  rwa [Board.Answers, h.fails, h.busy, h.wiring] at unanswered

/-- And seen until later. -/
theorem misses_later (h : rig'.Precedes rig'') (missed : rig.Misses rig') : rig.Misses rig'' := by
  obtain ⟨n, above, upTo, unanswered⟩ := missed
  exact ⟨n, above, Nat.le_trans upTo h.accesses, unanswered⟩

end Rig.Precedes

theorem Task.Takes.precedes {k : Task} {rig rig' : Rig} (h : k.Takes rig rig') :
    rig.Precedes rig' where
  wiring := h.wiring
  busy := h.busy
  fails := h.fails
  accesses := h.accesses

namespace Controller
variable {rig : Rig} {k : Task} {past : List (Moment Rig)}

/-- The failure of a missed access. -/
def Lost (start : Rig) (e : Failure) : Assertion Rig := fun _ rig =>
  e = .error (.timeout Register.oscillatorControl) ∧ start.Misses rig

/-- A missed access is lost, seen from earlier. -/
theorem Lost.earlier {start rig' : Rig} (h : start.Precedes rig) (e : Failure)
    (past : List (Moment Rig)) (missed : Lost rig e past rig') : Lost start e past rig' :=
  ⟨missed.1, h.misses missed.2⟩

theorem perform_takes (ready : k.Ready rig) :
    (perform k).Leads (fun _ _ => k.Takes rig) (Lost rig) past rig := by
  have confined := k.work_confined ready rig.controller.wiring rig.board
  rcases hw : (k.work rig.controller.wiring).run rig.board with ⟨e | x, b, trace⟩
  · rw [hw] at confined
    obtain ⟨rfl, misses⟩ := confined.failure e rfl
    exact (Action.leads_of_run_error (run_perform_error hw)).2 ⟨rfl, misses⟩
  · rw [hw] at confined
    have kept := confined.after
    obtain ⟨image, pmu⟩ := Task.work_effect ready hw
    refine (Action.leads_of_run (run_perform_ok hw)).2 ?_
    constructor
    · exact ready
    · exact image
    · exact pmu
    · rfl
    · show (if rig.controller.attached then some (rig.enter k b).controller.clocks
        else b.published) = _
      rw [kept.published]
      rfl
    · exact kept.busy
    · exact kept.fails
    · exact kept.booted
    · exact kept.accesses

end Controller
end ClockControl
