import ClockControl.Proofs.Halting
import ClockControl.Proofs.Stores
import ClockControl.Proofs.Succession

/-! Booting. The first boot answers what the application of its configuration answers. Its failure
is the last thing that it stores, in a form from which it can be told, and what it has published are
the clocks after the last step that came to its end. No later boot does anything. Main statement:
`boot_records_its_failure`. -/
namespace ClockControl

/-- What can be told of an error from its compact form. -/
inductive Fault where
  | refused
  | timeout (reg : Byte)
  | noDomain (index : UInt8)
deriving DecidableEq, Repr

/-- The fault that a compact form stands for. -/
def Fault.ofCode? (code : BitVec 16) : Option Fault :=
  let operand := code.setWidth 8
  match (code.extractLsb' 8 8).toNat with
  | 1 => some .refused
  | 2 => some (.timeout operand)
  | 3 => some (.noDomain ⟨operand⟩)
  | _ => none

namespace ClockError

def fault : ClockError → Fault
  | .refused _ => .refused
  | .timeout reg => .timeout reg
  | .noDomain index => .noDomain index

/-- The diagnostic word of the error. -/
def word (e : ClockError) : Word := 0xC10C0000#32 ||| e.code.setWidth 32

/-- The marker leaves the low half to the error. -/
theorem setWidth_word (e : ClockError) : e.word.setWidth 16 = e.code := by
  simp [word, BitVec.setWidth_or]

/-- A kind in the high byte and an operand in the low one keep out of each other's way. -/
theorem packed (kind : BitVec 16) (free : kind.setWidth 8 = 0#8) (operand : Byte) :
    (kind ||| operand.setWidth 16).extractLsb' 8 8 = kind.extractLsb' 8 8 ∧
      (kind ||| operand.setWidth 16).setWidth 8 = operand := by
  have high : (operand.setWidth 16).extractLsb' 8 8 = 0#8 := by
    ext i hi
    simp
  constructor
  · rw [BitVec.extractLsb'_or, high, BitVec.or_zero]
  · rw [BitVec.setWidth_or, free, BitVec.zero_or]
    exact BitVec.setWidth_setWidth_of_le operand (by decide)

/-- The kind of an error can be told from its compact form, and its register or index. -/
theorem ofCode?_code (e : ClockError) : Fault.ofCode? e.code = some e.fault := by
  cases e with
  | refused reason => simp [code, Fault.ofCode?, fault]
  | timeout reg =>
    obtain ⟨kind, operand⟩ := packed 0x0200#16 rfl reg
    rw [code, Fault.ofCode?, kind, operand]
    rfl
  | noDomain index =>
    obtain ⟨kind, operand⟩ := packed 0x0300#16 rfl index.toBitVec
    rw [code, Fault.ofCode?, kind, operand]
    rfl

end ClockError

/-- The states after each of the actions, up to the first one that fails. -/
def Action.completed : List (Action σ Unit) → σ → List σ
  | [], _ => []
  | a :: as, s =>
    match a.run s with
    | ⟨.ok (), s', _⟩ => s' :: completed as s'
    | ⟨.error _, _, _⟩ => []

namespace Controller

/-- The steps of an application once its configuration has passed the check. -/
def steps (c : Configuration) (rig : Rig) : List (Action Rig Unit) :=
  (if rig.source = .spll then [park] else []) ++
    [setOscillator c.oscillator, setSpll c.spll c.lockWait, setAupll c.aupll c.lockWait,
      setTree c.tree]

variable {rig : Rig} {c : Configuration}

theorem run_apply_of_ok (passed : c.check rig.controller.wiring.sequencer = .ok ()) :
    (apply c).run rig = (do
      (steps c rig).forM id
      .note (.configured (← Action.state).controller.clocks) : Action Rig Unit).run
        { rig with controller.crystal := c.crystal } := by
  have checked : (check c).run rig = ⟨.ok (), rig, []⟩ := by
    rw [run_check, passed]
  rw [apply, Action.run_bind_quiet checked, Action.run_bind_quiet (Action.run_update _ rig), steps]
  cases source : rig.source with
  | coreHs =>
    have moved : park.run { rig with controller.crystal := c.crystal } = _ :=
      run_park_of_coreHs source
    rw [Action.run_bind_quiet moved]
    simp [List.forM_cons, bind_assoc]
  | spll => simp [List.forM_cons, bind_assoc]

/-- The action publishes the clocks when it comes to its end, and nothing when it fails. -/
abbrev Announces (a : Action Rig Unit) (rig : Rig) : Prop :=
  a.Leads (fun _ _ rig' => rig'.controller.attached = true ∧ rig'.Published)
    (fun _ _ rig' => rig'.board.published = rig.board.published) [] rig

theorem announces_of_answers {a : Action Rig Unit} {request : Attempt Task}
    (attached : rig.controller.attached = true) (answers : Answers (a.run rig) rig request) :
    Announces a rig := by
  cases request with
  | ok k =>
    refine (leads_task answers).mono ?_ fun _ _ _ ⟨_, cuts⟩ => cuts.published
    intro _ _ rig' takes
    refine ⟨takes.attached.trans attached, ?_⟩
    rw [Rig.Published, takes.published, if_pos attached]
  | error e =>
    obtain ⟨ns, -, run⟩ := answers
    exact (Action.leads_of_run_error run).2 rfl

/-- What is published in the end are the clocks after the last action that came to its end. -/
def PublishesCompleted (as : List (Action Rig Unit)) (rig : Rig) : Prop :=
  ((as.forM id).run rig).after.board.published =
    ((Action.completed as rig).getLast?.map (·.controller.clocks)).or rig.board.published

namespace PublishesCompleted

theorem nil (rig : Rig) : PublishesCompleted [] rig := rfl

theorem cons {a : Action Rig Unit} {as : List (Action Rig Unit)} (first : Announces a rig)
    (rest : ∀ rig' : Rig, rig'.controller.attached = true → PublishesCompleted as rig') :
    PublishesCompleted (a :: as) rig := by
  unfold PublishesCompleted
  rw [List.forM_eq_forM, List.forM_cons, Action.completed]
  rcases run : a.run rig with ⟨e | u, rig', trace⟩
  · have unchanged := (Action.leads_of_run_error run).1 first
    rw [id, Action.run_bind_error run]
    exact unchanged
  · obtain ⟨attached, published⟩ := (Action.leads_of_run run).1 first
    have later := rest rig' attached
    rw [id, Action.run_bind_ok run, List.getLast?_cons]
    rw [PublishesCompleted, List.forM_eq_forM, published] at later
    rw [later]
    -- What the first action has published stands unless a later one comes to its end.
    cases (Action.completed as rig').getLast? <;> rfl

end PublishesCompleted

theorem steps_publish (c : Configuration) (attached : rig.controller.attached = true) :
    PublishesCompleted (steps c rig) rig := by
  have others (rig : Rig) (attached : rig.controller.attached = true) :
      PublishesCompleted [setOscillator c.oscillator, setSpll c.spll c.lockWait,
        setAupll c.aupll c.lockWait, setTree c.tree] rig := by
    refine .cons (announces_of_answers attached (setOscillator_answers _ rig)) ?_
    intro rig attached
    refine .cons (announces_of_answers attached (setSpll_answers _ _ rig)) ?_
    intro rig attached
    refine .cons (announces_of_answers attached (setAupll_answers _ _ rig)) ?_
    intro rig attached
    refine .cons (announces_of_answers attached (setTree_answers _ rig)) ?_
    exact fun rig _ => .nil rig
  -- Parking is a step only where there is something to park, or it would publish nothing.
  unfold steps
  cases source : rig.source with
  | coreHs => exact others rig attached
  | spll =>
    have answers : Answers (park.run rig) rig (.ok .park) := ⟨source, run_park_of_spll source⟩
    exact .cons (announces_of_answers attached answers) others

theorem published_apply (c : Configuration) (attached : rig.controller.attached = true)
    (passed : c.check rig.controller.wiring.sequencer = .ok ()) :
    ((apply c).run rig).after.board.published =
      ((Action.completed (steps c rig) { rig with controller.crystal := c.crystal }).getLast?.map
        (·.controller.clocks)).or rig.board.published := by
  have silent : (do
      .note (.configured (← Action.state).controller.clocks) : Action Rig Unit).Preserves
        (·.board.published) :=
    .bind .state fun _ => .emit _
  rw [run_apply_of_ok passed]
  refine (Action.Preserves.after_bind ((steps c rig).forM id) (fun _ => silent) _).trans ?_
  have begun : ({ rig with controller.crystal := c.crystal } : Rig).controller.attached = true :=
    attached
  exact steps_publish c begun

theorem run_applyOrRecord_of_ok (ok : ((apply c).run rig).outcome = .ok ()) :
    (applyOrRecord c).run rig = (apply c).run rig := by
  rw [applyOrRecord, Action.run_bind_ok (Action.run_attempt _ rig), ok]
  rcases run : (apply c).run rig with ⟨outcome, rig', trace⟩
  rw [run] at ok
  subst ok
  exact congrArg (Run.mk _ _) (List.append_nil trace)

theorem run_applyOrRecord_of_error {e : ClockError}
    (failed : ((apply c).run rig).outcome = .error (.error e)) :
    (applyOrRecord c).run rig =
      let r := (apply c).run rig
      ⟨.error (.error e), r.after.onto (r.after.board.latch .diagnostic e.word),
        r.trace ++ [⟨r.after, .note (.bootFailed e)⟩, ⟨r.after, .store .diagnostic e.word⟩]⟩ := by
  rw [applyOrRecord, Action.run_bind_ok (Action.run_attempt _ rig), failed]
  rfl

end Controller

namespace Rig
variable {start rig : Rig} {past : List (Moment Rig)}

theorem Stage.booted {r : Run Rig Unit} (step : rig.Stage r) :
    r.after.board.booted = rig.board.booted := by
  cases step with
  | note n => rfl
  | crystal f => rfl
  | fault e =>
    rw [Controller.run_recordFault]
    rfl
  | task k ready =>
    refine (perform_throughout (P := fun rig' => rig'.board.booted = _) ready ?_ ?_ ?_).1
    · exact fun b kept => kept.booted
    · exact fun b kept => kept.booted
    · exact fun rig' same => same

theorem Path.booted (path : Path start past rig) : rig.board.booted = start.board.booted := by
  induction path with
  | refl => rfl
  | stage _ step ih => exact step.booted.trans ih

end Rig

/-- One boot after another, whatever becomes of each. -/
def bootEach (cs : List Configuration) : Action Board (List (Attempt Unit)) :=
  cs.mapM fun c => (boot c).attempt

section Boot
variable {b : Board}

theorem booted_boot (b : Board) (c : Configuration) : ((boot c).run b).after.booted = true := by
  cases booted : b.booted with
  | true => rw [run_boot_again booted, booted]
  | false =>
    rw [run_boot booted]
    exact (Rig.Path.refl.applyOrRecord c).run.booted

/-- No boot does anything once the program has been booted. -/
theorem run_bootEach_again (again : b.booted = true) (cs : List Configuration) :
    (bootEach cs).run b = ⟨.ok (cs.map fun _ => .halt .bootedTwice), b, []⟩ := by
  unfold bootEach
  induction cs with
  | nil => rfl
  | cons c cs ih =>
    have first : (boot c).attempt.run b = ⟨.ok (.halt .bootedTwice), b, []⟩ := by
      rw [Action.run_attempt, run_boot_again again]
      rfl
    rw [List.mapM_cons, Action.run_bind_quiet first, Action.run_bind_quiet ih]
    rfl

theorem run_bootEach_cons (b : Board) (c : Configuration) (later : List Configuration) :
    (bootEach (c :: later)).run b =
      let r := (boot c).run b
      ⟨.ok (r.outcome :: later.map fun _ => .halt .bootedTwice), r.after, r.trace⟩ := by
  have rest := run_bootEach_again (booted_boot b c) later
  unfold bootEach at rest ⊢
  rw [List.mapM_cons, Action.run_bind_ok (Action.run_attempt _ b), Action.run_bind_quiet rest]
  simp

end Boot

/-- What the first boot comes to, by the application of its configuration. -/
structure FirstBoot (b : Board) (c : Configuration) (r : Run Board Unit) : Prop where
  outcome : r.outcome = ((Controller.apply c).run (b.bootRig c)).outcome
  unrecorded : r.outcome = .ok () → ∀ w ∈ r.stores, w.1 ≠ .diagnostic
  recorded : ∀ f, r.outcome = .error f → ∃ e earlier, f = .error e ∧
    r.stores = earlier ++ [(.diagnostic, e.word)] ∧ (∀ w ∈ earlier, w.1 ≠ .diagnostic) ∧
    r.after.image.load .diagnostic = e.word ∧
    Fault.ofCode? (e.word.setWidth 16) = some e.fault
  /-- Nothing else is done with a configuration that does not pass the check. -/
  refused : ∀ f, c.check (b.bootRig c).controller.wiring.sequencer = .error f →
    ∃ e, f = .error e ∧ r.outcome = .error f ∧ r.stores = [(.diagnostic, e.word)] ∧
      r.after.published = b.published
  /-- What is published are the clocks after the last step that came to its end. -/
  published : c.check (b.bootRig c).controller.wiring.sequencer = .ok () → r.after.published =
    ((Action.completed (Controller.steps c (b.bootRig c)) (b.bootRig c)).getLast?.map
      (·.controller.clocks)).or b.published

section FirstBoot
variable {b : Board} {c : Configuration}

theorem run_boot_of_ok (first : b.booted = false)
    (ok : ((Controller.apply c).run (b.bootRig c)).outcome = .ok ()) :
    (boot c).run b = ((Controller.apply c).run (b.bootRig c)).mapState (·.board) := by
  rw [run_boot first, Controller.run_applyOrRecord_of_ok ok]

/-- The boot that fails is the application, and then a note and the record. -/
theorem boot_of_error (first : b.booted = false) {e : ClockError}
    (failed : ((Controller.apply c).run (b.bootRig c)).outcome = .error (.error e)) :
    let applied := (Controller.apply c).run (b.bootRig c)
    let r := (boot c).run b
    r.outcome = .error (.error e) ∧ r.after = applied.after.board.latch .diagnostic e.word ∧
      r.stores = applied.stores ++ [(.diagnostic, e.word)] := by
  rw [run_boot first, Controller.run_applyOrRecord_of_error failed]
  refine ⟨rfl, rfl, ?_⟩
  rw [Run.stores_mapState]
  simp only [Run.stores, Run.events, List.map_append, List.filterMap_append]
  rfl

theorem boot_first (first : b.booted = false) (c : Configuration) :
    FirstBoot b c ((boot c).run b) := by
  have omits := Controller.apply_omits_diagnostic c (b.bootRig c)
  have attached : (b.bootRig c).controller.attached = true := rfl
  have published := Controller.published_apply c attached
  cases outcome : ((Controller.apply c).run (b.bootRig c)).outcome with
  | ok =>
    rw [run_boot_of_ok first outcome]
    constructor
    · rfl
    · intro _
      rwa [Run.stores_mapState]
    · intro f failed
      rw [Run.mapState, outcome] at failed
      cases failed
    · intro f refused
      rw [Controller.run_apply_of_error refused] at outcome
      cases outcome
    · exact published
  | error f =>
    cases f with
    | halt h => exact absurd ⟨h, outcome⟩ (Controller.apply_not_halts c (b.bootRig c))
    | error e =>
      obtain ⟨answer, after, stores⟩ := boot_of_error first outcome
      have ordinary : Register.diagnostic ≠ .bridgeControl := by decide
      rw [Board.latch_of_ne ordinary] at after
      constructor
      · rw [answer, outcome]
      · intro ok
        rw [answer] at ok
        cases ok
      · intro f failed
        rw [answer] at failed
        cases failed
        refine ⟨e, _, rfl, stores, omits, ?_, ?_⟩
        · rw [after, Image.load_store_self]
        · rw [e.setWidth_word, e.ofCode?_code]
      · intro f refused
        have run := Controller.run_apply_of_error refused
        rw [run] at outcome
        cases outcome
        rw [run] at after stores
        refine ⟨e, rfl, answer, stores, ?_⟩
        rw [after]
        rfl
      · intro passed
        rw [after]
        exact published passed

end FirstBoot

/-- On any board that has not been booted, whatever its image, its PMU, what has been published and
the accesses that fail, the first boot answers what the application answers that it makes with an
attached controller. Only if that fails does it store to the diagnostic register, once and last, so
that the fault can be told from the word; a refusal by the check does nothing else, and otherwise
the clocks after the last step that came to its end are published. Every later boot halts at once.
No operation of a controller but the record of an error stores to that register. -/
theorem boot_records_its_failure {b : Board} (first : b.booted = false) (c : Configuration)
    (later : List Configuration) :
    let r := (boot c).run b
    FirstBoot b c r ∧
    (bootEach (c :: later)).run b =
      ⟨.ok (r.outcome :: later.map fun _ => .halt .bootedTwice), r.after, r.trace⟩ ∧
    (∀ op : Operation, (∀ e, op ≠ .recordFault e) → op.action.Omits .diagnostic) ∧
    ∀ d : Domain, (Controller.domainFrequency d).Omits .diagnostic := by
  refine ⟨boot_first first c, run_bootEach_cons b c later, ?_, ?_⟩
  · intro op other
    exact op.omits_diagnostic other
  · intro d
    exact .state fun _ => .of_quiet fun _ _ hm => nomatch hm

/-- The program boots with the MCU on the system PLL, into a configuration whose system PLL comes
to 0 Hz: the MCU has been moved to the RC oscillator before its tree is refused, and the diagnostic
register tells of a refusal. A second boot halts. -/
theorem refusal_recorded :
    let b := { Board.blank with
      image := Board.blank.image.store .treeControl (TreeControl.select .spll 0) }
    let c : Configuration := { Configuration.standard with
      crystal := ⟨0⟩, oscillator := .rc, tree := { Tree.undivided with source := .spll } }
    let r := (boot c).run b
    b.booted = false ∧ r.outcome = .error (.error (.refused .systemPllStopped)) ∧
      r.stores.getLast? = some (.diagnostic, 0xC10C0100#32) ∧
      r.after.image.load .diagnostic = 0xC10C0100#32 ∧
      r.after.published.map (·.core) = some ⟨24000000⟩ ∧
      (bootEach [c, .standard]).run b =
        ⟨.ok [r.outcome, .halt .bootedTwice], r.after, r.trace⟩ := by
  intro b c r
  have first : b.booted = false := rfl
  have outcome : r.outcome = .error (.error (.refused .systemPllStopped)) := by decide +kernel
  obtain ⟨boots, again, -, -⟩ := boot_records_its_failure first c [.standard]
  obtain ⟨e, earlier, same, stores, -, latched, -⟩ := boots.recorded _ outcome
  cases same
  have last : r.stores.getLast? = some (.diagnostic, 0xC10C0100#32) := by
    rw [stores, List.getLast?_concat]
    rfl
  have passed : c.check (b.bootRig c).controller.wiring.sequencer = .ok () := by decide
  have clocks : r.after.published.map (·.core) = some ⟨24000000⟩ := by
    rw [boots.published passed]
    decide +kernel
  exact ⟨first, outcome, last, latched, clocks, again⟩

end ClockControl
