import ClockControl.Proofs.Pmu.Mirror
import ClockControl.Proofs.Readback
import ClockControl.Session
import Mathlib.Data.List.Forall2

/-! The bridge does what direct access does. A script goes the same way through the bridge and at
once: with the same accesses failing while the bridge is busy for fewer than 1000 polls, with all
of them failing otherwise. Main statement: `bridge_refines_direct`. -/
namespace ClockControl

namespace Domain

/-- What selects and divides a domain's clock is outside the bridge. -/
theorem feed_outside {d : Domain} {mux : Mux} {code divider : Slot}
    (h : d.feed = .muxed mux code divider) :
    ∀ r ∈ [code.register, divider.register], r ≠ .bridgeControl ∧ r ≠ .bridgeData := by
  cases d <;> cases h <;> decide

theorem frequency_agree (d : Domain) {m n : Image} (h : m.Agree n) (c : Clocks) :
    d.frequency n c = d.frequency m c := by
  have slot (s : Slot) (outside : s.register ≠ .bridgeControl ∧ s.register ≠ .bridgeData) :
      s.get n = s.get m := by
    rw [Slot.get, h.load outside.1 outside.2, Slot.get]
  refine d.frequency_congr c (fun p => h.load_pll p .output) fun mux code divider feed => ?_
  have outside := feed_outside feed
  exact ⟨slot code (outside _ (by simp)), slot divider (outside _ (by simp))⟩

end Domain

/-- The same controller with another way to the PMU. -/
def Controller.through (via : Access) (c : Controller) : Controller :=
  { c with wiring := c.wiring.through via }

/-- Mirrored boards under controllers that differ in the way to the PMU. -/
inductive Rig.Mirrors (held : Option RegisterFile) : Rig → Rig → Prop where
  | intro {b d : Board} (c : Controller) (board : b.Mirrors held d) :
      Mirrors held ⟨b, c.through .bridge⟩ ⟨d, c.through .direct⟩

namespace Rig
variable {held : Option RegisterFile} {rig rig' : Rig}

theorem Mirrors.source (h : Mirrors held rig rig') : rig'.source = rig.source := by
  obtain ⟨c, board⟩ := h
  rw [Rig.source, Rig.source, board.image.load_tree]

/-- An action on the board, seen from the rig. -/
theorem parallel_onBoard {a a' : Action Board α} (h : a.Parallel (Board.Mirrors held) a') :
    (liftM a : Action Rig α).Parallel (Mirrors held) (liftM a') := by
  refine .zoom h ?_ ?_
  · rintro _ _ ⟨-, board⟩
    exact board
  · rintro _ _ ⟨c, -⟩ _ _ after
    exact ⟨c, after⟩

end Rig

namespace Controller
variable {held : Option RegisterFile}

theorem parallel_publish : publish.Parallel (Rig.Mirrors held) publish := by
  rintro _ _ ⟨c, board⟩
  have quiet (rig : Rig) : (rig.announcement.map Moment.event).filter Event.Plain = [] :=
    plain_eq_nil fun _ hm => Event.not_plain_of_note (Rig.event_of_announcement hm)
  rw [run_publish, run_publish]
  refine ⟨rfl, ⟨c, ?_⟩, (quiet _).trans (quiet _).symm⟩
  have published : (if c.attached then some c.clocks else _) = if c.attached then _ else _ :=
    congrArg (fun p => if c.attached then some c.clocks else p) board.published
  exact ⟨board.image, board.pmu, board.accesses, published, board.busy, board.fails, board.kept⟩

theorem parallel_perform (k : Task) : (perform k).Parallel (Rig.Mirrors held) (perform k) := by
  refine .state ?_
  rintro _ _ ⟨c, board⟩
  refine (Rig.parallel_onBoard (k.work_parallel c.wiring) _ _ ⟨c, board⟩).bind fun _ =>
    .bind (.update ?_) fun _ => .bind parallel_publish fun _ => .note _ _
  rintro _ _ ⟨c', board⟩
  rename_i b d
  have control := board.image.load_tree
  simp only [Rig.setClocks, control]
  exact ⟨{ c' with clocks := k.record c.crystal (b.image.load .treeControl) c'.clocks }, board⟩

/-- An operation that answers the same request on both rigs. -/
theorem parallel_of_answers {a : Action Rig Unit} {request : Rig → Attempt Task}
    (answers : ∀ rig, Answers (a.run rig) rig (request rig))
    (same : ∀ rig rig', Rig.Mirrors held rig rig' → request rig' = request rig) :
    a.Parallel (Rig.Mirrors held) a := by
  intro rig rig' h
  have behind := answers rig
  have direct := answers rig'
  rw [same rig rig' h] at direct
  cases hr : request rig with
  | ok k =>
    rw [hr] at behind direct
    rw [behind.2, direct.2]
    exact parallel_perform k rig rig' h
  | error e =>
    rw [hr] at behind direct
    obtain ⟨ns, -, run⟩ := behind
    obtain ⟨ns', -, run'⟩ := direct
    have quiet (rig : Rig) (ns : List Note) :
        ((ns.map fun n => (⟨rig, .note n⟩ : Moment Rig)).map Moment.event).filter
          Event.Plain = [] := by
      apply plain_eq_nil
      intro m hm
      obtain ⟨n, -, rfl⟩ := List.mem_map.1 hm
      rfl
    rw [run, run']
    exact ⟨rfl, h, (quiet rig' ns').trans (quiet rig ns).symm⟩

theorem parallel_setOscillator (o : Oscillator) :
    (setOscillator o).Parallel (Rig.Mirrors held) (setOscillator o) :=
  parallel_of_answers (setOscillator_answers o) fun _ _ _ => rfl

theorem parallel_setSpll (ratio : Option SystemRatio) (lockWait : UInt32) :
    (setSpll ratio lockWait).Parallel (Rig.Mirrors held) (setSpll ratio lockWait) := by
  refine parallel_of_answers (setSpll_answers ratio lockWait) fun rig rig' h => ?_
  have source := h.source
  obtain ⟨c, board⟩ := h
  unfold Task.ofSystem
  rw [source]
  rfl

theorem parallel_setAupll (ratio : Option AudioRatio) (lockWait : UInt32) :
    (setAupll ratio lockWait).Parallel (Rig.Mirrors held) (setAupll ratio lockWait) := by
  refine parallel_of_answers (setAupll_answers ratio lockWait) ?_
  rintro _ _ ⟨c, board⟩
  rfl

theorem parallel_setTree (t : Tree) :
    (setTree t).Parallel (Rig.Mirrors held) (setTree t) := by
  refine parallel_of_answers (setTree_answers t) ?_
  rintro _ _ ⟨c, board⟩
  rfl

theorem parallel_check (c : Configuration) :
    (check c).Parallel (Rig.Mirrors held) (check c) := by
  refine .state ?_
  rintro _ _ ⟨controller, board⟩
  exact Action.Parallel.lift _ _ _ ⟨controller, board⟩

theorem parallel_park : park.Parallel (Rig.Mirrors held) park := by
  intro rig rig' h
  have source := h.source
  cases free : rig.source with
  | coreHs =>
    rw [run_park_of_coreHs free, run_park_of_coreHs (source.trans free)]
    exact ⟨rfl, h, rfl⟩
  | spll =>
    rw [run_park_of_spll free, run_park_of_spll (source.trans free)]
    exact parallel_perform .park rig rig' h

theorem parallel_apply (c : Configuration) :
    (apply c).Parallel (Rig.Mirrors held) (apply c) := by
  have crystal (rig rig' : Rig) (h : Rig.Mirrors held rig rig') :
      Rig.Mirrors held { rig with controller.crystal := c.crystal }
        { rig' with controller.crystal := c.crystal } := by
    obtain ⟨controller, board⟩ := h
    exact ⟨{ controller with crystal := c.crystal }, board⟩
  refine .bind (parallel_check c) fun _ => .bind (.update crystal) fun _ => ?_
  refine .bind parallel_park fun _ => .bind (parallel_setOscillator _) fun _ => ?_
  refine .bind (parallel_setSpll _ _) fun _ => .bind (parallel_setAupll _ _) fun _ => ?_
  exact .bind (parallel_setTree _) fun _ => .state fun _ _ h => Action.Parallel.note _ _ _ _ h

theorem parallel_domainFrequency (d : Domain) :
    (domainFrequency d).Parallel (Rig.Mirrors held) (domainFrequency d) := by
  refine .state ?_
  rintro _ _ ⟨c, board⟩
  rw [d.frequency_agree board.image]
  exact Action.Parallel.lift _ _ _ ⟨c, board⟩

end Controller

theorem Operation.parallel {held : Option RegisterFile} (op : Operation) :
    op.action.Parallel (Rig.Mirrors held) op.action := by
  cases op with
  | setOscillator o => exact Controller.parallel_setOscillator o
  | setSpll ratio lockWait => exact Controller.parallel_setSpll ratio lockWait
  | setAupll ratio lockWait => exact Controller.parallel_setAupll ratio lockWait
  | setTree t => exact Controller.parallel_setTree t
  | check c => exact Controller.parallel_check c
  | apply c => exact Controller.parallel_apply c
  | recordFault e => exact Rig.parallel_onBoard (.store .diagnostic nofun _)

namespace Session

/-- A step of a script, which may reach the PMU either way. -/
inductive Step where
  | engage (w : Wiring) (crystal : Hertz) (attached : Bool)
  | release
  | operate (op : Operation)
  | domain (index : UInt8)
  | domains
  /-- From now on the bridge is busy for so many polls. -/
  | busy (polls : Nat)
  | read (reg : Byte)
  | write (reg value : Byte)
  | modify (reg : Byte) (f : Byte → Byte)
  | oscillators
  | setOscillators (f : Byte → Byte)

namespace Step

/-- What the step does, with the PMU reached the given way. -/
def action (via : Access) : Step → Action Session Answer
  | .engage w crystal attached => exec (.engage (w.through via) crystal attached)
  | .release => exec .release
  | .operate op => exec (.operate op)
  | .domain index => exec (.domain index)
  | .domains => exec .domains
  | .busy polls => exec (.setBusy polls)
  | .read reg => exec (.pmuRead via reg)
  | .write reg value => exec (.pmuWrite via reg value)
  | .modify reg f => do
    Pmu.change via reg f
    return .done
  | .oscillators => exec (.oscillators via)
  | .setOscillators f => do
    Pmu.change via Register.oscillatorControl f
    return .done

/-- The register of the PMU that the step addresses itself. -/
def addressed : Step → Option Byte
  | .read reg | .write reg _ | .modify reg _ => some reg
  | .oscillators | .setOscillators _ => some Register.oscillatorControl
  | _ => none

end Step

/-- The runs of the steps one after another, whatever becomes of each. -/
def perform (via : Access) : Session → List Step → List (Run Session Answer)
  | _, [] => []
  | s, step :: script =>
    let r := (step.action via).run s
    r :: perform via r.after script

/-- The same session with another way to the PMU. -/
def through (via : Access) (s : Session) : Session :=
  { s with controller := s.controller.map (·.through via) }

/-- The session on a board where every access to the PMU fails. -/
def failing (s : Session) : Session := { s with board.fails := fun _ => true }

/-- The run through the bridge and the one at once end with the same answer and show the same
stores and waits. What they leave differs in the two words of the bridge alone. -/
structure Refines (behind direct : Run Session Answer) : Prop where
  outcome : behind.outcome = direct.outcome
  events : behind.events.filter Event.Plain = direct.events.filter Event.Plain
  image : direct.after.board.image.Agree behind.after.board.image
  pmu : behind.after.board.pmu = direct.after.board.pmu
  published : behind.after.board.published = direct.after.board.published
  controller : behind.after.controller = direct.after.controller.map (·.through .bridge)

/-- The run of a step whose accesses are all lost: each call names the register it addressed. -/
structure Stalled (pmu : RegisterFile) (step : Step) (r : Run Session Answer) : Prop where
  pmu : r.after.board.pmu = pmu
  outcome : ∀ reg, step.addressed = some reg → r.outcome = .error (.error (.timeout reg))

/-- Mirrored boards under controllers, if any, that differ in the way to the PMU. -/
inductive Mirrors (held : Option RegisterFile) : Session → Session → Prop where
  | intro {b d : Board} (c : Option Controller) (board : b.Mirrors held d) :
      Mirrors held ⟨b, c.map (·.through .bridge)⟩ ⟨d, c.map (·.through .direct)⟩

section Parallel
variable {held : Option RegisterFile}

theorem parallel_onBoard {a a' : Action Board α} (h : a.Parallel (Board.Mirrors held) a') :
    (liftM a : Action Session α).Parallel (Mirrors held) (liftM a') := by
  refine .zoom h ?_ ?_
  · rintro _ _ ⟨-, board⟩
    exact board
  · rintro _ _ ⟨c, -⟩ _ _ after
    exact ⟨c, after⟩

theorem run_onController (a : Action Rig Answer) (b : Board) (c : Controller) :
    (onController a).run ⟨b, some c⟩ =
      (a.run ⟨b, c⟩).mapState fun rig => ⟨rig.board, some rig.controller⟩ := rfl

theorem parallel_onController {a : Action Rig Answer} (h : a.Parallel (Rig.Mirrors held) a) :
    (onController a).Parallel (Mirrors held) (onController a) := by
  rintro _ _ ⟨c, board⟩
  cases c with
  | none => exact ⟨rfl, ⟨none, board⟩, rfl⟩
  | some c =>
    simp only [Option.map_some, run_onController]
    refine (h _ _ ⟨c, board⟩).mapState ?_
    rintro _ _ ⟨c, board⟩
    exact ⟨some c, board⟩

theorem parallel_engage (w : Wiring) (crystal : Hertz) (attached : Bool) :
    (exec (.engage (w.through .bridge) crystal attached)).Parallel (Mirrors held)
      (exec (.engage (w.through .direct) crystal attached)) := by
  refine .state ?_
  rintro _ _ ⟨c, board⟩
  refine Action.Parallel.bind (.update ?_) (fun _ => .pure _) _ _ ⟨c, board⟩
  rintro _ _ ⟨-, board'⟩
  cases attached with
  | false => exact ⟨some (.fresh w crystal), board'⟩
  | true =>
    rw [board.published]
    exact ⟨some ((Controller.fresh w crystal).attach _), board'⟩

/-- A step goes the same way through the bridge and at once, unless it changes how busy the bridge
is across the limit of polls. -/
theorem parallel_action (step : Step)
    (busy : ∀ n, step = .busy n → (held.isSome = true ↔ Pmu.pollLimit ≤ n)) :
    (step.action .bridge).Parallel (Mirrors held) (step.action .direct) := by
  cases step with
  | engage w crystal attached => exact parallel_engage w crystal attached
  | release =>
    refine .bind (.update ?_) fun _ => .pure _
    rintro _ _ ⟨-, board⟩
    exact ⟨none, board⟩
  | operate op => exact parallel_onController (op.parallel.bind fun _ => .pure _)
  | domain index =>
    exact parallel_onController ((Action.Parallel.lift _).bind fun d =>
      (Controller.parallel_domainFrequency d).bind fun _ => .pure _)
  | domains =>
    exact parallel_onController
      ((Action.Parallel.mapM Controller.parallel_domainFrequency _).bind fun _ => .pure _)
  | busy n =>
    refine .bind (.update ?_) fun _ => .pure _
    rintro _ _ ⟨c, board⟩
    exact ⟨c, board.image, board.pmu, board.accesses, board.published, busy n rfl, board.fails,
      board.kept⟩
  | read reg => exact (parallel_onBoard (.read reg)).bind fun _ => .pure _
  | write reg value => exact (parallel_onBoard (.write reg value)).bind fun _ => .pure _
  | modify reg f => exact (parallel_onBoard (.change reg f)).bind fun _ => .pure _
  | oscillators => exact (parallel_onBoard (.read _)).bind fun _ => .pure _
  | setOscillators f => exact (parallel_onBoard (.change _ f)).bind fun _ => .pure _

theorem Mirrors.refines {r r' : Run Session Answer} (h : r.Parallel (Mirrors held) r') :
    Refines r r' := by
  obtain ⟨outcome, after, events⟩ := h
  obtain ⟨_, b, trace⟩ := r
  obtain ⟨_, d, trace'⟩ := r'
  obtain ⟨c, board⟩ := after
  refine ⟨outcome.symm, events.symm, board.image.symm, board.pmu.symm, board.published.symm, ?_⟩
  cases c with
  | none => rfl
  | some c => rfl

/-- Every step keeps the sessions mirrored, and so the whole script goes the same way. -/
theorem perform_refines {s s' : Session} (script : List Step)
    (busy : ∀ n, .busy n ∈ script → (held.isSome = true ↔ Pmu.pollLimit ≤ n))
    (h : Mirrors held s s') :
    List.Forall₂ (Run.Parallel (Mirrors held)) (perform .bridge s script)
      (perform .direct s' script) := by
  induction script generalizing s s' with
  | nil => exact .nil
  | cons step script ih =>
    have run := parallel_action step (fun n hn => busy n (by simp [hn])) s s' h
    exact .cons run (ih (fun n hn => busy n (List.mem_cons_of_mem _ hn)) run.after)

end Parallel

section Stalled
variable {m : RegisterFile} {s s' : Session}

theorem Mirrors.kept (h : Mirrors (some m) s s') : s.board.pmu = m := by
  obtain ⟨c, board⟩ := h
  exact board.kept m rfl

/-- An access that begins behind a stalled bridge is lost. -/
theorem Mirrors.lost {c : Cycle} {value : α} {r : Run Board α} (h : Mirrors (some m) s s')
    (transfer : Pmu.Transfer .bridge c s.board value r) :
    r.outcome = .error (.error (.timeout c.reg)) := by
  obtain ⟨_, board⟩ := h
  exact (transfer.lost (board.unanswered _)).1

theorem Mirrors.read_lost (h : Mirrors (some m) s s') (reg : Byte) :
    ((Pmu.read .bridge reg).run s.board).outcome = .error (.error (.timeout reg)) :=
  h.lost (Pmu.read_transfer .bridge reg s.board)

theorem Mirrors.write_lost (h : Mirrors (some m) s s') (reg value : Byte) :
    ((Pmu.write .bridge reg value).run s.board).outcome = .error (.error (.timeout reg)) :=
  h.lost (Pmu.write_transfer .bridge reg value s.board)

/-- A byte is read before it is changed. -/
theorem Mirrors.change_lost (h : Mirrors (some m) s s') (reg : Byte) (f : Byte → Byte) :
    ((Pmu.change .bridge reg f).run s.board).outcome = .error (.error (.timeout reg)) :=
  Action.outcome_bind_error (h.read_lost reg)

theorem stalled_action (h : Mirrors (some m) s s') (step : Step)
    (busy : ∀ n, step = .busy n → Pmu.pollLimit ≤ n) :
    Stalled m step ((step.action .bridge).run s) := by
  have run := parallel_action step (fun n hn => iff_of_true rfl (busy n hn)) s s' h
  constructor
  · exact run.after.kept
  · intro reg addressed
    have lost {α : Type} {a : Action Board α} {f : α → Action Session Answer}
        (first : (a.run s.board).outcome = .error (.error (.timeout reg))) :
        ((liftM a >>= f : Action Session Answer).run s).outcome =
          .error (.error (.timeout reg)) :=
      Action.outcome_bind_error first
    cases step with
    | read reg =>
      cases addressed
      exact lost (h.read_lost reg)
    | write reg value =>
      cases addressed
      exact lost (h.write_lost reg value)
    | modify reg f =>
      cases addressed
      exact lost (h.change_lost reg f)
    | oscillators =>
      cases addressed
      exact lost (h.read_lost _)
    | setOscillators f =>
      cases addressed
      exact lost (h.change_lost _ f)
    | _ => cases addressed

theorem perform_stalled (h : Mirrors (some m) s s') (script : List Step)
    (busy : ∀ n, .busy n ∈ script → Pmu.pollLimit ≤ n) :
    List.Forall₂ (Stalled m) script (perform .bridge s script) := by
  induction script generalizing s s' with
  | nil => exact .nil
  | cons step script ih =>
    have here (n : Nat) (hn : step = .busy n) : Pmu.pollLimit ≤ n := busy n (by simp [hn])
    have run := parallel_action step (fun n hn => iff_of_true rfl (here n hn)) s s' h
    exact .cons (stalled_action h step here)
      (ih run.after fun n hn => busy n (List.mem_cons_of_mem _ hn))

end Stalled

/-- The session through the bridge mirrors the one at once, as long as the bridge is quick. -/
theorem mirrors_of_quick {s : Session} (quick : s.board.busy < Pmu.pollLimit) :
    Mirrors none (s.through .bridge) (s.through .direct) := by
  refine ⟨s.controller, .refl _, rfl, rfl, rfl, ?_, fun n => (Bool.or_false _).symm, nofun⟩
  exact iff_of_false Bool.false_ne_true (Nat.not_le.2 quick)

theorem mirrors_of_stalled {s : Session} (stalled : Pmu.pollLimit ≤ s.board.busy) :
    Mirrors (some s.board.pmu) (s.through .bridge) (s.failing.through .direct) := by
  refine ⟨s.controller, .refl _, rfl, rfl, rfl, iff_of_true rfl stalled,
    fun n => (Bool.or_true _).symm, ?_⟩
  intro m hm
  exact Option.some.inj hm

/-- From any session, whatever is asked and whichever accesses fail: a bridge that is busy for at
most 999 polls at each access does what direct access does. One that is busy for 1000 or more does
what direct access does if all accesses fail. Then each call to the PMU times out under the name of
the register that it addressed, and the PMU stays as it is. -/
theorem bridge_refines_direct (s : Session) (script : List Step) :
    ((s.board.busy ≤ 999 ∧ ∀ n, .busy n ∈ script → n ≤ 999) →
      List.Forall₂ Refines (perform .bridge (s.through .bridge) script)
        (perform .direct (s.through .direct) script)) ∧
    ((1000 ≤ s.board.busy ∧ ∀ n, .busy n ∈ script → 1000 ≤ n) →
      List.Forall₂ Refines (perform .bridge (s.through .bridge) script)
        (perform .direct (s.failing.through .direct) script) ∧
      List.Forall₂ (Stalled s.board.pmu) script
        (perform .bridge (s.through .bridge) script)) := by
  constructor
  · rintro ⟨now, later⟩
    have start := mirrors_of_quick (Nat.lt_succ_of_le now)
    have same := perform_refines script (fun n hn => ?_) start
    · exact same.imp fun _ _ => Mirrors.refines
    · exact iff_of_false Bool.false_ne_true (Nat.not_le.2 (Nat.lt_succ_of_le (later n hn)))
  · rintro ⟨now, later⟩
    have start := mirrors_of_stalled now
    have same := perform_refines script (fun n hn => iff_of_true rfl (later n hn)) start
    exact ⟨same.imp fun _ _ => Mirrors.refines, perform_stalled start script later⟩

/-- The system PLL is started and its gate closed again by hand, through a bridge that is busy for
as many polls as it may be at each access, and through one that is busy for one poll more. -/
theorem script_through_bridge :
    let script (polls : Nat) : List Step := [.engage ⟨.direct, .bridge, .timer⟩ boardCrystal true,
      .busy polls, .operate (.setSpll (some ⟨8, 0⟩) 10), .setOscillators fun _ => 0, .oscillators]
    let s (polls : Nat) : Session := ⟨{ Board.blank with busy := polls }, none⟩
    List.Forall₂ Refines (perform .bridge ((s 999).through .bridge) (script 999))
        (perform .direct ((s 999).through .direct) (script 999)) ∧
      (perform .direct ((s 999).through .direct) (script 999)).map
        (·.after.board.pmu.read Register.oscillatorControl) = [0, 0, 16, 0, 0] ∧
      List.Forall₂ Refines (perform .bridge ((s 1000).through .bridge) (script 1000))
        (perform .direct ((s 1000).failing.through .direct) (script 1000)) ∧
      List.Forall₂ (Stalled (s 1000).board.pmu) (script 1000)
        (perform .bridge ((s 1000).through .bridge) (script 1000)) := by
  intro script s
  have polls (n k : Nat) (h : .busy k ∈ script n) : k = n := by simpa [script] using h
  have quick := (bridge_refines_direct (s 999) (script 999)).1
  have stalled := (bridge_refines_direct (s 1000) (script 1000)).2
  refine ⟨quick ⟨Nat.le_refl _, fun n hn => Nat.le_of_eq (polls _ _ hn)⟩, by decide +kernel, ?_⟩
  exact stalled ⟨Nat.le_refl _, fun n hn => Nat.le_of_eq (polls _ _ hn).symm⟩

end Session
end ClockControl
