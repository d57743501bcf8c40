import ClockControl.Proofs.Publication
import ClockControl.Proofs.Settlement

/-! Trying again. An operation that misses an access leaves behind nothing that the next attempt
does not make good, and nothing that makes it take another course, so that it can be tried until it
goes through. Main statement: `retry_comes_to_the_same`. -/
namespace ClockControl

/-- What is in store for the accesses to the PMU. -/
structure Faults where
  busy : Nat
  fails : Nat → Bool

namespace Rig

/-- The rig with other faults in store. -/
def under (rig : Rig) (f : Faults) : Rig :=
  rig.onto { rig.board with busy := f.busy, fails := f.fails }

/-- Whatever an attempt has made of the rig, the tasks to be done make the same of it. -/
structure Resumes (ks : List Task) (start rig : Rig) : Prop where
  wiring : rig.controller.wiring = start.controller.wiring
  attached : rig.controller.attached = start.controller.attached
  fixed48 : rig.controller.clocks.fixed48 = start.controller.clocks.fixed48
  lowPower : rig.controller.clocks.lowPower = start.controller.clocks.lowPower
  published : start.controller.attached = false → rig.board.published = start.board.published
  board : Board.Converge ks start.board rig.board

namespace Resumes
variable {ks : List Task} {k : Task} {start rig rig' : Rig}

theorem refl (rig : Rig) : Resumes ks rig rig :=
  ⟨rfl, rfl, rfl, rfl, fun _ => rfl, .of_same (.refl _) rfl⟩

theorem trans (h : Resumes ks start rig) (h' : Resumes ks rig rig') : Resumes ks start rig' where
  wiring := h'.wiring.trans h.wiring
  attached := h'.attached.trans h.attached
  fixed48 := h'.fixed48.trans h.fixed48
  lowPower := h'.lowPower.trans h.lowPower
  published detached :=
    (h'.published (h.attached.trans detached)).trans (h.published detached)
  board := h.board.trans h'.board

theorem under (h : Resumes ks start rig) (f : Faults) : Resumes ks start (rig.under f) :=
  h.trans ⟨rfl, rfl, rfl, rfl, fun _ => rfl, .of_same (.refl _) rfl⟩

theorem of_takes (takes : k.Takes rig rig') (board : Board.Converge ks rig.board rig'.board) :
    Resumes ks rig rig' := by
  obtain ⟨fixed48, lowPower⟩ := k.record_fixed rig.controller.crystal
    (rig'.board.image.load .treeControl) rig.controller.clocks
  constructor
  · exact takes.wiring
  · exact takes.attached
  · rw [takes.clocks, fixed48]
  · rw [takes.clocks, lowPower]
  · intro detached
    rw [takes.published, detached, if_neg nofun]
  · exact board

theorem of_cuts (cuts : k.Cuts rig rig') (board : Board.Converge ks rig.board rig'.board) :
    Resumes ks rig rig' := by
  constructor
  · rw [cuts.controller]
  · rw [cuts.controller]
  · rw [cuts.controller]
  · rw [cuts.controller]
  · exact fun _ => cuts.published
  · exact board

end Resumes

end Rig

/-- Boards of which the tasks make the same show the same once the tasks are done. -/
theorem Board.Converge.shows {ks : List Task} {a b : Board} (h : Board.Converge ks a b)
    (done : ∀ k ∈ ks, k.Done a) (done' : ∀ k ∈ ks, k.Done b) : a.Shows b where
  image := by
    have image := h.image
    rwa [Task.course_eq_self fun k hk => (done k hk).image,
      Task.course_eq_self fun k hk => (done' k hk).image] at image
  pmu := by
    have oscillators := h.oscillators
    rw [Task.course_eq_self fun k hk => (done k hk).oscillators,
      Task.course_eq_self fun k hk => (done' k hk).oscillators] at oscillators
    rw [h.pmu, oscillators, Board.oscillators, RegisterFile.write_read]

/-- Attempts at an operation that have all timed out, each with faults of its own. -/
inductive Operation.Attempts (op : Operation) (start : Rig) : Rig → Prop where
  | none : Attempts op start start
  | timedOut {rig : Rig} (earlier : Attempts op start rig) (f : Faults)
      (h : Controller.TimedOut (op.action.run (rig.under f))) :
      Attempts op start (op.action.run (rig.under f)).after

/-- Two runs that have gone through, and come to the same but for the bridge. -/
structure Run.Equals (r r' : Run Rig Unit) : Prop where
  ok : r.outcome = .ok ()
  ok' : r'.outcome = .ok ()
  board : r.after.board.Shows r'.after.board
  controller : r'.after.controller = r.after.controller
  published : r'.after.board.published = r.after.board.published

/-- An operation that comes to one task, which the controller and the tree register decide. -/
structure Operation.Requests (op : Operation) (request : Rig → Attempt Task) : Prop where
  answers : ∀ rig, Controller.Answers (op.action.run rig) rig (request rig)
  congr : ∀ {rig rig' : Rig}, rig'.controller = rig.controller →
    rig'.board.image.load .treeControl = rig.board.image.load .treeControl →
    request rig' = request rig

namespace Operation

theorem setOscillator_requests (o : Oscillator) :
    (setOscillator o).Requests fun _ => .ok (.oscillator o) :=
  ⟨Controller.setOscillator_answers o, fun _ _ => rfl⟩

theorem setSpll_requests (ratio : Option SystemRatio) (lockWait : UInt32) :
    (setSpll ratio lockWait).Requests (Task.ofSystem ratio lockWait) where
  answers := Controller.setSpll_answers ratio lockWait
  congr controller tree := by
    unfold Task.ofSystem Rig.source
    rw [tree, controller]

theorem setAupll_requests (ratio : Option AudioRatio) (lockWait : UInt32) :
    (setAupll ratio lockWait).Requests (Task.ofAudio ratio lockWait) where
  answers := Controller.setAupll_answers ratio lockWait
  congr controller _ := by
    unfold Task.ofAudio
    rw [controller]

theorem setTree_requests (t : Tree) : (setTree t).Requests (Task.ofTree t) where
  answers := Controller.setTree_answers t
  congr controller _ := by
    unfold Task.ofTree
    rw [controller]

/-- A rig on which the operation has been tried comes to the same request. -/
structure Awaits (request : Rig → Attempt Task) (start rig : Rig) : Prop where
  controller : rig.controller = start.controller
  tree : rig.board.image.load .treeControl = start.board.image.load .treeControl
  published : rig.board.published = start.board.published
  board : ∀ k, request start = .ok k → Board.Converge [k] start.board rig.board

namespace Requests
open Controller (TimedOut)
variable {op : Operation} {request : Rig → Attempt Task} {start rig : Rig}

theorem takes (h : op.Requests request) (ok : (op.action.run rig).outcome = .ok ()) :
    ∃ k, request rig = .ok k ∧ k.Takes rig (op.action.run rig).after := by
  obtain ⟨k, requested, -⟩ := (h.answers rig).of_ok ok
  have answers := h.answers rig
  rw [requested] at answers
  exact ⟨k, requested, (Controller.leads_task answers).of_ok ok⟩

theorem cuts (h : op.Requests request) (timedOut : TimedOut (op.action.run rig)) :
    (op.action.run rig).after = rig ∨
      ∃ k, request rig = .ok k ∧ k.Cuts rig (op.action.run rig).after := by
  obtain ⟨reg, timedOut⟩ := timedOut
  have answers := h.answers rig
  cases requested : request rig with
  | error e =>
    rw [requested] at answers
    obtain ⟨ns, -, run⟩ := answers
    exact .inl (congrArg Run.after run)
  | ok k =>
    rw [requested] at answers
    exact .inr ⟨k, rfl, ((Controller.leads_task answers).of_error timedOut).2⟩

/-- While every access is answered, what is requested is done. -/
theorem ok_of_answered (h : op.Requests request) {k : Task} (requested : request rig = .ok k)
    (answered : ¬rig.Misses (op.action.run rig).after) :
    (op.action.run rig).outcome = .ok () := by
  have answers := h.answers rig
  rw [requested] at answers
  exact (Controller.leads_task answers).ok fun _ failed => answered failed.1.2

theorem awaits_under (h : Awaits request start rig) (f : Faults) :
    Awaits request start (rig.under f) where
  controller := h.controller
  tree := h.tree
  published := h.published
  board k requested := (h.board k requested).trans (.of_same (.refl _) rfl)

theorem awaits (h : op.Requests request) (attempts : op.Attempts start rig) :
    Awaits request start rig := by
  induction attempts with
  | none => exact ⟨rfl, rfl, rfl, fun _ _ => .of_same (.refl _) rfl⟩
  | @timedOut rig _ f timedOut ih =>
    have before := awaits_under ih f
    obtain same | ⟨k, requested, cuts⟩ := h.cuts timedOut
    · rwa [same]
    · constructor
      · exact cuts.controller.trans before.controller
      · exact (cuts.keeps.load_tree cuts.tree).trans before.tree
      · exact cuts.published.trans before.published
      · intro k' requested'
        rw [h.congr before.controller before.tree, requested'] at requested
        cases requested
        exact (before.board _ requested').trans cuts.converge

theorem equals (h : op.Requests request) (attempts : op.Attempts start rig) {last next : Faults}
    (ok : (op.action.run (rig.under last)).outcome = .ok ())
    (answered : ¬(start.under next).Misses (op.action.run (start.under next)).after) :
    (op.action.run (start.under next)).Equals (op.action.run (rig.under last)) := by
  have before := awaits_under (h.awaits attempts) last
  obtain ⟨k, requested, takes⟩ := h.takes ok
  rw [h.congr before.controller before.tree] at requested
  have same : request (start.under next) = request start := h.congr rfl rfl
  have single : request (start.under next) = .ok k := same.trans requested
  have ok' := h.ok_of_answered single answered
  obtain ⟨k', requested', takes'⟩ := h.takes ok'
  rw [single] at requested'
  cases requested'
  have board : (op.action.run (start.under next)).after.board.Shows
      (op.action.run (rig.under last)).after.board := by
    have here : Board.Converge [k] (start.under next).board start.board := .of_same (.refl _) rfl
    have converge := takes'.converge.symm.trans (here.trans ((before.board k requested).trans
      takes.converge))
    exact converge.shows (List.forall_mem_singleton.2 takes'.done)
      (List.forall_mem_singleton.2 takes.done)
  have controller : (op.action.run (rig.under last)).after.controller =
      (op.action.run (start.under next)).after.controller := by
    rw [takes.controller, takes'.controller, board.image.load_tree, before.controller]
    rfl
  refine ⟨ok', ok, board, controller, ?_⟩
  rw [takes.published, takes'.published, controller, before.controller, before.published]
  rfl

end Requests
end Operation

namespace Configuration
variable {c : Configuration} {s : Sequencer} {spll aupll : Task}

/-- The tasks of an application, but for the parking of the MCU, which its tree makes good. -/
def tasks (c : Configuration) (spll aupll : Task) : List Task :=
  [.tree c.tree, .oscillator c.oscillator, spll, aupll]

theorem tasks_apart (setsSystem : c.task s .system = .ok spll)
    (setsAudio : c.task s .audio = .ok aupll) : Task.Apart (c.tasks spll aupll) := by
  have system := footprint_of_task setsSystem
  have audio := footprint_of_task setsAudio
  have footprints : (c.tasks spll aupll).map Task.footprint =
      [.tree, .oscillators, .pll .system, .pll .audio] := by
    rw [tasks, List.map_cons, List.map_cons, List.map_cons, List.map_cons, system, audio]
    rfl
  rw [Task.Apart, ← List.pairwise_map, footprints]
  simp only [List.pairwise_cons, List.forall_mem_cons, List.not_mem_nil, false_imp_iff,
    implies_true, List.Pairwise.nil, and_true]
  refine ⟨⟨Footprint.oscillators_apart_tree.symm, ?_, ?_⟩, ⟨?_, ?_⟩, ?_⟩
  · exact (Footprint.tree_avoids .system).apart.symm
  · exact (Footprint.tree_avoids .audio).apart.symm
  · exact (Footprint.oscillators_avoids .system).apart.symm
  · exact (Footprint.oscillators_avoids .audio).apart.symm
  · exact Footprint.audio_avoids.apart

theorem mem_tasks (setsSystem : c.task s .system = .ok spll)
    (setsAudio : c.task s .audio = .ok aupll) {i : Step} {k : Task} (sets : c.sets s i = .ok k) :
    k ∈ c.tasks spll aupll := by
  cases i with
  | oscillator =>
    cases sets
    simp [tasks]
  | pll p =>
    cases p with
    | system =>
      obtain rfl : k = spll := Except.ok.inj (sets.symm.trans setsSystem)
      simp [tasks]
    | audio =>
      obtain rfl : k = aupll := Except.ok.inj (sets.symm.trans setsAudio)
      simp [tasks]

end Configuration

namespace Controller
open Rig (Resumes)
variable {start rig rig' : Rig} {c : Configuration} {s : Sequencer} {spll aupll : Task}

theorem Parked.resumes (h : Parked start c rig) (apart : Task.Apart (c.tasks spll aupll)) :
    Resumes (c.tasks spll aupll) start rig := by
  have crystal : Resumes (c.tasks spll aupll) start
      { start with controller.crystal := c.crystal } :=
    ⟨rfl, rfl, rfl, rfl, fun _ => rfl, .of_same (.refl _) rfl⟩
  cases h with
  | already same source => rwa [same]
  | moved park =>
    have tree : Task.tree c.tree ∈ c.tasks spll aupll := List.mem_cons_self
    exact crystal.trans (.of_takes park ((park.converge_tree c.tree).of_mem apart tree))

theorem Progress.resumes {steps : List Step} (h : Progress c s steps rig rig')
    (setsSystem : c.task s .system = .ok spll) (setsAudio : c.task s .audio = .ok aupll) :
    Resumes (c.tasks spll aupll) rig rig' := by
  have apart := Configuration.tasks_apart setsSystem setsAudio
  refine h.keeps (P := Resumes _ rig) (.refl rig) fun _ sets takes before => ?_
  have known := Configuration.mem_tasks setsSystem setsAudio sets
  exact before.trans (.of_takes takes (takes.converge.of_mem apart known))

theorem Halted.resumes {past : List (Moment Rig)} (h : Halted start c past rig)
    (setsSystem : c.task start.controller.wiring.sequencer .system = .ok spll)
    (setsAudio : c.task start.controller.wiring.sequencer .audio = .ok aupll) :
    Resumes (c.tasks spll aupll) start rig := by
  have apart := Configuration.tasks_apart setsSystem setsAudio
  obtain ⟨order, park, progress, sets, cuts, within⟩ := h
  have known := Configuration.mem_tasks setsSystem setsAudio sets
  have before := (park.resumes apart).trans (progress.resumes setsSystem setsAudio)
  exact before.trans (.of_cuts cuts (cuts.converge.of_mem apart known))

theorem Applied.resumes (h : Applied start c rig)
    (setsSystem : c.task start.controller.wiring.sequencer .system = .ok spll)
    (setsAudio : c.task start.controller.wiring.sequencer .audio = .ok aupll) :
    Resumes (c.tasks spll aupll) start rig := by
  have apart := Configuration.tasks_apart setsSystem setsAudio
  obtain ⟨mid, ⟨setsSystem', setsAudio', park, oscillator, system, audio⟩, tree⟩ := h
  have step {k : Task} {rig rig' : Rig} (takes : k.Takes rig rig')
      (hk : k ∈ c.tasks spll aupll) : Resumes (c.tasks spll aupll) rig rig' :=
    .of_takes takes (takes.converge.of_mem apart hk)
  have first := (park.resumes apart).trans (step oscillator (by simp [Configuration.tasks]))
  have second := first.trans (step system (Configuration.mem_tasks setsSystem setsAudio
    (show c.sets _ (.pll .system) = _ from setsSystem')))
  have third := second.trans (step audio (Configuration.mem_tasks setsSystem setsAudio
    (show c.sets _ (.pll .audio) = _ from setsAudio')))
  exact third.trans (step tree List.mem_cons_self)

theorem Applied.done (h : Applied start c rig)
    (setsSystem : c.task start.controller.wiring.sequencer .system = .ok spll)
    (setsAudio : c.task start.controller.wiring.sequencer .audio = .ok aupll) :
    ∀ k ∈ c.tasks spll aupll, k.Done rig.board := by
  have sets := h.sets
  obtain ⟨mid, prepared, tree⟩ := h
  have oscillator := prepared.oscillator.1.kept tree Footprint.oscillators_apart_tree
  simp only [Configuration.tasks, List.forall_mem_cons, List.not_mem_nil, false_imp_iff,
    implies_true, and_true]
  exact ⟨tree.done, oscillator, (sets .system).done setsSystem, (sets .audio).done setsAudio⟩

theorem wiring_of_attempts {op : Operation} (attempts : op.Attempts start rig) :
    rig.controller.wiring = start.controller.wiring := by
  induction attempts with
  | none => rfl
  | timedOut earlier f timedOut ih =>
    exact ((Rig.operation_precedes _ op).wiring).trans ih

theorem resumes_of_attempts (attempts : (Operation.apply c).Attempts start rig)
    (setsSystem : c.task start.controller.wiring.sequencer .system = .ok spll)
    (setsAudio : c.task start.controller.wiring.sequencer .audio = .ok aupll) :
    Resumes (c.tasks spll aupll) start rig := by
  induction attempts with
  | none => exact .refl _
  | timedOut earlier f timedOut ih =>
    have before := ih.under f
    have halted := halted_of_timedOut timedOut
    rw [← before.wiring] at setsSystem setsAudio
    exact before.trans (halted.resumes setsSystem setsAudio)

theorem apply_equals (attempts : (Operation.apply c).Attempts start rig) {last next : Faults}
    (ok : ((apply c).run (rig.under last)).outcome = .ok ())
    (answered : ¬(start.under next).Misses ((apply c).run (start.under next)).after) :
    ((apply c).run (start.under next)).Equals ((apply c).run (rig.under last)) := by
  have wiring := wiring_of_attempts attempts
  obtain ⟨checked, retried⟩ := applied_of_ok ok
  have fits := retried.not_starves checked
  have sequencer : (rig.under last).controller.wiring = start.controller.wiring := wiring
  rw [sequencer] at checked
  have ok' : ((apply c).run (start.under next)).outcome = .ok () :=
    apply_ok_of_answered checked fits answered
  obtain ⟨-, single⟩ := applied_of_ok ok'
  have sound := Configuration.sound_of_check checked
  obtain ⟨spll, setsSystem⟩ := sound.task .system
  obtain ⟨aupll, setsAudio⟩ := sound.task .audio
  have before := (resumes_of_attempts attempts setsSystem setsAudio).under last
  have here : Resumes (c.tasks spll aupll) start _ := (Resumes.refl start).under next
  have doneSingle := single.done setsSystem setsAudio
  have singly := here.trans (single.resumes setsSystem setsAudio)
  rw [← sequencer] at setsSystem setsAudio
  have doneRetried := retried.done setsSystem setsAudio
  have again := before.trans (retried.resumes setsSystem setsAudio)
  have controller := single.controller_congr retried before.wiring before.attached before.fixed48
    before.lowPower
  have board := (singly.board.symm.trans again.board).shows doneSingle doneRetried
  refine ⟨ok', ok, board, controller, ?_⟩
  rw [retried.published, single.published, controller, before.attached, here.attached]
  split
  · rfl
  · rename_i detached
    exact before.published (Bool.eq_false_iff.2 detached)

end Controller

/-- From any state, once attempts at an operation that have all timed out are followed by one that
goes through, everything but the bridge is as after a single attempt from that state that misses no
access; and that one goes through as well. -/
theorem retry_comes_to_the_same {op : Operation} (configures : op.Configures) {start rig : Rig}
    (attempts : op.Attempts start rig) (last next : Faults)
    (ok : (op.action.run (rig.under last)).outcome = .ok ())
    (answered : ¬(start.under next).Misses (op.action.run (start.under next)).after) :
    (op.action.run (start.under next)).Equals (op.action.run (rig.under last)) := by
  cases op with
  | setOscillator o => exact (Operation.setOscillator_requests o).equals attempts ok answered
  | setSpll ratio lockWait =>
    exact (Operation.setSpll_requests ratio lockWait).equals attempts ok answered
  | setAupll ratio lockWait =>
    exact (Operation.setAupll_requests ratio lockWait).equals attempts ok answered
  | setTree t => exact (Operation.setTree_requests t).equals attempts ok answered
  | apply c => exact Controller.apply_equals attempts ok answered
  | check c => exact configures.elim
  | recordFault e => exact configures.elim

/-- An application is tried on a core that runs from the system PLL. First it misses the access that
is to select the RC oscillator, then the one that is to open the gate of the system PLL, and then it
goes through. -/
theorem third_attempt_goes_through :
    let fresh : Rig :=
      ⟨.blank, (Controller.fresh ⟨.direct, .direct, .timer⟩ boardCrystal).attach none⟩
    let start := ((Controller.apply { Configuration.standard with
      tree := { Tree.undivided with source := .spll } }).run fresh).after
    let op : Operation := .apply
      ⟨⟨16000000⟩, .rc, some ⟨8, 0⟩, some ⟨8, 1, 3⟩, ⟨.spll, 3, 5, 1, 2, 4⟩, 10⟩
    let sound : Faults := ⟨0, fun _ => false⟩
    ∃ rig, op.Attempts start rig ∧ rig.source = .coreHs ∧
      rig.controller.clocks.coreHs = ⟨24000000⟩ ∧
      (op.action.run (rig.under sound)).outcome = .ok () ∧
      ¬(start.under sound).Misses (op.action.run (start.under sound)).after ∧
      (op.action.run (start.under sound)).Equals (op.action.run (rig.under sound)) := by
  intro fresh start op sound
  let first := op.action.run (start.under ⟨0, (· == 14)⟩)
  let second := op.action.run (first.after.under ⟨0, (· == 21)⟩)
  have attempts : op.Attempts start second.after := by
    refine .timedOut (.timedOut .none ⟨0, (· == 14)⟩ ?_) ⟨0, (· == 21)⟩ ?_
    · exact ⟨Register.oscillatorControl, by decide +kernel⟩
    · exact ⟨Register.oscillatorControl, by decide +kernel⟩
  have found : second.after.source = .coreHs ∧
      second.after.controller.clocks.coreHs = ⟨24000000⟩ ∧
      (op.action.run (second.after.under sound)).outcome = .ok () := by
    decide +kernel
  have answered : ¬(start.under sound).Misses (op.action.run (start.under sound)).after := by
    rintro ⟨n, -, -, unanswered⟩
    exact unanswered ⟨rfl, fun _ => by decide⟩
  have configures : op.Configures := trivial
  exact ⟨second.after, attempts, found.1, found.2.1, found.2.2, answered,
    retry_comes_to_the_same configures attempts sound sound found.2.2 answered⟩

end ClockControl
