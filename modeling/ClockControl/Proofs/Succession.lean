import ClockControl.Proofs.Publication

/-! Controllers that follow one another on a board. Of all commands only those that run a
controller publish, so that the clocks of the latest controller stand until the next one takes
over. Main statement: `published_clocks_never_stale`. -/
namespace ClockControl

open ClockControl.Action (Preserves)

namespace Board

theorem latch_published (b : Board) (r : Register) (v : Word) :
    (b.latch r v).published = b.published := by
  unfold latch
  dsimp only
  split
  · rfl
  · split <;> rfl

theorem store_preserves (r : Register) (v : Word) : (store r v).Preserves (·.published) :=
  fun b => b.latch_published r v

theorem poll_preserves : poll.Preserves (·.published) := by
  refine Preserves.bind .state fun b => ?_
  split
  · exact Preserves.bind (.emit _) fun _ => .update fun _ => rfl
  · exact .update fun _ => rfl
  · exact .pure ()
  · exact .pure ()

theorem load_preserves (r : Register) : (load r).Preserves (·.published) := by
  have value : (do return (← Action.state).image.load r : Action Board Word).Preserves
      (·.published) :=
    Preserves.bind .state fun b => .pure _
  exact .ite (Preserves.bind poll_preserves fun _ => value) value

theorem change_preserves (r : Register) (f : Word → Word) :
    (change r f).Preserves (·.published) :=
  Preserves.bind (load_preserves r) fun _ => store_preserves r _

end Board

namespace Pmu

theorem read_preserves (via : Access) (reg : Byte) : (read via reg).Preserves (·.published) :=
  fun b => (read_transfer via reg b).alike.published

theorem write_preserves (via : Access) (reg value : Byte) :
    (write via reg value).Preserves (·.published) :=
  fun b => (write_transfer via reg value b).alike.published

theorem change_preserves (via : Access) (reg : Byte) (f : Byte → Byte) :
    (change via reg f).Preserves (·.published) :=
  fun b => (change_changes via reg f b).alike.published

end Pmu

theorem busyWait_preserves (us : UInt32) : (busyWait us).Preserves (·.published) :=
  Preserves.bind .state fun _ => Preserves.bind (.lift _) fun _ => .emit _

theorem publishedClocks_preserves : publishedClocks.Preserves (·.published) := by
  refine Preserves.bind .state fun b => ?_
  split
  · exact .pure _
  · exact .ofAttempt _

theorem publishedFrequency_preserves (d : Domain) :
    (publishedFrequency d).Preserves (·.published) :=
  Preserves.bind publishedClocks_preserves fun _ => Preserves.bind .state fun _ => .lift _

namespace Session

/-- What has been published, and the controller. -/
def register (s : Session) : Option Clocks × Option Controller := (s.board.published, s.controller)

/-- A command on the board alone leaves both as they are. -/
theorem onBoard_preserves {a : Action Board α} (h : a.Preserves (·.published)) :
    (liftM a : Action Session α).Preserves register :=
  fun s => congrArg (·, s.controller) (h s.board)

/-- So does a question to the controller. -/
theorem onController_preserves {a : Action Rig Answer} (h : a.Preserves id) :
    (onController a).Preserves register := by
  intro s
  cases hc : s.controller with
  | none => simp only [onController, hc, Action.run_pure]
  | some c =>
    have same : (a.run ⟨s.board, c⟩).after = ⟨s.board, c⟩ := h ⟨s.board, c⟩
    simp only [onController, hc, Run.mapState, same, register]

end Session

/-- The commands that neither run a controller nor replace it. -/
def Command.Idle : Command → Prop
  | .engage _ _ _ | .release | .operate _ | .boot _ => False
  | _ => True

namespace Session

theorem domainFrequency_preserves (d : Domain) : (Controller.domainFrequency d).Preserves id :=
  Preserves.bind .state fun _ => .lift _

theorem readBack_preserves (r : Register) : (readBack r).Preserves register :=
  Preserves.bind (onBoard_preserves (Board.load_preserves r)) fun _ => .pure _

theorem exec_preserves {c : Command} (idle : c.Idle) : (exec c).Preserves register := by
  have done {a : Action Board Unit} (h : a.Preserves (·.published)) :
      (do (liftM a : Action Session Unit); return .done : Action Session Answer).Preserves
        register :=
    Preserves.bind (onBoard_preserves h) fun _ => .pure _
  have number {a : Action Board Byte} (h : a.Preserves (·.published)) :
      (do return .number (← (liftM a : Action Session Byte)).toNat :
        Action Session Answer).Preserves register :=
    Preserves.bind (onBoard_preserves h) fun _ => .pure _
  cases c with
  | engage w crystal attached => exact idle.elim
  | release => exact idle.elim
  | operate op => exact idle.elim
  | boot c => exact idle.elim
  | domain index =>
    exact onController_preserves (Preserves.bind (.lift _) fun d =>
      Preserves.bind (domainFrequency_preserves d) fun _ => .pure _)
  | domains =>
    exact onController_preserves (Preserves.bind (.mapM domainFrequency_preserves _) fun _ =>
      .pure _)
  | poke i value => exact Preserves.bind (.update fun _ => rfl) fun _ => .pure _
  | pokePmu reg value => exact Preserves.bind (.update fun _ => rfl) fun _ => .pure _
  | setBusy polls => exact Preserves.bind (.update fun _ => rfl) fun _ => .pure _
  | published? => exact Preserves.bind .state fun _ => .pure _
  | published => exact Preserves.bind (onBoard_preserves publishedClocks_preserves) fun _ => .pure _
  | publishedRates =>
    refine Preserves.bind .state fun s => ?_
    split
    · exact .pure _
    · exact .pure _
  | publishedDomain index =>
    exact Preserves.bind (.lift _) fun d =>
      Preserves.bind (onBoard_preserves (publishedFrequency_preserves d)) fun _ => .pure _
  | publishedDomains =>
    exact Preserves.bind (.mapM (fun d => onBoard_preserves (publishedFrequency_preserves d)) _)
      fun _ => .pure _
  | busyWait kind n =>
    apply done
    cases kind with
    | microseconds => exact busyWait_preserves n
    | nanoseconds => exact busyWait_preserves _
    | eachMillisecond => exact .repeated (busyWait_preserves _) _
  | load r => exact readBack_preserves r
  | store r e =>
    exact Preserves.bind (onBoard_preserves (Board.store_preserves r _)) fun _ =>
      readBack_preserves r
  | change r e =>
    exact Preserves.bind (onBoard_preserves (Board.change_preserves r _)) fun _ =>
      readBack_preserves r
  | pmuRead via reg => exact number (Pmu.read_preserves via reg)
  | pmuWrite via reg value => exact done (Pmu.write_preserves via reg value)
  | pmuModify via reg keep toggle => exact done (Pmu.change_preserves via reg _)
  | oscillators via => exact number (Pmu.read_preserves via _)
  | setOscillators via writes => exact done (Pmu.change_preserves via _ _)

end Session

/-- A board that is being booted, with the controller that does it. -/
def Board.bootRig (b : Board) (c : Configuration) : Rig :=
  ⟨{ b with booted := true }, (Controller.fresh (.standard .core) c.crystal).attach b.published⟩

theorem run_boot {b : Board} (first : b.booted = false) (c : Configuration) :
    (boot c).run b = ((Controller.applyOrRecord c).run (b.bootRig c)).mapState (·.board) := by
  rw [boot, Action.run_bind_quiet (Action.run_state b), first]
  exact Action.run_bind_quiet (Action.run_update _ b)

theorem run_boot_again {b : Board} (again : b.booted = true) (c : Configuration) :
    (boot c).run b = ⟨.error (.halt .bootedTwice), b, []⟩ := by
  rw [boot, Action.run_bind_quiet (Action.run_state b), again]
  rfl

/-- An application with its record is an application, perhaps with a note and a word left in the
diagnostic register. -/
theorem Rig.Path.applyOrRecord {start rig : Rig} {past : List (Moment Rig)}
    (h : Path start past rig) (c : Configuration) :
    Extends start (Controller.applyOrRecord c) past rig := by
  have failed {past : List (Moment Rig)} {rig : Rig} (h : Path start past rig) (e : Failure) :
      Extends start (Action.fail e : Action Rig Unit) past rig := by
    refine (Action.leads_of_run_error (Action.run_ofAttempt _ _)).2 ?_
    rwa [List.append_nil]
  rw [Extends, Controller.applyOrRecord, Action.leads_bind, Action.leads_attempt]
  refine (h.apply c).mono (fun _ past rig h => ?_) fun e past rig h => ?_
  · rwa [Action.leads_pure]
  · cases e with
    | halt e => exact failed h _
    | error e =>
      refine (h.extend (.note (.bootFailed e))).next fun past rig h => ?_
      exact (h.extend (.fault e)).next fun past rig h => failed h _

namespace Session

/-- Controllers follow one another: each is attached, and the program is booted, which takes a
controller of its own, when there is no other. -/
def Admits (s : Session) : Command → Prop
  | .engage _ _ attached => attached = true
  | .boot _ => s.controller = none
  | _ => True

def Orderly : Session → List Command → Prop
  | _, [] => True
  | s, c :: cs => s.Admits c ∧ Orderly ((exec c).run s).after cs

/-- The clocks of the controller that a command has run, or of the one that is there after it. -/
def clocksAfter (s : Session) : Command → Option Clocks
  | .boot c =>
    if s.board.booted then none
    else some ((Controller.applyOrRecord c).run (s.board.bootRig c)).after.controller.clocks
  | c => ((exec c).run s).after.controller.map (·.clocks)

/-- The clocks of the latest controller, as they are now or as it has left them; those that are
`known` while there has been none. -/
def latest (known : Clocks) : Session → List Command → Clocks
  | _, [] => known
  | s, c :: cs => latest ((s.clocksAfter c).getD known) ((exec c).run s).after cs

/-- The clocks of the latest controller stand, and a controller that is there is attached. -/
structure Kept (latest : Clocks) (s : Session) : Prop where
  standing : latest.Standing s.board.published
  holder : ∀ c, s.controller = some c → c.attached = true ∧ c.clocks = latest

variable {known : Clocks} {s : Session}

theorem Kept.live (h : Kept known s) {c : Controller} (hc : s.controller = some c) :
    Rig.Live ⟨s.board, c⟩ := by
  obtain ⟨attached, rfl⟩ := h.holder c hc
  exact ⟨attached, h.standing⟩

/-- A new controller starts from what the latest one has left. -/
theorem Kept.attach (h : Kept known s) (w : Wiring) (crystal : Hertz) :
    ((Controller.fresh w crystal).attach s.board.published).clocks = known :=
  (Clocks.standing_iff _ _).1 h.standing

theorem Kept.idle (h : Kept known s) {c : Command} (idle : c.Idle) :
    Kept ((s.clocksAfter c).getD known) ((exec c).run s).after := by
  have same : (((exec c).run s).after.board.published, ((exec c).run s).after.controller) =
      (s.board.published, s.controller) := exec_preserves idle s
  obtain ⟨published, controller⟩ := Prod.mk.inj same
  have clocks : s.clocksAfter c = s.controller.map (·.clocks) := by
    rw [← controller]
    cases c with
    | boot c => exact idle.elim
    | _ => rfl
  have unchanged : (s.clocksAfter c).getD known = known := by
    rw [clocks]
    cases hc : s.controller with
    | none => rfl
    | some c => exact (h.holder c hc).2
  rw [unchanged]
  constructor
  · rw [published]
    exact h.standing
  · intro c hc
    rw [controller] at hc
    exact h.holder c hc

theorem Kept.engage (h : Kept known s) (w : Wiring) (crystal : Hertz) :
    Kept known ((exec (.engage w crystal true)).run s).after := by
  constructor
  · exact h.standing
  · intro c hc
    cases hc
    exact ⟨rfl, h.attach w crystal⟩

/-- The controller goes, and what it has published stays. -/
theorem Kept.release (h : Kept known s) : Kept known ((exec .release).run s).after := by
  constructor
  · exact h.standing
  · intro c hc
    cases hc

/-- The run of an operation, seen from the session. -/
theorem run_operate {c : Controller} (hc : s.controller = some c) (op : Operation) :
    (exec (.operate op)).run s =
      let r := op.action.run ⟨s.board, c⟩
      ⟨r.outcome.map fun _ => .done, ⟨r.after.board, some r.after.controller⟩,
        r.trace.map fun m => ⟨⟨m.before.board, some m.before.controller⟩, m.event⟩⟩ := by
  have answered : (do op.action; return .done : Action Rig Answer) =
      (fun _ => Answer.done) <$> op.action := by
    rw [bind_pure_comp]
  simp only [exec, onController, hc, answered, Action.run_map, Run.mapState]

theorem Kept.operate (h : Kept known s) (op : Operation) :
    Kept ((s.clocksAfter (.operate op)).getD known) ((exec (.operate op)).run s).after := by
  cases hc : s.controller with
  | none =>
    have nothing : (exec (.operate op)).run s = ⟨.ok .done, s, []⟩ := by
      simp only [exec, onController, hc, Action.run_pure]
    have nobody : s.clocksAfter (.operate op) = none := by
      show ((exec (.operate op)).run s).after.controller.map (·.clocks) = none
      rw [nothing, hc]
      rfl
    rw [nobody, nothing]
    exact h
  | some c =>
    have live := (h.live hc).operation op
    have clocks : s.clocksAfter (.operate op) =
        some (op.action.run ⟨s.board, c⟩).after.controller.clocks := by
      show ((exec (.operate op)).run s).after.controller.map (·.clocks) = _
      rw [run_operate hc]
      rfl
    rw [clocks, run_operate hc]
    constructor
    · exact live.standing
    · intro c' hc'
      cases hc'
      exact ⟨live.attached, rfl⟩

theorem Kept.boot (h : Kept known s) (alone : s.controller = none) (c : Configuration) :
    Kept ((s.clocksAfter (.boot c)).getD known) ((exec (.boot c)).run s).after := by
  have run : ((exec (.boot c)).run s).after =
      { s with board := ((ClockControl.boot c).run s.board).after } := by
    rw [exec, bind_pure_comp, Action.run_map]
    rfl
  have nobody (b : Board) (known : Clocks) (standing : known.Standing b.published) :
      Kept known { s with board := b } := by
    constructor
    · exact standing
    · intro c hc
      rw [alone] at hc
      cases hc
  rw [run, clocksAfter]
  cases booted : s.board.booted with
  | true =>
    rw [run_boot_again booted]
    exact nobody _ _ h.standing
  | false =>
    rw [run_boot booted]
    have start : (s.board.bootRig c).Live := ⟨rfl, (Clocks.standing_iff _ _).2 rfl⟩
    have live := start.path (Rig.Path.refl.applyOrRecord c).run
    exact nobody _ _ live.standing

theorem Kept.step (h : Kept known s) {c : Command} (admits : s.Admits c) :
    Kept ((s.clocksAfter c).getD known) ((exec c).run s).after := by
  cases c with
  | engage w crystal attached =>
    obtain rfl : attached = true := admits
    have clocks : s.clocksAfter (.engage w crystal true) = some known :=
      congrArg some (h.attach w crystal)
    rw [clocks]
    exact h.engage w crystal
  | release => exact h.release
  | operate op => exact h.operate op
  | boot c => exact h.boot admits c
  | _ => exact h.idle trivial

theorem Kept.run (h : Kept known s) {cs : List Command} (orderly : Orderly s cs) :
    Kept (latest known s cs) (after s cs) := by
  induction cs generalizing known s with
  | nil => exact h
  | cons c cs ih =>
    obtain ⟨admits, rest⟩ := orderly
    exact ih (h.step admits) rest

/-- An operation that comes to its end has published the clocks. -/
theorem Kept.published_of_ok (h : Kept known s) {c : Controller} (hc : s.controller = some c)
    {op : Operation} (configures : op.Configures)
    (ok : ((exec (.operate op)).run s).outcome = .ok .done) :
    ∃ c', ((exec (.operate op)).run s).after.controller = some c' ∧
      ((exec (.operate op)).run s).after.board.published = some c'.clocks := by
  rw [run_operate hc] at ok ⊢
  refine ⟨_, rfl, (h.live hc).published_of_ok configures ?_⟩
  cases ho : (op.action.run ⟨s.board, c⟩).outcome with
  | ok u => rfl
  | error e => simp [ho, Except.map] at ok

/-- Attached controllers follow one another on a board on which at most reset clocks have been
published; whatever is asked of them and whichever accesses to the PMU fail, the clocks of the one
that is there stand after every command, an operation that comes to its end has published them, and
the next one, be it for booting, starts from the clocks of the one before. What is done by a
controller that is not attached never shows in what is published. -/
theorem published_clocks_never_stale {b : Board}
    (start : b.published = none ∨ b.published = some .reset) {cs : List Command}
    (orderly : Orderly ⟨b, none⟩ cs) :
    let s := after ⟨b, none⟩ cs
    (∀ c, s.controller = some c →
      c.clocks.Standing s.board.published ∧
      ∀ op : Operation, op.Configures → ((exec (.operate op)).run s).outcome = .ok .done →
        ∃ c', ((exec (.operate op)).run s).after.controller = some c' ∧
          ((exec (.operate op)).run s).after.board.published = some c'.clocks) ∧
    (∀ w crystal, ∃ c, ((exec (.engage w crystal true)).run s).after.controller = some c ∧
      c.clocks = latest .reset ⟨b, none⟩ cs) ∧
    (∀ c, (s.board.bootRig c).controller.clocks = latest .reset ⟨b, none⟩ cs) ∧
    ∀ (rig : Rig) (ops : List Operation), rig.controller.attached = false →
      (∀ m ∈ ((Operation.sequence ops).run rig).trace,
        m.before.board.published = rig.board.published) ∧
      ((Operation.sequence ops).run rig).after.board.published = rig.board.published := by
  intro s
  have first : Kept .reset ⟨b, none⟩ := by
    constructor
    · rcases start with none | reset
      · exact .inr ⟨none, rfl⟩
      · exact .inl reset
    · intro c hc
      cases hc
  have kept : Kept (latest .reset ⟨b, none⟩ cs) s := first.run orderly
  refine ⟨?_, ?_, ?_, ?_⟩
  · intro c hc
    exact ⟨(kept.live hc).standing, fun op => kept.published_of_ok hc⟩
  · intro w crystal
    exact ⟨_, rfl, kept.attach w crystal⟩
  · intro c
    exact kept.attach _ _
  · intro rig ops detached
    obtain ⟨silent, quiet⟩ := Rig.silent_path detached (Rig.sequence_path rig ops)
    exact ⟨quiet, silent.published⟩

/-- The program boots with the system PLL at 192 MHz; the next controller starts it anew and misses
the access that would open its gate again, and the one after that still starts from 192 MHz. -/
theorem clocks_handed_over :
    let b := { Board.blank with fails := (· == 12) }
    let cs : List Command := [.boot .standard, .engage ⟨.direct, .direct, .timer⟩ boardCrystal true,
      .operate (.setSpll (some ⟨10, 0⟩) 10), .release]
    Orderly ⟨b, none⟩ cs ∧
      ∃ c, ((exec (.engage (.standard .core) boardCrystal true)).run
        (after ⟨b, none⟩ cs)).after.controller = some c ∧ c.clocks.spll = ⟨192000000⟩ := by
  intro b cs
  have orderly : Orderly ⟨b, none⟩ cs := ⟨rfl, rfl, trivial, trivial, trivial⟩
  obtain ⟨-, next, -⟩ := published_clocks_never_stale (.inl rfl) orderly
  obtain ⟨c, here, clocks⟩ := next (.standard .core) boardCrystal
  have known : (latest .reset ⟨b, none⟩ cs).spll = ⟨192000000⟩ := by decide +kernel
  exact ⟨orderly, c, here, by rw [clocks, known]⟩

end Session
end ClockControl
