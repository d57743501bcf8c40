import ClockControl.Proofs.Effect
import ClockControl.Proofs.Simulation

/-! The same work through the bridge and at once. A board that is reached directly mirrors one
behind the bridge if the same accesses are answered on both; every piece of hardware work keeps it a
mirror. Main statements: `Mirrors.access` and `Task.work_parallel`. -/
namespace ClockControl

/-- The board `d`, reached directly, shows what `b` shows behind the bridge. A bridge that is too
busy for any access holds the PMU at what it was, and on `d` every access fails. -/
structure Board.Mirrors (held : Option RegisterFile) (b d : Board) : Prop where
  image : b.image.Agree d.image
  pmu : d.pmu = b.pmu
  accesses : d.accesses = b.accesses
  published : d.published = b.published
  busy : held.isSome = true ↔ Pmu.pollLimit ≤ b.busy
  fails : ∀ n, d.fails n = (b.fails n || held.isSome)
  kept : ∀ m, held = some m → b.pmu = m

/-- An access shows nothing but cycles, stores to the bridge and notes. -/
theorem Pmu.Transfer.plain {via : Access} {c : Cycle} {b : Board} {value : α} {r : Run Board α}
    (h : Pmu.Transfer via c b value r) : r.events.filter Event.Plain = [] := by
  apply plain_eq_nil
  intro m hm
  obtain ⟨-, shows⟩ := h.moments m hm
  rcases m with ⟨before, event⟩
  cases shows with
  | store v => rfl
  | cycle byte => rfl
  | lost => rfl

namespace Board.Mirrors
variable {held : Option RegisterFile} {b d : Board}

/-- The same accesses are answered. -/
theorem answers (h : b.Mirrors held d) (n : Nat) :
    d.Answers .direct n ↔ b.Answers .bridge n := by
  have busy := h.busy
  unfold Board.Answers
  rw [h.fails, Bool.or_eq_false_iff]
  constructor
  · rintro ⟨⟨answered, free⟩, -⟩
    refine ⟨answered, fun _ => Nat.not_le.1 fun long => ?_⟩
    rw [busy.2 long] at free
    cases free
  · rintro ⟨answered, short⟩
    refine ⟨⟨answered, ?_⟩, nofun⟩
    cases held with
    | none => rfl
    | some m => exact absurd (busy.1 rfl) (Nat.not_le.2 (short rfl))

/-- No access is answered where the PMU is held. -/
theorem unanswered {m : RegisterFile} (h : b.Mirrors (some m) d) (n : Nat) :
    ¬b.Answers .bridge n :=
  fun answered => absurd (h.busy.1 rfl) (Nat.not_le.2 (answered.2 rfl))

/-- What an access leaves of the two boards. -/
theorem after {b' d' : Board} (h : b.Mirrors held d) (behind : b.Alike b') (direct : d.Alike d')
    (pmu : d'.pmu = b'.pmu) (accesses : d'.accesses = b'.accesses)
    (kept : ∀ m, held = some m → b'.pmu = b.pmu) : b'.Mirrors held d' where
  image := (behind.image.symm.trans h.image).trans direct.image
  pmu := pmu
  accesses := accesses
  published := direct.published.trans (h.published.trans behind.published.symm)
  busy := by rw [behind.busy, h.busy]
  fails n := by rw [direct.fails, behind.fails, h.fails]
  kept m hm := (kept m hm).trans (h.kept m hm)

/-- One access through the bridge and at once. -/
theorem access {c : Cycle} {value : α} {r r' : Run Board α} (h : b.Mirrors held d)
    (behind : Pmu.Transfer .bridge c b value r) (direct : Pmu.Transfer .direct c d value r') :
    r.Parallel (Board.Mirrors held) r' := by
  have accesses : r'.after.accesses = r.after.accesses := by
    rw [direct.accesses, behind.accesses, h.accesses]
  have same : d.Answers .direct (d.accesses + 1) ↔ b.Answers .bridge (b.accesses + 1) := by
    rw [h.accesses, h.answers]
  have events : r'.events.filter Event.Plain = r.events.filter Event.Plain := by
    rw [direct.plain, behind.plain]
  by_cases answered : b.Answers .bridge (b.accesses + 1)
  · obtain ⟨ok, pmu⟩ := behind.answered answered
    obtain ⟨ok', pmu'⟩ := direct.answered (same.2 answered)
    rw [h.pmu, ← pmu] at pmu'
    refine ⟨ok'.trans ok.symm, h.after behind.alike direct.alike pmu' accesses ?_, events⟩
    rintro m rfl
    exact absurd answered (h.unanswered _)
  · obtain ⟨lost, pmu⟩ := behind.lost answered
    obtain ⟨lost', pmu'⟩ := direct.lost (mt same.1 answered)
    rw [h.pmu, ← pmu] at pmu'
    exact ⟨lost'.trans lost.symm, h.after behind.alike direct.alike pmu' accesses fun _ _ => pmu,
      events⟩

end Board.Mirrors

/-- The same wiring with another way to the PMU. -/
def Wiring.through (via : Access) (w : Wiring) : Wiring := { w with access := via }

namespace Action.Parallel
variable {held : Option RegisterFile}

theorem read (reg : Byte) :
    (Pmu.read .bridge reg).Parallel (Board.Mirrors held) (Pmu.read .direct reg) := by
  intro b d h
  have direct := Pmu.read_transfer .direct reg d
  rw [h.pmu] at direct
  exact h.access (Pmu.read_transfer .bridge reg b) direct

theorem write (reg value : Byte) :
    (Pmu.write .bridge reg value).Parallel (Board.Mirrors held)
      (Pmu.write .direct reg value) :=
  fun b d h => h.access (Pmu.write_transfer .bridge reg value b)
    (Pmu.write_transfer .direct reg value d)

theorem change (reg : Byte) (f : Byte → Byte) :
    (Pmu.change .bridge reg f).Parallel (Board.Mirrors held) (Pmu.change .direct reg f) :=
  bind (read reg) fun _ => write reg _

variable (r : Register)

theorem load (hc : r ≠ .bridgeControl) (hd : r ≠ .bridgeData) :
    (Board.load r).Parallel (Board.Mirrors held) (Board.load r) := by
  intro b d h
  rw [Board.run_load hc, Board.run_load hc, h.image.load hc hd]
  exact ⟨rfl, h, rfl⟩

theorem store (hc : r ≠ .bridgeControl) (v : Word) :
    (Board.store r v).Parallel (Board.Mirrors held) (Board.store r v) := by
  intro b d h
  rw [Board.run_store, Board.run_store, Board.latch_of_ne hc, Board.latch_of_ne hc]
  exact ⟨rfl, ⟨h.image.store r v, h.pmu, h.accesses, h.published, h.busy, h.fails, h.kept⟩,
    rfl⟩

theorem changeWord (hc : r ≠ .bridgeControl) (hd : r ≠ .bridgeData) (f : Word → Word) :
    (Board.change r f).Parallel (Board.Mirrors held) (Board.change r f) :=
  bind (load r hc hd) fun _ => store r hc _

variable (w : Wiring)

theorem wait (us : UInt32) : ((w.through .bridge).wait us).Parallel (Board.Mirrors held)
    ((w.through .direct).wait us) := by
  intro b d h
  rw [run_wait, run_wait, h.published]
  exact ⟨rfl, h, rfl⟩

theorem oscillators : (w.through .bridge).oscillators.Parallel (Board.Mirrors held)
    (w.through .direct).oscillators :=
  read _

theorem setOscillator (f : Field 8) (on : Bool) :
    ((w.through .bridge).setOscillator f on).Parallel (Board.Mirrors held)
      ((w.through .direct).setOscillator f on) :=
  change _ _

theorem selectOscillator (o : Oscillator) :
    ((w.through .bridge).selectOscillator o).Parallel (Board.Mirrors held)
      ((w.through .direct).selectOscillator o) := by
  rw [Oscillator.selectOscillator_eq, Oscillator.selectOscillator_eq]
  refine bind (oscillators w) fun control => ite ?_ (setOscillator w _ _)
  exact bind (setOscillator w _ _) fun _ => bind (wait w _) fun _ => setOscillator w _ _

section Start
variable (p : Pll)

theorem storePll (part : PllPart) (v : Word) :
    (Board.store (.pll p part) v).Parallel (Board.Mirrors held) (Board.store (.pll p part) v) :=
  store (.pll p part) nofun v

theorem changePll (part : PllPart) (f : Word → Word) :
    (Board.change (.pll p part) f).Parallel (Board.Mirrors held)
      (Board.change (.pll p part) f) :=
  changeWord (.pll p part) nofun nofun f

theorem bringUp (r : Ramp) : (p.bringUp (w.through .bridge) r).Parallel (Board.Mirrors held)
    (p.bringUp (w.through .direct) r) := by
  have at_once : (Board.store (.pll p .power) r.settle >>= fun _ =>
      (w.through .bridge).wait Ramp.settleWait).Parallel (Board.Mirrors held)
        (Board.store (.pll p .power) r.settle >>= fun _ =>
          (w.through .direct).wait Ramp.settleWait) :=
    bind (storePll p .power _) fun _ => wait w _
  obtain ⟨sequencer, access, delay⟩ := w
  cases sequencer with
  | ramped =>
    refine bind (repeated ?_ Ramp.steps) fun _ => storePll p .power _
    refine bind (storePll p .power _) fun _ => bind (wait ⟨.ramped, access, delay⟩ _) fun _ => ?_
    exact bind (storePll p .power _) fun _ => wait ⟨.ramped, access, delay⟩ _
  | direct => exact at_once
  | custom low high => exact at_once

theorem start (d : Divider) (lockWait : UInt32) :
    (p.start (w.through .bridge) d lockWait).Parallel (Board.Mirrors held)
      (p.start (w.through .direct) d lockWait) := by
  have programs : (p.program (w.through .bridge) d).Parallel (Board.Mirrors held)
      (p.program (w.through .direct) d) := by
    refine bind (storePll p .analog0 _) fun _ => bind (storePll p .analog1 _) fun _ => ?_
    refine bind (storePll p .divider _) fun _ => bind (changePll p .output _) fun _ => ?_
    exact bringUp w p _
  refine bind (setOscillator w _ _) fun _ => bind programs fun _ => bind (wait w _) fun _ => ?_
  refine bind (setOscillator w _ _) fun _ => bind (wait w _) fun _ => bind (wait w _) fun _ => ?_
  exact changePll p .output _

end Start

end Action.Parallel

/-- The work of a task is the same through the bridge and at once. -/
theorem Task.work_parallel {held : Option RegisterFile} (k : Task) (w : Wiring) :
    (k.work (w.through .bridge)).Parallel (Board.Mirrors held) (k.work (w.through .direct)) := by
  have tree (f : Word → Word) : (Board.change .treeControl f).Parallel (Board.Mirrors held)
      (Board.change .treeControl f) :=
    .changeWord .treeControl nofun nofun f
  cases k with
  | park => exact tree _
  | oscillator o => exact .selectOscillator w o
  | powerDown p => exact .storePll p .power _
  | start p d f lockWait => exact .start w p d lockWait
  | tree t =>
    refine .bind (.load .treeControl nofun nofun) fun control => .bind (.lift _) fun divided => ?_
    exact .bind (.store .treeControl nofun _) fun _ => tree _

end ClockControl
