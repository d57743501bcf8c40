import ClockControl.Proofs.Oscillator.Selection
import ClockControl.Proofs.Pll.Bias
import ClockControl.Proofs.Refusal
import ClockControl.Proofs.Stores

/-! A PLL is programmed behind the closed gate of its reference. Only the half-rate tap is stored
with the gate open, at the end and after the full waits; a start-up that misses an access has stored
nothing, or everything but the tap, and then the gate stays closed. Main statements:
`Pll.start_ends` and `Controller.programmed_behind_gate`. -/
namespace ClockControl

theorem delayIn_eq_zero {trace : List (Moment Board)} (h : ∀ m ∈ trace, m.event.requested = 0) :
    delayIn trace = 0 :=
  List.sum_eq_zero (List.forall_mem_map.2 h)

/-- Nothing that an access shows is a wait. -/
theorem Cycle.Shows.requested {via : Access} {c : Cycle} {e : Event} (h : c.Shows via e) :
    e.requested = 0 := by
  cases h <;> rfl

/-- Reading a register and writing it back is idle but for the event that carries out the write. -/
theorem Pmu.change_passes (via : Access) (reg : Byte) (f : Byte → Byte) (b : Board) :
    (Cycle.write reg (f (b.pmu.read reg))).Passes b ((change via reg f).run b) := by
  have reading := read_transfer via reg b
  have idle : ∀ m ∈ ((read via reg).run b).trace, Idle b m := by
    intro m hm
    obtain ⟨meanwhile, shows⟩ := reading.moments m hm
    exact .of_reading meanwhile.pmu shows
  rcases hr : (read via reg).run b with ⟨outcome, mid, front⟩
  rw [hr] at reading idle
  by_cases answered : b.Answers via (b.accesses + 1)
  · obtain ⟨rfl, same⟩ := reading.answered answered
    have pmu : mid.pmu = b.pmu := same
    have here {m : Moment Board} (h : Idle mid m) : Idle b m :=
      ⟨h.before.trans pmu, h.result.trans pmu, h.note⟩
    have passes := write_passes via reg (f (b.pmu.read reg)) mid
    rw [change, Action.run_bind_ok hr]
    generalize (write via reg (f (b.pmu.read reg))).run mid = r at passes ⊢
    cases passes with
    | done late before result silent after =>
      rw [← List.append_assoc]
      refine .done ?_ (before.trans pmu) ?_ silent ?_
      · exact List.forall_mem_append.2 ⟨idle, fun m hm => here (late m hm)⟩
      · rw [result, pmu]
      · rw [after, pmu]
    | lost late after =>
      refine .lost ?_ (after.trans pmu)
      exact List.forall_mem_append.2 ⟨idle, fun m hm => here (late m hm)⟩
  · obtain ⟨rfl, pmu⟩ := reading.lost answered
    rw [change, Action.run_bind_error hr]
    exact .lost idle pmu

/-- The delay of a start-up without the wait for the lock, in microseconds. -/
def Sequencer.startTime : Sequencer → Nat
  | .ramped => 1320
  | .direct | .custom _ _ => 170

namespace Pll

/-- The stores to the registers of the PLL. -/
def block (p : Pll) (trace : List (Moment σ)) : List (Moment σ) :=
  trace.filter fun m => p.Stores m.event

@[simp] theorem block_append (p : Pll) (xs ys : List (Moment σ)) :
    p.block (xs ++ ys) = p.block xs ++ p.block ys :=
  List.filter_append _ _

theorem block_eq_nil {p : Pll} {trace : List (Moment σ)} :
    p.block trace = [] ↔ ∀ m ∈ trace, p.Stores m.event = false := by
  simp [block]

/-- Moments that leave the PMU in the state `state`, with these stores to the PLL and so many
microseconds of delay. -/
structure Span (p : Pll) (state : RegisterFile) (trace : List (Moment Board)) (stores : List Event)
    (us : Nat) : Prop where
  pmu : ∀ m ∈ trace, m.before.pmu = state
  stores : (p.block trace).map (·.event) = stores
  delay : delayIn trace = us

namespace Span
variable {p : Pll} {state : RegisterFile} {xs ys : List (Moment Board)} {evs evs' : List Event}
  {us us' : Nat}

theorem nil : p.Span state [] [] 0 := ⟨List.forall_mem_nil _, rfl, rfl⟩

theorem append (h : p.Span state xs evs us) (h' : p.Span state ys evs' us') :
    p.Span state (xs ++ ys) (evs ++ evs') (us + us') where
  pmu := List.forall_mem_append.2 ⟨h.pmu, h'.pmu⟩
  stores := by rw [block_append, List.map_append, h.stores, h'.stores]
  delay := by
    rw [delayIn, List.map_append, List.sum_append]
    exact congrArg₂ (· + ·) h.delay h'.delay

theorem store (p : Pll) (part : PllPart) (v : Word) (b : Board) :
    p.Span b.pmu [⟨b, .store (.pll p part) v⟩] [.store (.pll p part) v] 0 where
  pmu m hm := by rw [List.mem_singleton.1 hm]
  stores := by simp [Pll.block, Stores]
  delay := rfl

theorem wait (p : Pll) (w : Wiring) (us : UInt32) (b : Board) :
    p.Span b.pmu [⟨b, w.delay.event b.published us⟩] [] us.toNat where
  pmu m hm := by rw [List.mem_singleton.1 hm]
  stores := by cases h : w.delay <;> rfl
  delay := by rw [delayIn, List.map_singleton, List.sum_singleton, Delay.requested_event]

theorem block (h : p.Span state xs [] us) : p.block xs = [] := List.map_eq_nil_iff.1 h.stores

end Span

/-- The gate has been set, by the last event of the run, or it is as it was. -/
inductive Gates (p : Pll) (on : Bool) (b : Board) : Run Board Unit → Prop where
  | done {after : Board} {front : List (Moment Board)} {m : Moment Board}
      (span : p.Span b.pmu (front ++ [m]) [] 0) (image : b.image.Agree after.image)
      (result : m.result = after.pmu) (gate : p.gate after.pmu = on.toNat) :
      Gates p on b ⟨.ok (), after, front ++ [m]⟩
  | lost {e : Failure} {after : Board} {trace : List (Moment Board)}
      (span : p.Span b.pmu trace [] 0) (pmu : after.pmu = b.pmu) :
      Gates p on b ⟨.error e, after, trace⟩

theorem setOscillator_gates (p : Pll) (w : Wiring) (on : Bool) (b : Board) :
    p.Gates on b ((w.setOscillator p.reference on).run b) := by
  have changes : Pmu.Changes _ _ _ b ((w.setOscillator p.reference on).run b) :=
    Pmu.change_changes w.access Register.oscillatorControl (p.reference.put on.toNat) b
  have passes : Cycle.Passes _ b ((w.setOscillator p.reference on).run b) :=
    Pmu.change_passes w.access Register.oscillatorControl (p.reference.put on.toNat) b
  have span : p.Span b.pmu ((w.setOscillator p.reference on).run b).trace [] 0 := by
    constructor
    · exact fun m hm => (changes.moments m hm).1.pmu
    · exact List.map_eq_nil_iff.2 (block_eq_nil.2 (stores_setOscillator p w p.reference on b))
    · refine delayIn_eq_zero fun m hm => ?_
      obtain ⟨-, shows | shows⟩ := changes.moments m hm
      · exact shows.requested
      · exact shows.requested
  have image := changes.alike.image
  generalize (w.setOscillator p.reference on).run b = r at passes span image
  cases passes with
  | done idle before result silent pmu =>
    refine .done span image (result.trans pmu.symm) ?_
    rw [pmu, Cycle.apply, gate_eq, RegisterFile.read_write_self, Field.get_put]
    cases p <;> cases on <;> rfl
  | lost idle pmu => exact .lost span pmu

/-- The action takes the bias through these words in so many microseconds, whatever the board, and
leaves all but the block as it is. -/
def Raises (p : Pll) (a : Action Board Unit) (words : List Word) (us : Nat) : Prop :=
  ∀ b, ∃ image trace, a.run b = ⟨.ok (), { b with image := image }, trace⟩ ∧
    p.Span b.pmu trace (words.map (.store (.pll p .power))) us

namespace Raises
variable {p : Pll} {a a' : Action Board Unit} {words words' : List Word} {us us' : Nat}

theorem nothing : p.Raises (pure ()) [] 0 := fun b => ⟨b.image, [], rfl, .nil⟩

theorem bind (ha : p.Raises a words us) (ha' : p.Raises a' words' us') :
    p.Raises (a >>= fun _ => a') (words ++ words') (us + us') := by
  intro b
  obtain ⟨image, trace, run, span⟩ := ha b
  obtain ⟨image', trace', run', span'⟩ := ha' { b with image := image }
  refine ⟨image', trace ++ trace', ?_, ?_⟩
  · rw [Action.run_bind_ok run, run']
  · rw [List.map_append]
    exact span.append span'

theorem repeated (ha : p.Raises a words us) (n : Nat) :
    p.Raises (a.repeated n) (List.replicate n words).flatten (n * us) := by
  induction n with
  | zero =>
    rw [Nat.zero_mul]
    exact nothing
  | succ n ih =>
    rw [Nat.succ_mul, Nat.add_comm (n * us)]
    exact ha.bind ih

theorem wait (w : Wiring) (us : UInt32) : p.Raises (w.wait us) [] us.toNat :=
  fun b => ⟨b.image, _, run_wait w us b, .wait p w us b⟩

theorem power (v : Word) : p.Raises (Board.store (.pll p .power) v) [v] 0 :=
  fun b => ⟨_, _, run_store p .power v b, .store p .power v b⟩

end Raises

/-- A run that takes the bias to its settle word, with these stores to the PLL up to there, and in
the time that the sequencer allows for it. -/
inductive Settles (p : Pll) (s : Sequencer) (stores : List Event) (word : Word) (b : Board) :
    Run Board Unit → Prop where
  | intro {after : Board} {front back : List (Moment Board)} {settle : Moment Board} {us us' : Nat}
      (rise : p.Span b.pmu (front ++ [settle]) stores us)
      (settled : settle.event = .store (.pll p .power) word) (rest : p.Span b.pmu back [] us')
      (time : us + us' + 120 = s.startTime) :
      Settles p s stores word b ⟨.ok (), after, front ++ [settle] ++ back⟩

/-- A store before it. -/
theorem Settles.store {p : Pll} {s : Sequencer} {stores : List Event} {word : Word} {b : Board}
    {a : Action Board Unit} {part : PllPart} {v : Word}
    (h : p.Settles s stores word { b with image := b.image.store (.pll p part) v }
      (a.run { b with image := b.image.store (.pll p part) v })) :
    p.Settles s (.store (.pll p part) v :: stores) word b
      ((Board.store (.pll p part) v >>= fun _ => a).run b) := by
  rw [Action.run_bind_ok (run_store p part v b)]
  generalize a.run { b with image := b.image.store (.pll p part) v } = r at h ⊢
  cases h with
  | intro rise settled rest time =>
    have rise' := (Span.store p part v b).append rise
    rw [← List.append_assoc] at rise'
    simp only [← List.append_assoc]
    refine .intro rise' settled rest ?_
    omega

theorem bringUp_settles (p : Pll) (w : Wiring) (r : Ramp) (b : Board) :
    p.Settles w.sequencer ((r.words w.sequencer).map (.store (.pll p .power))) r.settle b
      ((p.bringUp w r).run b) := by
  have at_once {s : Sequencer} (time : s.startTime = 170) :
      p.Settles s [.store (.pll p .power) r.settle] r.settle b ((do
        Board.store (.pll p .power) r.settle
        w.wait Ramp.settleWait : Action Board Unit).run b) := by
    have rise : p.Span b.pmu ([] ++ [⟨b, .store (.pll p .power) r.settle⟩]) _ 0 :=
      .store p .power r.settle b
    have rest : p.Span b.pmu _ [] 50 := .wait p w Ramp.settleWait
      { b with image := b.image.store (.pll p .power) r.settle }
    rw [Action.run_bind_ok (run_store p .power _ b), run_wait]
    exact .intro rise rfl rest time.symm
  have round : p.Raises (do
      Board.store (.pll p .power) r.low
      w.wait Ramp.dwell
      Board.store (.pll p .power) r.high
      w.wait Ramp.dwell) [r.low, r.high] 40 :=
    (Raises.power r.low).bind ((Raises.wait w _).bind ((Raises.power r.high).bind (.wait w _)))
  unfold bringUp
  cases w.sequencer with
  | ramped =>
    obtain ⟨image, trace, run, span⟩ := round.repeated Ramp.steps b
    rw [Action.run_bind_ok run, run_store]
    have rise := span.append (.store p .power r.settle { b with image := image })
    rw [Ramp.words, List.map_append, ← List.append_nil (trace ++ _)]
    exact .intro rise rfl .nil rfl
  | direct => exact at_once rfl
  | custom low high => exact at_once rfl

/-- What a start-up stores behind the closed gate: the analog settings, the divider and its
denominator, and the bias words. -/
def programming (p : Pll) (s : Sequencer) (d : Divider) (output : Word) : List Event :=
  .store (.pll p .analog0) p.recipe.analog0 :: .store (.pll p .analog1) p.recipe.analog1 ::
    .store (.pll p .divider) d.word ::
    .store (.pll p .output) (PllOutput.den.put d.den.toNat output) ::
    ((p.recipe.ramp d.hasFraction).words s).map (.store (.pll p .power))

/-- The store that turns the half-rate tap on. -/
def tapping (p : Pll) (d : Divider) (output : Word) : Event :=
  .store (.pll p .output) (PllOutput.halfTap.put 1 (PllOutput.den.put d.den.toNat output))

theorem program_settles (p : Pll) (w : Wiring) (d : Divider) (b : Board) :
    p.Settles w.sequencer (p.programming w.sequencer d (b.image.load (.pll p .output)))
      (p.recipe.ramp d.hasFraction).settle b ((p.program w d).run b) := by
  have output : (((b.image.store (.pll p .analog0) p.recipe.analog0).store (.pll p .analog1)
      p.recipe.analog1).store (.pll p .divider) d.word).load (.pll p .output) =
        b.image.load (.pll p .output) := by
    simp [Image.load_store_of_ne]
  have change (f : Word → Word) (a : Action Board Unit) (b : Board) :
      (Board.change (.pll p .output) f >>= fun _ => a).run b = (do
        Board.store (.pll p .output) (f (b.image.load (.pll p .output)))
        a : Action Board Unit).run b := by
    rw [Action.run_bind_ok (run_change p .output f b), Action.run_bind_ok (run_store p .output _ b)]
  unfold program programming
  rw [← output]
  refine .store (.store (.store ?_))
  rw [change]
  exact .store (bringUp_settles p w _ _)

/-- The moments of a start-up that comes to its end: those up to the settle word, those up to the
event that opens the gate, those up to the tap, and what is left. -/
structure Parts where
  front : List (Moment Board)
  settle : Moment Board
  pause : List (Moment Board)
  opening : Moment Board
  lock : List (Moment Board)
  tap : Moment Board
  rest : List (Moment Board)

def Parts.trace (x : Parts) : List (Moment Board) :=
  x.front ++ [x.settle] ++ (x.pause ++ [x.opening]) ++ (x.lock ++ [x.tap]) ++ x.rest

/-- The course of a start-up with the divider fields `d`. -/
structure Course (p : Pll) (s : Sequencer) (d : Divider) (lockWait : UInt32) (output : Word)
    (x : Parts) : Prop where
  /-- Up to the settle word everything but the tap is stored, behind the closed gate. -/
  programmed : (p.block (x.front ++ [x.settle])).map (·.event) = p.programming s d output
  gated : ∀ m ∈ p.block (x.front ++ [x.settle]), p.gate m.before.pmu = 0
  settled : x.settle.event = .store (.pll p .power)
    (if d.frac = 0 then p.recipe.integer.settle else p.recipe.fractional.settle)
  /-- The gate stays closed until it is opened. -/
  closed : ∀ m ∈ x.pause ++ [x.opening], p.gate m.before.pmu = 0
  opening : p.gate x.opening.result = 1
  opened : ∀ m ∈ x.lock ++ [x.tap], p.gate m.before.pmu = 1
  tapped : x.tap.event = p.tapping d output
  silent : ∀ m ∈ x.pause ++ [x.opening] ++ x.lock ++ x.rest, p.Stores m.event = false
  pause : 20 ≤ delayIn x.pause
  lock : 100 + min lockWait.toNat 10 ≤ delayIn x.lock
  total : delayIn x.trace = s.startTime + min lockWait.toNat 10

/-- How a start-up of the PLL ends. -/
inductive Ends (p : Pll) (s : Sequencer) (d : Divider) (lockWait : UInt32) (output : Word) :
    Run Board Unit → Prop where
  | done {after : Board} {x : Parts} (course : p.Course s d lockWait output x) :
      Ends p s d lockWait output ⟨.ok (), after, x.trace⟩
  | unbegun {e : Failure} {after : Board} {trace : List (Moment Board)}
      (nothing : p.block trace = []) : Ends p s d lockWait output ⟨.error e, after, trace⟩
  | cut {e : Failure} {after : Board} {trace : List (Moment Board)}
      (programmed : (p.block trace).map (·.event) = p.programming s d output)
      (gated : ∀ m ∈ p.block trace, p.gate m.before.pmu = 0) (closed : p.gate after.pmu = 0) :
      Ends p s d lockWait output ⟨.error e, after, trace⟩

/-- The wait for the lock is cut to 10 microseconds. -/
theorem lockWait_toNat (us : UInt32) : (min us lockWaitLimit).toNat = min us.toNat 10 := by
  have limit : lockWaitLimit.toNat = 10 := rfl
  show (if us ≤ lockWaitLimit then us else lockWaitLimit).toNat = min us.toNat 10
  split
  · rename_i short
    rw [UInt32.le_iff_toNat_le, limit] at short
    rw [Nat.min_eq_left short]
  · rename_i long
    rw [UInt32.le_iff_toNat_le, limit] at long
    rw [limit, Nat.min_eq_right (by omega)]

/-- The second half of a start-up: the gate has been opened and the tap turned on, or nothing has
changed. -/
inductive Opens (p : Pll) (lockWait : UInt32) (state : RegisterFile) (output : Word) :
    Run Board Unit → Prop where
  | done {after : Board} {pause lock : List (Moment Board)} {opening tap : Moment Board}
      (closed : p.Span state (pause ++ [opening]) [] 20) (waited : delayIn pause = 20)
      (opens : p.gate opening.result = 1)
      (opened : p.Span opening.result lock [] (100 + min lockWait.toNat 10))
      (before : tap.before.pmu = opening.result)
      (tapped : tap.event = .store (.pll p .output) (PllOutput.halfTap.put 1 output)) :
      Opens p lockWait state output ⟨.ok (), after, pause ++ [opening] ++ (lock ++ [tap])⟩
  | lost {e : Failure} {after : Board} {trace : List (Moment Board)} {us : Nat}
      (span : p.Span state trace [] us) (pmu : after.pmu = state) :
      Opens p lockWait state output ⟨.error e, after, trace⟩

theorem letThrough_opens (p : Pll) (w : Wiring) (lockWait : UInt32) (b : Board) :
    p.Opens lockWait b.pmu (b.image.load (.pll p .output)) ((p.letThrough w lockWait).run b) := by
  have opening := setOscillator_gates p w true b
  have waited := Span.wait p w gateWait b
  unfold letThrough
  rw [Action.run_bind_ok (run_wait w _ b)]
  generalize hr : (w.setOscillator p.reference true).run b = r at opening
  cases opening with
  | lost span pmu =>
    rw [Action.run_bind_error hr]
    exact .lost (waited.append span) pmu
  | @done after front m span image result high =>
    rw [Action.run_bind_ok hr, Action.run_bind_ok (run_wait w _ _),
      Action.run_bind_ok (run_wait w _ _), run_change, image.load_pll]
    have settled := (Span.wait p w referenceWait after).append
      (.wait p w (min lockWait lockWaitLimit) after)
    rw [lockWait_toNat] at settled
    rw [← result] at settled high
    have shape (first second third tap : Moment Board) :
        [first] ++ (front ++ [m] ++ ([second] ++ ([third] ++ [tap]))) =
          [first] ++ front ++ [m] ++ ([second] ++ [third] ++ [tap]) := by
      simp only [List.append_assoc]
    have closed := waited.append span
    rw [← List.append_assoc] at closed
    have pause : delayIn ([⟨b, w.delay.event b.published gateWait⟩] ++ front) = 20 := by
      have none := span.delay
      rw [delayIn, List.map_append, List.sum_append] at none ⊢
      rw [(Nat.add_eq_zero_iff.1 none).1]
      exact waited.delay
    dsimp only
    rw [shape]
    exact .done closed pause high settled result.symm rfl

/-- The settle word goes by the fraction field. -/
theorem settle_eq (p : Pll) (d : Divider) : (p.recipe.ramp d.hasFraction).settle =
    if d.frac = 0 then p.recipe.integer.settle else p.recipe.fractional.settle := by
  unfold Recipe.ramp Divider.hasFraction
  by_cases none : d.frac = 0
  · rw [if_pos none, if_neg (by simp [none])]
  · rw [if_neg none, if_pos (by simp [none])]

/-- The two halves of a start-up make one, after the gate has been closed. -/
theorem Settles.ends {p : Pll} {s : Sequencer} {d : Divider} {lockWait : UInt32} {output : Word}
    {b g : Board} {r r' : Run Board Unit} {closing : List (Moment Board)}
    (before : p.Span b.pmu closing [] 0) (closed : p.gate g.pmu = 0)
    (settles : p.Settles s (p.programming s d output)
      (if d.frac = 0 then p.recipe.integer.settle else p.recipe.fractional.settle) g r)
    (opens : p.Opens lockWait g.pmu (PllOutput.den.put d.den.toNat output) r') :
    p.Ends s d lockWait output ⟨r'.outcome, r'.after, closing ++ (r.trace ++ r'.trace)⟩ := by
  -- The gate stays closed for as long as the PMU is as the closing has left it.
  have shut {trace : List (Moment Board)} {stores : List Event} {us : Nat}
      (h : p.Span g.pmu trace stores us) : ∀ m ∈ trace, p.gate m.before.pmu = 0 := by
    intro m hm
    rw [h.pmu m hm]
    exact closed
  cases settles with
  | @intro _ front back settle us us' rise settled rest time =>
    have programmed : p.block (closing ++ front ++ [settle]) = p.block (front ++ [settle]) := by
      rw [List.append_assoc, block_append, before.block, List.nil_append]
    have gated : ∀ m ∈ p.block (front ++ [settle]), p.gate m.before.pmu = 0 :=
      fun m hm => shut rise m (List.mem_of_mem_filter hm)
    cases opens with
    | @lost e after trace _ span pmu =>
      have block : p.block (closing ++ (front ++ [settle] ++ back ++ trace)) =
          p.block (front ++ [settle]) := by
        rw [block_append, before.block, block_append, span.block, block_append, rest.block,
          List.nil_append, List.append_nil, List.append_nil]
      refine .cut ?_ ?_ ?_
      · rw [block]
        exact rise.stores
      · rw [block]
        exact gated
      · rw [pmu]
        exact closed
    | @done after pause lock opening tap held waited high opened same tapped =>
      have trace :
          closing ++ (front ++ [settle] ++ back ++ (pause ++ [opening] ++ (lock ++ [tap]))) =
            Parts.trace ⟨closing ++ front, settle, back ++ pause, opening, lock, tap, []⟩ := by
        simp [Parts.trace]
      have behind := rest.append held
      rw [← List.append_assoc] at behind
      dsimp only
      rw [trace]
      refine .done ?_
      constructor
      · rw [programmed]
        exact rise.stores
      · rw [programmed]
        exact gated
      · exact settled
      · exact shut behind
      · exact high
      · refine List.forall_mem_append.2 ⟨fun m hm => ?_, List.forall_mem_singleton.2 ?_⟩
        · rw [opened.pmu m hm]
          exact high
        · rw [same]
          exact high
      · exact tapped
      · rw [List.append_nil]
        refine block_eq_nil.1 ?_
        rw [block_append, behind.block, opened.block]
        rfl
      · rw [delayIn, List.map_append, List.sum_append]
        exact Nat.le_add_left_of_le waited.ge
      · exact opened.delay.ge
      · have none : tap.event.requested = 0 := by
          rw [tapped]
          rfl
        have closing := before.delay
        have raised := rise.delay
        have settling := rest.delay
        have pausing := held.delay
        have locking := opened.delay
        rw [← trace]
        simp only [delayIn, List.map_append, List.sum_append, List.map_singleton,
          List.sum_singleton] at closing raised settling pausing locking ⊢
        omega

theorem start_ends (p : Pll) (w : Wiring) (d : Divider) (lockWait : UInt32) (b : Board) :
    p.Ends w.sequencer d lockWait (b.image.load (.pll p .output))
      ((p.start w d lockWait).run b) := by
  have closing := setOscillator_gates p w false b
  rw [start_eq]
  generalize hc : (w.setOscillator p.reference false).run b = r at closing
  cases closing with
  | lost span pmu =>
    rw [Action.run_bind_error hc]
    exact .unbegun span.block
  | @done g _ _ before image _ closed =>
    have settles := program_settles p w d g
    have opens : p.Opens lockWait g.pmu _ _ :=
      letThrough_opens p w lockWait { g with image := p.programmed d g.image }
    obtain ⟨trace, program, -⟩ := run_program p w d g
    rw [program, settle_eq, image.load_pll] at settles
    rw [programmed_output, image.load_pll] at opens
    rw [Action.run_bind_ok hc, Action.run_bind_ok program]
    exact settles.ends before closed opens

section End
variable {p : Pll} {s : Sequencer} {d : Divider} {lockWait : UInt32} {output : Word} {x : Parts}

/-- Only the tap is stored after the settle word. -/
theorem Course.block (h : p.Course s d lockWait output x) :
    p.block x.trace = p.block (x.front ++ [x.settle]) ++ [x.tap] := by
  have silent := block_eq_nil.2 h.silent
  simp only [block_append, List.append_eq_nil_iff] at silent
  obtain ⟨⟨⟨pause, opening⟩, lock⟩, rest⟩ := silent
  have tap : p.block [x.tap] = [x.tap] := by
    simp [Pll.block, h.tapped, tapping, Stores]
  rw [Parts.trace, block_append, block_append, block_append, block_append p x.pause,
    block_append p x.lock, pause, opening, lock, rest, tap]
  simp only [List.append_nil, List.nil_append]

theorem Course.lastStore (h : p.Course s d lockWait output x) :
    p.lastStore x.trace = some x.tap := by
  show (p.block x.trace).getLast? = some x.tap
  rw [h.block, List.getLast?_concat]

/-- Moments that show nothing may follow. -/
theorem Ends.append {r r' : Run Board Unit} (h : p.Ends s d lockWait output r)
    {rest : List (Moment Board)} (silent : ∀ m ∈ rest, p.Stores m.event = false)
    (still : delayIn rest = 0) (outcome : r'.outcome = r.outcome)
    (trace : r'.trace = r.trace ++ rest) (pmu : r'.after.pmu = r.after.pmu) :
    p.Ends s d lockWait output r' := by
  obtain ⟨outcome', after', trace'⟩ := r'
  obtain rfl := outcome
  obtain rfl := trace
  have block (trace : List (Moment Board)) : p.block (trace ++ rest) = p.block trace := by
    rw [block_append, block_eq_nil.2 silent, List.append_nil]
  cases h with
  | @done _ x course =>
    have longer : x.trace ++ rest = Parts.trace { x with rest := x.rest ++ rest } := by
      simp only [Parts.trace, List.append_assoc]
    dsimp only
    rw [longer]
    refine .done { course with silent := ?_, total := ?_ }
    · rw [← List.append_assoc]
      exact List.forall_mem_append.2 ⟨course.silent, silent⟩
    · rw [← longer, delayIn, List.map_append, List.sum_append]
      exact (congrArg₂ (· + ·) course.total still).trans (Nat.add_zero _)
  | unbegun nothing =>
    refine .unbegun ?_
    rw [block]
    exact nothing
  | cut programmed gated closed =>
    refine .cut ?_ ?_ ?_
    · rw [block]
      exact programmed
    · rw [block]
      exact gated
    · rw [pmu]
      exact closed

end End

end Pll

/-- The operation asks for the PLL to be started as planned, with so long a wait for its lock. -/
inductive Operation.Starts (c : Controller) :
    Operation → Pll → Attempt (Divider × Hertz) → UInt32 → Prop where
  | system (ratio : SystemRatio) (lockWait : UInt32) :
      Starts c (.setSpll (some ratio) lockWait) .system (ratio.plan c.wiring.sequencer c.crystal)
        lockWait
  | audio (ratio : AudioRatio) (lockWait : UInt32) :
      Starts c (.setAupll (some ratio) lockWait) .audio (ratio.plan c.wiring.sequencer c.crystal)
        lockWait

namespace Controller
variable {rig : Rig} {op : Operation} {p : Pll} {plan : Attempt (Divider × Hertz)}
  {lockWait : UInt32}

/-- A request that is accepted is the start of the PLL as planned. -/
theorem performs_start (starts : op.Starts rig.controller p plan lockWait)
    (accepted : ¬Refused (op.action.run rig)) :
    ∃ d f, plan = .ok (d, f) ∧ (Task.start p d f lockWait).Ready rig ∧
      op.action.run rig = (perform (.start p d f lockWait)).run rig := by
  cases starts with
  | system ratio =>
    obtain ⟨k, request, ready, run⟩ := (setSpll_answers (some ratio) lockWait rig).of_not_refused
      (Task.ofSystem_decides rig _ lockWait) accepted
    unfold Task.ofSystem at request
    split at request
    · cases request
    · obtain ⟨⟨d, f⟩, plan, request⟩ := Attempt.bind_ok request
      cases request
      exact ⟨d, f, plan, ready, run⟩
  | audio ratio =>
    obtain ⟨k, request, ready, run⟩ := (setAupll_answers (some ratio) lockWait rig).of_not_refused
      (Task.ofAudio_decides rig _ lockWait) accepted
    obtain ⟨⟨d, f⟩, plan, request⟩ := Attempt.bind_ok request
    cases request
    exact ⟨d, f, plan, ready, run⟩

/-- Whatever state a controller is in and whichever accesses to the PMU fail: a start of a PLL that
is accepted stores everything but the tap behind the closed gate of the reference, and lets the
reference through and turns the tap on after the full waits; or it misses an access, and then it has
stored nothing, or everything but the tap, and the gate stays closed. -/
theorem programmed_behind_gate (starts : op.Starts rig.controller p plan lockWait)
    (accepted : ¬Refused (op.action.run rig)) : ∃ d f, plan = .ok (d, f) ∧
      let s := rig.controller.wiring.sequencer
      let output := rig.board.image.load (.pll p .output)
      let r := (op.action.run rig).mapState (·.board)
      (∀ m ∈ p.block r.trace, p.gate m.before.pmu = 0 ∨
        r.outcome = .ok () ∧ p.lastStore r.trace = some m ∧ m.event = p.tapping d output) ∧
      (r.outcome = .ok () → ∃ x : Pll.Parts, r.trace = x.trace ∧
        p.Course s d lockWait output x) ∧
      ∀ e, r.outcome = .error e → e = .error (.timeout Register.oscillatorControl) ∧
        (p.block r.trace = [] ∨
          (p.block r.trace).map (·.event) = p.programming s d output ∧
            p.gate r.after.pmu = 0) := by
  obtain ⟨d, f, planned, ready, run⟩ := performs_start starts accepted
  refine ⟨d, f, planned, ?_⟩
  intro s output r
  obtain ⟨outcome, pmu, notes, trace, silent⟩ := perform_onBoard (.start p d f lockWait) rig
  rw [← run] at outcome pmu trace
  have ends : p.Ends s d lockWait output r := by
    have quiet : ∀ m ∈ notes, p.Stores m.event = false ∧ m.event.requested = 0 := by
      intro m hm
      obtain ⟨n, note⟩ := silent m hm
      rw [note]
      exact ⟨rfl, rfl⟩
    have still : delayIn notes = 0 := delayIn_eq_zero fun m hm => (quiet m hm).2
    exact (Pll.start_ends p _ d lockWait rig.board).append (fun m hm => (quiet m hm).1) still
      outcome trace pmu
  have failure : ∀ e, r.outcome = .error e → e = .error (.timeout Register.oscillatorControl) := by
    intro e failed
    rw [outcome] at failed
    have confined := Action.Confined.start p rig.controller.wiring d lockWait rig.board
    exact (confined.failure e failed).1
  generalize r = r at ends failure
  cases ends with
  | @done after x course =>
    refine ⟨?_, fun _ => ⟨x, rfl, course⟩, nofun⟩
    intro m hm
    rw [course.block] at hm
    obtain hm | hm := List.mem_append.1 hm
    · exact .inl (course.gated m hm)
    · obtain rfl := List.mem_singleton.1 hm
      exact .inr ⟨rfl, course.lastStore, course.tapped⟩
  | unbegun nothing =>
    refine ⟨?_, nofun, fun e failed => ⟨failure e failed, .inl nothing⟩⟩
    rw [nothing]
    exact List.forall_mem_nil _
  | cut programmed gated closed =>
    exact ⟨fun m hm => .inl (gated m hm), nofun,
      fun e failed => ⟨failure e failed, .inr ⟨programmed, closed⟩⟩⟩

/-- Updated silicon takes 175 microseconds with a wait of 5 for the lock. If the access is missed
that would open the gate, everything but the tap has been stored. -/
theorem system_pll_started_behind_gate :
    let op : Operation := .setSpll (some ⟨8, 0⟩) 5
    let fresh : Controller := .fresh ⟨.direct, .direct, .timer⟩ boardCrystal
    let done := (op.action.run ⟨.blank, fresh⟩).mapState (·.board)
    let missed :=
      (op.action.run ⟨{ Board.blank with fails := (· == 4) }, fresh⟩).mapState (·.board)
    (done.outcome = .ok () ∧ delayIn done.trace = 175 ∧ ∃ x : Pll.Parts, done.trace = x.trace ∧
      x.settle.event = .store (.pll .system .power) 0x000012F0#32 ∧ 20 ≤ delayIn x.pause ∧
      105 ≤ delayIn x.lock) ∧
    missed.outcome = .error (.error (.timeout Register.oscillatorControl)) ∧
      (Pll.block .system missed.trace).length = 5 ∧
      (∀ m ∈ Pll.block .system missed.trace, Pll.gate .system m.before.pmu = 0) ∧
      Pll.gate .system missed.after.pmu = 0 := by
  intro op fresh done missed
  have ok : done.outcome = .ok () := by decide +kernel
  have timedOut : missed.outcome = .error (.error (.timeout Register.oscillatorControl)) := by
    decide +kernel
  have planned : SystemRatio.plan ⟨8, 0⟩ .direct boardCrystal =
      .ok (⟨16, 0, 0⟩, ⟨192000000⟩) := by decide +kernel
  constructor
  · have accepted : ¬Refused (op.action.run ⟨.blank, fresh⟩) := by
      rintro ⟨reason, refused⟩
      cases ok.symm.trans refused
    obtain ⟨d, f, plan, -, course, -⟩ := programmed_behind_gate (.system ⟨8, 0⟩ 5) accepted
    cases planned.symm.trans plan
    obtain ⟨x, trace, course⟩ := course ok
    have total := course.total
    rw [← trace] at total
    exact ⟨ok, total, x, trace, course.settled, course.pause, course.lock⟩
  · have accepted :
        ¬Refused (op.action.run ⟨{ Board.blank with fails := (· == 4) }, fresh⟩) := by
      rintro ⟨reason, refused⟩
      cases timedOut.symm.trans refused
    obtain ⟨d, f, plan, gated, -, cut⟩ := programmed_behind_gate (.system ⟨8, 0⟩ 5) accepted
    cases planned.symm.trans plan
    have behind : ∀ m ∈ Pll.block .system missed.trace, Pll.gate .system m.before.pmu = 0 := by
      intro m hm
      obtain closed | ⟨ok, -⟩ := gated m hm
      · exact closed
      · cases timedOut.symm.trans ok
    have stored : (Pll.block .system missed.trace).length = 5 := by decide +kernel
    obtain ⟨-, nothing | ⟨-, closed⟩⟩ := cut _ timedOut
    · rw [nothing] at stored
      cases stored
    · exact ⟨timedOut, stored, behind, closed⟩

end Controller
end ClockControl
