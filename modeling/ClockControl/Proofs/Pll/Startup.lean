import ClockControl.Proofs.Footprint

/-! What a start-up makes of the hardware. It ends with the half-rate tap, or it is cut short by
a missed access: before anything is stored, or behind the closed gate with everything programmed.
Which of them it was shows in the last store to the registers of the PLL. Main statement:
`start_starts`. -/
namespace ClockControl

namespace Pll

/-- A store to a register of the PLL. -/
def Stores (p : Pll) : Event → Bool
  | .store (.pll q _) _ => q = p
  | _ => false

/-- The last store to a register of the PLL. -/
def lastStore (p : Pll) (trace : List (Moment σ)) : Option (Moment σ) :=
  (trace.filter fun m => p.Stores m.event).getLast?

/-- The last store to the registers of the PLL goes to this one. -/
def LastAt (p : Pll) (part : PllPart) (trace : List (Moment σ)) : Prop :=
  ∃ before v, p.lastStore trace = some ⟨before, .store (.pll p part) v⟩

theorem lastStore_append (p : Pll) (xs ys : List (Moment σ)) :
    p.lastStore (xs ++ ys) = (p.lastStore ys).or (p.lastStore xs) := by
  rw [lastStore, List.filter_append, List.getLast?_append]
  rfl

theorem lastStore_eq_none {p : Pll} {trace : List (Moment σ)}
    (h : ∀ m ∈ trace, p.Stores m.event = false) : p.lastStore trace = none := by
  have nothing : trace.filter (fun m => p.Stores m.event) = [] :=
    List.filter_eq_nil_iff.2 fun m hm => by simp [h m hm]
  rw [lastStore, nothing]
  rfl

/-- Moments without a store to the PLL leave the last one as it is. -/
theorem lastStore_append_of_none {p : Pll} (xs : List (Moment σ)) {ys : List (Moment σ)}
    (h : ∀ m ∈ ys, p.Stores m.event = false) : p.lastStore (xs ++ ys) = p.lastStore xs := by
  rw [lastStore_append, lastStore_eq_none h, Option.none_or]

theorem LastAt.append {p : Pll} {part : PllPart} {ys : List (Moment σ)} (h : p.LastAt part ys)
    (xs : List (Moment σ)) : p.LastAt part (xs ++ ys) := by
  obtain ⟨before, v, last⟩ := h
  exact ⟨before, v, by rw [lastStore_append, last, Option.some_or]⟩

theorem LastAt.append_of_none {p : Pll} {part : PllPart} {xs ys : List (Moment σ)}
    (h : p.LastAt part xs) (none : ∀ m ∈ ys, p.Stores m.event = false) :
    p.LastAt part (xs ++ ys) := by
  obtain ⟨before, v, last⟩ := h
  exact ⟨before, v, by rw [lastStore_append_of_none xs none, last]⟩

theorem lastAt_store (p : Pll) (part : PllPart) (b : σ) (v : Word) :
    p.LastAt part [⟨b, .store (.pll p part) v⟩] :=
  ⟨b, v, by simp [lastStore, Stores]⟩

/-- Work stores to a PLL only through the registers of its footprint. -/
theorem stores_of_allows {p : Pll} {F : Footprint} {m : Moment Board} (h : F.Allows m)
    (outside : ∀ part, Register.pll p part ∉ F.registers) : p.Stores m.event = false := by
  obtain ⟨before, event⟩ := m
  cases event with
  | store r v =>
    obtain hr | rfl := h
    · cases r with
      | pll q part =>
        have other : q ≠ p := by
          intro same
          exact outside part (same ▸ hr)
        exact decide_eq_false other
      | _ => rfl
    · rfl
  | _ => rfl

/-- The block with the PLL programmed. -/
def programmed (p : Pll) (d : Divider) (m : Image) : Image :=
  let analog := (m.store (.pll p .analog0) p.recipe.analog0).store (.pll p .analog1)
    p.recipe.analog1
  let divided := analog.store (.pll p .divider) d.word
  let fraction := divided.store (.pll p .output)
    (PllOutput.den.put d.den.toNat (divided.load (.pll p .output)))
  fraction.store (.pll p .power) (p.recipe.ramp d.hasFraction).settle

/-- The block with the half-rate tap of the PLL on. -/
def tapped (p : Pll) (m : Image) : Image :=
  m.store (.pll p .output) (PllOutput.halfTap.put 1 (m.load (.pll p .output)))

theorem programmed_divider (p : Pll) (d : Divider) (m : Image) :
    (p.programmed d m).load (.pll p .divider) = d.word := by
  rw [programmed, Image.load_store_of_ne (by simp), Image.load_store_of_ne (by simp),
    Image.load_store_self]

theorem programmed_analog (p : Pll) (d : Divider) (m : Image) :
    (p.programmed d m).load (.pll p .analog0) = p.recipe.analog0 ∧
      (p.programmed d m).load (.pll p .analog1) = p.recipe.analog1 := by
  constructor
  · simp [programmed, Image.load_store_of_ne]
  · simp [programmed, Image.load_store_of_ne]

theorem programmed_output (p : Pll) (d : Divider) (m : Image) :
    (p.programmed d m).load (.pll p .output) =
      PllOutput.den.put d.den.toNat (m.load (.pll p .output)) := by
  simp [programmed, Image.load_store_of_ne]

theorem programmed_power (p : Pll) (d : Divider) (m : Image) :
    (p.programmed d m).load (.pll p .power) = (p.recipe.ramp d.hasFraction).settle := by
  rw [programmed, Image.load_store_self]

theorem tapped_load {p : Pll} {r : Register} (h : r ≠ .pll p .output) (m : Image) :
    (p.tapped m).load r = m.load r :=
  Image.load_store_of_ne h m _

/-- Programming a PLL anew for the fields that it has changes nothing. -/
theorem programmed_eq_self {p : Pll} {d : Divider} {m : Image}
    (analog0 : m.load (.pll p .analog0) = p.recipe.analog0)
    (analog1 : m.load (.pll p .analog1) = p.recipe.analog1)
    (divider : m.load (.pll p .divider) = d.word)
    (den : PllOutput.den.get (m.load (.pll p .output)) = PllOutput.den.keep d.den.toNat)
    (power : m.load (.pll p .power) = (p.recipe.ramp d.hasFraction).settle) :
    p.programmed d m = m := by
  rw [programmed, Image.store_eq_self analog0, Image.store_eq_self analog1,
    Image.store_eq_self divider, Field.put_eq_self den, Image.store_eq_self rfl,
    Image.store_eq_self power]

theorem programmed_programmed (p : Pll) (d : Divider) (m : Image) :
    p.programmed d (p.programmed d m) = p.programmed d m := by
  obtain ⟨analog0, analog1⟩ := programmed_analog p d m
  refine programmed_eq_self analog0 analog1 (programmed_divider p d m) ?_ (programmed_power p d m)
  rw [programmed_output, Field.get_put]

theorem programmed_agree (p : Pll) (d : Divider) {m n : Image} (h : m.Agree n) :
    (p.programmed d m).Agree (p.programmed d n) := by
  have divided := ((h.store (.pll p .analog0) p.recipe.analog0).store (.pll p .analog1)
    p.recipe.analog1).store (.pll p .divider) d.word
  unfold programmed
  dsimp only
  rw [divided.load_pll p .output]
  exact (divided.store _ _).store _ _

theorem tapped_agree (p : Pll) {m n : Image} (h : m.Agree n) :
    (p.tapped m).Agree (p.tapped n) := by
  unfold tapped
  rw [h.load_pll p .output]
  exact h.store _ _

section Run
variable (p : Pll) (w : Wiring)

theorem stores_wait (b : Board) (us : UInt32) :
    ∀ m ∈ ((w.wait us).run b).trace, p.Stores m.event = false := by
  intro m hm
  have confined : Footprint.Holds ⟨[], []⟩ w.access b ((w.wait us).run b) :=
    Action.Confined.wait w us b
  exact stores_of_allows (confined.moments m hm).2 fun part => List.not_mem_nil

theorem run_store (part : PllPart) (v : Word) (b : Board) :
    (Board.store (.pll p part) v).run b =
      ⟨.ok (), { b with image := b.image.store (.pll p part) v }, [⟨b, .store (.pll p part) v⟩]⟩ := by
  have ordinary : Register.pll p part ≠ .bridgeControl := nofun
  rw [Board.run_store, Board.latch_of_ne ordinary]

theorem run_change (part : PllPart) (f : Word → Word) (b : Board) :
    (Board.change (.pll p part) f).run b =
      ⟨.ok (), { b with image := b.image.store (.pll p part) (f (b.image.load (.pll p part))) },
        [⟨b, .store (.pll p part) (f (b.image.load (.pll p part)))⟩]⟩ := by
  have ordinary : Register.pll p part ≠ .bridgeControl := nofun
  rw [Board.run_change ordinary, Board.latch_of_ne ordinary]

/-- A ramp changes the power word only, so that nothing is left of it once the word is stored. -/
theorem run_ramp (r : Ramp) (n : Nat) (b : Board) : ∃ image trace, (Action.repeated (do
      Board.store (.pll p .power) r.low
      w.wait Ramp.dwell
      Board.store (.pll p .power) r.high
      w.wait Ramp.dwell) n).run b = ⟨.ok (), { b with image := image }, trace⟩ ∧
    ∀ v, image.store (.pll p .power) v = b.image.store (.pll p .power) v := by
  induction n generalizing b with
  | zero => exact ⟨b.image, [], rfl, fun v => rfl⟩
  | succ n ih =>
    obtain ⟨image, trace, rest, same⟩ := ih { b with image := b.image.store (.pll p .power) r.high }
    have round : ∃ trace, (do
        Board.store (.pll p .power) r.low
        w.wait Ramp.dwell
        Board.store (.pll p .power) r.high
        w.wait Ramp.dwell : Action Board Unit).run b =
          ⟨.ok (), { b with image := b.image.store (.pll p .power) r.high }, trace⟩ := by
      rw [Action.run_bind_ok (run_store p .power _ b), Action.run_bind_ok (run_wait w _ _),
        Action.run_bind_ok (run_store p .power _ _), run_wait w]
      exact ⟨_, by rw [Image.store_store_self]⟩
    obtain ⟨before, round⟩ := round
    refine ⟨image, before ++ trace, ?_, ?_⟩
    · exact (Action.run_bind_ok round).trans (by rw [rest])
    · intro v
      rw [same, Image.store_store_self]

/-- Only the settle word is left of the ramp. -/
theorem run_bringUp (r : Ramp) (b : Board) : ∃ trace, (p.bringUp w r).run b =
    ⟨.ok (), { b with image := b.image.store (.pll p .power) r.settle }, trace⟩ ∧
      p.LastAt .power trace := by
  have at_once : ∃ trace, (do
      Board.store (.pll p .power) r.settle
      w.wait Ramp.settleWait : Action Board Unit).run b =
        ⟨.ok (), { b with image := b.image.store (.pll p .power) r.settle }, trace⟩ ∧
          p.LastAt .power trace := by
    have settled := lastAt_store p .power b r.settle
    have waited := stores_wait p w { b with image := b.image.store (.pll p .power) r.settle }
      Ramp.settleWait
    rw [run_wait] at waited
    rw [Action.run_bind_ok (run_store p .power _ b), run_wait]
    exact ⟨_, rfl, settled.append_of_none waited⟩
  unfold bringUp
  cases w.sequencer with
  | ramped =>
    obtain ⟨image, trace, ramp, same⟩ := run_ramp p w r Ramp.steps b
    refine ⟨_, ?_, (lastAt_store p .power { b with image := image } r.settle).append trace⟩
    exact (Action.run_bind_ok ramp).trans (by rw [run_store, same])
  | direct => exact at_once
  | custom low high => exact at_once

/-- Behind the gate everything is a matter of stores. -/
theorem run_program (d : Divider) (b : Board) : ∃ trace, (p.program w d).run b =
    ⟨.ok (), { b with image := p.programmed d b.image }, trace⟩ ∧ p.LastAt .power trace := by
  unfold program
  rw [Action.run_bind_ok (run_store p .analog0 _ b), Action.run_bind_ok (run_store p .analog1 _ _),
    Action.run_bind_ok (run_store p .divider _ _), Action.run_bind_ok (run_change p .output _ _)]
  obtain ⟨trace, up, last⟩ := run_bringUp p w (p.recipe.ramp d.hasFraction) _
  rw [up]
  exact ⟨_, rfl, (((last.append _).append _).append _).append _⟩

/-- What a start-up has made of the board and shown of it. -/
inductive Starts (d : Divider) (b : Board) : Run Board Unit → Prop where
  | done {after : Board} {trace : List (Moment Board)}
      (image : (p.tapped (p.programmed d b.image)).Agree after.image)
      (pmu : after.pmu = b.pmu.write Register.oscillatorControl
        (p.reference.put 1 (b.pmu.read Register.oscillatorControl)))
      (last : p.LastAt .output trace) : Starts d b ⟨.ok (), after, trace⟩
  | unbegun {e : Failure} {after : Board} {trace : List (Moment Board)}
      (image : b.image.Agree after.image) (pmu : after.pmu = b.pmu)
      (last : p.lastStore trace = none) : Starts d b ⟨.error e, after, trace⟩
  | cut {e : Failure} {after : Board} {trace : List (Moment Board)}
      (image : (p.programmed d b.image).Agree after.image)
      (pmu : after.pmu = b.pmu.write Register.oscillatorControl
        (p.reference.put 0 (b.pmu.read Register.oscillatorControl)))
      (last : p.LastAt .power trace) : Starts d b ⟨.error e, after, trace⟩

theorem stores_setOscillator (f : Field 8) (on : Bool) (b : Board) :
    ∀ m ∈ ((w.setOscillator f on).run b).trace, p.Stores m.event = false := by
  intro m hm
  have flag : f ∈ (Footprint.mk [] [f]).flags := List.mem_singleton_self f
  have confined := Action.Confined.setOscillator w flag on b
  exact stores_of_allows (confined.moments m hm).2 fun part => List.not_mem_nil

/-- The second half of a start-up, with everything programmed. -/
def letThrough (lockWait : UInt32) : Action Board Unit := do
  w.wait gateWait
  w.setOscillator p.reference true
  w.wait referenceWait
  w.wait (min lockWait lockWaitLimit)
  Board.change (.pll p .output) (PllOutput.halfTap.put 1)

theorem start_eq (d : Divider) (lockWait : UInt32) : p.start w d lockWait = (do
    w.setOscillator p.reference false
    p.program w d
    p.letThrough w lockWait) := rfl

theorem letThrough_cases (lockWait : UInt32) (b : Board) :
    (∃ after trace, (p.letThrough w lockWait).run b = ⟨.ok (), after, trace⟩ ∧
      (p.tapped b.image).Agree after.image ∧
      after.pmu = b.pmu.write Register.oscillatorControl
        (p.reference.put 1 (b.pmu.read Register.oscillatorControl)) ∧
      p.LastAt .output trace) ∨
    ∃ e after trace, (p.letThrough w lockWait).run b = ⟨.error e, after, trace⟩ ∧
      b.image.Agree after.image ∧ after.pmu = b.pmu ∧
      ∀ m ∈ trace, p.Stores m.event = false := by
  have opening : Pmu.Changes _ _ _ b ((w.setOscillator p.reference true).run b) :=
    Pmu.change_changes w.access Register.oscillatorControl (p.reference.put 1) b
  have opened := stores_setOscillator p w p.reference true b
  have waited := stores_wait p w b gateWait
  rw [run_wait] at waited
  unfold letThrough
  rw [Action.run_bind_ok (run_wait w _ b)]
  rcases ho : (w.setOscillator p.reference true).run b with ⟨e | x, through, trace⟩
  · rw [ho] at opening opened
    rw [Action.run_bind_error ho]
    obtain ⟨ok, -⟩ | ⟨-, pmu, -⟩ := opening.cases
    · cases ok
    · have quiet := List.forall_mem_append.2 ⟨waited, opened⟩
      exact .inr ⟨e, through, _, rfl, opening.alike.image, pmu, quiet⟩
  · rw [ho] at opening
    rw [Action.run_bind_ok ho, Action.run_bind_ok (run_wait w _ _),
      Action.run_bind_ok (run_wait w _ _), run_change]
    obtain ⟨-, pmu⟩ | ⟨lost, -⟩ := opening.cases
    · refine .inl ⟨_, _, rfl, tapped_agree p opening.alike.image, pmu, ?_⟩
      exact ((((lastAt_store p .output _ _).append _).append _).append _).append _
    · cases lost

theorem start_starts (d : Divider) (lockWait : UInt32) (b : Board) :
    p.Starts d b ((p.start w d lockWait).run b) := by
  have closing : Pmu.Changes _ _ _ b ((w.setOscillator p.reference false).run b) :=
    Pmu.change_changes w.access Register.oscillatorControl (p.reference.put 0) b
  have closed := stores_setOscillator p w p.reference false b
  rw [start_eq]
  rcases hc : (w.setOscillator p.reference false).run b with ⟨e | x, gated, before⟩
  · rw [hc] at closing closed
    rw [Action.run_bind_error hc]
    obtain ⟨ok, -⟩ | ⟨-, pmu, -⟩ := closing.cases
    · cases ok
    · exact .unbegun closing.alike.image pmu (lastStore_eq_none closed)
  · rw [hc] at closing
    obtain ⟨-, gated_pmu⟩ | ⟨lost, -⟩ := closing.cases
    · obtain ⟨programming, program, last⟩ := run_program p w d gated
      have image := programmed_agree p d closing.alike.image
      rw [Action.run_bind_ok hc, Action.run_bind_ok program]
      obtain ⟨after, trace, run, tapped, pmu, last⟩ | ⟨e, after, trace, run, agree, pmu, quiet⟩ :=
        letThrough_cases p w lockWait { gated with image := p.programmed d gated.image }
      · have reopened : after.pmu = b.pmu.write Register.oscillatorControl
            (p.reference.put 1 (b.pmu.read Register.oscillatorControl)) := by
          rw [pmu, gated_pmu, RegisterFile.write_write, RegisterFile.read_write_self, Field.put_put]
        rw [run]
        exact .done ((tapped_agree p image).trans tapped) reopened ((last.append _).append _)
      · rw [run]
        exact .cut (image.trans agree) (pmu.trans gated_pmu)
          ((last.append_of_none quiet).append before)
    · cases lost

end Run
end Pll
end ClockControl
