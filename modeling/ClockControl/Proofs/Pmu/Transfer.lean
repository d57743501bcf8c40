import ClockControl.Pmu.Bus

/-! What one access to the PMU does, at once or through the bridge, and what reading, changing
and writing back a register does. Main statements: `read_transfer`, `write_transfer` and
`change_changes`. The two words of the bridge are left open, since the bridge uses them. -/
namespace ClockControl

/-- The same words, but for the two of the bridge. -/
def Image.Agree (m n : Image) : Prop :=
  ∀ i : Fin 64, i ≠ Register.bridgeControl.index → i ≠ Register.bridgeData.index →
    n.get i = m.get i

namespace Image.Agree

theorem refl (m : Image) : m.Agree m := fun _ _ _ => rfl

theorem symm {m n : Image} (h : m.Agree n) : n.Agree m := fun i hc hd => (h i hc hd).symm

theorem trans {m n o : Image} (h : m.Agree n) (h' : n.Agree o) : m.Agree o :=
  fun i hc hd => (h' i hc hd).trans (h i hc hd)

theorem load {m n : Image} (h : m.Agree n) {r : Register} (hc : r ≠ .bridgeControl)
    (hd : r ≠ .bridgeData) : n.load r = m.load r :=
  h r.index (fun e => hc (Register.index_inj e)) (fun e => hd (Register.index_inj e))

theorem load_pll {m n : Image} (h : m.Agree n) (p : Pll) (part : PllPart) :
    n.load (.pll p part) = m.load (.pll p part) :=
  h.load nofun nofun

theorem load_tree {m n : Image} (h : m.Agree n) :
    n.load .treeControl = m.load .treeControl :=
  h.load nofun nofun

theorem store_control (m : Image) (v : Word) : m.Agree (m.store .bridgeControl v) := by
  intro i hc _
  rw [Image.get_store, if_neg (Ne.symm hc)]

theorem store_data (m : Image) (v : Word) : m.Agree (m.store .bridgeData v) := by
  intro i _ hd
  rw [Image.get_store, if_neg (Ne.symm hd)]

theorem store {m n : Image} (h : m.Agree n) (r : Register) (v : Word) :
    (m.store r v).Agree (n.store r v) := by
  intro i hc hd
  rw [Image.get_store, Image.get_store, h i hc hd]

end Image.Agree

namespace Board

/-- The same board as far as no access to the PMU changes it: the words outside the bridge, the
plan of busy polls and failures, and what the program keeps. -/
structure Alike (a b : Board) : Prop where
  image : a.image.Agree b.image
  busy : b.busy = a.busy
  fails : b.fails = a.fails
  published : b.published = a.published
  booted : b.booted = a.booted

theorem Alike.refl (b : Board) : b.Alike b := ⟨.refl _, rfl, rfl, rfl, rfl⟩

theorem Alike.trans {a b c : Board} (h : a.Alike b) (h' : b.Alike c) : a.Alike c :=
  ⟨h.image.trans h'.image, h'.busy.trans h.busy, h'.fails.trans h.fails,
    h'.published.trans h.published, h'.booted.trans h.booted⟩

/-- A board on which accesses to the PMU are under way, none of which has changed it. -/
structure Meanwhile (a b : Board) : Prop where
  alike : a.Alike b
  pmu : b.pmu = a.pmu
  accesses : a.accesses ≤ b.accesses

theorem Meanwhile.refl (b : Board) : b.Meanwhile b := ⟨.refl b, rfl, Nat.le_refl _⟩

theorem Meanwhile.trans {a b c : Board} (h : a.Meanwhile b) (h' : b.Meanwhile c) :
    a.Meanwhile c :=
  ⟨h.alike.trans h'.alike, h'.pmu.trans h.pmu, Nat.le_trans h.accesses h'.accesses⟩

/-- Whether the access with number `n` is answered. -/
def Answers (b : Board) (via : Access) (n : Nat) : Prop :=
  b.fails n = false ∧ (via = .bridge → b.busy < Pmu.pollLimit)

theorem Alike.answers {a b : Board} (h : a.Alike b) (via : Access) (n : Nat) :
    b.Answers via n ↔ a.Answers via n := by
  rw [Answers, Answers, h.fails, h.busy]

/-- Between the two boards an access has gone without an answer. -/
def Misses (a : Board) (via : Access) (b : Board) : Prop :=
  ∃ n, a.accesses < n ∧ n ≤ b.accesses ∧ ¬a.Answers via n

end Board

/-- The events that a cycle can show as. -/
inductive Cycle.Shows (via : Access) (c : Cycle) : Event → Prop where
  | store (v : Word) : Shows via c (.store .bridgeControl v)
  | cycle (byte : Option Byte) : Shows via c (.cycle via c byte)
  | lost : Shows via c (.note (.cycleLost c.reg))

namespace Pmu

/-- The run of one access that asks for the cycle `c`: it is counted, and answered with `value`
or lost. -/
structure Transfer (via : Access) (c : Cycle) (b : Board) (value : α) (r : Run Board α) :
    Prop where
  accesses : r.after.accesses = b.accesses + 1
  alike : b.Alike r.after
  moments : ∀ m ∈ r.trace, b.Meanwhile m.before ∧ c.Shows via m.event
  answered : b.Answers via (b.accesses + 1) →
    r.outcome = .ok value ∧ r.after.pmu = c.apply b.pmu
  lost : ¬b.Answers via (b.accesses + 1) →
    r.outcome = .error (.error (.timeout c.reg)) ∧ r.after.pmu = b.pmu

theorem run_direct (c : Cycle) (b : Board) : (direct c).run b =
    if b.fails (b.accesses + 1) then
      ⟨.error (.error (.timeout c.reg)), { b with accesses := b.accesses + 1 },
        [⟨b, .cycle .direct c none⟩]⟩
    else
      ⟨.ok (c.byte b.pmu), { b with accesses := b.accesses + 1, pmu := c.apply b.pmu },
        [⟨b, .cycle .direct c (some (c.byte b.pmu))⟩]⟩ := by
  rw [direct, Action.run_bind_ok (Action.run_state b)]
  dsimp only
  split
  · rw [Action.run_bind_ok (Action.run_emit _ b), Action.run_bind_ok (Action.run_update _ b)]
    rfl
  · rw [Action.run_bind_ok (Action.run_emit _ b), Action.run_bind_ok (Action.run_update _ b)]
    rfl

theorem direct_transfer (c : Cycle) (b : Board) :
    Transfer .direct c b (c.byte b.pmu) ((direct c).run b) := by
  rw [run_direct]
  cases h : b.fails (b.accesses + 1) with
  | true =>
    have unanswered : ¬b.Answers .direct (b.accesses + 1) := fun hb => by simp [hb.1] at h
    constructor
    · rfl
    · exact ⟨.refl _, rfl, rfl, rfl, rfl⟩
    · intro m hm
      obtain rfl := List.mem_singleton.1 hm
      exact ⟨.refl b, .cycle _⟩
    · intro hb
      exact absurd hb unanswered
    · intro _
      exact ⟨rfl, rfl⟩
  | false =>
    have answered : b.Answers .direct (b.accesses + 1) := ⟨h, nofun⟩
    constructor
    · rfl
    · exact ⟨.refl _, rfl, rfl, rfl, rfl⟩
    · intro m hm
      obtain rfl := List.mem_singleton.1 hm
      exact ⟨.refl b, .cycle _⟩
    · intro _
      exact ⟨rfl, rfl⟩
    · intro hb
      exact absurd answered hb

/-- A poll of a bridge that stays busy tells nothing but that it is busy. -/
theorem run_load_waiting {b : Board} {k : Nat} (h : b.pending = some (.busy (k + 1))) :
    (Board.load .bridgeControl).run b =
      ⟨.ok (b.image.load .bridgeControl), { b with pending := some (.busy k) }, []⟩ := by
  simp [Board.load, Board.poll, h, Action.run_bind, Action.run_map, Except.map]

theorem run_load_stuck {b : Board} (h : b.pending = some .stuck) :
    (Board.load .bridgeControl).run b = ⟨.ok (b.image.load .bridgeControl), b, []⟩ := by
  simp [Board.load, Board.poll, h, Action.run_bind, Action.run_map, Except.map]

/-- The poll that ends a cycle. -/
theorem run_load_ending {b : Board} (h : b.pending = some (.busy 0)) :
    (Board.load .bridgeControl).run b =
      ⟨.ok (b.finish.image.load .bridgeControl), b.finish,
        [⟨b, .cycle .bridge (Cycle.ofWord (b.image.load .bridgeControl))
          (some ((Cycle.ofWord (b.image.load .bridgeControl)).byte b.pmu))⟩]⟩ := by
  simp [Board.load, Board.poll, h, Action.run_bind, Action.run_map, Except.map]

theorem finish_idle (b : Board) :
    BridgeControl.start.isSet (b.finish.image.load .bridgeControl) = false := by
  have cleared : BridgeControl.start.keep 0 = 0 := rfl
  simp [Board.finish, Field.isSet, cleared]

/-- A cycle that needs fewer polls than there are ends, any other does not. -/
theorem run_idleWithin_busy {b : Board} {k n : Nat} (hp : b.pending = some (.busy k))
    (hs : BridgeControl.start.isSet (b.image.load .bridgeControl) = true) :
    (idleWithin n).run b =
      if k < n then
        ⟨.ok true, { b with pending := some (.busy 0) }.finish,
          [⟨{ b with pending := some (.busy 0) },
            .cycle .bridge (Cycle.ofWord (b.image.load .bridgeControl))
              (some ((Cycle.ofWord (b.image.load .bridgeControl)).byte b.pmu))⟩]⟩
      else
        ⟨.ok false, { b with pending := some (.busy (k - n)) }, []⟩ := by
  induction n generalizing b k with
  | zero =>
    have same : { b with pending := some (.busy (k - 0)) } = b := by cases b; simp_all
    rw [if_neg (Nat.not_lt_zero k), same]
    rfl
  | succ n ih =>
    cases k with
    | zero =>
      have here : { b with pending := some (.busy 0) } = b := by cases b; simp_all
      rw [if_pos (Nat.succ_pos n), here, idleWithin, Action.run_bind_ok (run_load_ending hp),
        if_neg (by simp [finish_idle])]
      rfl
    | succ k =>
      rw [idleWithin, Action.run_bind_ok (run_load_waiting hp), if_pos hs,
        ih (b := { b with pending := some (.busy k) }) rfl hs]
      by_cases h : k < n
      · rw [if_pos h, if_pos (by omega)]
        rfl
      · rw [if_neg h, if_neg (by omega), Nat.add_sub_add_right]
        rfl

theorem run_idleWithin_stuck {b : Board} (n : Nat) (hp : b.pending = some .stuck)
    (hs : BridgeControl.start.isSet (b.image.load .bridgeControl) = true) :
    (idleWithin n).run b = ⟨.ok false, b, []⟩ := by
  induction n with
  | zero => rfl
  | succ n ih =>
    rw [idleWithin, Action.run_bind_ok (run_load_stuck hp), if_pos hs, ih]
    rfl

/-- The board once the bridge has been asked for a cycle. -/
def asked (b : Board) (c : Cycle) : Board := b.latch .bridgeControl c.word

theorem asked_eq (b : Board) (c : Cycle) : asked b c =
    { b with
      image := b.image.store .bridgeControl c.word
      accesses := b.accesses + 1
      pending := some (if b.fails (b.accesses + 1) then .stuck else .busy b.busy) } := by
  simp [asked, Board.latch]

theorem run_ask (c : Cycle) (b : Board) : (Board.store .bridgeControl c.word).run b =
    ⟨.ok (), asked b c, [⟨b, .store .bridgeControl c.word⟩]⟩ := rfl

theorem run_throughBridge (c : Cycle) (b : Board) (h : b.Answers .bridge (b.accesses + 1)) :
    (throughBridge c).run b =
      ⟨.ok (), { asked b c with pending := some (.busy 0) }.finish,
        [⟨b, .store .bridgeControl c.word⟩,
          ⟨{ asked b c with pending := some (.busy 0) },
            .cycle .bridge c (some (c.byte b.pmu))⟩]⟩ := by
  have word : (asked b c).image.load .bridgeControl = c.word := by simp [asked_eq]
  have pending : (asked b c).pending = some (.busy b.busy) := by simp [asked_eq, h.1]
  have byte : c.byte (asked b c).pmu = c.byte b.pmu := by simp [asked_eq]
  have polled := run_idleWithin_busy (n := pollLimit) pending (by simp [word])
  rw [if_pos (h.2 rfl), word, Cycle.ofWord_word, byte] at polled
  rw [throughBridge, Action.run_bind_ok (run_ask c b), Action.run_bind_ok polled]
  rfl

/-- A cycle that is not over in time is lost; the bridge goes on holding it. -/
theorem run_throughBridge_lost (c : Cycle) (b : Board)
    (h : ¬b.Answers .bridge (b.accesses + 1)) :
    ∃ pending, (throughBridge c).run b =
      ⟨.error (.error (.timeout c.reg)), { asked b c with pending := pending },
        [⟨b, .store .bridgeControl c.word⟩,
          ⟨{ asked b c with pending := pending }, .note (.cycleLost c.reg)⟩]⟩ := by
  have word : (asked b c).image.load .bridgeControl = c.word := by simp [asked_eq]
  have start : BridgeControl.start.isSet ((asked b c).image.load .bridgeControl) = true := by
    simp [word]
  have polled : ∃ pending, (idleWithin pollLimit).run (asked b c) =
      ⟨.ok false, { asked b c with pending := pending }, []⟩ := by
    cases fails : b.fails (b.accesses + 1) with
    | true =>
      have stuck : (asked b c).pending = some .stuck := by simp [asked_eq, fails]
      exact ⟨(asked b c).pending, run_idleWithin_stuck pollLimit stuck start⟩
    | false =>
      have busy : (asked b c).pending = some (.busy b.busy) := by simp [asked_eq, fails]
      have long : ¬b.busy < pollLimit := fun short => h ⟨fails, fun _ => short⟩
      exact ⟨_, (run_idleWithin_busy busy start).trans (if_neg long)⟩
  obtain ⟨pending, polled⟩ := polled
  refine ⟨pending, ?_⟩
  rw [throughBridge, Action.run_bind_ok (run_ask c b), Action.run_bind_ok polled]
  rfl

theorem finish_agree (b : Board) : b.image.Agree b.finish.image := by
  simp only [Board.finish]
  cases Cycle.ofWord (b.image.load .bridgeControl) with
  | read reg => exact (Image.Agree.store_data _ _).trans (.store_control _ _)
  | write reg value => exact .store_control _ _

theorem asked_meanwhile (b : Board) (c : Cycle) (pending : Option Pending) :
    b.Meanwhile { asked b c with pending := pending } := by
  rw [asked_eq]
  exact ⟨⟨.store_control _ _, rfl, rfl, rfl, rfl⟩, rfl, Nat.le_succ _⟩

theorem finish_alike (b : Board) : b.Alike b.finish := ⟨finish_agree b, rfl, rfl, rfl, rfl⟩

theorem finish_pmu (b : Board) :
    b.finish.pmu = (Cycle.ofWord (b.image.load .bridgeControl)).apply b.pmu := rfl

theorem throughBridge_transfer (c : Cycle) (b : Board) :
    Transfer .bridge c b () ((throughBridge c).run b) := by
  have accesses : (asked b c).accesses = b.accesses + 1 := by rw [asked_eq]
  by_cases h : b.Answers .bridge (b.accesses + 1)
  · rw [run_throughBridge c b h]
    have pmu : ({ asked b c with pending := some (.busy 0) } : Board).finish.pmu =
        c.apply b.pmu := by
      rw [finish_pmu]
      simp [asked_eq]
    constructor
    · exact accesses
    · exact (asked_meanwhile b c _).alike.trans (finish_alike _)
    · simp only [List.mem_cons, List.not_mem_nil, or_false]
      rintro m (rfl | rfl)
      · exact ⟨.refl b, .store _⟩
      · exact ⟨asked_meanwhile b c _, .cycle _⟩
    · intro _
      exact ⟨rfl, pmu⟩
    · intro lost
      exact absurd h lost
  · obtain ⟨pending, lost⟩ := run_throughBridge_lost c b h
    rw [lost]
    have asked := asked_meanwhile b c pending
    constructor
    · exact accesses
    · exact asked.alike
    · simp only [List.mem_cons, List.not_mem_nil, or_false]
      rintro m (rfl | rfl)
      · exact ⟨.refl b, .store _⟩
      · exact ⟨asked, .lost⟩
    · intro answered
      exact absurd answered h
    · intro _
      exact ⟨rfl, asked.pmu⟩

/-- The data register shows the byte under the fixed pattern. -/
theorem finish_data {b : Board} {reg : Byte}
    (h : Cycle.ofWord (b.image.load .bridgeControl) = .read reg) :
    (b.finish.image.load .bridgeData).setWidth 8 = b.pmu.read reg := by
  have pattern : BitVec.setWidth 8 0xA5A55A00#32 = 0#8 := by decide
  simp only [Board.finish, h, Cycle.byte,
    Image.load_store_of_ne (show Register.bridgeData ≠ .bridgeControl by decide),
    Image.load_store_self, BitVec.setWidth_or, pattern, BitVec.zero_or]
  simp

theorem read_transfer (via : Access) (reg : Byte) (b : Board) :
    Transfer via (.read reg) b (b.pmu.read reg) ((read via reg).run b) := by
  cases via with
  | direct => exact direct_transfer (.read reg) b
  | bridge =>
    have ask := throughBridge_transfer (.read reg) b
    by_cases h : b.Answers .bridge (b.accesses + 1)
    · have data : ((asked b (.read reg)).finish.image.load .bridgeData).setWidth 8 =
          b.pmu.read reg := by
        have control : Cycle.ofWord ((asked b (.read reg)).image.load .bridgeControl) =
            .read reg := by
          simp [asked_eq]
        rw [finish_data control, asked_eq]
      rw [run_throughBridge _ b h] at ask
      rw [read, Action.run_bind_ok (run_throughBridge _ b h),
        Action.run_bind_ok (Board.run_load (by decide) _)]
      constructor
      · exact ask.accesses
      · exact ask.alike
      · simpa using ask.moments
      · intro _
        exact ⟨congrArg Except.ok data, (ask.answered h).2⟩
      · intro lost
        exact absurd h lost
    · obtain ⟨pending, lost⟩ := run_throughBridge_lost (.read reg) b h
      rw [lost] at ask
      rw [read, Action.run_bind_error lost]
      constructor
      · exact ask.accesses
      · exact ask.alike
      · exact ask.moments
      · intro answered
        exact absurd answered h
      · intro unanswered
        exact ⟨rfl, (ask.lost unanswered).2⟩

theorem run_write_direct (reg value : Byte) (b : Board) : (write .direct reg value).run b =
    ⟨((direct (.write reg value)).run b).outcome.map fun _ => (),
      ((direct (.write reg value)).run b).after, ((direct (.write reg value)).run b).trace⟩ := by
  simp only [write, Functor.discard, map_const, Function.comp_apply, Action.run_map]

theorem write_transfer (via : Access) (reg value : Byte) (b : Board) :
    Transfer via (.write reg value) b () ((write via reg value).run b) := by
  cases via with
  | bridge => exact throughBridge_transfer (.write reg value) b
  | direct =>
    have at_once := direct_transfer (.write reg value) b
    rw [run_write_direct]
    constructor
    · exact at_once.accesses
    · exact at_once.alike
    · exact at_once.moments
    · intro h
      obtain ⟨ok, pmu⟩ := at_once.answered h
      exact ⟨congrArg (Except.map fun _ => ()) ok, pmu⟩
    · intro h
      obtain ⟨lost, pmu⟩ := at_once.lost h
      exact ⟨congrArg (Except.map fun _ => ()) lost, pmu⟩

/-- The run that reads a register, changes the byte by `f` and writes it back: two accesses, and
nothing is changed unless both are answered. -/
structure Changes (via : Access) (reg : Byte) (f : Byte → Byte) (b : Board) (r : Run Board Unit) :
    Prop where
  alike : b.Alike r.after
  moments : ∀ m ∈ r.trace, b.Meanwhile m.before ∧
    ((Cycle.read reg).Shows via m.event ∨
      (Cycle.write reg (f (b.pmu.read reg))).Shows via m.event)
  answered : b.Answers via (b.accesses + 1) → b.Answers via (b.accesses + 2) →
    r.outcome = .ok () ∧ r.after.pmu = b.pmu.write reg (f (b.pmu.read reg)) ∧
      r.after.accesses = b.accesses + 2
  unread : ¬b.Answers via (b.accesses + 1) →
    r.outcome = .error (.error (.timeout reg)) ∧ r.after.pmu = b.pmu ∧
      r.after.accesses = b.accesses + 1
  unwritten : b.Answers via (b.accesses + 1) → ¬b.Answers via (b.accesses + 2) →
    r.outcome = .error (.error (.timeout reg)) ∧ r.after.pmu = b.pmu ∧
      r.after.accesses = b.accesses + 2

theorem change_changes (via : Access) (reg : Byte) (f : Byte → Byte) (b : Board) :
    Changes via reg f b ((change via reg f).run b) := by
  have reading := read_transfer via reg b
  rcases hr : (read via reg).run b with ⟨outcome, mid, before⟩
  rw [hr] at reading
  by_cases first : b.Answers via (b.accesses + 1)
  · obtain ⟨rfl, mid_pmu⟩ := reading.answered first
    rcases hw : (write via reg (f (b.pmu.read reg))).run mid with ⟨outcome', last, after⟩
    have writing := write_transfer via reg (f (b.pmu.read reg)) mid
    have run : (change via reg f).run b = ⟨outcome', last, before ++ after⟩ := by
      rw [change, Action.run_bind_ok hr, hw]
    have mid_accesses : mid.accesses = b.accesses + 1 := reading.accesses
    have second : mid.Answers via (mid.accesses + 1) ↔ b.Answers via (b.accesses + 2) := by
      rw [mid_accesses, reading.alike.answers]
    rw [hw] at writing
    have last_accesses : last.accesses = b.accesses + 2 :=
      writing.accesses.trans (by rw [mid_accesses])
    rw [run]
    constructor
    · exact reading.alike.trans writing.alike
    · intro m hm
      rcases List.mem_append.1 hm with hm | hm
      · obtain ⟨meanwhile, shows⟩ := reading.moments m hm
        exact ⟨meanwhile, .inl shows⟩
      · obtain ⟨meanwhile, shows⟩ := writing.moments m hm
        exact ⟨.trans ⟨reading.alike, mid_pmu, mid_accesses ▸ Nat.le_succ _⟩ meanwhile, .inr shows⟩
    · intro _ h
      obtain ⟨ok, last_pmu⟩ := writing.answered (second.2 h)
      exact ⟨ok, last_pmu.trans (by rw [Cycle.apply, mid_pmu, Cycle.apply]), last_accesses⟩
    · intro h
      exact absurd first h
    · intro _ h
      obtain ⟨lost, last_pmu⟩ := writing.lost (mt second.1 h)
      exact ⟨lost, last_pmu.trans mid_pmu, last_accesses⟩
  · obtain ⟨rfl, mid_pmu⟩ := reading.lost first
    rw [change, Action.run_bind_error hr]
    constructor
    · exact reading.alike
    · intro m hm
      obtain ⟨meanwhile, shows⟩ := reading.moments m hm
      exact ⟨meanwhile, .inl shows⟩
    · intro h
      exact absurd h first
    · intro _
      exact ⟨rfl, mid_pmu, reading.accesses⟩
    · intro h
      exact absurd h first

/-- A change goes through, or an access is missed and the PMU stays as it was. -/
theorem Changes.cases {via : Access} {reg : Byte} {f : Byte → Byte} {b : Board}
    {r : Run Board Unit} (h : Changes via reg f b r) :
    (r.outcome = .ok () ∧ r.after.pmu = b.pmu.write reg (f (b.pmu.read reg))) ∨
      (r.outcome = .error (.error (.timeout reg)) ∧ r.after.pmu = b.pmu ∧
        b.Misses via r.after) := by
  by_cases first : b.Answers via (b.accesses + 1)
  · by_cases second : b.Answers via (b.accesses + 2)
    · obtain ⟨ok, pmu, _⟩ := h.answered first second
      exact .inl ⟨ok, pmu⟩
    · obtain ⟨lost, pmu, accesses⟩ := h.unwritten first second
      exact .inr ⟨lost, pmu, b.accesses + 2, by omega, by omega, second⟩
  · obtain ⟨lost, pmu, accesses⟩ := h.unread first
    exact .inr ⟨lost, pmu, b.accesses + 1, by omega, by omega, first⟩

theorem Changes.accesses_le {via : Access} {reg : Byte} {f : Byte → Byte} {b : Board}
    {r : Run Board Unit} (h : Changes via reg f b r) : b.accesses ≤ r.after.accesses := by
  by_cases first : b.Answers via (b.accesses + 1)
  · by_cases second : b.Answers via (b.accesses + 2)
    · rw [(h.answered first second).2.2]
      omega
    · rw [(h.unwritten first second).2.2]
      omega
  · rw [(h.unread first).2.2]
    omega

end Pmu
end ClockControl
