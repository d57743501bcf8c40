import ClockControl.Boot
import ClockControl.Proofs.Register.Separation

/-! Reading back the frequency of a peripheral domain. A domain has a field to select its source and
one to divide it, both under its own name, or it is fed from a source of its own. Writing the fields
of a domain decides what is read back of it, and nothing of any other; a source that runs is read
back as running whatever divides it, and reading leaves everything as it is. Main statement:
`readback_sees_own_domain`. -/
namespace ClockControl

-- The power of the core library, whatever else is imported.
attribute [local instance (high)] instPowNat instNatPowNat

namespace Slot
variable {s t : Slot} {m : Image}

/-- The field belongs to the layout of the register. -/
def Declared (s : Slot) : Prop := ∃ l, s.register.layout? = some l ∧ s.field ∈ l.fields

/-- No bit belongs to both. -/
def Apart (s t : Slot) : Prop := s.register = t.register → s.field.Disjoint t.field

@[simp] theorem get_put (s : Slot) (value : Nat) (m : Image) :
    s.get (s.put value m) = s.field.keep value := by
  simp [get, put]

theorem load_put_of_ne {r : Register} (h : r ≠ s.register) (value : Nat) (m : Image) :
    (s.put value m).load r = m.load r :=
  Image.load_store_of_ne h m _

theorem get_put_of_apart (h : s.Apart t) (value : Nat) (m : Image) :
    s.get (t.put value m) = s.get m := by
  by_cases same : s.register = t.register
  · rw [get, get, put, same, Image.load_store_self, Field.get_put_of_disjoint (h same)]
  · rw [get, load_put_of_ne same, get]

/-- Different fields of a register have no bit in common. -/
theorem apart_of_ne (hs : s.Declared) (ht : t.Declared) (h : s.field ≠ t.field) : s.Apart t := by
  intro same
  obtain ⟨l, layout, member⟩ := hs
  obtain ⟨l', layout', member'⟩ := ht
  rw [same, layout'] at layout
  cases layout
  exact Layout.disjoint_of_ne member member' h

/-- The field of that name in the first of the registers that has one. -/
def named (registers : List Register) (name : String) : Option Slot :=
  registers.findSome? fun r => do
    let l ← r.layout?
    let f ← l.field? name
    return ⟨r, f⟩

theorem named_eq_some {registers : List Register} {name : String}
    (h : named registers name = some s) :
    s.Declared ∧ s.register ∈ registers ∧ s.field.name = name := by
  obtain ⟨r, member, found⟩ := List.exists_of_findSome?_eq_some h
  obtain ⟨l, layout, found⟩ := Option.bind_eq_some_iff.1 found
  obtain ⟨f, field, found⟩ := Option.bind_eq_some_iff.1 found
  cases found
  exact ⟨⟨l, layout, List.mem_of_find?_eq_some field⟩, member, by simpa using List.find?_some field⟩

end Slot

/-- The frequency of a clock that runs, in Hz. -/
def Rate.running (r : Rate) : Option Nat := if r = .stopped then none else some r.raw.toNat

/-- The frequency that a source puts out, if it runs: half of a PLL runs while the PLL does and its
half-rate tap is on. -/
def Source.output (m : Image) (c : Clocks) : Source → Option Nat
  | .coreHs => c.coreHs.running
  | .spll => c.spll.running
  | .spllHalf =>
    if PllOutput.halfTap.isSet (m.load (.pll .system .output)) then c.spll.running.map (· / 2)
    else none
  | .aupll => c.aupll.running
  | .aupllHalf =>
    if PllOutput.halfTap.isSet (m.load (.pll .audio .output)) then c.aupll.running.map (· / 2)
    else none
  | .fixed48 => c.fixed48.running

/-- The frequency in Hz. -/
def Hertz.value (f : Hertz) : Nat := f.raw.toNat

theorem Rate.value_hertz? (r : Rate) : r.hertz?.map Hertz.value = r.running := by
  unfold running
  split
  · rename_i stopped
    rw [(r.hertz?_eq_none_iff).2 stopped]
    rfl
  · rename_i started
    have some : r.raw ≠ 0 := fun zero => started (by cases r; exact congrArg Rate.mk zero)
    rw [hertz?, if_neg some]
    rfl

/-- A clock that runs is divided to one that runs. -/
theorem Clocks.mapM_dividedBy_value (f : Option Hertz) {divisor : Nat} (h : divisor ≠ 0) :
    ∃ g, f.mapM (·.dividedBy divisor) = (.ok g : Attempt (Option Hertz)) ∧
      g.map Hertz.value = (f.map Hertz.value).map (· / divisor) := by
  refine ⟨_, mapM_dividedBy f h, ?_⟩
  cases f with
  | none => rfl
  | some f =>
    have small := Nat.lt_of_le_of_lt (Nat.div_le_self f.raw.toNat divisor) f.raw.toNat_lt
    exact congrArg some (UInt32.toNat_ofNat_of_lt' small)

namespace Source
variable {m n : Image} {c : Clocks}

theorem frequency_output (s : Source) (m : Image) (c : Clocks) :
    ∃ f, s.frequency m c = .ok f ∧ f.map Hertz.value = s.output m c := by
  have half (p : Pll) (r : Rate) : ∃ f, tap m p r = .ok f ∧ f.map Hertz.value =
      if PllOutput.halfTap.isSet (m.load (.pll p .output)) then r.running.map (· / 2) else none := by
    unfold tap
    split
    · rw [← r.value_hertz?]
      exact Clocks.mapM_dividedBy_value _ (by decide)
    · exact ⟨none, rfl, rfl⟩
  cases s with
  | spllHalf => exact half .system c.spll
  | aupllHalf => exact half .audio c.aupll
  | _ => exact ⟨_, rfl, Rate.value_hertz? _⟩

/-- Of the block, a source depends on the half-rate taps alone. -/
theorem frequency_congr (taps : ∀ p, n.load (.pll p .output) = m.load (.pll p .output))
    (s : Source) : s.frequency n c = s.frequency m c := by
  cases s with
  | spllHalf => rw [frequency, tap, taps, frequency, tap]
  | aupllHalf => rw [frequency, tap, taps, frequency, tap]
  | _ => rfl

theorem output_congr (taps : ∀ p, n.load (.pll p .output) = m.load (.pll p .output))
    (s : Source) : s.output n c = s.output m c := by
  cases s with
  | spllHalf => rw [output, taps, output]
  | aupllHalf => rw [output, taps, output]
  | _ => rfl

end Source

namespace Mux

/-- The source that a code stands for, by its low bit or by its low two bits. -/
def source (m : Mux) (code : Nat) : Source :=
  match m with
  | .general =>
    match code % 2 with
    | 0 => .coreHs
    | _ => .spllHalf
  | .fast =>
    match code % 4 with
    | 0 => .coreHs
    | 1 => .spll
    | 2 => .spllHalf
    | _ => .aupll
  | .audio =>
    match code % 4 with
    | 0 => .coreHs
    | 1 => .aupll
    | 2 => .aupllHalf
    | _ => .fixed48

theorem select_eq_source (m : Mux) (code : Nat) : m.select code = m.source code := by
  have bit : code % 2 = 0 ∨ code % 2 = 1 := by omega
  have bits : code % 4 = 0 ∨ code % 4 = 1 ∨ code % 4 = 2 ∨ code % 4 = 3 := by omega
  cases m with
  | general => obtain h | h := bit <;> simp [source, select, sources, h]
  | fast => obtain h | h | h | h := bits <;> simp [source, select, sources, h]
  | audio => obtain h | h | h | h := bits <;> simp [source, select, sources, h]

end Mux

namespace Domain

/-- What the fields of a domain are called; `gpio` and `usb` have none. -/
def label : Domain → Option String
  | .uart => "uart"
  | .i2c => "i2c"
  | .timer01 => "timer01"
  | .timer23 => "timer23"
  | .spiMaster0 => "spim0"
  | .spiMaster1 => "spim1"
  | .spiSlave => "spis"
  | .spiMasterX8 => "spim_x8"
  | .can => "can"
  | .sdio => "sdio"
  | .ospi => "ospi"
  | .qspi0 => "qspi0"
  | .qspi1 => "qspi1"
  | .display => "display"
  | .psram => "psram"
  | .pdm => "pdm"
  | .i2s => "i2s"
  | .spdif => "spdif"
  | .gpio | .usb => none

def selectors : List Register := [.mainMux, .audioMux]

def dividers : List Register := [.generalDivider, .fastDivider, .displayDivider, .audioDivider]

/-- The field that selects the source of the domain. -/
def selector (d : Domain) : Option Slot := d.label.bind (Slot.named selectors)

/-- The field that divides the source of the domain. -/
def divider (d : Domain) : Option Slot := d.label.bind (Slot.named dividers)

/-- Write both fields of a domain, where it has them. -/
def setFeed (d : Domain) (code value : Nat) (m : Image) : Image :=
  let m := d.selector.elim m (·.put code m)
  d.divider.elim m (·.put value m)

/-- The source that a code stands for. -/
def source (code : Nat) : Domain → Source
  | .gpio => .coreHs
  | .usb => .fixed48
  | .uart | .i2c | .timer01 | .timer23 | .spiMaster0 | .spiMaster1 | .spiSlave | .can =>
    Mux.general.source code
  | .spiMasterX8 | .sdio | .ospi | .qspi0 | .qspi1 | .display | .psram => Mux.fast.source code
  | .pdm | .i2s | .spdif => Mux.audio.source code

/-- What a value of the divider field divides by; a domain without one is not divided. -/
def divisor (d : Domain) (value : Nat) : Nat :=
  d.divider.elim 1 fun s => value % 2 ^ s.field.width + 1

/-- The domain is fed through a multiplexer, by the fields of its own name. -/
structure Muxed (d : Domain) (mux : Mux) (code div : Slot) : Prop where
  feed : d.feed = .muxed mux code div
  selector : d.selector = some code
  divider : d.divider = some div
  codes : mux.sources.length = 2 ^ code.field.width
  narrow : div.field.width ≤ 8
  plain : code.field.isFlag = false ∧ div.field.isFlag = false
  source (n : Nat) : mux.select n = d.source n

/-- A domain without fields has a source of its own. -/
theorem muxed_or_fixed (d : Domain) :
    (∃ mux code div, d.Muxed mux code div) ∨
      d.label = none ∧ ∀ n, d.feed = .fixed (d.source n) := by
  cases d with
  | gpio => exact .inr ⟨rfl, fun _ => rfl⟩
  | usb => exact .inr ⟨rfl, fun _ => rfl⟩
  | _ => exact .inl ⟨_, _, _, rfl, rfl, rfl, rfl, by decide, ⟨rfl, rfl⟩, Mux.select_eq_source _⟩

theorem mem_all (d : Domain) : d ∈ all := by cases d <;> decide

theorem label_injective {a b : Domain} {name : String} (ha : a.label = some name)
    (hb : b.label = some name) : a = b := by
  have key : ∀ a ∈ all, ∀ b ∈ all, a.label = b.label → a.label = none ∨ a = b := by
    decide +kernel
  obtain none | same := key a (mem_all a) b (mem_all b) (ha.trans hb.symm)
  · rw [ha] at none
    cases none
  · exact same

/-- One of the fields of the domain. -/
def Owns (d : Domain) (s : Slot) : Prop := d.selector = some s ∨ d.divider = some s

section
variable {d other : Domain} {s t : Slot}

theorem label_of_named {registers : List Register}
    (h : d.label.bind (Slot.named registers) = some s) :
    d.label = some s.field.name ∧ s.Declared ∧ s.register ∈ registers := by
  obtain ⟨name, label, named⟩ := Option.bind_eq_some_iff.1 h
  obtain ⟨declared, member, same⟩ := Slot.named_eq_some named
  exact ⟨by rw [label, same], declared, member⟩

theorem Owns.label (h : d.Owns s) :
    d.label = some s.field.name ∧ s.Declared ∧ s.register ∈ selectors ++ dividers := by
  obtain selector | divider := h
  · obtain ⟨label, declared, member⟩ := label_of_named selector
    exact ⟨label, declared, List.mem_append_left _ member⟩
  · obtain ⟨label, declared, member⟩ := label_of_named divider
    exact ⟨label, declared, List.mem_append_right _ member⟩

/-- Fields of different domains have different names. -/
theorem Owns.apart (hs : other.Owns s) (ht : d.Owns t) (h : other ≠ d) : s.Apart t := by
  obtain ⟨label, declared, -⟩ := hs.label
  obtain ⟨label', declared', -⟩ := ht.label
  refine Slot.apart_of_ne declared declared' fun same => h (label_injective label ?_)
  rw [label', same]

/-- The field that selects and the one that divides are in different registers. -/
theorem selector_apart_divider (hs : d.selector = some s) (ht : d.divider = some t) :
    s.Apart t := by
  obtain ⟨-, -, member⟩ := label_of_named hs
  obtain ⟨-, -, member'⟩ := label_of_named ht
  have separate : ∀ r ∈ selectors, r ∉ dividers := by decide
  intro same
  exact absurd (same ▸ member') (separate s.register member)

/-- Whatever looks past the fields of a domain sees nothing of a write to them. -/
theorem setFeed_keeps {g : Image → α} (past : ∀ t, d.Owns t → ∀ v m, g (t.put v m) = g m)
    (code value : Nat) (m : Image) : g (d.setFeed code value m) = g m := by
  have selected : g (d.selector.elim m (·.put code m)) = g m := by
    cases selector : d.selector with
    | none => rfl
    | some t => exact past t (.inl selector) code m
  unfold setFeed
  cases divider : d.divider with
  | none => exact selected
  | some t => exact (past t (.inr divider) value _).trans selected

/-- The PLLs have no part in the feed of a domain. -/
theorem load_setFeed (d : Domain) (code value : Nat) (m : Image) (p : Pll) (part : PllPart) :
    (d.setFeed code value m).load (.pll p part) = m.load (.pll p part) := by
  have outside : ∀ r ∈ selectors ++ dividers, Register.pll p part ≠ r := by
    simp [selectors, dividers]
  refine setFeed_keeps (g := (·.load (.pll p part))) (fun t owned v m => ?_) code value m
  exact Slot.load_put_of_ne (outside _ owned.label.2.2) v m

theorem get_setFeed_of_ne (h : other ≠ d) (owned : other.Owns s) (code value : Nat) (m : Image) :
    s.get (d.setFeed code value m) = s.get m := by
  refine setFeed_keeps (fun t foreign v m => ?_) code value m
  exact Slot.get_put_of_apart (owned.apart foreign h) v m

end

/-- The fields of a domain hold what has been written to them. -/
theorem Muxed.get_setFeed {d : Domain} {mux : Mux} {code div : Slot} (h : d.Muxed mux code div)
    (n value : Nat) (m : Image) :
    code.get (d.setFeed n value m) = n % 2 ^ code.field.width ∧
      div.get (d.setFeed n value m) = value % 2 ^ div.field.width := by
  have written : d.setFeed n value m = div.put value (code.put n m) := by
    rw [setFeed, h.selector, h.divider]
    rfl
  have keep {s : Slot} (plain : s.field.isFlag = false) (value : Nat) :
      s.field.keep value = value % 2 ^ s.field.width :=
    Field.keep_eq_mod fun flag => absurd flag (by simp [plain])
  rw [written, Slot.get_put_of_apart (selector_apart_divider h.selector h.divider), Slot.get_put,
    Slot.get_put, keep h.plain.1, keep h.plain.2]
  exact ⟨rfl, rfl⟩

/-- The codes of a multiplexer are what its field can hold. -/
theorem Muxed.select_mod {d : Domain} {mux : Mux} {code div : Slot} (h : d.Muxed mux code div)
    (n : Nat) : mux.select (n % 2 ^ code.field.width) = mux.select n := by
  rw [Mux.select, Mux.select, h.codes, Nat.mod_mod]

/-- What is read of a domain depends on its feed and on the half-rate taps alone. -/
theorem frequency_congr (d : Domain) {m n : Image} (c : Clocks)
    (taps : ∀ p, n.load (.pll p .output) = m.load (.pll p .output))
    (fields : ∀ mux code div, d.feed = .muxed mux code div →
      code.get n = code.get m ∧ div.get n = div.get m) : d.frequency n c = d.frequency m c := by
  unfold frequency
  cases feed : d.feed with
  | fixed s => exact Source.frequency_congr taps s
  | muxed mux code div =>
    obtain ⟨selects, divides⟩ := fields mux code div feed
    simp only [selects, divides, Source.frequency_congr taps]

/-- The divisor is never 0, and fits its word. -/
theorem Muxed.frequency {d : Domain} {mux : Mux} {code div : Slot} (h : d.Muxed mux code div)
    (m : Image) (c : Clocks) : ∃ f, d.frequency m c = .ok f ∧ f.map Hertz.value =
      ((mux.select (code.get m)).output m c).map (· / (div.get m + 1)) := by
  have narrow : 2 ^ div.field.width ≤ 2 ^ 8 := Nat.pow_le_pow_right (by decide) h.narrow
  have below : div.get m < 2 ^ 8 :=
    Nat.lt_of_lt_of_le (div.field.get_lt (m.load div.register)) narrow
  have divisor : Checked.add 32 (div.get m) 1 = .ok (div.get m + 1) := Checked.add_eq (by omega)
  obtain ⟨f, running, output⟩ := (mux.select (code.get m)).frequency_output m c
  obtain ⟨g, divided, value⟩ := Clocks.mapM_dividedBy_value f (Nat.succ_ne_zero (div.get m))
  refine ⟨g, ?_, value.trans (by rw [output])⟩
  simp only [Domain.frequency, h.feed, divisor, running, bind, Except.bind]
  exact divided

/-- A domain always has an answer. -/
theorem frequency_ok (d : Domain) (m : Image) (c : Clocks) : ∃ f, d.frequency m c = .ok f := by
  obtain ⟨mux, code, div, muxed⟩ | ⟨-, feed⟩ := d.muxed_or_fixed
  · obtain ⟨f, reads, -⟩ := muxed.frequency m c
    exact ⟨f, reads⟩
  · obtain ⟨f, running, -⟩ := (d.source 0).frequency_output m c
    refine ⟨f, ?_⟩
    rw [frequency, feed 0]
    exact running

/-- A domain reads back the source that has been written, by the divisor that has been written. -/
theorem frequency_setFeed (d : Domain) (code value : Nat) (m : Image) (c : Clocks) :
    ∃ f, d.frequency (d.setFeed code value m) c = .ok f ∧
      f.map Hertz.value = ((d.source code).output m c).map (· / d.divisor value) := by
  have taps (s : Source) : s.output (d.setFeed code value m) c = s.output m c :=
    s.output_congr fun p => d.load_setFeed code value m p .output
  obtain ⟨mux, selector, divider, muxed⟩ | ⟨label, feed⟩ := d.muxed_or_fixed
  · obtain ⟨f, running, reads⟩ := muxed.frequency (d.setFeed code value m) c
    obtain ⟨selected, divided⟩ := muxed.get_setFeed code value m
    rw [selected, divided, muxed.select_mod, muxed.source, taps] at reads
    refine ⟨f, running, reads.trans ?_⟩
    rw [divisor, muxed.divider]
    rfl
  · obtain ⟨f, running, output⟩ :=
      (d.source code).frequency_output (d.setFeed code value m) c
    refine ⟨f, ?_, ?_⟩
    · rw [frequency, feed code]
      exact running
    · have undivided : d.divisor value = 1 := by
        rw [divisor, divider, label]
        rfl
      rw [output, taps, undivided]
      simp

/-- No domain reads the fields of another. -/
theorem frequency_setFeed_of_ne {d other : Domain} (h : other ≠ d) (code value : Nat) (m : Image)
    (c : Clocks) : other.frequency (d.setFeed code value m) c = other.frequency m c := by
  refine other.frequency_congr c (fun p => d.load_setFeed code value m p .output) ?_
  intro mux selector divider feed
  obtain ⟨_, _, _, muxed⟩ | ⟨-, fixed⟩ := other.muxed_or_fixed
  · cases feed.symm.trans muxed.feed
    exact ⟨get_setFeed_of_ne h (.inl muxed.selector) code value m,
      get_setFeed_of_ne h (.inr muxed.divider) code value m⟩
  · cases feed.symm.trans (fixed code)

/-- Writing the two fields of a domain leaves what is read of every other domain as it is. Of the
domain itself the selected source is then read, by the divisor and rounded down: it runs if and only
if the source does. Reading by the controller's clocks or by those that are published changes
nothing. -/
theorem readback_sees_own_domain (d : Domain) (code value : Nat) (m : Image) (c : Clocks) :
    (∃ f, d.frequency (d.setFeed code value m) c = .ok f ∧
      f.map Hertz.value = ((d.source code).output m c).map (· / d.divisor value)) ∧
    (∀ other, other ≠ d → other.frequency (d.setFeed code value m) c = other.frequency m c) ∧
    (∀ rig : Rig, (Controller.domainFrequency d).run rig =
      ⟨d.frequency rig.board.image rig.controller.clocks, rig, []⟩) ∧
    ∀ b : Board, b.published = some c →
      (publishedFrequency d).run b = ⟨d.frequency b.image c, b, []⟩ := by
  refine ⟨frequency_setFeed d code value m c, ?_, ?_, ?_⟩
  · intro other h
    exact frequency_setFeed_of_ne h code value m c
  · intro rig
    rfl
  · intro b published
    have read : publishedClocks.run b = ⟨.ok c, b, []⟩ := by
      simp [publishedClocks, Action.run_bind, published]
    rw [publishedFrequency, Action.run_bind_quiet read]
    rfl

/-- The display's divider holds 8 bits of what is written; its memory has the divider beside it. -/
theorem display_read_back :
    let clocks : Clocks := { Clocks.reset with coreHs := ⟨100⟩, spll := ⟨192000000⟩ }
    let m := Board.blank.image
    let board := { Board.blank with published := some clocks }
    (∃ f, frequency .display (setFeed .display 5 0x1FF m) clocks = .ok f ∧
      f.map Hertz.value = some 750000) ∧
    (∃ f, frequency .display (setFeed .display 4 0xFF m) clocks = .ok f ∧
      f.map Hertz.value = some 0) ∧
    frequency .psram (setFeed .display 5 0x1FF m) clocks = frequency .psram m clocks ∧
    (publishedFrequency .display).run board =
      ⟨frequency .display board.image clocks, board, []⟩ := by
  intro clocks m board
  obtain ⟨⟨f, reads, value⟩, others, -, published⟩ :=
    readback_sees_own_domain .display 5 0x1FF m clocks
  obtain ⟨⟨g, reads', value'⟩, -⟩ := readback_sees_own_domain .display 4 0xFF m clocks
  exact ⟨⟨f, reads, value.trans (by decide +kernel)⟩, ⟨g, reads', value'.trans (by decide +kernel)⟩,
    others .psram (by decide), published board rfl⟩

end Domain
end ClockControl
