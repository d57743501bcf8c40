import ClockControl.Clocks
import ClockControl.Register.Map

/-! The clock tree: the source of the MCU clock and the dividers below it. A request is
checked and encoded (`Tree`); the clocks that a register value gives are `Clocks.derive`. -/
namespace ClockControl

/-- A requested tree. The dividers are true divisors: 1 to 16 for the DSP and the core,
1 to 4 for the buses. -/
structure Tree where
  source : McuSource
  soc : UInt8
  mcu : UInt8
  bus0 : UInt8
  bus1 : UInt8
  bus2 : UInt8
deriving DecidableEq, Repr

namespace Tree

/-- Everything undivided on the core high-speed clock. -/
def undivided : Tree := ⟨.coreHs, 1, 1, 1, 1, 1⟩

def inRange (top divisor : UInt8) : Bool := 1 ≤ divisor && divisor ≤ top

def coreInRange (t : Tree) : Bool := inRange 16 t.soc && inRange 16 t.mcu

def busInRange (t : Tree) : Bool := inRange 4 t.bus0 && inRange 4 t.bus1 && inRange 4 t.bus2

def check (t : Tree) : Attempt Unit :=
  if !t.coreInRange then
    .refuse .coreDivider
  else if !t.busInRange then
    .refuse .busDivider
  else
    pure ()

/-- The register value `control` with the dividers of the tree. A divisor is stored less
one. -/
def divide (t : Tree) (control : Word) : Attempt Word := do
  let soc ← Checked.sub t.soc.toNat 1
  let mcu ← Checked.sub t.mcu.toNat 1
  let bus0 ← Checked.sub t.bus0.toNat 1
  let bus1 ← Checked.sub t.bus1.toNat 1
  let bus2 ← Checked.sub t.bus2.toNat 1
  return Field.putAll [(TreeControl.soc, soc), (TreeControl.mcu, mcu), (TreeControl.bus0, bus0),
    (TreeControl.bus1, bus1), (TreeControl.bus2, bus2)] control

theorem inRange_iff (top divisor : UInt8) :
    inRange top divisor = true ↔ 1 ≤ divisor.toNat ∧ divisor.toNat ≤ top.toNat := by
  simp [inRange, UInt8.le_iff_toNat_le]

theorem check_eq_ok_iff (t : Tree) : t.check = .ok () ↔ t.coreInRange ∧ t.busInRange := by
  cases core : t.coreInRange <;> cases bus : t.busInRange <;>
    simp [check, core, bus, Attempt.refuse, pure, Except.pure]

/-- After the check no divisor is 0, so the dividers can be stored. -/
theorem divide_eq {t : Tree} (h : t.check = .ok ()) (control : Word) :
    t.divide control = .ok (Field.putAll [(TreeControl.soc, t.soc.toNat - 1),
      (TreeControl.mcu, t.mcu.toNat - 1), (TreeControl.bus0, t.bus0.toNat - 1),
      (TreeControl.bus1, t.bus1.toNat - 1), (TreeControl.bus2, t.bus2.toNat - 1)] control) := by
  simp only [check_eq_ok_iff, coreInRange, busInRange, Bool.and_eq_true, inRange_iff] at h
  obtain ⟨⟨hs, hm⟩, ⟨h0, h1⟩, h2⟩ := h
  simp only [divide, Checked.sub_eq hs.1, Checked.sub_eq hm.1, Checked.sub_eq h0.1,
    Checked.sub_eq h1.1, Checked.sub_eq h2.1]
  rfl

def text (t : Tree) : String :=
  Text.record "ClockTree" [
    ("mcu_source", t.source.name),
    ("soc_div", toString t.soc.toNat),
    ("mcu_div", toString t.mcu.toNat),
    ("apb0_div", toString t.bus0.toNat),
    ("apb1_div", toString t.bus1.toNat),
    ("apb2_div", toString t.bus2.toNat)]

end Tree

namespace TreeControl

def sourceOf (control : Word) : McuSource := .ofCode (source.get control)

def select (s : McuSource) (control : Word) : Word := source.put s.code control

@[simp] theorem sourceOf_select (s : McuSource) (control : Word) :
    sourceOf (select s control) = s := by
  cases s <;> simp [sourceOf, select, Field.keep, source, Field.bits, McuSource.ofCode,
    McuSource.code]

/-- To select the source that is selected already changes nothing. -/
@[simp] theorem select_sourceOf (control : Word) : select (sourceOf control) control = control := by
  apply Field.put_eq_self
  have bit : source.get control < 2 := source.get_lt control
  obtain zero | one : source.get control = 0 ∨ source.get control = 1 := by omega
  · rw [sourceOf, zero]
    rfl
  · rw [sourceOf, one]
    rfl

end TreeControl

/-- The DSP and core clocks that the tree register selects: from the core high-speed clock
only the core is divided, from the system PLL the DSP is divided and the core once more. -/
def Clocks.derive (c : Clocks) (control : Word) : Attempt Clocks := do
  let mcu ← Checked.add 32 (TreeControl.mcu.get control) 1
  match TreeControl.sourceOf control with
  | .coreHs =>
    let dsp := c.coreHs.hertz?
    let core ← dsp.mapM (·.dividedBy mcu)
    return { c with dsp := .ofHertz? dsp, core := .ofHertz? core }
  | .spll =>
    let soc ← Checked.add 32 (TreeControl.soc.get control) 1
    let dsp ← c.spll.hertz?.mapM (·.dividedBy soc)
    let core ← dsp.mapM (·.dividedBy mcu)
    return { c with dsp := .ofHertz? dsp, core := .ofHertz? core }

/-- A rate divided down. -/
def Rate.divided (r : Rate) (divisor : Nat) : Rate := ⟨(r.raw.toNat / divisor).toUInt32⟩

namespace Clocks

theorem mapM_dividedBy (f : Option Hertz) {divisor : Nat} (h : divisor ≠ 0) :
    f.mapM (·.dividedBy divisor) =
      (.ok (f.map fun f => ⟨(f.raw.toNat / divisor).toUInt32⟩) : Attempt (Option Hertz)) := by
  cases f with
  | none => rfl
  | some f => simp [Hertz.dividedBy_eq f h, Functor.map, Except.map]

theorem ofHertz?_map (f : Option Hertz) (divisor : Nat) :
    Rate.ofHertz? (f.map fun f => ⟨(f.raw.toNat / divisor).toUInt32⟩) =
      (Rate.ofHertz? f).divided divisor := by
  cases f with
  | none => simp [Rate.ofHertz?, Rate.divided, Rate.stopped]
  | some f => rfl

/-- A divisor is never 0, and dividing a stopped rate leaves it stopped. -/
theorem derive_eq (c : Clocks) (control : Word) : c.derive control = .ok (
    let mcu := TreeControl.mcu.get control + 1
    let soc := TreeControl.soc.get control + 1
    match TreeControl.sourceOf control with
    | .coreHs => { c with dsp := c.coreHs, core := c.coreHs.divided mcu }
    | .spll => { c with dsp := c.spll.divided soc, core := (c.spll.divided soc).divided mcu }) := by
  have hm : TreeControl.mcu.get control < 16 := TreeControl.mcu.get_lt control
  have hs : TreeControl.soc.get control < 16 := TreeControl.soc.get_lt control
  simp only [derive, Checked.add_eq (show TreeControl.mcu.get control + 1 < 2 ^ 32 by omega),
    Checked.add_eq (show TreeControl.soc.get control + 1 < 2 ^ 32 by omega), bind, Except.bind]
  cases TreeControl.sourceOf control <;>
    simp only [mapM_dividedBy _ (Nat.succ_ne_zero _), ofHertz?_map, Rate.ofHertz?_hertz?] <;>
    rfl

end Clocks
end ClockControl
