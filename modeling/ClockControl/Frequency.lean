import ClockControl.Checked

/-! Frequencies: `Hertz` of a clock that runs, `Rate` of one that may be stopped. -/
namespace ClockControl

structure Hertz where
  raw : UInt32
deriving DecidableEq, Repr

namespace Hertz

instance : Ord Hertz := ⟨fun a b => compare a.raw b.raw⟩

def ofKilohertz (n : UInt32) : Attempt Hertz := do
  return ⟨(← Checked.mul 32 n.toNat 1000).toUInt32⟩

def ofMegahertz (n : UInt32) : Attempt Hertz := do
  return ⟨(← Checked.mul 32 n.toNat 1000000).toUInt32⟩

def times (f : Hertz) (factor : UInt32) : Attempt Hertz := do
  return ⟨(← Checked.mul 32 f.raw.toNat factor.toNat).toUInt32⟩

/-- Division rounds down. -/
def dividedBy (f : Hertz) (divisor : Nat) : Attempt Hertz := do
  return ⟨(← Checked.div f.raw.toNat divisor).toUInt32⟩

def ratio (f g : Hertz) : Attempt Nat := Checked.div f.raw.toNat g.raw.toNat

def text (f : Hertz) : String := toString f.raw.toNat ++ " Hz"

theorem dividedBy_eq (f : Hertz) {divisor : Nat} (h : divisor ≠ 0) :
    f.dividedBy divisor = .ok ⟨(f.raw.toNat / divisor).toUInt32⟩ := by
  simp [dividedBy, Checked.div_eq h, bind, Except.bind, pure, Except.pure]

end Hertz

/-- A frequency or "not running", which is kept as 0. -/
structure Rate where
  raw : UInt32
deriving DecidableEq, Repr

namespace Rate

def stopped : Rate := ⟨0⟩

instance : Inhabited Rate := ⟨stopped⟩

instance : Ord Rate := ⟨fun a b => compare a.raw b.raw⟩

instance : Max Rate := ⟨fun a b => if a.raw ≤ b.raw then b else a⟩

def hertz? (r : Rate) : Option Hertz := if r.raw = 0 then none else some ⟨r.raw⟩

def ofHertz (f : Hertz) : Rate := ⟨f.raw⟩

def ofHertz? : Option Hertz → Rate
  | some f => ofHertz f
  | none => stopped

def text (r : Rate) : String := "MaybeHertz(" ++ toString r.raw.toNat ++ ")"

@[simp] theorem hertz?_stopped : stopped.hertz? = none := rfl

@[simp] theorem ofHertz?_hertz? (r : Rate) : ofHertz? r.hertz? = r := by
  unfold hertz?
  split
  · rename_i h
    cases r
    simp_all [ofHertz?, stopped]
  · rfl

theorem eq_of_toNat {r s : Rate} (h : r.raw.toNat = s.raw.toNat) : r = s := by
  cases r
  cases s
  exact congrArg Rate.mk (UInt32.toNat_inj.1 h)

theorem hertz?_eq_none_iff (r : Rate) : r.hertz? = none ↔ r = stopped := by
  cases r
  simp [hertz?, stopped]

theorem hertz?_eq_some_iff (r : Rate) (f : Hertz) :
    r.hertz? = some f ↔ r = ofHertz f ∧ f.raw ≠ 0 := by
  obtain ⟨raw⟩ := r
  obtain ⟨hertz⟩ := f
  by_cases zero : raw = 0
  · simp only [hertz?, ofHertz, if_pos zero, reduceCtorEq, Rate.mk.injEq, false_iff]
    rintro ⟨rfl, running⟩
    exact running zero
  · simp only [hertz?, ofHertz, if_neg zero, Option.some.injEq, Hertz.mk.injEq, Rate.mk.injEq]
    constructor
    · rintro rfl
      exact ⟨rfl, zero⟩
    · rintro ⟨rfl, -⟩
      rfl

end Rate
end ClockControl
