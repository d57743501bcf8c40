/-! Bit fields of a register. The main statement is `getLsbD_put`, which says bit by bit
what writing a field does; reading a field back and leaving the others alone follow. -/
namespace ClockControl

-- The power of the core library, whatever else is imported.
attribute [local instance (high)] instPowNat instNatPowNat

/-- A named run of `width` bits, from bit `low` upwards, of a register of `size` bits.
A flag is a field of one bit that any value but 0 sets. -/
structure Field (size : Nat) where
  name : String
  low : Nat
  width : Nat
  isFlag : Bool
  fits : low + width ≤ size
deriving DecidableEq, Repr

namespace Field

def bits (name : String) (low width : Nat) (fits : low + width ≤ size := by decide) : Field size :=
  ⟨name, low, width, false, fits⟩

def flag (name : String) (low : Nat) (fits : low + 1 ≤ size := by decide) : Field size :=
  ⟨name, low, 1, true, fits⟩

variable (f : Field size)

def get (raw : BitVec size) : Nat := (raw.extractLsb' f.low f.width).toNat

def isSet (raw : BitVec size) : Bool := f.get raw != 0

/-- The part of `value` that the field keeps. -/
def keep (value : Nat) : Nat :=
  if f.isFlag then (if value = 0 then 0 else 1) % 2 ^ f.width else value % 2 ^ f.width

def mask : BitVec size := (BitVec.allOnes f.width).setWidth size <<< f.low

def put (value : Nat) (raw : BitVec size) : BitVec size :=
  raw &&& ~~~f.mask ||| BitVec.ofNat size (f.keep value) <<< f.low

def Disjoint (f g : Field size) : Prop :=
  f.low + f.width ≤ g.low ∨ g.low + g.width ≤ f.low

instance (f g : Field size) : Decidable (Disjoint f g) :=
  inferInstanceAs (Decidable (_ ∨ _))

theorem Disjoint.symm {f g : Field size} (h : Disjoint f g) : Disjoint g f := Or.symm h

theorem keep_lt (value : Nat) : f.keep value < 2 ^ f.width := by
  unfold keep
  split <;> exact Nat.mod_lt _ (Nat.two_pow_pos _)

theorem get_lt (raw : BitVec size) : f.get raw < 2 ^ f.width :=
  (raw.extractLsb' f.low f.width).isLt

theorem testBit_get (raw : BitVec size) (i : Nat) :
    (f.get raw).testBit i = (decide (i < f.width) && raw.getLsbD (f.low + i)) := by
  simp [get, BitVec.testBit_toNat]

theorem getLsbD_mask (i : Nat) :
    f.mask.getLsbD i = (decide (f.low ≤ i) && decide (i < f.low + f.width)) := by
  have := f.fits
  simp only [mask, BitVec.getLsbD_shiftLeft, BitVec.getLsbD_setWidth, BitVec.getLsbD_allOnes]
  by_cases low : f.low ≤ i
  · by_cases high : i < f.low + f.width
    · have h₁ : i < size := by omega
      have h₂ : i - f.low < size := by omega
      have h₃ : i - f.low < f.width := by omega
      simp [low, high, h₁, h₂, h₃, Nat.not_lt.2 low]
    · have h : ¬i - f.low < f.width := by omega
      simp [high, h]
  · simp [low, Nat.not_le.1 low]

/-- Writing a field replaces its own bits and no others. -/
theorem getLsbD_put (value : Nat) (raw : BitVec size) (i : Nat) :
    (f.put value raw).getLsbD i =
      if f.low ≤ i ∧ i < f.low + f.width then (f.keep value).testBit (i - f.low)
      else raw.getLsbD i := by
  have fits := f.fits
  simp only [put, BitVec.getLsbD_or, BitVec.getLsbD_and, BitVec.getLsbD_not, getLsbD_mask,
    BitVec.getLsbD_shiftLeft, BitVec.getLsbD_ofNat]
  by_cases low : f.low ≤ i
  · by_cases high : i < f.low + f.width
    · have h₁ : i < size := by omega
      have h₂ : i - f.low < size := by omega
      have h₃ : ¬i < f.low := by omega
      simp [low, high, h₁, h₂, h₃]
    · have h₁ : (f.keep value).testBit (i - f.low) = false :=
        Nat.testBit_lt_two_pow (Nat.lt_of_lt_of_le (f.keep_lt value)
          (Nat.pow_le_pow_right (by decide) (by omega)))
      by_cases h₂ : i < size
      · simp [low, high, h₁, h₂]
      · simp [low, high, h₁, h₂, BitVec.getLsbD_of_ge raw i (by omega)]
  · have h₁ : i < f.low := by omega
    have h₂ : i < size := by omega
    simp [low, h₁, h₂]

@[simp] theorem get_put (value : Nat) (raw : BitVec size) :
    f.get (f.put value raw) = f.keep value := by
  refine Nat.eq_of_testBit_eq fun i => ?_
  rw [testBit_get, getLsbD_put]
  by_cases h : i < f.width
  · simp [h]
  · have high : (f.keep value).testBit i = false :=
      Nat.testBit_lt_two_pow (Nat.lt_of_lt_of_le (f.keep_lt value)
        (Nat.pow_le_pow_right (by decide) (Nat.not_lt.1 h)))
    simp [h, high]

theorem get_put_of_disjoint {f g : Field size} (h : Disjoint f g) (value : Nat)
    (raw : BitVec size) : f.get (g.put value raw) = f.get raw := by
  refine Nat.eq_of_testBit_eq fun i => ?_
  rw [testBit_get, testBit_get, getLsbD_put]
  by_cases hi : i < f.width
  · have outside : ¬(g.low ≤ f.low + i ∧ f.low + i < g.low + g.width) := by
      unfold Disjoint at h
      omega
    rw [if_neg outside]
  · simp [hi]

@[simp] theorem get_zero : f.get (BitVec.ofNat size 0) = 0 := by
  refine Nat.eq_of_testBit_eq fun i => ?_
  simp [testBit_get]

/-- The last value written to a field is the one that counts. -/
@[simp] theorem put_put (a b : Nat) (raw : BitVec size) : f.put a (f.put b raw) = f.put a raw := by
  refine BitVec.eq_of_getLsbD_eq fun i _ => ?_
  simp only [getLsbD_put]
  split <;> rfl

theorem put_comm {f g : Field size} (h : Disjoint f g) (a b : Nat) (raw : BitVec size) :
    f.put a (g.put b raw) = g.put b (f.put a raw) := by
  refine BitVec.eq_of_getLsbD_eq fun i _ => ?_
  simp only [getLsbD_put]
  by_cases own : f.low ≤ i ∧ i < f.low + f.width
  · have other : ¬(g.low ≤ i ∧ i < g.low + g.width) := by
      unfold Disjoint at h
      omega
    rw [if_pos own, if_neg other, if_pos own]
  · rw [if_neg own, if_neg own]

/-- Writing what a field already reads changes nothing. -/
theorem put_eq_self {f : Field size} {value : Nat} {raw : BitVec size}
    (h : f.get raw = f.keep value) : f.put value raw = raw := by
  refine BitVec.eq_of_getLsbD_eq fun i _ => ?_
  rw [getLsbD_put]
  split
  · rename_i inside
    have here : f.low + (i - f.low) = i := by omega
    have bound : i - f.low < f.width := by omega
    rw [← h, testBit_get, here, decide_eq_true bound, Bool.true_and]
  · rfl

theorem keep_of_lt {f : Field size} {value : Nat} (h : value < 2 ^ f.width)
    (hf : f.isFlag = false) : f.keep value = value := by
  simp [keep, hf, Nat.mod_eq_of_lt h]

/-- Write each field in turn. -/
def putAll (writes : List (Field size × Nat)) (raw : BitVec size) : BitVec size :=
  writes.foldl (fun raw w => w.1.put w.2 raw) raw

@[simp] theorem putAll_nil (raw : BitVec size) : putAll [] raw = raw := rfl

@[simp] theorem putAll_cons (w : Field size × Nat) (ws : List (Field size × Nat))
    (raw : BitVec size) : putAll (w :: ws) raw = putAll ws (w.1.put w.2 raw) := rfl

/-- A field that none of the writes touches. -/
theorem get_putAll_of_disjoint {f : Field size} {ws : List (Field size × Nat)}
    (h : ∀ w ∈ ws, f.Disjoint w.1) (raw : BitVec size) : f.get (putAll ws raw) = f.get raw := by
  induction ws generalizing raw with
  | nil => rfl
  | cons w ws ih =>
    have rest : ∀ w ∈ ws, f.Disjoint w.1 := fun w hw => h w (List.mem_cons_of_mem _ hw)
    rw [putAll_cons, ih rest, get_put_of_disjoint (h w List.mem_cons_self)]

/-- Fields that do not overlap read back what was written to them. -/
theorem get_putAll {ws : List (Field size × Nat)}
    (disjoint : ws.Pairwise fun v w => v.1.Disjoint w.1)
    (raw : BitVec size) {w : Field size × Nat} (hw : w ∈ ws) :
    w.1.get (putAll ws raw) = w.1.keep w.2 := by
  induction ws generalizing raw with
  | nil => cases hw
  | cons v ws ih =>
    obtain ⟨first, rest⟩ := List.pairwise_cons.1 disjoint
    rw [putAll_cons]
    obtain rfl | hw := List.mem_cons.1 hw
    · rw [get_putAll_of_disjoint first, get_put]
    · exact ih rest _ hw

/-- What a field held before it is written does not matter. -/
theorem putAll_put {ws : List (Field size × Nat)}
    (disjoint : ws.Pairwise fun v w => v.1.Disjoint w.1)
    {w : Field size × Nat} (hw : w ∈ ws) (value : Nat) (raw : BitVec size) :
    putAll ws (w.1.put value raw) = putAll ws raw := by
  induction ws generalizing raw with
  | nil => cases hw
  | cons v ws ih =>
    obtain ⟨first, rest⟩ := List.pairwise_cons.1 disjoint
    rw [putAll_cons, putAll_cons]
    obtain rfl | hw := List.mem_cons.1 hw
    · rw [put_put]
    · rw [put_comm (first w hw), ih rest hw]

/-- Lists of writes to separate fields can be made in either order. -/
theorem putAll_comm {vs ws : List (Field size × Nat)}
    (disjoint : ∀ v ∈ vs, ∀ w ∈ ws, v.1.Disjoint w.1) (raw : BitVec size) :
    putAll vs (putAll ws raw) = putAll ws (putAll vs raw) := by
  have one {v : Field size × Nat} {ws : List (Field size × Nat)}
      (h : ∀ w ∈ ws, v.1.Disjoint w.1) (raw : BitVec size) :
      v.1.put v.2 (putAll ws raw) = putAll ws (v.1.put v.2 raw) := by
    induction ws generalizing raw with
    | nil => rfl
    | cons w ws ih =>
      have rest : ∀ w ∈ ws, v.1.Disjoint w.1 := fun w hw => h w (List.mem_cons_of_mem _ hw)
      rw [putAll_cons, ih rest, put_comm (h w List.mem_cons_self), putAll_cons]
  induction vs generalizing raw with
  | nil => rfl
  | cons v vs ih =>
    have rest : ∀ v ∈ vs, ∀ w ∈ ws, v.1.Disjoint w.1 :=
      fun v hv => disjoint v (List.mem_cons_of_mem _ hv)
    rw [putAll_cons, one (disjoint v List.mem_cons_self), ih rest, putAll_cons]

/-- Writing what the fields already read changes nothing. -/
theorem putAll_eq_self {ws : List (Field size × Nat)} {raw : BitVec size}
    (h : ∀ w ∈ ws, w.1.get raw = w.1.keep w.2) : putAll ws raw = raw := by
  induction ws with
  | nil => rfl
  | cons w ws ih =>
    rw [putAll_cons, put_eq_self (h w List.mem_cons_self)]
    exact ih fun w hw => h w (List.mem_cons_of_mem _ hw)

-- From here on a field is known by what reading it gives.
attribute [irreducible] get put

end Field
end ClockControl
