import ClockControl.Register.Layout
import Mathlib.Data.List.Nodup
import Mathlib.Data.List.Pairwise
import Mathlib.Data.List.Perm.Basic

/-! The fields of a register stay apart. A register is known by what its fields read and by its
reserved bits. However its fields are written, each of them reads the last value written to it, as
far as that fits, and nothing else has changed; so only the last write to each field counts, and
writes to different fields can be made in any order. Main statement: `writes_stay_apart`. -/
namespace ClockControl

-- The power of the core library, whatever else is imported.
attribute [local instance (high)] instPowNat instNatPowNat

namespace Field
variable {size : Nat}

/-- The bit belongs to the field. -/
def Covers (f : Field size) (i : Nat) : Prop := f.low ≤ i ∧ i < f.low + f.width

/-- The value that the last write to the field gives it, if there is one. -/
def lastValue (f : Field size) : List (Field size × Nat) → Option Nat
  | [] => none
  | w :: ws => (f.lastValue ws).or (if w.1 = f then some w.2 else none)

instance : Std.Symm (@Disjoint size) := ⟨fun _ _ => Disjoint.symm⟩

/-- A truth value fits a flag, so all fields keep the low bits of what is written. -/
theorem keep_eq_mod {f : Field size} {value : Nat} (truth : f.isFlag = true → value ≤ 1) :
    f.keep value = value % 2 ^ f.width := by
  unfold keep
  split
  · rename_i flag
    have bound := truth flag
    have same : (if value = 0 then 0 else 1) = value := by
      split <;> omega
    rw [same]
  · rfl

end Field

namespace Layout
variable {size : Nat} {l : Layout size} {ws : List (Field size × Nat)}

/-- The bit belongs to no field. -/
def Reserved (l : Layout size) (i : Nat) : Prop := ∀ f ∈ l.fields, ¬f.Covers i

/-- Writes to fields of the register, of a truth value where the field is a flag. -/
def Admits (l : Layout size) (ws : List (Field size × Nat)) : Prop :=
  ∀ w ∈ ws, w.1 ∈ l.fields ∧ (w.1.isFlag = true → w.2 ≤ 1)

instance (l : Layout size) (i : Nat) : Decidable (l.Reserved i) :=
  inferInstanceAs (Decidable (∀ f ∈ l.fields, ¬(f.low ≤ i ∧ i < f.low + f.width)))

instance (l : Layout size) (ws : List (Field size × Nat)) : Decidable (l.Admits ws) :=
  inferInstanceAs (Decidable (∀ w ∈ ws, w.1 ∈ l.fields ∧ (w.1.isFlag = true → w.2 ≤ 1)))

theorem disjoint_of_ne {f g : Field size} (hf : f ∈ l.fields) (hg : g ∈ l.fields) (h : f ≠ g) :
    f.Disjoint g :=
  l.disjoint.forall hf hg h

/-- A register is no more than its fields and its reserved bits. -/
theorem eq_of_fields {a b : BitVec size} (fields : ∀ f ∈ l.fields, f.get a = f.get b)
    (reserved : ∀ i, l.Reserved i → a.getLsbD i = b.getLsbD i) : a = b := by
  refine BitVec.eq_of_getLsbD_eq fun i _ => ?_
  by_cases owned : ∃ f ∈ l.fields, f.Covers i
  · obtain ⟨f, hf, low, high⟩ := owned
    have inside : i - f.low < f.width := by omega
    have here : f.low + (i - f.low) = i := by omega
    have bit (raw : BitVec size) : (f.get raw).testBit (i - f.low) = raw.getLsbD i := by
      rw [Field.testBit_get, here, decide_eq_true inside, Bool.true_and]
    rw [← bit a, ← bit b, fields f hf]
  · exact reserved i fun f hf covers => owned ⟨f, hf, covers⟩

/-- A field reads the last value written to it, or what it read before. -/
theorem get_putAll_lastValue (admits : l.Admits ws) {f : Field size} (hf : f ∈ l.fields)
    (raw : BitVec size) : f.get (Field.putAll ws raw) =
      ((f.lastValue ws).map (· % 2 ^ f.width)).getD (f.get raw) := by
  induction ws generalizing raw with
  | nil => rfl
  | cons w ws ih =>
    obtain ⟨⟨hw, truth⟩, rest⟩ := List.forall_mem_cons.1 admits
    rw [Field.putAll_cons, ih rest, Field.lastValue]
    cases f.lastValue ws with
    | some later => rfl
    | none =>
      by_cases own : w.1 = f
      · rw [own] at truth
        simp [own, Field.keep_eq_mod truth]
      · have apart := disjoint_of_ne hf hw (Ne.symm own)
        simp [own, Field.get_put_of_disjoint apart]

theorem getLsbD_putAll_reserved (admits : l.Admits ws) {i : Nat} (reserved : l.Reserved i)
    (raw : BitVec size) : (Field.putAll ws raw).getLsbD i = raw.getLsbD i := by
  induction ws generalizing raw with
  | nil => rfl
  | cons w ws ih =>
    obtain ⟨⟨hw, -⟩, rest⟩ := List.forall_mem_cons.1 admits
    have outside : ¬(w.1.low ≤ i ∧ i < w.1.low + w.1.width) := reserved w.1 hw
    rw [Field.putAll_cons, ih rest, Field.getLsbD_put, if_neg outside]

/-- Only the last value written to each field counts. -/
theorem putAll_congr {vs : List (Field size × Nat)} (admits : l.Admits vs) (admits' : l.Admits ws)
    (last : ∀ f ∈ l.fields, f.lastValue vs = f.lastValue ws) (raw : BitVec size) :
    Field.putAll vs raw = Field.putAll ws raw := by
  apply l.eq_of_fields
  · intro f hf
    rw [get_putAll_lastValue admits hf, get_putAll_lastValue admits' hf, last f hf]
  · intro i reserved
    rw [getLsbD_putAll_reserved admits reserved, getLsbD_putAll_reserved admits' reserved]

/-- Writes to different fields can be made in any order. -/
theorem putAll_perm {vs : List (Field size × Nat)} (admits : l.Admits ws) (order : vs.Perm ws)
    (once : (ws.map Prod.fst).Nodup) (raw : BitVec size) :
    Field.putAll vs raw = Field.putAll ws raw := by
  refine (order.symm.foldl_eq' ?_ raw).symm
  intro v hv w hw raw
  by_cases same : v = w
  · rw [same]
  · have fields : v.1 ≠ w.1 := fun h => same (List.inj_on_of_nodup_map once hv hw h)
    exact Field.put_comm (disjoint_of_ne (admits w hw).1 (admits v hv).1 (Ne.symm fields)) _ _ _

/-- However the fields of a register are written, each reads the low bits of the last value written
to it, or what it read before; the reserved bits stay. Two lists of writes that agree on the last
value for each field come to the same, and so do writes to different fields in any order. -/
theorem writes_stay_apart (l : Layout size) (raw : BitVec size) {ws : List (Field size × Nat)}
    (admits : l.Admits ws) :
    (∀ f ∈ l.fields, f.get (Field.putAll ws raw) =
      ((f.lastValue ws).map (· % 2 ^ f.width)).getD (f.get raw)) ∧
    (∀ i, l.Reserved i → (Field.putAll ws raw).getLsbD i = raw.getLsbD i) ∧
    (∀ vs, l.Admits vs → (∀ f ∈ l.fields, f.lastValue vs = f.lastValue ws) →
      Field.putAll vs raw = Field.putAll ws raw) ∧
    ∀ vs : List (Field size × Nat), vs.Perm ws → (ws.map Prod.fst).Nodup →
      Field.putAll vs raw = Field.putAll ws raw := by
  refine ⟨?_, ?_, ?_, ?_⟩
  · intro f hf
    exact get_putAll_lastValue admits hf raw
  · intro i reserved
    exact getLsbD_putAll_reserved admits reserved raw
  · intro vs admits' last
    exact putAll_congr admits' admits last raw
  · intro vs order once
    exact putAll_perm admits order once raw

/-- The address of a cycle is written twice, both times with more bits than it has. -/
theorem last_address_counts :
    let ws := [(BridgeControl.start, 1), (BridgeControl.addr, 0x112), (BridgeControl.write, 0),
      (BridgeControl.addr, 0x134)]
    let raw := 0xFFFFFFFF#32
    BridgeControl.layout.Admits ws ∧ BridgeControl.addr.get (Field.putAll ws raw) = 0x34 ∧
      BridgeControl.data.get (Field.putAll ws raw) = 0xFF ∧
      BridgeControl.write.get (Field.putAll ws raw) = 0 ∧
      (Field.putAll ws raw).getLsbD 20 = true ∧
      Field.putAll [(BridgeControl.addr, 0x134), (BridgeControl.write, 0), (BridgeControl.start, 1)]
        raw = Field.putAll ws raw := by
  intro ws raw
  have admits : BridgeControl.layout.Admits ws := by decide +kernel
  have reserved : BridgeControl.layout.Reserved 20 := by decide +kernel
  obtain ⟨reads, stays, last, -⟩ := writes_stay_apart BridgeControl.layout raw admits
  have addr := reads BridgeControl.addr (by simp [BridgeControl.layout])
  have data := reads BridgeControl.data (by simp [BridgeControl.layout])
  have write := reads BridgeControl.write (by simp [BridgeControl.layout])
  exact ⟨admits, addr.trans (by decide +kernel), data.trans (by decide +kernel),
    write.trans (by decide +kernel), (stays 20 reserved).trans (by decide),
    last _ (by decide +kernel) (by decide +kernel)⟩

end Layout
end ClockControl
