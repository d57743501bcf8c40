import ClockControl.Register.Map

/-! The contents of the clock block and of the PMU's register file. -/
namespace ClockControl

/-- The 64 words of the clock block. -/
abbrev Image := Vector Word 64

namespace Image

def load (m : Image) (r : Register) : Word := m[r.index]

def store (m : Image) (r : Register) (v : Word) : Image := m.set r.index v

/-- Byte offset and value of each word that is not 0. -/
def nonzero (m : Image) : List (Nat × Word) :=
  (m.toList.mapIdx fun i w => (4 * i, w)).filter (·.2 != 0#32)

@[simp] theorem load_store_self (m : Image) (r : Register) (v : Word) :
    (m.store r v).load r = v := by
  simp [load, store]

theorem store_store_self (m : Image) (r : Register) (v w : Word) :
    (m.store r v).store r w = m.store r w := by
  simp [store]

theorem load_store_of_ne {r s : Register} (h : r ≠ s) (m : Image) (v : Word) :
    (m.store s v).load r = m.load r := by
  have : s.index.val ≠ r.index.val := fun e => h (Register.index_inj (Fin.ext e.symm))
  simp [load, store, this]

/-- Storing what a register already holds changes nothing. -/
theorem store_eq_self {m : Image} {r : Register} {v : Word} (h : m.load r = v) :
    m.store r v = m := by
  rw [← h]
  simp [load, store]

/-- A store does to a register what it does to it in any other block that agrees on it. -/
theorem load_store_congr {m n : Image} {r : Register} (h : n.load r = m.load r) (s : Register)
    (v : Word) : (n.store s v).load r = (m.store s v).load r := by
  by_cases same : r = s
  · rw [same, load_store_self, load_store_self]
  · rw [load_store_of_ne same, load_store_of_ne same, h]

theorem get_store (m : Image) (r : Register) (v : Word) (i : Fin 64) :
    (m.store r v).get i = if r.index = i then v else m.get i := by
  show (m.set r.index v)[i] = if r.index = i then v else m[i]
  simp only [Fin.getElem_fin, Vector.getElem_set, Fin.ext_iff]

end Image

/-- The 256 bytes of the PMU. -/
abbrev RegisterFile := Vector Byte 256

namespace RegisterFile

def read (m : RegisterFile) (reg : Byte) : Byte := m[reg.toFin]

def write (m : RegisterFile) (reg value : Byte) : RegisterFile := m.set reg.toFin value

/-- Number and value of each register that is not 0. -/
def nonzero (m : RegisterFile) : List (Nat × Byte) :=
  (m.toList.mapIdx fun i b => (i, b)).filter (·.2 != 0#8)

@[simp] theorem read_write_self (m : RegisterFile) (reg value : Byte) :
    (m.write reg value).read reg = value := by
  simp [read, write]

theorem read_write_of_ne {reg other : Byte} (h : reg ≠ other) (m : RegisterFile)
    (value : Byte) : (m.write other value).read reg = m.read reg := by
  have : other.toNat ≠ reg.toNat := fun e => h (BitVec.eq_of_toNat_eq e.symm)
  simp [read, write, this]

@[simp] theorem write_read (m : RegisterFile) (reg : Byte) : m.write reg (m.read reg) = m := by
  simp [read, write]

@[simp] theorem write_write (m : RegisterFile) (reg a b : Byte) :
    (m.write reg a).write reg b = m.write reg b := by
  simp [write]

end RegisterFile

/-- A field of a register of the block. -/
structure Slot where
  register : Register
  field : Field 32

namespace Slot

def get (s : Slot) (m : Image) : Nat := s.field.get (m.load s.register)

def put (s : Slot) (value : Nat) (m : Image) : Image :=
  m.store s.register (s.field.put value (m.load s.register))

end Slot
end ClockControl
