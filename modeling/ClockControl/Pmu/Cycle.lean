import ClockControl.Register.Image

/-! Bus cycles of the PMU. A cycle reads or writes one byte; the bridge takes it packed into
its control word. Main statement: `ofWord_word`, the hardware decodes what was asked. -/
namespace ClockControl

inductive Cycle where
  | read (reg : Byte)
  | write (reg value : Byte)
deriving DecidableEq, Repr

/-- How cycles reach the PMU: at once, or through the polled bridge. -/
inductive Access where
  | direct | bridge
deriving DecidableEq, Repr

namespace Cycle

def reg : Cycle → Byte
  | .read reg => reg
  | .write reg _ => reg

/-- The control word that starts the cycle. -/
def word : Cycle → Word
  | .read reg => Field.putAll [(BridgeControl.addr, reg.toNat), (BridgeControl.start, 1)] 0
  | .write reg value => Field.putAll [(BridgeControl.addr, reg.toNat),
      (BridgeControl.data, value.toNat), (BridgeControl.write, 1), (BridgeControl.start, 1)] 0

/-- The cycle that a control word asks for. -/
def ofWord (control : Word) : Cycle :=
  let reg := BitVec.ofNat 8 (BridgeControl.addr.get control)
  if BridgeControl.write.isSet control then
    .write reg (BitVec.ofNat 8 (BridgeControl.data.get control))
  else
    .read reg

/-- The byte that passes on the bus: the one found, or the one to store. -/
def byte (c : Cycle) (m : RegisterFile) : Byte :=
  match c with
  | .read reg => m.read reg
  | .write _ value => value

def apply (c : Cycle) (m : RegisterFile) : RegisterFile :=
  match c with
  | .read _ => m
  | .write reg value => m.write reg value

theorem keep_addr (reg : Byte) : BridgeControl.addr.keep reg.toNat = reg.toNat :=
  Field.keep_of_lt reg.isLt rfl

theorem keep_data (value : Byte) : BridgeControl.data.keep value.toNat = value.toNat :=
  Field.keep_of_lt value.isLt rfl

/-- The hardware carries out the cycle that was asked for. -/
@[simp] theorem ofWord_word (c : Cycle) : ofWord c.word = c := by
  cases c with
  | read reg =>
    simp (disch := decide) [word, ofWord, Field.isSet, Field.get_put_of_disjoint, keep_addr]
  | write reg value =>
    have set : BridgeControl.write.keep 1 = 1 := rfl
    simp (disch := decide) [word, ofWord, Field.isSet, Field.get_put_of_disjoint, keep_addr,
      keep_data, set]

/-- Asking for a cycle starts it. -/
@[simp] theorem isSet_start_word (c : Cycle) : BridgeControl.start.isSet c.word = true := by
  have set : BridgeControl.start.keep 1 = 1 := rfl
  cases c <;> simp [word, Field.isSet, set]

end Cycle
end ClockControl
