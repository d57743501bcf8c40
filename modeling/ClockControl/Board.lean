import ClockControl.Action

/-! The hardware that the controller runs on, and what the program keeps beside it: the
published clocks and whether it has been booted. A store to the bridge's control register
with the start bit begins a cycle of the PMU; each poll of that register brings the cycle
nearer to its end, and the poll that ends it carries it out and clears the start bit. -/
namespace ClockControl

/-- A cycle that the bridge has not finished. -/
inductive Pending where
  /-- The start bit never clears. -/
  | stuck
  /-- So many more polls find the start bit set. -/
  | busy (polls : Nat)
deriving DecidableEq, Repr

structure Board where
  image : Image
  pmu : RegisterFile
  pending : Option Pending
  /-- Polls that find the bridge busy, for cycles that begin from now on. -/
  busy : Nat
  /-- The accesses to the PMU that fail, by their number, counted from 1. -/
  fails : Nat → Bool
  /-- Accesses so far. -/
  accesses : Nat
  published : Option Clocks
  booted : Bool

namespace Board

/-- A board after power-up, with everything 0 and no access failing. -/
def blank : Board where
  image := .replicate 64 0
  pmu := .replicate 256 0
  pending := none
  busy := 0
  fails := fun _ => false
  accesses := 0
  published := none
  booted := false

/-- The hardware's side of a store. -/
def latch (b : Board) (r : Register) (v : Word) : Board :=
  let b := { b with image := b.image.store r v }
  if r ≠ .bridgeControl then
    b
  else if BridgeControl.start.isSet v then
    let n := b.accesses + 1
    { b with accesses := n, pending := some (if b.fails n then .stuck else .busy b.busy) }
  else
    { b with pending := none }

/-- Carry out the cycle in the control register. The byte found by a read appears in the
data register under a fixed pattern. -/
def finish (b : Board) : Board :=
  let control := b.image.load .bridgeControl
  let c := Cycle.ofWord control
  let image := match c with
    | .read _ => b.image.store .bridgeData (0xA5A55A00#32 ||| (c.byte b.pmu).setWidth 32)
    | .write _ _ => b.image
  { b with
    image := image.store .bridgeControl (BridgeControl.start.put 0 control)
    pmu := c.apply b.pmu
    pending := none }

def store (r : Register) (v : Word) : Action Board Unit := do
  .emit (.store r v)
  .update (·.latch r v)

/-- The hardware's side of a poll of the bridge. -/
def poll : Action Board Unit := do
  let b ← .state
  match b.pending with
  | some (.busy 0) =>
    let c := Cycle.ofWord (b.image.load .bridgeControl)
    .emit (.cycle .bridge c (some (c.byte b.pmu)))
    .update finish
  | some (.busy (n + 1)) => .update ({ · with pending := some (.busy n) })
  | some .stuck | none => pure ()

def load (r : Register) : Action Board Word := do
  if r = .bridgeControl then
    poll
  return (← Action.state).image.load r

/-- One load and one store. -/
def change (r : Register) (f : Word → Word) : Action Board Unit := do
  store r (f (← load r))

theorem latch_of_ne {r : Register} (h : r ≠ .bridgeControl) (b : Board) (v : Word) :
    b.latch r v = { b with image := b.image.store r v } := by
  simp [latch, h]

@[simp] theorem run_store (r : Register) (v : Word) (b : Board) :
    (store r v).run b = ⟨.ok (), b.latch r v, [⟨b, .store r v⟩]⟩ := rfl

theorem run_load {r : Register} (h : r ≠ .bridgeControl) (b : Board) :
    (load r).run b = ⟨.ok (b.image.load r), b, []⟩ := by
  simp [load, h, Action.run_map, Except.map]

theorem run_change {r : Register} (h : r ≠ .bridgeControl) (f : Word → Word) (b : Board) :
    (change r f).run b =
      ⟨.ok (), b.latch r (f (b.image.load r)), [⟨b, .store r (f (b.image.load r))⟩]⟩ := by
  rw [change, Action.run_bind_ok (run_load h b)]
  rfl

end Board
end ClockControl
