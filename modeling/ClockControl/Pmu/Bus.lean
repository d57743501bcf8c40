import ClockControl.Board

/-! Reading and writing the PMU, at once or through the bridge. Every cycle is one access; an
access that fails, or that the bridge does not finish in time, is a timeout that names the
register and leaves the PMU as it was. -/
namespace ClockControl.Pmu

/-- Polls of the bridge before a cycle counts as lost. -/
def pollLimit : Nat := 1000

def direct (c : Cycle) : Action Board Byte := do
  let b ← .state
  let n := b.accesses + 1
  if b.fails n then
    .emit (.cycle .direct c none)
    .update ({ · with accesses := n })
    .fail (.error (.timeout c.reg))
  else
    .emit (.cycle .direct c (some (c.byte b.pmu)))
    .update fun b => { b with accesses := n, pmu := c.apply b.pmu }
    return c.byte b.pmu

/-- Poll until the bridge is idle, at most so many times; answer whether it became idle. -/
def idleWithin : Nat → Action Board Bool
  | 0 => pure false
  | n + 1 => do
    if BridgeControl.start.isSet (← Board.load .bridgeControl) then
      idleWithin n
    else
      return true

def throughBridge (c : Cycle) : Action Board Unit := do
  Board.store .bridgeControl c.word
  if !(← idleWithin pollLimit) then
    .note (.cycleLost c.reg)
    .fail (.error (.timeout c.reg))

def read (via : Access) (reg : Byte) : Action Board Byte :=
  match via with
  | .direct => direct (.read reg)
  | .bridge => do
    throughBridge (.read reg)
    return (← Board.load .bridgeData).setWidth 8

def write (via : Access) (reg value : Byte) : Action Board Unit :=
  match via with
  | .direct => discard <| direct (.write reg value)
  | .bridge => throughBridge (.write reg value)

def change (via : Access) (reg : Byte) (f : Byte → Byte) : Action Board Unit := do
  write via reg (f (← read via reg))

end ClockControl.Pmu
