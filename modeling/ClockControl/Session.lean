import ClockControl.Boot

/-! A session on a board: commands to a controller that may come and go, to the program as a
whole, and to the registers and the PMU directly, each with its answer. -/
namespace ClockControl

structure Session where
  board : Board
  controller : Option Controller

/-- A new value of a register: fields written in turn, or a word laid over the old one. -/
inductive Edit where
  | fields (writes : List (Field 32 × Nat))
  | toggle (mask : Word)

def Edit.apply : Edit → Word → Word
  | .fields writes, raw => Field.putAll writes raw
  | .toggle mask, raw => raw ^^^ mask

/-- The kinds of busy wait. -/
inductive BusyWait where
  | microseconds | nanoseconds | eachMillisecond
deriving DecidableEq, Repr

inductive Command where
  /-- A new controller takes over, attached or not. -/
  | engage (w : Wiring) (crystal : Hertz) (attached : Bool)
  /-- The controller goes. -/
  | release
  | operate (op : Operation)
  | domain (index : UInt8)
  | domains
  | boot (c : Configuration)
  /-- The outside world sets a word of the block. -/
  | poke (index : Fin 64) (value : Word)
  /-- The outside world sets a byte of the PMU. -/
  | pokePmu (reg value : Byte)
  | setBusy (polls : Nat)
  | published?
  | published
  /-- Each published clock on its own. -/
  | publishedRates
  | publishedDomain (index : UInt8)
  | publishedDomains
  | busyWait (kind : BusyWait) (n : UInt32)
  | load (r : Register)
  | store (r : Register) (e : Edit)
  | change (r : Register) (e : Edit)
  | pmuRead (via : Access) (reg : Byte)
  | pmuWrite (via : Access) (reg value : Byte)
  /-- Mask the byte with `keep`, then toggle the bits of `toggle`. -/
  | pmuModify (via : Access) (reg keep toggle : Byte)
  | oscillators (via : Access)
  | setOscillators (via : Access) (writes : List (Field 8 × Nat))

inductive Answer where
  | done
  | number (n : Nat)
  | frequency (f : Option Hertz)
  | frequencies (fs : List (Option Hertz))
  | clocks (c : Option Clocks)
  /-- Answers of which each may have failed. -/
  | readings (rs : List (Attempt (Option Hertz)))
deriving Repr

/-- The clocks that can be asked for one by one once they are published. -/
def Clocks.readable (c : Clocks) : List Rate :=
  [c.coreHs, c.spll, c.aupll, c.core, c.dsp, c.lowPower]

namespace Session

def onBoard (a : Action Board α) : Action Session α :=
  a.zoom (·.board) fun s b => { s with board := b }

instance : MonadLift (Action Board) (Action Session) := ⟨onBoard⟩

/-- An action of the controller. Where there is none the command has no effect. -/
def onController (a : Action Rig Answer) : Action Session Answer := ⟨fun s =>
  match s.controller with
  | none => (pure .done : Action Session Answer).run s
  | some c => (a.run ⟨s.board, c⟩).mapState fun rig => ⟨rig.board, some rig.controller⟩⟩

def publishedRates : Action Session Answer := do
  match (← Action.state).board.published with
  | some c => return .readings (c.readable.map fun r => .ok r.hertz?)
  | none => return .readings (Clocks.reset.readable.map fun _ => .halt .clocksUnpublished)

def busyWait : BusyWait → UInt32 → Action Board Unit
  | .microseconds, n => ClockControl.busyWait n
  | .nanoseconds, n => busyWaitNanoseconds n
  | .eachMillisecond, n => busyWaitEachMillisecond n

/-- What the register reads after a command on it. -/
def readBack (r : Register) : Action Session Answer := do
  return .number (← Board.load r).toNat

def exec : Command → Action Session Answer
  | .engage w crystal attached => do
    let s ← .state
    let c := Controller.fresh w crystal
    .update ({ · with controller := some (if attached then c.attach s.board.published else c) })
    return .done
  | .release => do
    .update ({ · with controller := none })
    return .done
  | .operate op => onController do
    op.action
    return .done
  | .domain index => onController do
    return .frequency (← Controller.domainFrequency (← Domain.ofIndex index))
  | .domains => onController do
    return .frequencies (← Domain.all.mapM Controller.domainFrequency)
  | .boot c => do
    ClockControl.boot c
    return .done
  | .poke i value => do
    .update fun s => { s with board.image := s.board.image.set i value }
    return .done
  | .pokePmu reg value => do
    .update fun s => { s with board.pmu := s.board.pmu.write reg value }
    return .done
  | .setBusy polls => do
    .update ({ · with board.busy := polls })
    return .done
  | .published? => do
    return .clocks (← Action.state).board.published
  | .published => do
    return .clocks (← publishedClocks)
  | .publishedRates => publishedRates
  | .publishedDomain index => do
    return .frequency (← publishedFrequency (← Domain.ofIndex index))
  | .publishedDomains => do
    return .frequencies (← Domain.all.mapM fun d => publishedFrequency d)
  | .busyWait kind n => do
    busyWait kind n
    return .done
  | .load r => readBack r
  | .store r e => do
    Board.store r (e.apply 0)
    readBack r
  | .change r e => do
    Board.change r e.apply
    readBack r
  | .pmuRead via reg => do
    return .number (← Pmu.read via reg).toNat
  | .pmuWrite via reg value => do
    Pmu.write via reg value
    return .done
  | .pmuModify via reg keep toggle => do
    Pmu.change via reg fun v => (v &&& keep) ^^^ toggle
    return .done
  | .oscillators via => do
    return .number (← Pmu.read via Register.oscillatorControl).toNat
  | .setOscillators via writes => do
    Pmu.change via Register.oscillatorControl (Field.putAll writes)
    return .done

/-- The session after a list of commands. -/
def after (s : Session) (cs : List Command) : Session :=
  cs.foldl (fun s c => ((exec c).run s).after) s

end Session
end ClockControl
