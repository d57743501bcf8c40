import ClockControl.Session
import ClockControl.Proofs.Admission
import ClockControl.Proofs.Derivation
import ClockControl.Proofs.SystemPll.Switch
import ClockControl.Proofs.Publication
import ClockControl.Proofs.Effect
import ClockControl.Proofs.Succession
import ClockControl.Proofs.Completion
import ClockControl.Proofs.Sources
import ClockControl.Proofs.Settlement
import ClockControl.Proofs.Pmu.Mirror
import ClockControl.Proofs.Refinement
import ClockControl.Proofs.Stranding
import ClockControl.Proofs.Retry
import ClockControl.Proofs.Oscillator.Selection
import ClockControl.Proofs.Stores
import ClockControl.Proofs.Interchange
import ClockControl.Proofs.Timing
import ClockControl.Proofs.Halting
import ClockControl.Proofs.Boot
import ClockControl.Proofs.Pll.Bias
import ClockControl.Proofs.Pll.Proportion
import ClockControl.Proofs.Pll.Output
import ClockControl.Proofs.Overshoot
import ClockControl.Proofs.Pll.Gating
import ClockControl.Proofs.BusyWait
import ClockControl.Proofs.Pll.Reduction
import ClockControl.Proofs.Readback
