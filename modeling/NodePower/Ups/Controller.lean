import Mathlib.Data.Rat.Floor
import Mathlib.Algebra.Order.Group.Abs
import NodePower.Actuators
import NodePower.Common.CallTrace
import NodePower.Common.DecimalRounding

/-!
# The UPS controller

`ups` is called with the DRAM power and the instructions per cycle of one period. The first
call records both as references. Later calls compare the new values with the references:
while the DRAM power is within five percent the uncore frequency is stepped down, and on a
phase change it is reset to the maximum and references are moved.

Numbers of type `double` are exact rationals, and a literal stands for the decimal it
spells.
-/

namespace NodePower.Ups

/-- The globals that `ups` changes. -/
structure Globals where
  setpointDramPower : ℚ
  preIpc : ℚ
  init : Bool
  currentUf : ℚ

/-- The initial values of the globals. -/
def initialGlobals : Globals where
  setpointDramPower := 0
  preIpc := 0
  init := true
  currentUf := 22 / 10

/-- The arguments of one call. -/
structure Sample where
  dramPower : ℚ
  ipc : ℚ

/-- The size of one decrement. -/
def step : ℚ := 1 / 10

/-- The command line built with two `%.2f` conversions. -/
def printedCommand (cpu0 cpu1 : ℚ) : UncoreCommand :=
  ⟨roundDecimal 2 cpu0, roundDecimal 2 cpu1⟩

/-- The command lines spelled out in the source: `2.2 2.2` under `dual_cap`, else `2.2 1.2`. -/
def literalCommand (dualCap : Int32) : UncoreCommand :=
  if dualCap = 1 then ⟨22 / 10, 22 / 10⟩ else ⟨22 / 10, 12 / 10⟩

/-- One call of the controller. -/
def ups (dualCap : Int32) (g : Globals) (sample : Sample) : Globals × List UncoreCommand :=
  if g.init then
    ({ g with setpointDramPower := sample.dramPower, preIpc := sample.ipc, init := false }, [])
  else
    let deltaDramPower := sample.dramPower - g.setpointDramPower
    let deltaIpc := sample.ipc - g.preIpc
    if |deltaDramPower| ≤ g.setpointDramPower * (5 / 100) then
      if 12 / 10 < g.currentUf then
        let g := { g with currentUf := g.currentUf - step }
        (g, [printedCommand g.currentUf g.currentUf])
      else (g, [])
    else if g.setpointDramPower * (5 / 100) < deltaDramPower then
      ({ g with preIpc := sample.ipc, setpointDramPower := sample.dramPower, currentUf := 22 / 10 },
        [literalCommand dualCap])
    else if deltaDramPower < -g.setpointDramPower * (5 / 100) then
      if g.preIpc * (5 / 100) ≤ deltaIpc then
        ({ g with setpointDramPower := sample.dramPower, preIpc := sample.ipc, currentUf := 22 / 10 },
          [literalCommand dualCap])
      else if deltaIpc < -g.preIpc * (5 / 100) then
        let g := { g with preIpc := sample.ipc }
        let g := if g.currentUf < 22 / 10 then { g with currentUf := g.currentUf + step } else g
        if dualCap = 1 then
          let g := { g with currentUf := 22 / 10 }
          (g, [printedCommand g.currentUf g.currentUf])
        else
          let g := { g with currentUf := 22 / 10 }
          (g, [printedCommand g.currentUf (12 / 10)])
      else (g, [])
    else (g, [])

/-- One call of the controller inside a run. -/
abbrev UpsCall := Call Globals Sample UncoreCommand

/-- A run of the controller over the samples of the monitoring loop. -/
def upsRun (dualCap : Int32) (samples : List Sample) : List UpsCall :=
  totalCalls (ups dualCap) initialGlobals samples

/-- The globals after a run over the samples. -/
def upsAfter (dualCap : Int32) (samples : List Sample) : Globals :=
  stateAfter (ups dualCap) initialGlobals samples

/-- The branches of a call: the first call, a steady call, a rise of the power, a drop of the power
with a rise, a drop or no change of the IPC. -/
inductive Branch where
  | initial
  | steady
  | powerRise
  | powerDropIpcRise
  | powerDropIpcDrop
  | hold
  deriving DecidableEq

/-- The branch that a call takes. -/
def branchOf (g : Globals) (sample : Sample) : Branch :=
  if g.init then .initial
  else if |sample.dramPower - g.setpointDramPower| ≤ 5 / 100 * g.setpointDramPower then .steady
  else if 5 / 100 * g.setpointDramPower < sample.dramPower - g.setpointDramPower then .powerRise
  else if 5 / 100 * g.preIpc ≤ sample.ipc - g.preIpc then .powerDropIpcRise
  else if sample.ipc - g.preIpc < -(5 / 100 * g.preIpc) then .powerDropIpcDrop
  else .hold

/-- What a call does in each of its branches. -/
def react (dualCap : Int32) (g : Globals) (sample : Sample) : Branch → Globals × List UncoreCommand
  | .initial =>
    ({ g with setpointDramPower := sample.dramPower, preIpc := sample.ipc, init := false }, [])
  | .steady =>
    if 12 / 10 < g.currentUf then
      ({ g with currentUf := g.currentUf - step },
        [printedCommand (g.currentUf - step) (g.currentUf - step)])
    else (g, [])
  | .powerRise | .powerDropIpcRise =>
    ({ g with setpointDramPower := sample.dramPower, preIpc := sample.ipc, currentUf := 22 / 10 },
      [literalCommand dualCap])
  | .powerDropIpcDrop =>
    ({ g with preIpc := sample.ipc, currentUf := 22 / 10 }, [literalCommand dualCap])
  | .hold => (g, [])

/-- Without a steady power or a rise of the power, the power drops. -/
theorem power_drops {setpoint power : ℚ} (hsteady : ¬ |power - setpoint| ≤ setpoint * (5 / 100))
    (hrise : ¬ setpoint * (5 / 100) < power - setpoint) :
    power - setpoint < -setpoint * (5 / 100) := by
  by_contra hdrop
  apply hsteady
  rw [abs_le]
  constructor
  · linarith
  · exact not_lt.mp hrise

/-- The command printed in the branch that drops the IPC reference is the one spelled out. -/
theorem printedCommand_eq_literalCommand (dualCap : Int32) :
    (if dualCap = 1 then printedCommand (22 / 10) (22 / 10)
      else printedCommand (22 / 10) (12 / 10)) = literalCommand dualCap := by
  have hmax : roundDecimal 2 (22 / 10 : ℚ) = 22 / 10 := roundDecimal_of_decimal (n := 220) (by norm_num)
  have hmin : roundDecimal 2 (12 / 10 : ℚ) = 12 / 10 := roundDecimal_of_decimal (n := 120) (by norm_num)
  simp only [printedCommand, literalCommand, hmax, hmin]

/-- A call does what its branch says. -/
theorem ups_eq_react (dualCap : Int32) (g : Globals) (sample : Sample) :
    ups dualCap g sample = react dualCap g sample (branchOf g sample) := by
  have hprinted := printedCommand_eq_literalCommand dualCap
  simp only [ups, branchOf, mul_comm (5 / 100 : ℚ), ← neg_mul]
  by_cases hinit : g.init
  · simp [hinit, react]
  by_cases hsteady : |sample.dramPower - g.setpointDramPower| ≤ g.setpointDramPower * (5 / 100)
  · simp [hinit, hsteady, react]
  by_cases hrise : g.setpointDramPower * (5 / 100) < sample.dramPower - g.setpointDramPower
  · simp [hinit, hsteady, hrise, react]
  have hdrop := power_drops hsteady hrise
  by_cases hipcRise : g.preIpc * (5 / 100) ≤ sample.ipc - g.preIpc
  · simp only [hinit, hsteady, hrise, hdrop, hipcRise, react, if_true, if_false, Bool.false_eq_true]
  by_cases hipcDrop : sample.ipc - g.preIpc < -g.preIpc * (5 / 100)
  · simp only [hinit, hsteady, hrise, hdrop, hipcRise, hipcDrop, react, if_true, if_false,
      Bool.false_eq_true, ← hprinted]
    split <;> split <;> rfl
  · simp only [hinit, hsteady, hrise, hdrop, hipcRise, hipcDrop, react, if_true, if_false,
      Bool.false_eq_true]

end NodePower.Ups
