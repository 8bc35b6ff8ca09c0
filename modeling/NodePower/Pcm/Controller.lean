import Mathlib.Data.Rat.Floor
import NodePower.Actuators
import NodePower.Common.CallTrace
import NodePower.Common.SlidingWindow
import NodePower.Common.DecimalRounding

/-!
# The memory-throughput controller of pcm-memory

`dynamicUfs` is called once per sampling period with the DRAM read and write throughput.
It learns a lower bound for the uncore frequency, keeps the last `history` throughput
samples, and from their slope decides whether the uncore frequency is expected to be at
its maximum. The last ten decisions that changed that expectation form the change window;
when its average reaches `burst_up` the uncore is kept high. A last step moves the GPU
power limit.

Numbers of type `double` are exact rationals, and a literal stands for the decimal it
spells. The flags of the source that are only ever assigned 0 and 1 are Booleans. A read
of `throughputHistory` outside its bounds has no result.
-/

namespace NodePower

/-- The globals that the command line sets and no later code changes, over a type for `double`. -/
structure OptionValues (Double : Type) where
  uncore0 : Double
  uncore1 : Double
  incTs : Double
  decTs : Double
  dynamicUfsMem : Int32
  history : Int32
  dualCap : Int32
  burstUp : Double
  burstLow : Double
  powerShift : Int32
  gCap : Int32
  ups : Int32
  memoryThroughputTs : Double

/-- The options with exact numbers. -/
abbrev Options := OptionValues ℚ

/-- The values these globals have before the command line is read. -/
def defaultOptions : Options where
  uncore0 := 8 / 10
  uncore1 := 8 / 10
  incTs := 0
  decTs := 0
  dynamicUfsMem := 0
  history := 1
  dualCap := 1
  burstUp := 4 / 10
  burstLow := 2 / 10
  powerShift := 0
  gCap := 0
  ups := 0
  memoryThroughputTs := 50000

/-- The globals and static variables that `dynamicUfs` changes. -/
structure Globals where
  expectCurrentMaxUncore : Bool
  highUncore : Bool
  highGpuPower : Bool
  lowMem : Bool
  newUncoreFreq0 : ℚ
  newUncoreFreq1 : ℚ
  maxMemThroughput : ℚ
  uncoreLowerBound : ℚ
  throughputHistory : List ℚ
  uncoreChangeWindow : List ℕ

/-- The arguments of one call. -/
structure Sample where
  sysReadDRAM : ℚ
  sysWriteDRAM : ℚ

/-- The throughput of one sample. -/
def Sample.currentThroughput (sample : Sample) : ℚ :=
  sample.sysReadDRAM + sample.sysWriteDRAM

/-- The frequency of the raised uncore, which no code changes. -/
def uncoreUpperBound : ℚ := 22 / 10

/-- The number of decisions in the change window. -/
def windowSize : ℕ := 10

/-- The initial values of the globals and static variables. -/
def initialGlobals : Globals where
  expectCurrentMaxUncore := false
  highUncore := false
  highGpuPower := false
  lowMem := false
  newUncoreFreq0 := 8 / 10
  newUncoreFreq1 := 8 / 10
  maxMemThroughput := 0
  uncoreLowerBound := 8 / 10
  throughputHistory := []
  uncoreChangeWindow := []

/-- The number that `std::to_string` prints: `%f`, six decimals. -/
def stdToString (x : ℚ) : ℚ := roundDecimal 6 x

/-- The command line `set_uncore_freq.sh cpu0 cpu1` built with `std::to_string`. -/
def uncoreCommand (cpu0 cpu1 : ℚ) : Command :=
  .setUncoreFreq (stdToString cpu0) (stdToString cpu1)

/-- Conversion of an `int` to `size_t` in a comparison with a vector's size. -/
def sizeT (n : Int32) : ℕ := (n.toInt % 2 ^ 64).toNat

/-- Read a vector at an `int` index; a negative index is past every end. -/
def vectorAt (xs : List ℚ) (i : ℤ) : Option ℚ :=
  if i < 0 then none else xs[i.toNat]?

/-- Division of doubles. A zero divisor only ever meets a zero dividend here, and then the
quotient is not a number: every comparison with it is false. -/
def divide (x y : ℚ) : Option ℚ := if y = 0 then none else some (x / y)

/-- `x > y` for a quotient `x`. -/
def quotientGt (x : Option ℚ) (y : ℚ) : Bool := x.any (y < ·)

/-- `x < y` for a quotient `x`. -/
def quotientLt (x : Option ℚ) (y : ℚ) : Bool := x.any (· < y)

/-- The average of a vector by `std::accumulate` over its size. -/
def average (xs : List ℚ) : Option ℚ := divide xs.sum xs.length

/-- The average of the change window. -/
def averageChange (window : List ℕ) : Option ℚ := average (window.map Nat.cast)

/-- The time covered by a full history: `0.1 * (history - 1)`. -/
def timeInterval (opt : Options) : ℚ := 1 / 10 * ((opt.history.toInt - 1 : ℤ) : ℚ)

/-- The slope of the history, or nothing when one of its two reads is out of bounds. -/
def derivative (opt : Options) (throughputHistory : List ℚ) : Option (Option ℚ) := do
  let newest ← vectorAt throughputHistory (opt.history.toInt - 1)
  let oldest ← vectorAt throughputHistory 0
  return divide (newest - oldest) (timeInterval opt)

/-- Record the throughput in the running maximum, the learned lower bound, and the history. -/
def recordThroughput (opt : Options) (g : Globals) (currentThroughput : ℚ) : Globals :=
  let maxMemThroughput := max currentThroughput g.maxMemThroughput
  { g with
    maxMemThroughput
    uncoreLowerBound :=
      if opt.memoryThroughputTs < maxMemThroughput then 15 / 10 else g.uncoreLowerBound
    throughputHistory := slide (sizeT opt.history) g.throughputHistory currentThroughput }

/-- The raising command: both sockets under `dual_cap`, else only socket 0. -/
def raiseCommand (opt : Options) (g : Globals) : Command :=
  if opt.dualCap = 1 then uncoreCommand uncoreUpperBound uncoreUpperBound
  else uncoreCommand uncoreUpperBound g.uncoreLowerBound

/-- The lowering command, always for both sockets. -/
def lowerCommand (g : Globals) : Command :=
  uncoreCommand g.uncoreLowerBound g.uncoreLowerBound

/-- The reaction to a negative average throughput. -/
def lowMemory (g : Globals) : Globals × List Command :=
  ({ g with
      highUncore := false
      lowMem := true
      uncoreChangeWindow := g.uncoreChangeWindow ++ [0] }, [lowerCommand g])

/-- The change window is full and its average has reached `burst_up`. -/
def findsBurst (opt : Options) (g : Globals) : Bool :=
  decide (windowSize ≤ g.uncoreChangeWindow.length) &&
    (averageChange g.uncoreChangeWindow).any (opt.burstUp ≤ ·)

/-- The change window is full and its average is at most `burst_low`. -/
def findsQuiet (opt : Options) (g : Globals) : Bool :=
  decide (windowSize ≤ g.uncoreChangeWindow.length) &&
    (averageChange g.uncoreChangeWindow).any (· ≤ opt.burstLow)

/-- The burst check on the current `burst_status`: a burst sets it and raises the uncore unless
that has been done, a quiet window clears it, and anything else leaves it. -/
def checkBurst (opt : Options) (burstStatus : Bool) (g : Globals) :
    Bool × Globals × List Command :=
  if findsBurst opt g then
    if g.highUncore then (true, g, [])
    else (true, { g with highUncore := true }, [raiseCommand opt g])
  else if findsQuiet opt g then (false, g, [])
  else (burstStatus, g, [])

/-- The test of the increase branch. -/
def memIncrease (opt : Options) (g : Globals) (slope : Option ℚ) : Bool :=
  quotientGt (slope.map (· / 10)) opt.incTs && !g.expectCurrentMaxUncore

/-- The test of the decrease branch, reached when the increase test fails. -/
def memDecrease (opt : Options) (g : Globals) (slope : Option ℚ) : Bool :=
  quotientLt (slope.map (· / 10)) (-opt.decTs) && g.expectCurrentMaxUncore

/-- The throughput-based decision. Each branch appends its flip indicator to the window. -/
def memDecision (opt : Options) (burstStatus : Bool) (slope : Option ℚ) (g : Globals) :
    Globals × List Command :=
  if memIncrease opt g slope then
    let g := { g with
      uncoreChangeWindow := g.uncoreChangeWindow ++ [1], expectCurrentMaxUncore := true }
    if !burstStatus && !g.highUncore then
      ({ g with highUncore := true }, [raiseCommand opt g])
    else (g, [])
  else if memDecrease opt g slope then
    let g := { g with
      uncoreChangeWindow := g.uncoreChangeWindow ++ [1], expectCurrentMaxUncore := false }
    if !burstStatus && g.highUncore then
      ({ g with highUncore := false }, [lowerCommand g])
    else (g, [])
  else ({ g with uncoreChangeWindow := g.uncoreChangeWindow ++ [0] }, [])

/-- The branch for a nonnegative average: burst check, decision, and trimming of the window.
The variable `burst_status` is local to the call and starts at zero. -/
def throughputControl (opt : Options) (g : Globals) : Option (Globals × List Command) := do
  let (burstStatus, g, burstCommands) := checkBurst opt false g
  let slope ← derivative opt g.throughputHistory
  let (g, decisionCommands) := memDecision opt burstStatus slope g
  return ({ g with uncoreChangeWindow := dropOldest windowSize g.uncoreChangeWindow },
    burstCommands ++ decisionCommands)

/-- The power shift between CPU and GPU, which reads `newUncoreFreq_0` and `newUncoreFreq_1`. -/
def shiftPower (opt : Options) (g : Globals) : Globals × List Command :=
  if opt.powerShift = 1 ∧ opt.gCap = 1 then
    if (g.newUncoreFreq0 = 8 / 10 ∨ g.newUncoreFreq1 = 8 / 10) ∧ g.highGpuPower = false then
      ({ g with highGpuPower := true }, [.setGpuPowerLimit 233])
    else if (g.newUncoreFreq0 = 22 / 10 ∧ g.newUncoreFreq1 = 22 / 10) ∧ g.highGpuPower = true then
      ({ g with highGpuPower := false }, [.setGpuPowerLimit 150])
    else (g, [])
  else (g, [])

/-- One call of the controller. -/
def dynamicUfs (opt : Options) (g : Globals) (sample : Sample) : Option (Globals × List Command) := do
  let g := recordThroughput opt g sample.currentThroughput
  if g.throughputHistory.length = sizeT opt.history then
    let (g, uncoreCommands) ←
      if quotientLt (average g.throughputHistory) 0 then some (lowMemory g)
      else throughputControl opt g
    let (g, gpuCommands) := shiftPower opt g
    return (g, uncoreCommands ++ gpuCommands)
  else return (g, [])

/-- The controller together with what it has commanded. -/
structure System where
  globals : Globals
  hardware : Hardware

/-- One call of the controller, with its commands carried out. -/
def System.step (opt : Options) (sys : System) (sample : Sample) : Option (System × List Command) :=
  (dynamicUfs opt sys.globals sample).map fun answer =>
    (⟨answer.1, answer.2.foldl Hardware.apply sys.hardware⟩, answer.2)

/-- The state in which `mainThrows` enters its main loop: the start-up command has been issued,
and a start frequency of 2 GHz or more sets the expectation. -/
def mainThrowsStart (opt : Options) : System where
  globals := { initialGlobals with
    expectCurrentMaxUncore := decide (2 ≤ opt.uncore0 ∨ 2 ≤ opt.uncore1) }
  hardware := { cpu0 := stdToString opt.uncore0, cpu1 := stdToString opt.uncore1, gpuLimit := none }

/-- One call of the controller inside a run. -/
abbrev ControllerCall := Call System Sample Command

/-- A run of the controller from any state of the system. -/
def controllerRunFrom (opt : Options) (sys : System) (samples : List Sample) :
    Option (List ControllerCall) :=
  runCalls (System.step opt) sys samples

/-- A run of the controller from start-up. -/
def controllerRun (opt : Options) (samples : List Sample) : Option (List ControllerCall) :=
  controllerRunFrom opt (mainThrowsStart opt) samples

end NodePower
