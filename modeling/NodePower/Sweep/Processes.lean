import Mathlib.Data.Rat.Init
import Mathlib.Logic.Function.Basic
import NodePower.Common.CallTrace

/-!
# The frequency sweep and its monitors

For every configuration the driver starts a benchmark, a CPU monitor and a GPU monitor. A
monitor notices on its own that the benchmark has ended, and then appends one row to its
temporary file. The driver waits for the benchmark only, and reads both temporary files
after a fixed sleep. A file that is not there yet is an exception that ends the execution;
the monitors and the files stay behind.

The temporary files have the same names in all configurations and all executions.
-/

namespace NodePower.Sweep

/-- The two monitors of a configuration. -/
inductive Monitor where
  | cpu
  | gpu
  deriving DecidableEq

/-- One configuration of one execution. -/
structure Run where
  execution : ℕ
  index : ℕ
  deriving DecidableEq

/-- A CPU power cap and a GPU frequency. -/
structure Config where
  cpuCap : ℕ
  gpuFs : ℕ
  deriving DecidableEq

/-- A data row of a temporary file. The first column is an energy. -/
structure TmpRow where
  energy : ℚ
  others : List ℚ
  deriving DecidableEq

/-- A row of the result file. -/
structure ResultRow where
  cpuCap : ℕ
  gpuFs : ℕ
  cpuE : ℚ
  gpuE : ℚ
  runtime : ℚ
  deriving DecidableEq

/-- A line of the result file. -/
inductive OutputLine where
  | header
  | row (row : ResultRow)
  deriving DecidableEq

/-- Where the driver is, with the variables of `cap_exp` that it still needs. -/
inductive Phase where
  | stopped
  | starting
  | waiting
  | benchmarkEnded (runtime : ℚ) (fileExists : Bool)
  | cpuRead (runtime : ℚ) (fileExists : Bool) (tmpCpuDf : List TmpRow)
  | gpuRead (runtime : ℚ) (fileExists : Bool) (tmpCpuDf tmpGpuDf : List TmpRow)
  | cpuRemoved (runtime : ℚ) (fileExists : Bool) (cpuE gpuE : ℚ)
  | gpuRemoved (runtime : ℚ) (fileExists : Bool) (cpuE gpuE : ℚ)
  deriving DecidableEq

/-- The driver, the files and the monitors. A temporary file is absent or holds data rows below its
header, and a monitor is pending until it has appended its row. -/
structure State where
  execution : ℕ
  index : ℕ
  configs : List Config
  phase : Phase
  tmp : Monitor → Option (List TmpRow)
  pending : List (Monitor × Run)
  outputExists : Bool

/-- The configuration that the driver is at. -/
def State.run (s : State) : Run := ⟨s.execution, s.index⟩

/-- Nothing has been started. -/
def initialState : State where
  execution := 0
  index := 0
  configs := []
  phase := .stopped
  tmp := fun _ => none
  pending := []
  outputExists := false

/-- What can happen next: a new execution, the end of the benchmark with its runtime, the row of one
monitor, or the next action of the driver. -/
inductive Event where
  | restart (configs : List Config)
  | benchmarkEnds (runtime : ℚ)
  | append (monitor : Monitor) (run : Run)
  | driver
  deriving DecidableEq

/-- Replace a temporary file. -/
def State.setTmp (s : State) (monitor : Monitor) (file : Option (List TmpRow)) : State :=
  { s with tmp := Function.update s.tmp monitor file }

/-- Move the driver. -/
def State.setPhase (s : State) (phase : Phase) : State := { s with phase }

/-- The end of an execution, after the last configuration or by an exception. -/
def State.stop (s : State) : State := s.setPhase .stopped

/-- The next action of the driver, in `cap_exp` or between two of its calls. -/
def driverStep (s : State) : Option (State × List OutputLine) :=
  match s.phase with
  | .stopped => none
  | .starting => match s.configs with
    | [] => some (s.stop, [])
    | _ :: _ =>
      some ({ s with phase := .waiting, pending := s.pending ++ [(.cpu, s.run), (.gpu, s.run)] }, [])
  | .waiting => none
  | .benchmarkEnded runtime fileExists => match s.tmp .cpu with
    | some tmpCpuDf => some (s.setPhase (.cpuRead runtime fileExists tmpCpuDf), [])
    | none => some (s.stop, [])
  | .cpuRead runtime fileExists tmpCpuDf => match s.tmp .gpu with
    | some tmpGpuDf => some (s.setPhase (.gpuRead runtime fileExists tmpCpuDf tmpGpuDf), [])
    | none => some (s.stop, [])
  | .gpuRead runtime fileExists tmpCpuDf tmpGpuDf =>
    match tmpCpuDf.head?, tmpGpuDf.head?, s.tmp .cpu with
    | some cpuRow, some gpuRow, some _ =>
      some ((s.setTmp .cpu none).setPhase (.cpuRemoved runtime fileExists cpuRow.energy gpuRow.energy),
        [])
    | _, _, _ => some (s.stop, [])
  | .cpuRemoved runtime fileExists cpuE gpuE => match s.tmp .gpu with
    | some _ => some ((s.setTmp .gpu none).setPhase (.gpuRemoved runtime fileExists cpuE gpuE), [])
    | none => some (s.stop, [])
  | .gpuRemoved runtime fileExists cpuE gpuE => match s.configs with
    | config :: rest =>
      some ({ s with index := s.index + 1, configs := rest, phase := .starting, outputExists := true },
        (if fileExists then [] else [.header]) ++
          [.row ⟨config.cpuCap, config.gpuFs, cpuE, gpuE, runtime⟩])
    | [] => none

/-- What an action of the driver can do: end the execution, start a configuration, read or remove a
temporary file that is there, or write the result row. -/
inductive DriverMove (s : State) : State → List OutputLine → Prop where
  | stop : DriverMove s s.stop []
  | launch (hphase : s.phase = .starting) :
    DriverMove s { s with
      phase := .waiting, pending := s.pending ++ [(.cpu, s.run), (.gpu, s.run)] } []
  | readCpu {runtime : ℚ} {fileExists : Bool} {tmpCpuDf : List TmpRow}
    (hphase : s.phase = .benchmarkEnded runtime fileExists) (hfile : s.tmp .cpu = some tmpCpuDf) :
    DriverMove s (s.setPhase (.cpuRead runtime fileExists tmpCpuDf)) []
  | readGpu {runtime : ℚ} {fileExists : Bool} {tmpCpuDf tmpGpuDf : List TmpRow}
    (hphase : s.phase = .cpuRead runtime fileExists tmpCpuDf) (hfile : s.tmp .gpu = some tmpGpuDf) :
    DriverMove s (s.setPhase (.gpuRead runtime fileExists tmpCpuDf tmpGpuDf)) []
  | removeCpu {runtime : ℚ} {fileExists : Bool} {tmpCpuDf tmpGpuDf : List TmpRow}
    {cpuRow gpuRow : TmpRow} (hphase : s.phase = .gpuRead runtime fileExists tmpCpuDf tmpGpuDf)
    (hcpu : tmpCpuDf.head? = some cpuRow) (hgpu : tmpGpuDf.head? = some gpuRow) :
    DriverMove s ((s.setTmp .cpu none).setPhase
      (.cpuRemoved runtime fileExists cpuRow.energy gpuRow.energy)) []
  | removeGpu {runtime : ℚ} {fileExists : Bool} {cpuE gpuE : ℚ}
    (hphase : s.phase = .cpuRemoved runtime fileExists cpuE gpuE) :
    DriverMove s ((s.setTmp .gpu none).setPhase (.gpuRemoved runtime fileExists cpuE gpuE)) []
  | write {runtime : ℚ} {fileExists : Bool} {cpuE gpuE : ℚ} {config : Config} {rest : List Config}
    (hphase : s.phase = .gpuRemoved runtime fileExists cpuE gpuE)
    (hconfigs : s.configs = config :: rest) :
    DriverMove s
      { s with index := s.index + 1, configs := rest, phase := .starting, outputExists := true }
      ((if fileExists then [] else [.header]) ++
        [.row ⟨config.cpuCap, config.gpuFs, cpuE, gpuE, runtime⟩])

/-- Every action of the driver is such a move. -/
theorem driverMove_of_driverStep {s t : State} {out : List OutputLine}
    (hstep : driverStep s = some (t, out)) : DriverMove s t out := by
  unfold driverStep at hstep
  cases hphase : s.phase with
  | stopped => simp [hphase] at hstep
  | starting =>
    simp only [hphase] at hstep
    split at hstep <;> obtain ⟨rfl, rfl⟩ := Prod.mk.inj (Option.some.inj hstep)
    · exact .stop
    · exact .launch hphase
  | waiting => simp [hphase] at hstep
  | benchmarkEnded runtime fileExists =>
    simp only [hphase] at hstep
    split at hstep <;> obtain ⟨rfl, rfl⟩ := Prod.mk.inj (Option.some.inj hstep)
    · exact .readCpu hphase ‹_›
    · exact .stop
  | cpuRead runtime fileExists tmpCpuDf =>
    simp only [hphase] at hstep
    split at hstep <;> obtain ⟨rfl, rfl⟩ := Prod.mk.inj (Option.some.inj hstep)
    · exact .readGpu hphase ‹_›
    · exact .stop
  | gpuRead runtime fileExists tmpCpuDf tmpGpuDf =>
    simp only [hphase] at hstep
    split at hstep <;> obtain ⟨rfl, rfl⟩ := Prod.mk.inj (Option.some.inj hstep)
    · exact .removeCpu hphase ‹_› ‹_›
    · exact .stop
  | cpuRemoved runtime fileExists cpuE gpuE =>
    simp only [hphase] at hstep
    split at hstep <;> obtain ⟨rfl, rfl⟩ := Prod.mk.inj (Option.some.inj hstep)
    · exact .removeGpu hphase
    · exact .stop
  | gpuRemoved runtime fileExists cpuE gpuE =>
    simp only [hphase] at hstep
    split at hstep
    · obtain ⟨rfl, rfl⟩ := Prod.mk.inj (Option.some.inj hstep)
      exact .write hphase ‹_›
    · simp at hstep

/-- The benchmark that a monitor watches has ended. -/
def State.Ended (s : State) (run : Run) : Prop := run = s.run → s.phase ≠ .waiting

instance (s : State) (run : Run) : Decidable (s.Ended run) := inferInstanceAs (Decidable (_ → _))

/-- A monitor appends its row, below a new header if there is no file, and ends. -/
def State.appendRow (s : State) (monitor : Monitor) (run : Run) (row : TmpRow) : State :=
  { s.setTmp monitor (some ((s.tmp monitor).getD [] ++ [row])) with
    pending := s.pending.erase (monitor, run) }

/-- One step of the system. The rows that the monitors append are what they measured in their own
run. -/
def step (measured : Monitor → Run → TmpRow) (s : State) : Event → Option (State × List OutputLine)
  | .restart configs =>
    if s.phase = .stopped then
      some ({ s with execution := s.execution + 1, index := 0, configs, phase := .starting }, [])
    else none
  | .benchmarkEnds runtime =>
    if s.phase = .waiting then some (s.setPhase (.benchmarkEnded runtime s.outputExists), [])
    else none
  | .append monitor run =>
    if (monitor, run) ∈ s.pending ∧ s.Ended run then
      some (s.appendRow monitor run (measured monitor run), [])
    else none
  | .driver => driverStep s

end NodePower.Sweep
