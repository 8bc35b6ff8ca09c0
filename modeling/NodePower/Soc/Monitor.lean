import NodePower.Soc.Governor

/-!
# The monitoring loop around the SoC governor

`monitor_cpu_util` reads the CPU line of `/proc/stat` in every round, computes the
utilisation from the differences to the round before, stores the sample and calls `SoC`. The
differences are unsigned, and in the first round, as whenever the last total was zero, the
utilisation is zero.

`SoC` is passed a `double` where it takes an `int`; what it receives is part of a reading.
-/

namespace NodePower.Soc

/-- The counters of the CPU line. -/
structure ProcStat where
  user : BitVec 64
  nice : BitVec 64
  system : BitVec 64
  idle : BitVec 64
  iowait : BitVec 64
  irq : BitVec 64
  softirq : BitVec 64
  steal : BitVec 64

/-- The total CPU time. -/
def ProcStat.total (s : ProcStat) : BitVec 64 :=
  s.user + s.nice + s.system + s.idle + s.iowait + s.irq + s.softirq + s.steal

/-- The idle time. -/
def ProcStat.idleTime (s : ProcStat) : BitVec 64 := s.idle + s.iowait

/-- What one round finds: the time since the start, the counters, and the `int` that `SoC` receives. -/
structure Reading where
  elapsedTime : ℚ
  stat : ProcStat
  received : Int32

/-- A stored sample; a utilisation that is not a finite number is `none`. -/
structure CpuSample where
  timeSec : ℚ
  utilization : Option ℚ

/-- The variables that a round reads and changes. -/
structure MonitorState where
  prevIdle : BitVec 64
  prevTotal : BitVec 64
  globals : Globals

/-- The state before the first round. -/
def monitorStart : MonitorState where
  prevIdle := 0
  prevTotal := 0
  globals := initialGlobals

/-- The utilisation that a round computes. -/
def cpuUsage (prevIdle prevTotal : BitVec 64) (s : ProcStat) : Option ℚ :=
  if prevTotal ≠ 0 then
    let totalDiff := s.total - prevTotal
    let idleDiff := s.idleTime - prevIdle
    if totalDiff = 0 then none else some (100 * (1 - idleDiff.toNat / totalDiff.toNat))
  else some 0

/-- One round of the loop. -/
def monitorRound (dualCap : Int32) (m : MonitorState) (reading : Reading) :
    MonitorState × List PrintedCommand :=
  let (globals, commands) := soC dualCap m.globals reading.received
  (⟨reading.stat.idleTime, reading.stat.total, globals⟩, commands)

/-- One round inside a run. -/
abbrev MonitorCall := Call MonitorState Reading PrintedCommand

/-- The utilisation that a round computes and passes to `SoC`. -/
def passed (c : MonitorCall) : Option ℚ :=
  cpuUsage c.before.prevIdle c.before.prevTotal c.input.stat

/-- A run of the loop over the readings of its rounds. -/
def monitorRun (dualCap : Int32) (readings : List Reading) : List MonitorCall :=
  totalCalls (monitorRound dualCap) monitorStart readings

/-- The samples of a run. -/
def cpuSamples (calls : List MonitorCall) : List CpuSample :=
  calls.map fun c => ⟨c.input.elapsedTime, passed c⟩

end NodePower.Soc
