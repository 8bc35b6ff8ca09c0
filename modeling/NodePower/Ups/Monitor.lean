import NodePower.Ups.Controller

/-!
# The monitoring loop around UPS

`monitor_dram_power_and_ipc` reads the DRAM energy and the instructions per cycle in every
round, turns the energy since the last round into a power, stores the sample and calls
`ups`. A file that cannot be opened or read is left out of the energy sum, and IPC readings
fall back to -1 without a pipe and to 0 without cycles.

A reading is what the files and the tool give, not the calls that fetch it. The samples are
kept in a list; the memory that the source allocates for them is not modelled.
-/

namespace NodePower.Ups

/-- What the loop over the lines of `perf stat` leaves in its two counts. -/
structure PerfCounts where
  instructions : ℚ
  cycles : ℚ

/-- The instructions per cycle of one `perf stat`; there is none when the pipe cannot be opened. -/
def collectIpc : Option PerfCounts → ℚ
  | none => -1
  | some counts => if 0 < counts.cycles then counts.instructions / counts.cycles else 0

/-- One step of the loop over the energy files, in joules; a file that cannot be opened or read is
passed over. -/
def addEnergyFile (totalEnergy : ℚ) : Option ℕ → ℚ
  | none => totalEnergy
  | some microjoules => totalEnergy + microjoules / 1000000

/-- The energy sum over the files. -/
def readDramEnergy (energyFiles : List (Option ℕ)) : ℚ := energyFiles.foldl addEnergyFile 0

/-- What one round of the loop finds. -/
structure Reading where
  elapsedTime : ℚ
  energyFiles : List (Option ℕ)
  perf : Option PerfCounts

/-- A stored sample. -/
structure PowerIpcData where
  time : ℚ
  dramPower : ℚ
  ipc : ℚ

/-- The arguments with which `ups` is called after the sample is stored. -/
def PowerIpcData.sample (d : PowerIpcData) : Sample := ⟨d.dramPower, d.ipc⟩

/-- The variables of the loop, and whether it was left because the buffer is full. -/
structure MonitorState where
  initialEnergy : ℚ
  data : List PowerIpcData
  left : Bool
  globals : Globals

/-- The number of samples after which the loop is left. -/
def bufferSize : ℕ := 10000000

/-- The state before the first round. -/
def monitorStart (energyFiles : List (Option ℕ)) : MonitorState where
  initialEnergy := readDramEnergy energyFiles
  data := []
  left := false
  globals := initialGlobals

/-- The sample that a round computes from the energy of the round before. -/
def measure (initialEnergy : ℚ) (reading : Reading) : PowerIpcData where
  time := reading.elapsedTime
  dramPower := (readDramEnergy reading.energyFiles - initialEnergy) / (2 / 10)
  ipc := collectIpc reading.perf

/-- One round of the loop. -/
def monitorRound (dualCap : Int32) (m : MonitorState) (reading : Reading) :
    MonitorState × List UncoreCommand :=
  if m.left then (m, [])
  else
    let data := measure m.initialEnergy reading
    let m := { m with initialEnergy := readDramEnergy reading.energyFiles }
    if m.data.length < bufferSize then
      let (globals, commands) := ups dualCap m.globals data.sample
      ({ m with data := m.data ++ [data], globals }, commands)
    else ({ m with left := true }, [])

/-- One round inside a run. -/
abbrev MonitorCall := Call MonitorState Reading UncoreCommand

/-- A run of the loop over the readings of its rounds. -/
def monitorRun (dualCap : Int32) (energyFiles : List (Option ℕ)) (readings : List Reading) :
    List MonitorCall :=
  totalCalls (monitorRound dualCap) (monitorStart energyFiles) readings

/-- The state after a run of the loop. -/
def monitorAfter (dualCap : Int32) (energyFiles : List (Option ℕ)) (readings : List Reading) :
    MonitorState :=
  stateAfter (monitorRound dualCap) (monitorStart energyFiles) readings

/-- The samples that the readings amount to. -/
def measureAll (initialEnergy : ℚ) : List Reading → List PowerIpcData
  | [] => []
  | reading :: rest =>
    measure initialEnergy reading :: measureAll (readDramEnergy reading.energyFiles) rest

/-- A round that stores its sample calls `ups` with it. -/
theorem monitorRound_of_room (dualCap : Int32) {m : MonitorState} (hleft : m.left = false)
    (hroom : m.data.length < bufferSize) (reading : Reading) :
    monitorRound dualCap m reading =
      ({ initialEnergy := readDramEnergy reading.energyFiles
         data := m.data ++ [measure m.initialEnergy reading]
         left := false
         globals := (ups dualCap m.globals (measure m.initialEnergy reading).sample).1 },
        (ups dualCap m.globals (measure m.initialEnergy reading).sample).2) := by
  simp [monitorRound, hleft, hroom]

/-- A round without room for its sample changes neither the samples nor the controller. -/
theorem monitorRound_of_no_room (dualCap : Int32) {m : MonitorState}
    (hroom : m.left = true ∨ ¬ m.data.length < bufferSize) (reading : Reading) :
    (monitorRound dualCap m reading).1.data = m.data ∧
      (monitorRound dualCap m reading).1.globals = m.globals ∧
      (monitorRound dualCap m reading).2 = [] := by
  cases hleft : m.left with
  | true => simp [monitorRound, hleft]
  | false =>
    have hfull := hroom.resolve_left (by simp [hleft])
    simp [monitorRound, hleft, hfull]

/-- Rounds without room leave the samples and the controller as they are. -/
theorem stateAfter_of_no_room (dualCap : Int32) {m : MonitorState}
    (hfull : ¬ m.data.length < bufferSize) (readings : List Reading) :
    (stateAfter (monitorRound dualCap) m readings).data = m.data ∧
      (stateAfter (monitorRound dualCap) m readings).globals = m.globals ∧
      commandsOf (totalCalls (monitorRound dualCap) m readings) = [] := by
  induction readings generalizing m with
  | nil => exact ⟨rfl, rfl, rfl⟩
  | cons reading rest ih =>
    obtain ⟨hdata, hglobals, hsilent⟩ :=
      monitorRound_of_no_room dualCap (Or.inr hfull) reading
    obtain ⟨hdata', hglobals', hsilent'⟩ := ih (m := (monitorRound dualCap m reading).1)
      (by rwa [hdata])
    refine ⟨hdata'.trans hdata, hglobals'.trans hglobals, ?_⟩
    simp only [totalCalls, commandsOf, List.flatMap_cons, hsilent, List.nil_append]
    exact hsilent'

/-- The loop runs the controller on the samples that fit into the buffer. -/
theorem monitor_runs_ups (dualCap : Int32) {m : MonitorState} (hleft : m.left = false)
    (readings : List Reading) :
    let stored := measureAll m.initialEnergy (readings.take (bufferSize - m.data.length))
    (stateAfter (monitorRound dualCap) m readings).data = m.data ++ stored ∧
      (stateAfter (monitorRound dualCap) m readings).globals =
        stateAfter (ups dualCap) m.globals (stored.map PowerIpcData.sample) ∧
      commandsOf (totalCalls (monitorRound dualCap) m readings) =
        commandsOf (totalCalls (ups dualCap) m.globals (stored.map PowerIpcData.sample)) := by
  induction readings generalizing m with
  | nil => simp [measureAll, totalCalls, commandsOf]
  | cons reading rest ih =>
    by_cases hroom : m.data.length < bufferSize
    · have hround := monitorRound_of_room dualCap hleft hroom reading
      have hnext := ih (m := (monitorRound dualCap m reading).1) (by rw [hround])
      obtain ⟨room, hroom'⟩ : ∃ room, bufferSize - m.data.length = room + 1 :=
        ⟨bufferSize - m.data.length - 1, by omega⟩
      have hlength : bufferSize - (m.data.length + 1) = room := by omega
      simp only [hround, List.length_append, List.length_singleton, hlength] at hnext
      obtain ⟨hdata, hglobals, hcommands⟩ := hnext
      simp only [hroom', List.take_succ_cons, measureAll, List.map_cons, stateAfter_cons, hround,
        totalCalls, commandsOf, List.flatMap_cons] at hdata hglobals hcommands ⊢
      exact ⟨by rw [hdata, List.append_assoc, List.singleton_append], hglobals, by rw [hcommands]⟩
    · obtain ⟨hdata, hglobals, hsilent⟩ := stateAfter_of_no_room dualCap hroom (reading :: rest)
      have hnone : bufferSize - m.data.length = 0 := by omega
      simp only [hnone, List.take_zero, measureAll, List.map_nil, List.append_nil]
      exact ⟨hdata, hglobals, hsilent⟩

end NodePower.Ups
