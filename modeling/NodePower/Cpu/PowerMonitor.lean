import Mathlib.Algebra.BigOperators.Field
import NodePower.Common.DecimalRounding

/-!
# The CPU power monitor

`read_cpu_power.py` reads the energy file of every socket and memory domain before its loop
and once per round, and takes the differences of successive readings. A file that cannot be
read as a number counts as zero. The energies are summed over the CPU files and the DRAM
files; each round stores the two energies over the nominal interval as powers. At the end
either the total energies are appended to the output file, rounded to two decimals, or the
stored rows replace it.

Floats are exact rationals. The directory of the output file is taken to exist.
-/

namespace NodePower.Cpu

/-- The keys of `ENERGY_FILES`. -/
inductive EnergyKey where
  | cpuSocket (socketId : ℕ)
  | dramSocket (socketId : ℕ)
  deriving DecidableEq

/-- The two groups of files whose energies are summed. -/
inductive Domain where
  | cpu
  | dram
  deriving DecidableEq

/-- The test whether `cpu_socket` or `dram_socket` occurs in a key. -/
def EnergyKey.domain : EnergyKey → Domain
  | .cpuSocket _ => .cpu
  | .dramSocket _ => .dram

/-- The energy in microjoules read from a file, zero when it cannot be read. -/
def readEnergy (file : Option ℕ) : ℕ := file.getD 0

/-- What one round of the loop finds. -/
structure Reading where
  elapsedTime : ℚ
  files : EnergyKey → Option ℕ

/-- A row of `power_data`. -/
structure PowerRow where
  elapsedTime : ℚ
  cpuPower : ℚ
  dramPower : ℚ

/-- The variables of the loop. -/
structure MonitorState where
  initialValues : EnergyKey → ℕ
  powerData : List PowerRow
  totalCpuEnergy : ℚ
  totalDramEnergy : ℚ

/-- The nominal interval between two rounds in seconds. -/
def interval : ℚ := 1 / 2

/-- The state before the first round. -/
def monitorStart (files : EnergyKey → Option ℕ) : MonitorState where
  initialValues := fun key => readEnergy (files key)
  powerData := []
  totalCpuEnergy := 0
  totalDramEnergy := 0

/-- The energy of the files of a domain between two readings, in joules. -/
def domainEnergy (energyFiles : Finset EnergyKey) (domain : Domain)
    (initialValues currentValues : EnergyKey → ℕ) : ℚ :=
  ∑ key ∈ energyFiles with key.domain = domain,
    ((currentValues key : ℚ) - initialValues key) / 1000000

/-- One round of the loop. -/
def monitorRound (energyFiles : Finset EnergyKey) (m : MonitorState) (reading : Reading) :
    MonitorState :=
  let currentValues := fun key => readEnergy (reading.files key)
  let cpuEnergy := domainEnergy energyFiles .cpu m.initialValues currentValues
  let dramEnergy := domainEnergy energyFiles .dram m.initialValues currentValues
  { initialValues := currentValues
    powerData := m.powerData ++ [⟨reading.elapsedTime, cpuEnergy / interval, dramEnergy / interval⟩]
    totalCpuEnergy := m.totalCpuEnergy + cpuEnergy
    totalDramEnergy := m.totalDramEnergy + dramEnergy }

/-- The state after the loop. -/
def monitorLoop (energyFiles : Finset EnergyKey) (files : EnergyKey → Option ℕ)
    (readings : List Reading) : MonitorState :=
  readings.foldl (monitorRound energyFiles) (monitorStart files)

/-- What is written to the output file: a row of total energies that is appended, or all rows of
powers. -/
inductive CsvWrite where
  | appendEnergies (cpuEnergy dramEnergy : ℚ)
  | writeRows (rows : List PowerRow)

/-- The monitor in energy mode or in trace mode. -/
def monitorPower (energyFiles : Finset EnergyKey) (avg : Bool) (files : EnergyKey → Option ℕ)
    (readings : List Reading) : CsvWrite :=
  let m := monitorLoop energyFiles files readings
  if avg then .appendEnergies (roundDecimal 2 m.totalCpuEnergy) (roundDecimal 2 m.totalDramEnergy)
  else .writeRows m.powerData

/-- The power of a row in a domain. -/
def PowerRow.power (row : PowerRow) : Domain → ℚ
  | .cpu => row.cpuPower
  | .dram => row.dramPower

/-- The total energy of a domain. -/
def MonitorState.totalEnergy (m : MonitorState) : Domain → ℚ
  | .cpu => m.totalCpuEnergy
  | .dram => m.totalDramEnergy

variable (energyFiles : Finset EnergyKey)

/-- A round adds the energy of each domain to its total. -/
theorem totalEnergy_monitorRound (m : MonitorState) (reading : Reading) (domain : Domain) :
    (monitorRound energyFiles m reading).totalEnergy domain =
      m.totalEnergy domain + domainEnergy energyFiles domain m.initialValues
        fun key => readEnergy (reading.files key) := by
  cases domain <;> rfl

/-- The energy of a domain is the difference of the summed readings. -/
theorem domainEnergy_eq (domain : Domain) (initialValues currentValues : EnergyKey → ℕ) :
    domainEnergy energyFiles domain initialValues currentValues =
      (∑ key ∈ energyFiles with key.domain = domain, (currentValues key : ℚ) -
        ∑ key ∈ energyFiles with key.domain = domain, (initialValues key : ℚ)) / 1000000 := by
  rw [domainEnergy, ← Finset.sum_div, Finset.sum_sub_distrib]

/-- The rows that the loop adds from given initial values. -/
def rowsFrom (initialValues : EnergyKey → ℕ) : List Reading → List PowerRow
  | [] => []
  | reading :: rest =>
    let currentValues := fun key => readEnergy (reading.files key)
    ⟨reading.elapsedTime, domainEnergy energyFiles .cpu initialValues currentValues / interval,
      domainEnergy energyFiles .dram initialValues currentValues / interval⟩ ::
      rowsFrom currentValues rest

/-- The loop stores one row for each reading. -/
theorem powerData_foldl (m : MonitorState) (readings : List Reading) :
    (readings.foldl (monitorRound energyFiles) m).powerData =
      m.powerData ++ rowsFrom energyFiles m.initialValues readings := by
  induction readings generalizing m with
  | nil => simp [rowsFrom]
  | cons reading rest ih =>
    rw [List.foldl_cons, ih]
    simp [monitorRound, rowsFrom]

end NodePower.Cpu
