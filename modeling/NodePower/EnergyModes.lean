import NodePower.Common.SampledEnergy
import NodePower.Cpu.PowerMonitor
import NodePower.Gpu.PowerMonitor

/-!
# Energy mode against trace mode

The rows of trace mode give an energy: each power held for the time since the row before.
The CPU monitor's energy mode instead adds energies that its rows divide by the nominal
interval, and the GPU monitor's multiplies a plain mean of the powers by the elapsed time,
which holds each power for the mean spacing. Both differ from the trace by what uneven
spacing adds, and a GPU run without a round writes nothing in either mode. In particular the CPU
monitor's modes agree if its rounds take the nominal interval, and the GPU monitor's if its rounds are
evenly spaced and its rows have the same columns.
-/

namespace NodePower

/-- The power of a domain over the rows of a CPU trace. -/
def cpuSamples (domain : Cpu.Domain) (rows : List Cpu.PowerRow) : List (ℚ × ℚ) :=
  rows.map fun row => (row.elapsedTime, row.power domain)

/-- The power of the first columns over the rows of a GPU trace. -/
def gpuSamples (columns : ℕ) (rows : List Gpu.PowerRow) : List (ℚ × ℚ) :=
  rows.map fun row => (row.elapsedTime, row.columnsPower columns)

/-- The power of all devices over the rows of a GPU trace. -/
def gpuTraceSamples (rows : List Gpu.PowerRow) : List (ℚ × ℚ) :=
  rows.map fun row => (row.elapsedTime, row.gpuPowers.sum)

/-- Both modes of the CPU monitor write their file, and the total energies are those of the trace,
rounded to two decimals. -/
def CpuModesAgree (energyFiles : Finset Cpu.EnergyKey) (files : Cpu.EnergyKey → Option ℕ)
    (readings : List Cpu.Reading) : Prop :=
  ∃ cpuEnergy dramEnergy rows,
    Cpu.monitorPower energyFiles true files readings = .appendEnergies cpuEnergy dramEnergy ∧
      Cpu.monitorPower energyFiles false files readings = .writeRows rows ∧
      cpuEnergy = roundDecimal 2 (sampledEnergy 0 (cpuSamples .cpu rows)) ∧
      dramEnergy = roundDecimal 2 (sampledEnergy 0 (cpuSamples .dram rows))

/-- Both modes of the GPU monitor write their file, and the total energy is that of the trace, rounded
to two decimals. -/
def GpuModesAgree (rows : List Gpu.PowerRow) : Prop :=
  ∃ totalEnergy columns, Gpu.monitorGpuPower true rows = some (.appendEnergy totalEnergy) ∧
    Gpu.monitorGpuPower false rows = some (.writeRows columns rows) ∧
    totalEnergy = roundDecimal 2 (sampledEnergy 0 (gpuTraceSamples rows))

/-- The intervals between successive reads: their lengths, and the energies of a domain that the files
show for them. -/
def cpuIntervals (energyFiles : Finset Cpu.EnergyKey) (domain : Cpu.Domain) :
    Cpu.Reading → List Cpu.Reading → List (ℚ × ℚ)
  | _, [] => []
  | before, after :: rest =>
    (after.elapsedTime - before.elapsedTime,
      Cpu.domainEnergy energyFiles domain (fun key => Cpu.readEnergy (before.files key))
        fun key => Cpu.readEnergy (after.files key)) :: cpuIntervals energyFiles domain after rest

/-- In each domain, the energies of the intervals weighted with how far their lengths are from the
nominal one do not change the sum of the energies to two decimals. -/
def CpuSpacingHarmless (energyFiles : Finset Cpu.EnergyKey) (files : Cpu.EnergyKey → Option ℕ)
    (readings : List Cpu.Reading) : Prop :=
  ∀ domain, let intervals := cpuIntervals energyFiles domain ⟨0, files⟩ readings
    roundDecimal 2 (intervals.map Prod.snd).sum =
      roundDecimal 2 ((intervals.map Prod.snd).sum +
        (intervals.map fun i => i.2 * ((i.1 - Cpu.interval) / Cpu.interval)).sum)

/-- There is a last row, no row has fewer columns, and what uneven spacing and further columns add does
not change the energy to two decimals. -/
def GpuSpacingHarmless (rows : List Gpu.PowerRow) : Prop :=
  ∃ last ∈ rows.getLast?, (∀ row ∈ rows, last.gpuPowers.length ≤ row.gpuPowers.length) ∧
    let spacing := last.elapsedTime / rows.length
    roundDecimal 2 (evenEnergy spacing (gpuSamples last.gpuPowers.length rows)) =
      roundDecimal 2 (evenEnergy spacing (gpuTraceSamples rows) +
        spacingError spacing 0 (gpuTraceSamples rows))

variable (energyFiles : Finset Cpu.EnergyKey) (domain : Cpu.Domain)

/-- The power of a domain in the rows that the CPU monitor adds. -/
theorem cpuSamples_rowsFrom_cons (before after : Cpu.Reading) (rest : List Cpu.Reading) :
    cpuSamples domain (Cpu.rowsFrom energyFiles (fun key => Cpu.readEnergy (before.files key))
        (after :: rest)) =
      (after.elapsedTime, Cpu.domainEnergy energyFiles domain
          (fun key => Cpu.readEnergy (before.files key))
          (fun key => Cpu.readEnergy (after.files key)) / Cpu.interval) ::
        cpuSamples domain
          (Cpu.rowsFrom energyFiles (fun key => Cpu.readEnergy (after.files key)) rest) := by
  cases domain <;> rfl

/-- Held for the nominal interval, the powers of the rows give the sum of the interval energies. -/
theorem evenEnergy_rowsFrom (before : Cpu.Reading) (readings : List Cpu.Reading) :
    evenEnergy Cpu.interval (cpuSamples domain
        (Cpu.rowsFrom energyFiles (fun key => Cpu.readEnergy (before.files key)) readings)) =
      ((cpuIntervals energyFiles domain before readings).map Prod.snd).sum := by
  have hinterval : Cpu.interval ≠ 0 := by norm_num [Cpu.interval]
  induction readings generalizing before with
  | nil => simp [evenEnergy, cpuSamples, Cpu.rowsFrom, cpuIntervals]
  | cons after rest ih =>
    have hrest := ih after
    rw [evenEnergy] at hrest
    rw [cpuSamples_rowsFrom_cons, evenEnergy, List.map_cons, List.sum_cons, add_mul,
      div_mul_cancel₀ _ hinterval, hrest, cpuIntervals, List.map_cons, List.sum_cons]

/-- What uneven spacing adds to the powers of the rows, from the intervals. -/
theorem spacingError_rowsFrom (before : Cpu.Reading) (readings : List Cpu.Reading) :
    spacingError Cpu.interval before.elapsedTime (cpuSamples domain
        (Cpu.rowsFrom energyFiles (fun key => Cpu.readEnergy (before.files key)) readings)) =
      ((cpuIntervals energyFiles domain before readings).map
        fun i => i.2 * ((i.1 - Cpu.interval) / Cpu.interval)).sum := by
  induction readings generalizing before with
  | nil => simp [spacingError, cpuSamples, Cpu.rowsFrom, cpuIntervals]
  | cons after rest ih =>
    rw [cpuSamples_rowsFrom_cons, spacingError, ih after, cpuIntervals, List.map_cons, List.sum_cons]
    ring

/-- The total of a domain is the sum of the interval energies. -/
theorem totalEnergy_eq_sum_intervals (m : Cpu.MonitorState) (before : Cpu.Reading)
    (hbefore : m.initialValues = fun key => Cpu.readEnergy (before.files key))
    (readings : List Cpu.Reading) :
    (readings.foldl (Cpu.monitorRound energyFiles) m).totalEnergy domain = m.totalEnergy domain +
      ((cpuIntervals energyFiles domain before readings).map Prod.snd).sum := by
  induction readings generalizing m before with
  | nil => simp [cpuIntervals]
  | cons after rest ih =>
    rw [List.foldl_cons, ih _ after rfl, Cpu.totalEnergy_monitorRound, hbefore, cpuIntervals,
      List.map_cons, List.sum_cons, add_assoc]

/-- The totals of the CPU monitor, from the intervals. -/
theorem totalEnergy_monitorLoop (files : Cpu.EnergyKey → Option ℕ) (readings : List Cpu.Reading) :
    (Cpu.monitorLoop energyFiles files readings).totalEnergy domain =
      ((cpuIntervals energyFiles domain ⟨0, files⟩ readings).map Prod.snd).sum := by
  have hzero : (Cpu.monitorStart files).totalEnergy domain = 0 := by cases domain <;> rfl
  rw [Cpu.monitorLoop, totalEnergy_eq_sum_intervals energyFiles domain (Cpu.monitorStart files)
    ⟨0, files⟩ rfl readings, hzero, zero_add]

/-- The energy of the trace of the CPU monitor, from the intervals. -/
theorem sampledEnergy_monitorLoop (files : Cpu.EnergyKey → Option ℕ) (readings : List Cpu.Reading) :
    sampledEnergy 0 (cpuSamples domain (Cpu.monitorLoop energyFiles files readings).powerData) =
      ((cpuIntervals energyFiles domain ⟨0, files⟩ readings).map Prod.snd).sum +
        ((cpuIntervals energyFiles domain ⟨0, files⟩ readings).map
          fun i => i.2 * ((i.1 - Cpu.interval) / Cpu.interval)).sum := by
  have heven := evenEnergy_rowsFrom energyFiles domain ⟨0, files⟩ readings
  have herror := spacingError_rowsFrom energyFiles domain ⟨0, files⟩ readings
  rw [Cpu.monitorLoop, Cpu.powerData_foldl, sampledEnergy_eq Cpu.interval, ← heven, ← herror]
  rfl

/-- The modes of the CPU monitor agree exactly when uneven spacing is harmless. -/
theorem cpuModesAgree_iff (files : Cpu.EnergyKey → Option ℕ) (readings : List Cpu.Reading) :
    CpuModesAgree energyFiles files readings ↔ CpuSpacingHarmless energyFiles files readings := by
  have hcpu := totalEnergy_monitorLoop energyFiles .cpu files readings
  have hdram := totalEnergy_monitorLoop energyFiles .dram files readings
  simp only [Cpu.MonitorState.totalEnergy] at hcpu hdram
  constructor
  · intro h
    obtain ⟨cpuEnergy, dramEnergy, rows, havg, hrows, hcpuEnergy, hdramEnergy⟩ := h
    obtain ⟨rfl, rfl⟩ := Cpu.CsvWrite.appendEnergies.inj havg
    obtain rfl := Cpu.CsvWrite.writeRows.inj hrows
    rw [hcpu, sampledEnergy_monitorLoop] at hcpuEnergy
    rw [hdram, sampledEnergy_monitorLoop] at hdramEnergy
    intro domain
    cases domain with
    | cpu => exact hcpuEnergy
    | dram => exact hdramEnergy
  · intro h
    refine ⟨_, _, _, rfl, rfl, ?_, ?_⟩
    · rw [hcpu, sampledEnergy_monitorLoop]
      exact h .cpu
    · rw [hdram, sampledEnergy_monitorLoop]
      exact h .dram

/-- The mean power of some columns over the elapsed time is their even energy at the mean spacing. -/
theorem meanPower_mul_eq_evenEnergy (columns : ℕ) (rows : List Gpu.PowerRow) (elapsedTime : ℚ) :
    (rows.map (Gpu.PowerRow.columnsPower columns)).sum / rows.length * elapsedTime =
      evenEnergy (elapsedTime / rows.length) (gpuSamples columns rows) := by
  rw [evenEnergy, gpuSamples, List.map_map, div_mul_eq_mul_div, mul_div_assoc]
  rfl

/-- The modes of the GPU monitor agree exactly when there is a round, no row is short of columns, and
uneven spacing is harmless. -/
theorem gpuModesAgree_iff (rows : List Gpu.PowerRow) :
    GpuModesAgree rows ↔ GpuSpacingHarmless rows := by
  simp only [GpuModesAgree, GpuSpacingHarmless, ← sampledEnergy_eq, Gpu.monitorGpuPower]
  cases hlast : rows.getLast? with
  | none => simp
  | some last =>
    simp only [Option.bind_some, if_true, Gpu.avgPowerAllGpus_eq]
    by_cases hcolumns : ∀ row ∈ rows, last.gpuPowers.length ≤ row.gpuPowers.length
    · simp [meanPower_mul_eq_evenEnergy]
    · simp [hcolumns]

/-- For every run, energy mode and trace mode of each monitor agree exactly when the spacing of its
samples is harmless. -/
theorem energyModesAgree_iff (files : Cpu.EnergyKey → Option ℕ) (readings : List Cpu.Reading)
    (rows : List Gpu.PowerRow) :
    (CpuModesAgree energyFiles files readings ↔ CpuSpacingHarmless energyFiles files readings) ∧
      (GpuModesAgree rows ↔ GpuSpacingHarmless rows) :=
  ⟨cpuModesAgree_iff energyFiles files readings, gpuModesAgree_iff rows⟩

/-- In a run whose intervals all have one length, so have the intervals of a domain. -/
theorem fst_of_mem_cpuIntervals {length : ℚ} {before : Cpu.Reading} {readings : List Cpu.Reading}
    (heven : (before.elapsedTime :: readings.map Cpu.Reading.elapsedTime).IsChain
      fun time next => next - time = length) :
    ∀ i ∈ cpuIntervals energyFiles domain before readings, i.1 = length := by
  induction readings generalizing before with
  | nil => simp [cpuIntervals]
  | cons after rest ih =>
    obtain ⟨hstep, hrest⟩ := List.isChain_cons_cons.mp heven
    rw [cpuIntervals, List.forall_mem_cons]
    exact ⟨hstep, ih hrest⟩

/-- If every round of the CPU monitor ends half a second after the one before, its modes agree. -/
theorem cpuModesAgree_of_nominal (files : Cpu.EnergyKey → Option ℕ) {readings : List Cpu.Reading}
    (hnominal : (0 :: readings.map Cpu.Reading.elapsedTime).IsChain
      fun time next => next - time = Cpu.interval) :
    CpuModesAgree energyFiles files readings := by
  rw [cpuModesAgree_iff]
  intro domain
  have hnothing : ((cpuIntervals energyFiles domain ⟨0, files⟩ readings).map
      fun i => i.2 * ((i.1 - Cpu.interval) / Cpu.interval)).sum = 0 := by
    refine List.sum_eq_zero fun x hx => ?_
    obtain ⟨i, hi, rfl⟩ := List.mem_map.mp hx
    have hlength := @fst_of_mem_cpuIntervals energyFiles domain Cpu.interval ⟨0, files⟩ readings
      hnominal i hi
    rw [hlength, sub_self, zero_div, mul_zero]
  simp only [hnothing, add_zero]

/-- If the rounds of the GPU monitor are evenly spaced and its rows have the same columns, its modes
agree. -/
theorem gpuModesAgree_of_even {rows : List Gpu.PowerRow} (hrows : rows ≠ []) {spacing : ℚ}
    (heven : (0 :: rows.map Gpu.PowerRow.elapsedTime).IsChain fun time next => next - time = spacing)
    {columns : ℕ} (hcolumns : ∀ row ∈ rows, row.gpuPowers.length = columns) : GpuModesAgree rows := by
  rw [gpuModesAgree_iff]
  have hlast := List.getLast?_eq_some_getLast hrows
  have hlength := hcolumns _ (List.getLast_mem hrows)
  have hne : (rows.length : ℚ) ≠ 0 := Nat.cast_ne_zero.mpr (List.length_eq_zero_iff.not.mpr hrows)
  have htime : (rows.getLast hrows).elapsedTime / rows.length = spacing := by
    have hall := getLast?_of_even heven
    rw [List.getLast?_cons, List.getLast?_map, hlast, Option.map_some, Option.getD_some, zero_add,
      List.length_map, Option.some.injEq] at hall
    rw [hall, mul_div_cancel_left₀ _ hne]
  have hsamples : gpuSamples columns rows = gpuTraceSamples rows := by
    refine List.map_congr_left fun row hrow => ?_
    rw [Gpu.PowerRow.columnsPower, List.take_of_length_le (hcolumns row hrow).le]
  have hfirst : (gpuTraceSamples rows).map Prod.fst = rows.map Gpu.PowerRow.elapsedTime := by
    rw [gpuTraceSamples, List.map_map]
    rfl
  refine ⟨rows.getLast hrows, hlast, fun row hrow => (hlength.trans (hcolumns row hrow).symm).le, ?_⟩
  simp only [htime, hlength, hsamples]
  rw [spacingError_of_even (hfirst ▸ heven), add_zero]

/-- One joule in a round of one second is 2 J in the trace, two GPU samples of 0 W and 100 W at 1 s
and 3 s are 150 J by the mean and 200 J in the trace, and an empty GPU run writes nothing. -/
theorem energyModesAgree_fails_on_spacing :
    (¬ ∀ energyFiles files (readings : List Cpu.Reading),
      List.IsChain (· < ·) (0 :: readings.map Cpu.Reading.elapsedTime) →
        CpuModesAgree energyFiles files readings) ∧
      (¬ ∀ rows : List Gpu.PowerRow, rows ≠ [] →
        List.IsChain (· < ·) (0 :: rows.map Gpu.PowerRow.elapsedTime) → GpuModesAgree rows) ∧
      ¬ GpuModesAgree [] := by
  have hround : ∀ n : ℤ, roundDecimal 2 (n : ℚ) = n := fun n =>
    roundDecimal_of_decimal (n := n * 100) (by norm_num)
  refine ⟨?_, ?_, ?_⟩
  · intro hevery
    have hagree := hevery {.cpuSocket 0} (fun _ => some 0) [⟨1, fun _ => some 1000000⟩] (by simp)
    have hharmless := (cpuModesAgree_iff _ _ _).mp hagree .cpu
    have hfilter : ({.cpuSocket 0} : Finset Cpu.EnergyKey).filter (·.domain = .cpu) = {.cpuSocket 0} :=
      rfl
    have hone := hround 1
    have htwo := hround 2
    norm_num at hone htwo
    norm_num [cpuIntervals, Cpu.domainEnergy, Cpu.readEnergy, Cpu.interval, hone, htwo,
      hfilter] at hharmless
  · intro hevery
    have hagree := hevery [⟨1, [0]⟩, ⟨3, [100]⟩] (by simp) (by norm_num)
    obtain ⟨last, hlast, -, hharmless⟩ := (gpuModesAgree_iff _).mp hagree
    obtain rfl : (⟨3, [100]⟩ : Gpu.PowerRow) = last := by simpa using hlast
    have hmean := hround 150
    have htrace := hround 200
    norm_num at hmean htrace
    norm_num [gpuSamples, gpuTraceSamples, evenEnergy, spacingError, Gpu.PowerRow.columnsPower, hmean,
      htrace] at hharmless
  · rw [gpuModesAgree_iff]
    simp [GpuSpacingHarmless]

end NodePower
