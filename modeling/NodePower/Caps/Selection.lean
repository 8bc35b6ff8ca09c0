import Mathlib.Algebra.Order.Field.Basic
import Mathlib.Order.WithBot
import Mathlib.Tactic.FieldSimp
import Mathlib.Tactic.GCongr
import Mathlib.Tactic.Linarith
import NodePower.Caps.PerformanceTable
import NodePower.Common.RunningBest

/-!
# The choice of power caps

`power_cap_selection.ipynb` knows the performance of an application under every pair of caps from the
performance matrix, and the powers from the measurements. One loop looks for the least
energy-delay product, with the reciprocal of the performance for the delay; another one looks for
the largest energy saving among the pairs that lose little performance. Then the choice is compared with
the baseline, which has the highest caps.

If the matrix holds what has been measured, the first loop finds the pair of caps with the least measured
energy-delay product, and the second one the pair with the least measured energy among those that are
not much slower than the fastest.
-/

namespace NodePower.Caps

/-- The caps of the baseline. -/
def baselineCaps : ℕ × ℕ := (200, 250)

/-- The powers in a power file: the means of both columns. -/
def cpuMeanPower (cpuData : List (Timed CpuPower)) : Option ℚ := do
  return (← mean (cpuData.map fun row => row.columns.packagePower)) +
    (← mean (cpuData.map fun row => row.columns.dramPower))

/-- The mean power in a GPU file. -/
def gpuMeanPower (gpuData : List (Timed GpuMetrics)) : Option ℚ :=
  mean (gpuData.map fun row => row.columns.power)

/-- The power file of a pair of caps. -/
def readCpuData (dir : Directory) (pair : ℕ × ℕ) : Option (List (Timed CpuPower)) :=
  dir.readCpuPower (capFileName (capTexts pair).1 (capTexts pair).2 .cpuPower)

/-- The GPU file of a pair of caps. -/
def readGpuData (dir : Directory) (pair : ℕ × ℕ) : Option (List (Timed GpuMetrics)) :=
  dir.readGpuMetrics (capFileName (capTexts pair).1 (capTexts pair).2 .gpuMetrics)

/-- The energy-delay product for a normalized performance. A reciprocal of zero is infinite; the product
is then below everything if both powers are negative, and otherwise infinite or no number. -/
def predictedEdp (normPerformance cpuPower gpuPower : Option ℚ) : Option (WithBot ℚ) := do
  let performance ← normPerformance
  let cpu ← cpuPower
  let gpu ← gpuPower
  if performance = 0 then
    if cpu < 0 ∧ gpu < 0 then some ⊥ else none
  else
    let normExecTime := 1 / performance
    return ((cpu * normExecTime + gpu * normExecTime) * normExecTime : ℚ)

/-- The products for all pairs of caps, with a column of the performance matrix. A pair that is not in
the matrix or a file that is not there is an exception. -/
def scoredPairs (dir : Directory) (performance : ℕ × ℕ → Option (Option ℚ)) (pairs : List (ℕ × ℕ)) :
    Option (List ((ℕ × ℕ) × Option (WithBot ℚ))) :=
  pairs.mapM fun pair => do
    let normPerformance ← performance pair
    let cpuData ← readCpuData dir pair
    let gpuData ← readGpuData dir pair
    return (pair, predictedEdp normPerformance (cpuMeanPower cpuData) (gpuMeanPower gpuData))

/-- The energy of a measured run, and the time that it took. -/
def measuredEnergy (dir : Directory) (pair : ℕ × ℕ) : Option (Option ℚ × ℚ) := do
  let cpuData ← readCpuData dir pair
  let gpuData ← readGpuData dir pair
  let execTime ← runtime cpuData
  return (do return (← cpuMeanPower cpuData) * execTime + (← gpuMeanPower gpuData) * execTime, execTime)

/-- The energy-delay product of a measured run. -/
def measuredEdp (dir : Directory) (pair : ℕ × ℕ) : Option (Option ℚ) :=
  (measuredEnergy dir pair).map fun (energy, execTime) => energy.map (· * execTime)

/-- The entry of `edp_results`. -/
structure EdpResult where
  bestPowerPair : ℕ × ℕ
  baselineEdp : Option ℚ
  selectedEdp : Option ℚ

/-- The first loop body for one application, which leaves no entry if no product is a number. -/
def selectEdp (dir : Directory) (performance : ℕ × ℕ → Option (Option ℚ)) (pairs : List (ℕ × ℕ)) :
    Option (Option EdpResult) := do
  match runningBest Prod.snd (← scoredPairs dir performance pairs) with
  | none => return none
  | some ((pair, _), _) =>
    let baselineEdp ← measuredEdp dir baselineCaps
    let selectedEdp ← measuredEdp dir pair
    return some ⟨pair, baselineEdp, selectedEdp⟩

/-- A performance below `perf_threshold`; a missing number is not. -/
def losesPerformance (normPerformance : Option ℚ) : Bool := normPerformance.any (· < 19 / 20)

/-- The measured energy and time of a pair of caps that the second loop does not skip. -/
def candidateEnergy (dir : Directory) (performance : ℕ × ℕ → Option (Option ℚ)) (pair : ℕ × ℕ) :
    Option (Option (Option ℚ × ℚ)) :=
  match performance pair with
  | none => some none
  | some normPerformance =>
    if losesPerformance normPerformance then some none
    else if capFileName (capTexts pair).1 (capTexts pair).2 .cpuPower ∉ dir ∨
        capFileName (capTexts pair).1 (capTexts pair).2 .gpuMetrics ∉ dir then some none
    else (measuredEnergy dir pair).map some

/-- All pairs of caps with what the second loop has for them. -/
def energyCandidates (dir : Directory) (performance : ℕ × ℕ → Option (Option ℚ)) (pairs : List (ℕ × ℕ)) :
    Option (List ((ℕ × ℕ) × Option (Option ℚ × ℚ))) :=
  pairs.mapM fun pair => do return (pair, ← candidateEnergy dir performance pair)

/-- The energy saving in percent. The quotient by zero is above everything if the selected energy is
negative, and otherwise below everything or no number. -/
def energySaving (baselineEnergy selectedEnergy : Option ℚ) : Option (WithTop ℚ) := do
  let baseline ← baselineEnergy
  let selected ← selectedEnergy
  if baseline = 0 then
    if selected < 0 then some ⊤ else none
  else return (((baseline - selected) / baseline * 100 : ℚ) : WithTop ℚ)

/-- What the second loop compares, with larger savings first. -/
def savingScore (baselineEnergy : Option ℚ) (candidate : (ℕ × ℕ) × Option (Option ℚ × ℚ)) :
    Option (WithTop ℚ)ᵒᵈ := do
  let (energy, _) ← candidate.2
  return OrderDual.toDual (← energySaving baselineEnergy energy)

/-- The entry of `energy_saving_results`. -/
structure EnergyResult where
  bestPowerPair : ℕ × ℕ
  baselineExecTime : ℚ
  selectedExecTime : ℚ
  runtimeOverhead : Option ℚ
  baselineEnergy : Option ℚ
  selectedEnergy : Option ℚ
  energySaving : WithTop ℚ

/-- The entry for the candidate with the largest saving, if one of the savings is a number. The overhead
over a time of zero is no finite number. -/
def energyEntry (baselineEnergy : Option ℚ) (baselineExecTime : ℚ)
    (candidates : List ((ℕ × ℕ) × Option (Option ℚ × ℚ))) : Option EnergyResult :=
  match runningBest (savingScore baselineEnergy) candidates with
  | some ((pair, some (energy, execTime)), saving) => some {
      bestPowerPair := pair
      baselineExecTime := baselineExecTime
      selectedExecTime := execTime
      runtimeOverhead :=
        if baselineExecTime = 0 then none
        else some ((execTime - baselineExecTime) / baselineExecTime * 100)
      baselineEnergy := baselineEnergy
      selectedEnergy := energy
      energySaving := OrderDual.ofDual saving }
  | _ => none

/-- The second loop body for one application, which leaves no entry without the files of the baseline. -/
def selectEnergy (dir : Directory) (performance : ℕ × ℕ → Option (Option ℚ)) (pairs : List (ℕ × ℕ)) :
    Option (Option EnergyResult) :=
  if capFileName (capTexts baselineCaps).1 (capTexts baselineCaps).2 .cpuPower ∉ dir ∨
      capFileName (capTexts baselineCaps).1 (capTexts baselineCaps).2 .gpuMetrics ∉ dir then some none
  else do
    let (baselineEnergy, baselineExecTime) ← measuredEnergy dir baselineCaps
    return energyEntry baselineEnergy baselineExecTime (← energyCandidates dir performance pairs)

/-- The column of the matrix that the table of an application gives. -/
def performanceColumn (rows : List PerformanceRow) (pair : ℕ × ℕ) : Option (Option ℚ) :=
  (rows.find? fun row => row.cpuPowerCap = (pair.1 : ℤ) ∧ row.gpuPowerCap = (pair.2 : ℤ)).map
    PerformanceRow.performance

section Measured

variable {cpuCaps gpuCaps : List ℕ} {measured : ℕ × ℕ → CapFiles} {dir : Directory} {pair : ℕ × ℕ}

/-- The power file of a pair of caps in the directory of the experiments. -/
theorem readCpuData_eq (hdir : dir.entries.Perm (runBenchmark cpuCaps gpuCaps measured).entries)
    (hpair : pair ∈ cpuCaps ×ˢ gpuCaps) : readCpuData dir pair = some (measured pair).cpuPower := by
  rw [readCpuData, Directory.readCpuPower, lookup_of_perm hdir hpair]
  rfl

/-- The GPU file of a pair of caps in the directory of the experiments. -/
theorem readGpuData_eq (hdir : dir.entries.Perm (runBenchmark cpuCaps gpuCaps measured).entries)
    (hpair : pair ∈ cpuCaps ×ˢ gpuCaps) : readGpuData dir pair = some (measured pair).gpuMetrics := by
  rw [readGpuData, Directory.readGpuMetrics, lookup_of_perm hdir hpair]
  rfl

/-- The energy of a run with the given powers and runtime. -/
def energyOf (files : CapFiles) (execTime : ℚ) : Option ℚ := do
  return (← cpuMeanPower files.cpuPower) * execTime + (← gpuMeanPower files.gpuMetrics) * execTime

/-- The energy and the time that are measured for a pair of caps. -/
theorem measuredEnergy_eq (hdir : dir.entries.Perm (runBenchmark cpuCaps gpuCaps measured).entries)
    (hpair : pair ∈ cpuCaps ×ˢ gpuCaps) {t : ℚ} (ht : runtime (measured pair).cpuPower = some t) :
    measuredEnergy dir pair = some (energyOf (measured pair) t, t) := by
  simp only [measuredEnergy, readCpuData_eq hdir hpair, readGpuData_eq hdir hpair, ht,
    Option.bind_eq_bind, Option.bind_some, Option.pure_def, energyOf]

/-- The fastest run. -/
theorem exists_fastest {pairs : List (ℕ × ℕ)}
    (hruntime : ∀ pair ∈ pairs, ∃ t, runtime (measured pair).cpuPower = some t ∧ 0 < t)
    (hpair : pair ∈ pairs) : ∃ fastest, 0 < fastest ∧
      IsLeast {t | ∃ other ∈ pairs, runtime (measured other).cpuPower = some t} fastest := by
  obtain ⟨t, ht, -⟩ := hruntime pair hpair
  cases hmin : columnMin (pairs.map fun other => runtime (measured other).cpuPower) with
  | none =>
    exact absurd (List.mem_map.mpr ⟨pair, hpair, ht⟩) (columnMin_eq_none_iff.mp hmin t)
  | some fastest =>
    obtain ⟨hmem, hle⟩ := columnMin_eq_some_iff.mp hmin
    obtain ⟨other, hother, hfastest⟩ := List.mem_map.mp hmem
    obtain ⟨t', ht', hpos⟩ := hruntime other hother
    obtain rfl := Option.some.inj (hfastest.symm.trans ht')
    refine ⟨fastest, hpos, ⟨other, hother, hfastest⟩, ?_⟩
    rintro t'' ⟨other', hother', ht''⟩
    exact hle t'' (List.mem_map.mpr ⟨other', hother', ht''⟩)

/-- The column of the table holds the runtime of the fastest run by the own one. -/
theorem performanceColumn_eq {pairs : List (ℕ × ℕ)} (hpair : pair ∈ pairs) {fastest t : ℚ}
    (hpos : 0 < fastest)
    (hfastest : IsLeast {t | ∃ other ∈ pairs, runtime (measured other).cpuPower = some t} fastest)
    (ht : runtime (measured pair).cpuPower = some t) :
    performanceColumn (finishTable (pairs.map (measuredRow measured))) pair =
      some (some (fastest / t)) := by
  obtain ⟨row, hrow, hown⟩ : ∃ row ∈ finishTable (pairs.map (measuredRow measured)),
      OwnRow measured pairs pair row := exists_ownRow hpair
  rw [performanceColumn]
  cases hfind : (finishTable (pairs.map (measuredRow measured))).find? fun row =>
      row.cpuPowerCap = (pair.1 : ℤ) ∧ row.gpuPowerCap = (pair.2 : ℤ) with
  | none =>
    have hnot := List.find?_eq_none.mp hfind row hrow
    rw [decide_eq_true_eq] at hnot
    exact absurd ⟨hown.cpuPowerCap, hown.gpuPowerCap⟩ hnot
  | some found =>
    have hcaps := List.find?_some hfind
    rw [decide_eq_true_eq] at hcaps
    obtain ⟨other, -, hother⟩ := exists_pair_of_row (List.mem_of_find?_eq_some hfind)
    have hcpu := hother.cpuPowerCap.symm.trans hcaps.1
    have hgpu := hother.gpuPowerCap.symm.trans hcaps.2
    obtain rfl : other = pair := Prod.ext (Nat.cast_inj.mp hcpu) (Nat.cast_inj.mp hgpu)
    rw [Option.map_some, hother.performance fastest hpos hfastest, ht, Option.getD_some]

/-- The predicted product is the measured one by a square: that of the runtime times the performance. -/
theorem predictedEdp_eq {performance t : ℚ} (hperformance : performance ≠ 0) (ht : t ≠ 0)
    (files : CapFiles) :
    predictedEdp (some performance) (cpuMeanPower files.cpuPower) (gpuMeanPower files.gpuMetrics) =
      (energyOf files t).map fun energy => ((energy * t / (t * performance) ^ 2 : ℚ) : WithBot ℚ) := by
  rw [energyOf]
  cases cpuMeanPower files.cpuPower with
  | none => rfl
  | some cpu =>
    cases gpuMeanPower files.gpuMetrics with
    | none => rfl
    | some gpu =>
      have hproduct : (cpu * (1 / performance) + gpu * (1 / performance)) * (1 / performance) =
          (cpu * t + gpu * t) * t / (t * performance) ^ 2 := by
        field_simp
      simp only [predictedEdp, Option.bind_eq_bind, Option.bind_some, if_neg hperformance,
        Option.pure_def, Option.map_some, hproduct]

/-- A comparison of products that are off by factors within the error bound. -/
theorem le_of_scaled_le {edp other x y fastest error : ℚ} (hx : 0 < x) (hfastest : 0 < fastest)
    (herror : 0 ≤ error) (hlt : error < 1) (hupper : x ≤ (1 + error) * fastest)
    (hlower : (1 - error) * fastest ≤ y) (hother : 0 ≤ other) (h : edp / x ^ 2 ≤ other / y ^ 2) :
    edp ≤ ((1 + error) / (1 - error)) ^ 2 * other := by
  have hgap : 0 < 1 - error := sub_pos.mpr hlt
  have hbound : 0 < (1 - error) * fastest := mul_pos hgap hfastest
  calc edp = edp / x ^ 2 * x ^ 2 := by field_simp
    _ ≤ other / y ^ 2 * x ^ 2 := by gcongr
    _ ≤ other / ((1 - error) * fastest) ^ 2 * ((1 + error) * fastest) ^ 2 := by gcongr
    _ = ((1 + error) / (1 - error)) ^ 2 * other := by field_simp

/-- Below a negative product there is a negative one, of a size that the error bound allows. -/
theorem mul_le_of_scaled_le {edp other x y fastest error : ℚ} (hfastest : 0 < fastest)
    (hlt : error < 1) (hlower : (1 - error) * fastest ≤ x) (hy : 0 < y)
    (hupper : y ≤ (1 + error) * fastest) (hother : other ≤ 0) (h : edp / x ^ 2 ≤ other / y ^ 2) :
    ((1 + error) / (1 - error)) ^ 2 * edp ≤ other := by
  have hgap : 0 < 1 - error := sub_pos.mpr hlt
  have hbound : 0 < (1 - error) * fastest := mul_pos hgap hfastest
  have hx : 0 < x := hbound.trans_le hlower
  have hnonpos : edp / x ^ 2 ≤ 0 := h.trans (div_nonpos_of_nonpos_of_nonneg hother (sq_nonneg y))
  have hgrown : ((1 + error) * fastest) ^ 2 ≤ ((1 + error) / (1 - error)) ^ 2 * x ^ 2 := by
    calc ((1 + error) * fastest) ^ 2
        = ((1 + error) / (1 - error)) ^ 2 * ((1 - error) * fastest) ^ 2 := by field_simp
      _ ≤ ((1 + error) / (1 - error)) ^ 2 * x ^ 2 := by gcongr
  have hsquare : y ^ 2 ≤ ((1 + error) * fastest) ^ 2 := by gcongr
  calc ((1 + error) / (1 - error)) ^ 2 * edp
      = edp / x ^ 2 * (((1 + error) / (1 - error)) ^ 2 * x ^ 2) := by field_simp
    _ ≤ edp / x ^ 2 * y ^ 2 := mul_le_mul_of_nonpos_left (hsquare.trans hgrown) hnonpos
    _ ≤ other / y ^ 2 * y ^ 2 := by gcongr
    _ = other := by field_simp

/-- A predicted performance within the error bound, times the runtime. -/
theorem scaled_bounds {performance t fastest error : ℚ} (ht : 0 < t)
    (hnear : |performance - fastest / t| ≤ error * (fastest / t)) :
    (1 - error) * fastest ≤ t * performance ∧ t * performance ≤ (1 + error) * fastest := by
  obtain ⟨hlow, hhigh⟩ := abs_le.mp hnear
  have hcancel : t * (fastest / t) = fastest := mul_div_cancel₀ fastest ht.ne'
  constructor
  · calc (1 - error) * fastest = t * ((1 - error) * (fastest / t)) := by
          rw [mul_left_comm, hcancel]
      _ ≤ t * performance := mul_le_mul_of_nonneg_left (by linarith) ht.le
  · calc t * performance ≤ t * ((1 + error) * (fastest / t)) :=
          mul_le_mul_of_nonneg_left (by linarith) ht.le
      _ = (1 + error) * fastest := by rw [mul_left_comm, hcancel]

/-- The measured energy-delay product of a pair of caps. -/
theorem measuredEdp_eq (hdir : dir.entries.Perm (runBenchmark cpuCaps gpuCaps measured).entries)
    (hpair : pair ∈ cpuCaps ×ˢ gpuCaps) {t : ℚ} (ht : runtime (measured pair).cpuPower = some t) :
    measuredEdp dir pair = some ((energyOf (measured pair) t).map (· * t)) := by
  rw [measuredEdp, measuredEnergy_eq hdir hpair ht]
  rfl

/-- A power file with a runtime has rows. -/
theorem cpuPower_ne_nil {pairs : List (ℕ × ℕ)}
    (hruntime : ∀ pair ∈ pairs, ∃ t, runtime (measured pair).cpuPower = some t ∧ 0 < t) :
    ∀ pair ∈ pairs, (measured pair).cpuPower ≠ [] := by
  intro pair hpair hnil
  obtain ⟨t, ht, -⟩ := hruntime pair hpair
  simp [runtime, hnil] at ht

/-- If the matrix is off by a relative error from the measured table, then for every pair of caps the
predicted performance times the runtime is off by that error from the runtime of the fastest run. -/
theorem exists_fastest_near (hcpu : cpuCaps.Nodup) (hgpu : gpuCaps.Nodup)
    (hruntime : ∀ pair ∈ cpuCaps ×ˢ gpuCaps, ∃ t, runtime (measured pair).cpuPower = some t ∧ 0 < t)
    (hdir : dir.entries.Perm (runBenchmark cpuCaps gpuCaps measured).entries)
    {rows : List PerformanceRow} (hrows : performanceTable dir = some rows) {pairs : List (ℕ × ℕ)}
    (hpairs : ∀ pair ∈ pairs, pair ∈ cpuCaps ×ˢ gpuCaps) (hgrid : baselineCaps ∈ cpuCaps ×ˢ gpuCaps)
    {error : ℚ} {predicted : ℕ × ℕ → ℚ}
    (hnear : ∀ pair ∈ pairs, ∀ actual, performanceColumn rows pair = some (some actual) →
      |predicted pair - actual| ≤ error * actual) :
    ∃ fastest, 0 < fastest ∧
      (∀ pair ∈ cpuCaps ×ˢ gpuCaps, ∀ t, runtime (measured pair).cpuPower = some t → fastest ≤ t) ∧
      ∀ pair ∈ pairs, ∀ t, runtime (measured pair).cpuPower = some t →
        (1 - error) * fastest ≤ t * predicted pair ∧ t * predicted pair ≤ (1 + error) * fastest := by
  obtain ⟨fastest, hpos, hfastest⟩ := exists_fastest hruntime hgrid
  obtain rfl := Option.some.inj
    ((performanceTable_eq hcpu hgpu (cpuPower_ne_nil hruntime) hdir).symm.trans hrows)
  refine ⟨fastest, hpos, fun pair hpair t ht => hfastest.2 ⟨pair, hpair, ht⟩, fun pair hpair t ht => ?_⟩
  obtain ⟨own, hown, hownPos⟩ := hruntime pair (hpairs pair hpair)
  obtain rfl := Option.some.inj (ht.symm.trans hown)
  exact scaled_bounds hownPos
    (hnear pair hpair _ (performanceColumn_eq (hpairs pair hpair) hpos hfastest ht))

/-- What the first loop compares: measured products, each by the square of a factor. -/
def scaledEdp (dir : Directory) (factor : ℕ × ℕ → ℚ) (pair : ℕ × ℕ) : Option (WithBot ℚ) :=
  (measuredEdp dir pair).join.map fun edp => ((edp / factor pair ^ 2 : ℚ) : WithBot ℚ)

/-- What is compared for a product that is a number. -/
theorem scaledEdp_eq {edp : ℚ} (factor : ℕ × ℕ → ℚ) (h : measuredEdp dir pair = some (some edp)) :
    scaledEdp dir factor pair = some ((edp / factor pair ^ 2 : ℚ) : WithBot ℚ) := by
  rw [scaledEdp, h, Option.join_some, Option.map_some]

/-- The products for a predicted performance that is nowhere zero. -/
theorem scoredPairs_eq (hdir : dir.entries.Perm (runBenchmark cpuCaps gpuCaps measured).entries)
    (hruntime : ∀ pair ∈ cpuCaps ×ˢ gpuCaps, ∃ t, runtime (measured pair).cpuPower = some t ∧ 0 < t)
    {pairs : List (ℕ × ℕ)} (hpairs : ∀ pair ∈ pairs, pair ∈ cpuCaps ×ˢ gpuCaps)
    {predicted : ℕ × ℕ → ℚ} {performance : ℕ × ℕ → Option (Option ℚ)}
    (hmatrix : ∀ pair ∈ pairs, performance pair = some (some (predicted pair)))
    (hne : ∀ pair ∈ pairs, predicted pair ≠ 0) :
    scoredPairs dir performance pairs = some (pairs.map fun pair => (pair, scaledEdp dir
      (fun pair => (runtime (measured pair).cpuPower).getD 0 * predicted pair) pair)) := by
  refine mapM_eq_some_map fun pair hpair => ?_
  have hgrid := hpairs pair hpair
  obtain ⟨t, ht, htpos⟩ := hruntime pair hgrid
  simp only [hmatrix pair hpair, readCpuData_eq hdir hgrid, readGpuData_eq hdir hgrid,
    Option.bind_eq_bind, Option.bind_some, Option.pure_def, predictedEdp_eq (hne pair hpair) htpos.ne',
    scaledEdp, ht, Option.getD_some, measuredEdp_eq hdir hgrid ht, Option.join_some, Option.map_map]
  rfl

/-- What the loop body does with the scored pairs: it has no entry if no score is a number, and else the
entry of a pair whose score is least. -/
theorem selectEdp_of_scored {performance : ℕ × ℕ → Option (Option ℚ)} {pairs : List (ℕ × ℕ)}
    {score : ℕ × ℕ → Option (WithBot ℚ)}
    (hscored : scoredPairs dir performance pairs = some (pairs.map fun pair => (pair, score pair)))
    (hmeasured : ∀ pair ∈ pairs, ∃ edp, measuredEdp dir pair = some edp)
    (hbaseline : baselineCaps ∈ pairs) :
    (selectEdp dir performance pairs = some none ∧ ∀ pair ∈ pairs, score pair = none) ∨
      ∃ best, selectEdp dir performance pairs = some (some best) ∧ best.bestPowerPair ∈ pairs ∧
        measuredEdp dir best.bestPowerPair = some best.selectedEdp ∧
        measuredEdp dir baselineCaps = some best.baselineEdp ∧
        ∃ least, score best.bestPowerPair = some least ∧
          ∀ pair ∈ pairs, ∀ other, score pair = some other → least ≤ other := by
  cases hrun : runningBest Prod.snd (pairs.map fun pair => (pair, score pair)) with
  | none =>
    refine Or.inl ⟨by simp [selectEdp, hscored, hrun], fun pair hpair => ?_⟩
    exact runningBest_map_eq_none_iff.mp hrun pair hpair
  | some best =>
    obtain ⟨scored, least⟩ := best
    obtain ⟨pair, hpair, rfl, hown, hmin⟩ := of_runningBest_map hrun
    obtain ⟨baseline, hbase⟩ := hmeasured baselineCaps hbaseline
    obtain ⟨selected, hselected⟩ := hmeasured pair hpair
    exact Or.inr ⟨⟨pair, baseline, selected⟩, by simp [selectEdp, hscored, hrun, hbase, hselected],
      hpair, hselected, hbase, least, hown, hmin⟩

/-- What the first loop is for: it goes through, it has no entry only if no product is a number, and the
measured product of the pair of caps that it finds exceeds no other one, the baseline's among them, by more
than a factor. If one of them is negative, then the one that it finds is negative too, and no other one goes
below it by more than that factor. -/
def SelectsWithin (factor : ℚ) (dir : Directory) (performance : ℕ × ℕ → Option (Option ℚ))
    (pairs : List (ℕ × ℕ)) : Prop :=
  ∃ result, selectEdp dir performance pairs = some result ∧
    (result = none ↔ ∀ pair ∈ pairs, measuredEdp dir pair = some none) ∧
    ∀ best, result = some best → ∃ edp, best.selectedEdp = some edp ∧ best.bestPowerPair ∈ pairs ∧
      measuredEdp dir best.bestPowerPair = some (some edp) ∧
      measuredEdp dir baselineCaps = some best.baselineEdp ∧
      ∀ pair ∈ pairs, ∀ other, measuredEdp dir pair = some (some other) →
        (0 ≤ other → edp ≤ factor * other) ∧ (other ≤ 0 → factor * edp ≤ other)

/-- If the matrix is off by a relative error from the measured table, the first loop is off by the square of
a factor, which is one for a matrix without error. -/
theorem selectsWithin_of_near (hcpu : cpuCaps.Nodup) (hgpu : gpuCaps.Nodup)
    (hruntime : ∀ pair ∈ cpuCaps ×ˢ gpuCaps, ∃ t, runtime (measured pair).cpuPower = some t ∧ 0 < t)
    (hdir : dir.entries.Perm (runBenchmark cpuCaps gpuCaps measured).entries)
    {rows : List PerformanceRow} (hrows : performanceTable dir = some rows) {pairs : List (ℕ × ℕ)}
    (hpairs : ∀ pair ∈ pairs, pair ∈ cpuCaps ×ˢ gpuCaps) (hbaseline : baselineCaps ∈ pairs)
    {error : ℚ} (herror : 0 ≤ error) (hlt : error < 1) {predicted : ℕ × ℕ → ℚ}
    {performance : ℕ × ℕ → Option (Option ℚ)}
    (hmatrix : ∀ pair ∈ pairs, performance pair = some (some (predicted pair)))
    (hnear : ∀ pair ∈ pairs, ∀ actual, performanceColumn rows pair = some (some actual) →
      |predicted pair - actual| ≤ error * actual) :
    SelectsWithin (((1 + error) / (1 - error)) ^ 2) dir performance pairs := by
  obtain ⟨fastest, hpos, -, hbounds⟩ :=
    exists_fastest_near hcpu hgpu hruntime hdir hrows hpairs (hpairs _ hbaseline) hnear
  let factor : ℕ × ℕ → ℚ := fun pair =>
    (runtime (measured pair).cpuPower).getD 0 * predicted pair
  have hfactor : ∀ pair ∈ pairs,
      (1 - error) * fastest ≤ factor pair ∧ factor pair ≤ (1 + error) * fastest := by
    intro pair hpair
    obtain ⟨t, ht, -⟩ := hruntime pair (hpairs pair hpair)
    simp only [factor, ht, Option.getD_some]
    exact hbounds pair hpair t ht
  have hfactorPos : ∀ pair ∈ pairs, 0 < factor pair := fun pair hpair =>
    (mul_pos (sub_pos.mpr hlt) hpos).trans_le (hfactor pair hpair).1
  have hmeasured : ∀ pair ∈ pairs, ∃ edp, measuredEdp dir pair = some edp := by
    intro pair hpair
    obtain ⟨t, ht, -⟩ := hruntime pair (hpairs pair hpair)
    exact ⟨_, measuredEdp_eq hdir (hpairs pair hpair) ht⟩
  have hscored := scoredPairs_eq hdir hruntime hpairs hmatrix
    fun pair hpair => right_ne_zero_of_mul (hfactorPos pair hpair).ne'
  rcases selectEdp_of_scored hscored hmeasured hbaseline with
    ⟨hselect, hnone⟩ | ⟨best, hselect, hpair, hselected, hbase, least, hleast, hmin⟩
  · refine ⟨none, hselect, ⟨fun _ pair hpair => ?_, fun _ => rfl⟩, fun best hbest => nomatch hbest⟩
    obtain ⟨edp, hedp⟩ := hmeasured pair hpair
    have hscore := hnone pair hpair
    rw [scaledEdp, hedp, Option.join_some, Option.map_eq_none_iff] at hscore
    rw [hedp, hscore]
  · rw [scaledEdp, hselected, Option.join_some, Option.map_eq_some_iff] at hleast
    obtain ⟨edp, hedp, rfl⟩ := hleast
    rw [hedp] at hselected
    refine ⟨some best, hselect, ⟨fun hcontra => (nomatch hcontra), fun hnone => ?_⟩, fun best' hbest => ?_⟩
    · rw [hnone _ hpair] at hselected
      exact nomatch hselected
    · obtain rfl := Option.some.inj hbest
      refine ⟨edp, hedp, hpair, hselected, hbase, fun pair hpair' other hother => ?_⟩
      have hcompare := hmin pair hpair' _ (scaledEdp_eq factor hother)
      rw [WithBot.coe_le_coe] at hcompare
      constructor
      · intro hnonneg
        exact le_of_scaled_le (hfactorPos _ hpair) hpos herror hlt (hfactor _ hpair).2
          (hfactor pair hpair').1 hnonneg hcompare
      · intro hnonpos
        exact mul_le_of_scaled_le hpos hlt (hfactor _ hpair).1 (hfactorPos pair hpair')
          (hfactor pair hpair').2 hnonpos hcompare

/-- The files that the second loop looks for are there after the experiments. -/
theorem no_file_missing (hdir : dir.entries.Perm (runBenchmark cpuCaps gpuCaps measured).entries)
    (hpair : pair ∈ cpuCaps ×ˢ gpuCaps) :
    ¬ (capFileName (capTexts pair).1 (capTexts pair).2 .cpuPower ∉ dir ∨
      capFileName (capTexts pair).1 (capTexts pair).2 .gpuMetrics ∉ dir) := by
  rw [not_or, not_not, not_not]
  exact ⟨mem_of_perm hdir hpair _, mem_of_perm hdir hpair _⟩

/-- What the second loop makes of a pair of caps that has been measured. -/
theorem candidateEnergy_eq (hdir : dir.entries.Perm (runBenchmark cpuCaps gpuCaps measured).entries)
    (hpair : pair ∈ cpuCaps ×ˢ gpuCaps) {t : ℚ} (ht : runtime (measured pair).cpuPower = some t)
    {performance : ℕ × ℕ → Option (Option ℚ)} {predicted : ℚ}
    (hmatrix : performance pair = some (some predicted)) :
    candidateEnergy dir performance pair =
      some (if predicted < 19 / 20 then none else some (energyOf (measured pair) t, t)) := by
  simp only [candidateEnergy, hmatrix, losesPerformance, Option.any_some, decide_eq_true_eq,
    if_neg (no_file_missing hdir hpair), measuredEnergy_eq hdir hpair ht, Option.map_some]
  split <;> rfl

/-- The saving against a positive energy. -/
theorem savingScore_eq {baseline : ℚ} (hbaseline : 0 < baseline) (energy : ℚ) (t : ℚ) :
    savingScore (some baseline) (pair, some (some energy, t)) =
      some (OrderDual.toDual (((baseline - energy) / baseline * 100 : ℚ) : WithTop ℚ)) := by
  simp [savingScore, energySaving, hbaseline.ne']

/-- A saving that is a number comes from a candidate with an energy. -/
theorem exists_of_savingScore {baseline : ℚ} {candidate : Option (Option ℚ × ℚ)}
    {saving : (WithTop ℚ)ᵒᵈ} (h : savingScore (some baseline) (pair, candidate) = some saving) :
    ∃ energy t, candidate = some (some energy, t) := by
  cases candidate with
  | none => exact nomatch h
  | some measurement =>
    obtain ⟨energy, t⟩ := measurement
    cases energy with
    | none => exact nomatch h
    | some energy => exact ⟨energy, t, rfl⟩

/-- A larger saving is a smaller energy. -/
theorem energy_le_of_saving_le {baseline energy other : ℚ} (hbaseline : 0 < baseline)
    (h : (baseline - other) / baseline * 100 ≤ (baseline - energy) / baseline * 100) : energy ≤ other := by
  have hquotient := le_of_mul_le_mul_right h (by norm_num : (0 : ℚ) < 100)
  rw [div_le_div_iff_of_pos_right hbaseline] at hquotient
  linarith

/-- What the second loop compares for a pair of caps that has been measured. -/
def candidateOf (measured : ℕ × ℕ → CapFiles) (predicted : ℕ × ℕ → ℚ) (pair : ℕ × ℕ) :
    Option (Option ℚ × ℚ) :=
  let execTime := (runtime (measured pair).cpuPower).getD 0
  if predicted pair < 19 / 20 then none else some (energyOf (measured pair) execTime, execTime)

/-- A pair of caps that is not skipped has its measured energy and time as candidate. -/
theorem measuredEnergy_eq_candidateOf
    (hdir : dir.entries.Perm (runBenchmark cpuCaps gpuCaps measured).entries)
    (hpair : pair ∈ cpuCaps ×ˢ gpuCaps) {t : ℚ} (ht : runtime (measured pair).cpuPower = some t)
    {predicted : ℕ × ℕ → ℚ} (hkept : 19 / 20 ≤ predicted pair) :
    measuredEnergy dir pair = candidateOf measured predicted pair := by
  rw [measuredEnergy_eq hdir hpair ht, candidateOf, if_neg (not_lt.mpr hkept), ht, Option.getD_some]

/-- A candidate has not been skipped. -/
theorem kept_of_candidateOf {predicted : ℕ × ℕ → ℚ} {candidate : Option ℚ × ℚ}
    (h : candidateOf measured predicted pair = some candidate) : 19 / 20 ≤ predicted pair := by
  by_contra hlost
  rw [candidateOf, if_pos (not_le.mp hlost)] at h
  exact nomatch h

/-- What the second loop body does with the candidates: it has no entry if no saving is a number, and else
the entry of a candidate with the least energy. -/
theorem selectEnergy_of_candidates
    (hdir : dir.entries.Perm (runBenchmark cpuCaps gpuCaps measured).entries)
    (hruntime : ∀ pair ∈ cpuCaps ×ˢ gpuCaps, ∃ t, runtime (measured pair).cpuPower = some t ∧ 0 < t)
    {pairs : List (ℕ × ℕ)} (hpairs : ∀ pair ∈ pairs, pair ∈ cpuCaps ×ˢ gpuCaps)
    (hgrid : baselineCaps ∈ cpuCaps ×ˢ gpuCaps) {predicted : ℕ × ℕ → ℚ}
    {performance : ℕ × ℕ → Option (Option ℚ)}
    (hmatrix : ∀ pair ∈ pairs, performance pair = some (some (predicted pair))) {baseline time : ℚ}
    (hbaseline : measuredEnergy dir baselineCaps = some (some baseline, time)) (hpos : 0 < baseline) :
    (selectEnergy dir performance pairs = some none ∧
        ∀ pair ∈ pairs, ∀ energy t, candidateOf measured predicted pair ≠ some (some energy, t)) ∨
      ∃ best energy, selectEnergy dir performance pairs = some (some best) ∧ best.bestPowerPair ∈ pairs ∧
        best.selectedEnergy = some energy ∧ best.baselineExecTime = time ∧
        candidateOf measured predicted best.bestPowerPair = some (some energy, best.selectedExecTime) ∧
        ∀ pair ∈ pairs, ∀ other t, candidateOf measured predicted pair = some (some other, t) →
          energy ≤ other := by
  have hcandidates : energyCandidates dir performance pairs =
      some (pairs.map fun pair => (pair, candidateOf measured predicted pair)) := by
    refine mapM_eq_some_map fun pair hpair => ?_
    obtain ⟨t, ht, -⟩ := hruntime pair (hpairs pair hpair)
    simp only [candidateEnergy_eq hdir (hpairs pair hpair) ht (hmatrix pair hpair), candidateOf, ht,
      Option.getD_some, Option.bind_eq_bind, Option.bind_some, Option.pure_def]
  have hselect : selectEnergy dir performance pairs = some (energyEntry (some baseline) time
      (pairs.map fun pair => (pair, candidateOf measured predicted pair))) := by
    rw [selectEnergy, if_neg (no_file_missing hdir hgrid), hbaseline]
    simp only [hcandidates, Option.bind_eq_bind, Option.bind_some, Option.pure_def]
  rw [hselect, energyEntry]
  cases hrun : runningBest (savingScore (some baseline))
      (pairs.map fun pair => (pair, candidateOf measured predicted pair)) with
  | none =>
    refine Or.inl ⟨rfl, fun pair hpair energy t hcandidate => ?_⟩
    have hnone := runningBest_map_eq_none_iff.mp hrun pair hpair
    rw [hcandidate, savingScore_eq hpos] at hnone
    exact nomatch hnone
  | some best =>
    obtain ⟨scored, saving⟩ := best
    obtain ⟨pair, hpair, rfl, hown, hmin⟩ := of_runningBest_map hrun
    obtain ⟨energy, t, hcandidate⟩ := exists_of_savingScore hown
    rw [hcandidate, savingScore_eq hpos, Option.some.injEq] at hown
    subst hown
    simp only [hcandidate]
    refine Or.inr ⟨_, energy, rfl, hpair, rfl, rfl, hcandidate, fun other hother energy' t' hother' => ?_⟩
    have hcompare := hmin other hother _ (by rw [hother', savingScore_eq hpos])
    rw [OrderDual.toDual_le_toDual, WithTop.coe_le_coe] at hcompare
    exact energy_le_of_saving_le hpos hcompare

/-- If the matrix is off by a relative error from the measured table, the second loop goes through. The run
under the caps that it finds is slower than any other one by no more than the threshold and the error
allow, and it takes the least energy of all runs that are surely above the threshold. -/
theorem selectEnergy_near_optimal (hcpu : cpuCaps.Nodup) (hgpu : gpuCaps.Nodup)
    (hruntime : ∀ pair ∈ cpuCaps ×ˢ gpuCaps, ∃ t, runtime (measured pair).cpuPower = some t ∧ 0 < t)
    (hdir : dir.entries.Perm (runBenchmark cpuCaps gpuCaps measured).entries)
    {rows : List PerformanceRow} (hrows : performanceTable dir = some rows) {pairs : List (ℕ × ℕ)}
    (hpairs : ∀ pair ∈ pairs, pair ∈ cpuCaps ×ˢ gpuCaps) (hgrid : baselineCaps ∈ cpuCaps ×ˢ gpuCaps)
    {error : ℚ} {predicted : ℕ × ℕ → ℚ} {performance : ℕ × ℕ → Option (Option ℚ)}
    (hmatrix : ∀ pair ∈ pairs, performance pair = some (some (predicted pair)))
    (hnear : ∀ pair ∈ pairs, ∀ actual, performanceColumn rows pair = some (some actual) →
      |predicted pair - actual| ≤ error * actual)
    {baseline time : ℚ} (hbaseline : measuredEnergy dir baselineCaps = some (some baseline, time))
    (hpos : 0 < baseline) :
    ∃ result, selectEnergy dir performance pairs = some result ∧
      (result = none → ∀ pair ∈ pairs, 19 / 20 ≤ predicted pair →
        ∀ energy t, measuredEnergy dir pair ≠ some (some energy, t)) ∧
      ∀ best, result = some best → ∃ energy, best.selectedEnergy = some energy ∧
        best.bestPowerPair ∈ pairs ∧
        measuredEnergy dir best.bestPowerPair = some (some energy, best.selectedExecTime) ∧
        (∀ pair ∈ cpuCaps ×ˢ gpuCaps, ∀ t, runtime (measured pair).cpuPower = some t →
          19 / 20 * best.selectedExecTime ≤ (1 + error) * t) ∧
        ∀ pair ∈ pairs, ∀ actual, performanceColumn rows pair = some (some actual) →
          19 / 20 ≤ (1 - error) * actual →
            ∀ other t, measuredEnergy dir pair = some (some other, t) → energy ≤ other := by
  obtain ⟨fastest, hfastestPos, hfastest, hbounds⟩ :=
    exists_fastest_near hcpu hgpu hruntime hdir hrows hpairs hgrid hnear
  have hcandidate : ∀ pair ∈ pairs, 19 / 20 ≤ predicted pair →
      measuredEnergy dir pair = candidateOf measured predicted pair := by
    intro pair hpair hkept
    obtain ⟨t, ht, -⟩ := hruntime pair (hpairs pair hpair)
    exact measuredEnergy_eq_candidateOf hdir (hpairs pair hpair) ht hkept
  rcases selectEnergy_of_candidates hdir hruntime hpairs hgrid hmatrix hbaseline hpos with
    ⟨hselect, hnone⟩ | ⟨best, energy, hselect, hpair, henergy, -, hown, hmin⟩
  · refine ⟨none, hselect, fun _ pair hpair hkept energy t => ?_, fun best hbest => nomatch hbest⟩
    rw [hcandidate pair hpair hkept]
    exact hnone pair hpair energy t
  · refine ⟨some best, hselect, fun hcontra => (nomatch hcontra), fun best' hbest => ?_⟩
    obtain rfl := Option.some.inj hbest
    have hkept := kept_of_candidateOf hown
    have hmeasured := (hcandidate _ hpair hkept).trans hown
    refine ⟨energy, henergy, hpair, hmeasured, fun pair hpair' t ht => ?_,
      fun pair hpair' actual hactual hsure other t hother => ?_⟩
    · obtain ⟨own, hrun, hownPos⟩ := hruntime _ (hpairs _ hpair)
      have htime : best.selectedExecTime = own := by
        rw [measuredEnergy_eq hdir (hpairs _ hpair) hrun] at hmeasured
        exact (congrArg Prod.snd (Option.some.inj hmeasured)).symm
      obtain ⟨hlow, hhigh⟩ := hbounds _ hpair own hrun
      have herror : 0 ≤ error := by
        have hgap := le_of_mul_le_mul_right (hlow.trans hhigh) hfastestPos
        linarith
      calc 19 / 20 * best.selectedExecTime = own * (19 / 20) := by rw [htime, mul_comm]
        _ ≤ own * predicted best.bestPowerPair := mul_le_mul_of_nonneg_left hkept hownPos.le
        _ ≤ (1 + error) * fastest := hhigh
        _ ≤ (1 + error) * t := mul_le_mul_of_nonneg_left (hfastest pair hpair' t ht) (by linarith)
    · have hlow := (abs_le.mp (hnear pair hpair' actual hactual)).1
      have hkept' : 19 / 20 ≤ predicted pair := by linarith
      exact hmin pair hpair' other t ((hcandidate pair hpair' hkept').symm.trans hother)

end Measured

/-- The pairs of caps that the notebook goes through. -/
def powerCapPairs : List (ℕ × ℕ) := experimentCpuCaps ×ˢ experimentGpuCaps

/-- The runtimes of the capped runs. -/
theorem runtime_cappedRun (pair : ℕ × ℕ) : runtime (cappedRun pair).cpuPower = some (cappedTime pair) := rfl

/-- No capped run is faster than that under the baseline caps. -/
theorem le_cappedTime {pair : ℕ × ℕ} (hpair : pair ∈ powerCapPairs) : 550 ≤ cappedTime pair := by
  have hcpu : ∀ cap ∈ experimentCpuCaps, cap ≤ 200 := by decide
  have hgpu : ∀ cap ∈ experimentGpuCaps, cap ≤ 250 := by decide
  obtain ⟨hfirst, hsecond⟩ := List.mem_product.mp hpair
  have hcpuCap : (pair.1 : ℚ) ≤ 200 := by exact_mod_cast hcpu _ hfirst
  have hgpuCap : (pair.2 : ℚ) ≤ 250 := by exact_mod_cast hgpu _ hsecond
  rw [cappedTime]
  linarith

/-- The capped runs take some time. -/
theorem runtime_cappedRun_pos :
    ∀ pair ∈ powerCapPairs, ∃ t, runtime (cappedRun pair).cpuPower = some t ∧ 0 < t := fun pair hpair =>
  ⟨_, runtime_cappedRun pair, by linarith [le_cappedTime hpair]⟩

/-- The table of the capped runs. -/
theorem performanceColumn_cappedRun :
    ∃ rows, performanceTable (runBenchmark experimentCpuCaps experimentGpuCaps cappedRun) = some rows ∧
      ∀ pair ∈ powerCapPairs, performanceColumn rows pair = some (some (550 / cappedTime pair)) := by
  have hleast : IsLeast {t | ∃ other ∈ powerCapPairs, runtime (cappedRun other).cpuPower = some t} 550 := by
    refine ⟨⟨baselineCaps, by decide, ?_⟩, ?_⟩
    · rw [runtime_cappedRun, baselineCaps, cappedTime]
      norm_num
    · rintro t ⟨other, hother, ht⟩
      obtain rfl := Option.some.inj ((runtime_cappedRun other).symm.trans ht)
      exact le_cappedTime hother
  refine ⟨_, performanceTable_eq (by decide) (by decide) (cpuPower_ne_nil runtime_cappedRun_pos)
    (List.Perm.refl _), fun pair hpair => ?_⟩
  exact performanceColumn_eq hpair (by norm_num) hleast (runtime_cappedRun pair)

/-- The baseline of the capped runs. -/
theorem measuredEnergy_cappedRun :
    measuredEnergy (runBenchmark experimentCpuCaps experimentGpuCaps cappedRun) baselineCaps =
      some (some 264000, 550) := by
  have htime : cappedTime baselineCaps = 550 := by norm_num [cappedTime, baselineCaps]
  rw [measuredEnergy_eq (List.Perm.refl _) (by decide) (runtime_cappedRun baselineCaps), htime]
  norm_num [energyOf, cpuMeanPower, gpuMeanPower, cappedRun, mean_singleton, baselineCaps]

/-- The second loop with the table of the capped runs. -/
theorem selectEnergy_near_optimal_capped :
    ∃ rows result, performanceTable (runBenchmark experimentCpuCaps experimentGpuCaps cappedRun) = some rows ∧
      selectEnergy (runBenchmark experimentCpuCaps experimentGpuCaps cappedRun) (performanceColumn rows)
        powerCapPairs = some result ∧
      ∀ best, result = some best → 19 / 20 * best.selectedExecTime ≤ 550 := by
  obtain ⟨rows, hrows, hcolumn⟩ := performanceColumn_cappedRun
  obtain ⟨result, hselect, -, hbest⟩ := selectEnergy_near_optimal (by decide) (by decide)
    runtime_cappedRun_pos (List.Perm.refl _) hrows (fun _ hpair => hpair) (by decide) hcolumn
    (fun pair hpair actual hactual => by
      obtain rfl := Option.some.inj (Option.some.inj ((hcolumn pair hpair).symm.trans hactual))
      rw [sub_self, abs_zero, zero_mul])
    measuredEnergy_cappedRun (by norm_num)
  refine ⟨rows, result, hrows, hselect, fun best hresult => ?_⟩
  obtain ⟨energy, -, -, -, hslower, -⟩ := hbest best hresult
  have hbound := hslower baselineCaps (by decide) _ (runtime_cappedRun baselineCaps)
  have htime : cappedTime baselineCaps = 550 := by norm_num [cappedTime, baselineCaps]
  rw [htime] at hbound
  simpa using hbound

end NodePower.Caps
