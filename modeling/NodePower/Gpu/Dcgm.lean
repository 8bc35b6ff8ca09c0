import Mathlib.Data.List.DropRight
import NodePower.Common.CString
import NodePower.Common.DecimalRounding
import NodePower.Gpu.PowerMonitor
import NodePower.Perf.Throughput

/-!
# The GPU metrics of dcgmi

`get_dcgm_metrics` runs `dcgmi dmon` for three samples and takes the first row with some
activity, or else the last one, or zeros if there is no row behind the two header lines.
`monitor_gpu_performance` does so in every round while the benchmark runs, and writes its CSV
file when the benchmark has ended. A row with a missing column, or with a word that is not a
number, raises an error that nothing catches: the rounds so far are lost with it.

Outputs are ASCII texts, and floats are exact rationals. The names of infinities and of NaN and the
underscores between digits, which `float` also takes, do not occur in what dcgmi prints.
-/

namespace NodePower.Gpu

open Perf (isSpace)

/-- The exponent behind a mantissa: zero if nothing follows, and else an `e` that needs digits. -/
def exponentText : Text → Option ℤ
  | [] => some 0
  | _ :: text =>
    let (negative, digits) := splitSign text
    if digits ≠ [] ∧ digits.all Char.isDigit then some (signedNumber negative digits) else none

/-- `float`, or nothing when it raises a `ValueError`. -/
def float (word : Text) : Option ℚ := do
  let (negative, unsigned) := splitSign word
  let mantissa ← parseMagnitude negative (unsigned.takeWhile fun c => c ≠ 'e' ∧ c ≠ 'E')
  let exponent ← exponentText (unsigned.dropWhile fun c => c ≠ 'e' ∧ c ≠ 'E')
  some (mantissa.value * 10 ^ exponent)

/-- `strip`. -/
def strip (text : Text) : Text := (text.dropWhile isSpace).rdropWhile isSpace

/-- `split` without a separator. -/
def splitWords (line : Text) : List Text := (line.splitOnP isSpace).filter (· ≠ [])

/-- What `get_dcgm_metrics` returns. -/
structure Metrics where
  fp16Active : ℚ
  fp32Active : ℚ
  fp64Active : ℚ
  smActive : ℚ
  smClock : ℚ
  power : ℚ
  dramActive : ℚ

/-- The values before the first row. -/
def noMetrics : Metrics := ⟨0, 0, 0, 0, 0, 0, 0⟩

/-- The number in a column; an index error and a value error are both nothing. -/
def column (values : List Text) (i : ℕ) : Option ℚ := (values[i]?).bind float

/-- The numbers of a row. -/
def readRow (line : Text) : Option Metrics := do
  let values := splitWords line
  let fp16Active ← column values 2
  let fp32Active ← column values 3
  let fp64Active ← column values 4
  let smActive ← column values 5
  let smClock ← column values 6
  let power ← column values 7
  let dramActive ← column values 8
  some ⟨fp16Active, fp32Active, fp64Active, smActive, smClock, power, dramActive⟩

/-- The test with which a row is taken at once. -/
def Metrics.active (metrics : Metrics) : Bool :=
  (0 < metrics.fp32Active ∨ 0 < metrics.fp64Active ∨ 0 < metrics.fp16Active) ∧ 0 < metrics.smActive

/-- The loop over the rows, from the values of the row before. -/
def scanRows (latest : Metrics) : List Text → Option Metrics
  | [] => some latest
  | line :: rest =>
    (readRow line).bind fun metrics => if metrics.active then some metrics else scanRows metrics rest

/-- The lines behind the two header lines. -/
def dcgmRows (output : Text) : List Text := ((strip output).splitOn '\n').drop 2

/-- `get_dcgm_metrics` on the output of `dcgmi dmon`. -/
def getDcgmMetrics (output : Text) : Option Metrics := scanRows noMetrics (dcgmRows output)

/-- One round: the elapsed time, and what dcgmi prints. -/
structure Round where
  elapsedTime : ℚ
  output : Text

/-- A row of the CSV file. -/
structure PerformanceRow where
  elapsedTime : ℚ
  smClockHz : ℚ
  dramActive : ℚ
  fp16Active : ℚ
  fp32Active : ℚ
  fp64Active : ℚ
  power : ℤ

/-- The CSV file. -/
structure PerformanceFile where
  headers : List String
  rows : List PerformanceRow

/-- The titles of the columns. -/
def performanceHeaders : List String :=
  ["Time (s)", "SM Clock (MHz)", "DRAM Active", "FP16 Active", "FP32 Active", "FP64 Active", "Power (W)"]

/-- The row that a round appends. -/
def performanceRow (elapsedTime : ℚ) (metrics : Metrics) : PerformanceRow :=
  ⟨elapsedTime, metrics.smClock, metrics.dramActive, metrics.fp16Active, metrics.fp32Active,
    metrics.fp64Active, truncate metrics.power⟩

/-- `monitor_gpu_performance`: the file that is written, or nothing when an error ends the run. -/
def monitorGpuPerformance (rounds : List Round) : Option PerformanceFile := do
  let performanceData ← rounds.mapM fun round =>
    (getDcgmMetrics round.output).map (performanceRow round.elapsedTime)
  some ⟨performanceHeaders, performanceData⟩

/-- A row whose third to ninth columns are numbers. -/
def WellFormed (line : Text) : Prop := ∀ i, 2 ≤ i → i ≤ 8 → ∃ x, column (splitWords line) i = some x

/-- What should be taken from an output: the first row with some activity among the well-formed
ones, or else the last of them, or zeros. -/
def expectedMetrics (latest : Metrics) (rows : List Text) : Metrics :=
  ((rows.filterMap readRow).find? Metrics.active).getD ((rows.filterMap readRow).getLast?.getD latest)

/-- The file that should be written: one row for every round. -/
def expectedFile (rounds : List Round) : PerformanceFile :=
  ⟨performanceHeaders, rounds.map fun round =>
    performanceRow round.elapsedTime (expectedMetrics noMetrics (dcgmRows round.output))⟩

/-- Every row that is not well-formed comes after a row with some activity. -/
def BadRowsComeLate (rows : List Text) : Prop :=
  ∀ earlier row later, rows = earlier ++ row :: later → ¬ WellFormed row →
    ∃ line ∈ earlier, ∃ metrics, readRow line = some metrics ∧ metrics.active = true

/-- Reading a row fails exactly if it is not well-formed. -/
theorem readRow_eq_none_iff (line : Text) : readRow line = none ↔ ¬ WellFormed line := by
  rw [← Option.not_isSome_iff_eq_none, not_iff_not, Option.isSome_iff_exists]
  constructor
  · intro h
    obtain ⟨metrics, hmetrics⟩ := h
    simp only [readRow, Option.bind_eq_bind, Option.bind_eq_some_iff] at hmetrics
    obtain ⟨_, h2, _, h3, _, h4, _, h5, _, h6, _, h7, _, h8, _⟩ := hmetrics
    intro i hlow hhigh
    interval_cases i
    exacts [⟨_, h2⟩, ⟨_, h3⟩, ⟨_, h4⟩, ⟨_, h5⟩, ⟨_, h6⟩, ⟨_, h7⟩, ⟨_, h8⟩]
  · intro h
    obtain ⟨_, h2⟩ := h 2 (by omega) (by omega)
    obtain ⟨_, h3⟩ := h 3 (by omega) (by omega)
    obtain ⟨_, h4⟩ := h 4 (by omega) (by omega)
    obtain ⟨_, h5⟩ := h 5 (by omega) (by omega)
    obtain ⟨_, h6⟩ := h 6 (by omega) (by omega)
    obtain ⟨_, h7⟩ := h 7 (by omega) (by omega)
    obtain ⟨_, h8⟩ := h 8 (by omega) (by omega)
    simp only [readRow, h2, h3, h4, h5, h6, h7, h8, Option.bind_eq_bind, Option.bind_some,
      Option.some.injEq, exists_eq']

/-- Without rows there is no bad one. -/
theorem badRowsComeLate_nil : BadRowsComeLate [] := by
  intro earlier row later h
  exact absurd h.symm (List.append_ne_nil_of_right_ne_nil earlier (List.cons_ne_nil row later))

/-- The first row must be well-formed, and if it shows no activity the rest must be in order. -/
theorem badRowsComeLate_cons (line : Text) (rest : List Text) :
    BadRowsComeLate (line :: rest) ↔
      ∃ metrics, readRow line = some metrics ∧ (metrics.active = true ∨ BadRowsComeLate rest) := by
  constructor
  · intro h
    cases hread : readRow line with
    | none =>
      obtain ⟨_, hmem, _⟩ := h [] line rest rfl ((readRow_eq_none_iff line).mp hread)
      exact absurd hmem List.not_mem_nil
    | some metrics =>
      refine ⟨metrics, rfl, ?_⟩
      rw [or_iff_not_imp_left]
      intro hinactive earlier row later hrest hbad
      obtain ⟨other, hmem, found, hfound, hactive⟩ :=
        h (line :: earlier) row later (by rw [hrest]; rfl) hbad
      rcases List.mem_cons.mp hmem with rfl | hearlier
      · rw [hread] at hfound
        exact absurd (Option.some.inj hfound ▸ hactive) hinactive
      · exact ⟨other, hearlier, found, hfound, hactive⟩
  · intro h earlier row later hrows hbad
    obtain ⟨metrics, hread, hrest⟩ := h
    cases earlier with
    | nil =>
      obtain ⟨rfl, _⟩ := List.cons.inj hrows
      rw [(readRow_eq_none_iff line).mpr hbad] at hread
      exact absurd hread (by simp)
    | cons first earlier =>
      obtain ⟨rfl, htail⟩ := List.cons.inj hrows
      rcases hrest with hactive | hrest
      · exact ⟨line, List.mem_cons_self, metrics, hread, hactive⟩
      · obtain ⟨other, hmem, hfound⟩ := hrest earlier row later htail hbad
        exact ⟨other, List.mem_cons_of_mem line hmem, hfound⟩

/-- A well-formed row in front is taken if it shows some activity, and is the latest one else. -/
theorem expectedMetrics_cons {line : Text} {metrics : Metrics} (hread : readRow line = some metrics)
    (latest : Metrics) (rest : List Text) : expectedMetrics latest (line :: rest) =
      if metrics.active then metrics else expectedMetrics metrics rest := by
  rw [expectedMetrics, List.filterMap_cons_some hread]
  cases hactive : metrics.active with
  | true => rw [List.find?_cons_of_pos hactive, if_pos rfl, Option.getD_some]
  | false =>
    rw [List.find?_cons_of_neg (ne_true_of_eq_false hactive), if_neg Bool.false_ne_true,
      List.getLast?_cons, Option.getD_some, expectedMetrics]

open Classical in
/-- The loop takes the right row if no bad one comes too early, and fails otherwise. -/
theorem scanRows_eq (latest : Metrics) (rows : List Text) : scanRows latest rows =
    if BadRowsComeLate rows then some (expectedMetrics latest rows) else none := by
  induction rows generalizing latest with
  | nil => rw [if_pos badRowsComeLate_nil]; rfl
  | cons line rest ih =>
    rw [scanRows, if_congr (badRowsComeLate_cons line rest) rfl rfl]
    cases hread : readRow line with
    | none =>
      rw [Option.bind_none, if_neg]
      intro h
      obtain ⟨metrics, hmetrics, _⟩ := h
      exact absurd hmetrics (by simp)
    | some metrics =>
      rw [Option.bind_some, expectedMetrics_cons hread]
      cases hactive : metrics.active with
      | true => rw [if_pos rfl, if_pos ⟨metrics, rfl, Or.inl hactive⟩, if_pos rfl]
      | false =>
        simp only [Option.some.injEq, exists_eq_left', hactive, Bool.false_eq_true, false_or, if_false]
        exact ih metrics

open Classical in
/-- The run ends with the right file if in no output a bad row comes too early, and fails otherwise. -/
theorem monitorGpuPerformance_eq (rounds : List Round) : monitorGpuPerformance rounds =
    if ∀ round ∈ rounds, BadRowsComeLate (dcgmRows round.output) then some (expectedFile rounds)
    else none := by
  have hrow : ∀ round : Round, (getDcgmMetrics round.output).map (performanceRow round.elapsedTime) =
      if BadRowsComeLate (dcgmRows round.output) then
        some (performanceRow round.elapsedTime (expectedMetrics noMetrics (dcgmRows round.output)))
      else none := by
    intro round
    rw [getDcgmMetrics, scanRows_eq]
    by_cases hlate : BadRowsComeLate (dcgmRows round.output)
    · rw [if_pos hlate, if_pos hlate, Option.map_some]
    · rw [if_neg hlate, if_neg hlate, Option.map_none]
  rw [monitorGpuPerformance, funext hrow, mapM_ite]
  by_cases hlate : ∀ round ∈ rounds, BadRowsComeLate (dcgmRows round.output)
  · rw [if_pos hlate, if_pos hlate]
    rfl
  · rw [if_neg hlate, if_neg hlate]
    rfl

/-- The run ends with one row for every round, taken from the first row of its output with some
activity or else from the last well-formed one, exactly if in no output a bad row comes before the
first row with some activity. -/
theorem monitorGpuPerformance_expected_iff (rounds : List Round) :
    monitorGpuPerformance rounds = some (expectedFile rounds) ↔
      ∀ round ∈ rounds, BadRowsComeLate (dcgmRows round.output) := by
  rw [monitorGpuPerformance_eq]
  by_cases hlate : ∀ round ∈ rounds, BadRowsComeLate (dcgmRows round.output)
  · exact iff_of_true (if_pos hlate) hlate
  · rw [if_neg hlate]
    exact iff_of_false (by simp) hlate

/-- An output whose row has no number in one column. -/
def faultyOutput : Text := "#Entity\nID\nGPU 0 0 N/A 0 0.9 1410 65 0.1".toList

/-- One row without a number costs the round before it as well. -/
theorem monitorGpuPerformance_loses :
    ¬ ∀ rounds : List Round, monitorGpuPerformance rounds = some (expectedFile rounds) := by
  intro hevery
  have hfile := hevery [⟨1, "#Entity\nID\nGPU 0 0 0.5 0 0.9 1410 65 0.1".toList⟩, ⟨2, faultyOutput⟩]
  have hfaulty : getDcgmMetrics faultyOutput = none := by decide
  have hbad : ¬ BadRowsComeLate (dcgmRows faultyOutput) := by
    intro hlate
    rw [getDcgmMetrics, scanRows_eq, if_pos hlate] at hfaulty
    exact absurd hfaulty (by simp)
  rw [monitorGpuPerformance_eq, if_neg] at hfile
  · exact absurd hfile (by simp)
  · intro hlate
    exact hbad (hlate ⟨2, faultyOutput⟩ (List.mem_cons_of_mem _ List.mem_cons_self))

end NodePower.Gpu
