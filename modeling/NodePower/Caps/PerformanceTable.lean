import Mathlib.Data.Prod.Lex
import NodePower.Caps.Files
import NodePower.Common.Columns

/-!
# The table of performance under power caps

The last processing step of `power_motif.ipynb` goes through the files of an application in the
order in which the directory lists them, averages the first fifth of the metrics, takes the runtime from
the end of the power file, and scales the columns by their greatest or least numbers. The rows are
sorted by the caps in the end.

The quotient of zero by zero is a missing number, and missing numbers become zeros before the table is
written. Rounding is not modelled.
-/

namespace NodePower.Caps

/-- The columns that are averages. -/
inductive Metric where
  | ips
  | memoryThroughput
  | llcMisses
  | smClock
  | dramActive
  | fpActive
  deriving DecidableEq

/-- A row of the table. -/
structure PerformanceRow where
  cpuPowerCap : ℤ
  gpuPowerCap : ℤ
  metric : Metric → Option ℚ≥0
  performance : Option ℚ

/-- The caps of a row, by which the rows are sorted. -/
def PerformanceRow.caps (row : PerformanceRow) : ℤ ×ₗ ℤ := toLex (row.cpuPowerCap, row.gpuPowerCap)

/-- The sum of two numbers, which is missing if one of them is. -/
def addCells (x y : Option ℚ≥0) : Option ℚ≥0 := do return (← x) + (← y)

/-- `first_n`: a fifth of the rows, or one row. -/
def firstRows (n : ℕ) : ℕ := if n / 5 = 0 then 1 else n / 5

/-- The averages over the first rows of the metrics files. -/
def averages (dfCpuMetrics : List (Timed CpuMetrics)) (dfGpuMetrics : List (Timed GpuMetrics)) :
    Metric → Option ℚ≥0 :=
  let firstN := firstRows dfCpuMetrics.length
  let dfCpuSubset := (dfCpuMetrics.take firstN).map Timed.columns
  let dfGpuSubset := (dfGpuMetrics.take firstN).map Timed.columns
  fun
  | .ips => mean (dfCpuSubset.map CpuMetrics.ips)
  | .memoryThroughput => mean (dfCpuSubset.map CpuMetrics.memoryThroughput)
  | .llcMisses => mean (dfCpuSubset.map CpuMetrics.llcMisses)
  | .smClock => mean (dfGpuSubset.map GpuMetrics.smClock)
  | .dramActive => mean (dfGpuSubset.map GpuMetrics.dramActive)
  | .fpActive => addCells (addCells (mean (dfGpuSubset.map GpuMetrics.fp16Active))
      (mean (dfGpuSubset.map GpuMetrics.fp32Active))) (mean (dfGpuSubset.map GpuMetrics.fp64Active))

/-- The last time of a power file. -/
def runtime (dfCpuPower : List (Timed CpuPower)) : Option ℚ := dfCpuPower.getLast?.map Timed.time

/-- The rows of a GPU file; without the file all averages are missing, as they are without rows. -/
def gpuRows (dir : Directory) (name : Text) : Option (List (Timed GpuMetrics)) :=
  if name ∈ dir then dir.readGpuMetrics name else some []

/-- The runtime in a power file, which is missing without the file. A file without rows has no last one. -/
def fileRuntime (dir : Directory) (name : Text) : Option (Option ℚ) :=
  if name ∈ dir then ((dir.readCpuPower name).bind runtime).map some else some none

/-- What the loop appends for a file name. An exception is `none`. -/
def measureFile (dir : Directory) (filename : Text) : Option PerformanceRow := do
  let (cpuPowerCap, gpuPowerCap) ← capParts filename
  let dfCpuMetrics ← dir.readCpuMetrics filename
  let dfGpuMetrics ← gpuRows dir (capFileName cpuPowerCap gpuPowerCap .gpuMetrics)
  let performance ← fileRuntime dir (capFileName cpuPowerCap gpuPowerCap .cpuPower)
  return {
    cpuPowerCap := ← pyInt cpuPowerCap
    gpuPowerCap := ← pyInt gpuPowerCap
    metric := averages dfCpuMetrics dfGpuMetrics
    performance := performance }

/-- The column of a metric. -/
def column (dfOutput : List PerformanceRow) (metric : Metric) : List (Option ℚ≥0) :=
  dfOutput.map fun row => row.metric metric

/-- A cell by the greatest number of its column. -/
def shareOfMax (cells : List (Option ℚ≥0)) (cell : Option ℚ≥0) : Option ℚ≥0 := do
  let most ← columnMax cells
  if most = 0 then none else return (← cell) / most

/-- A cell by the greatest number of its column, with a safeguard. -/
def guardedShareOfMax (cells : List (Option ℚ≥0)) (cell : Option ℚ≥0) : Option ℚ≥0 :=
  match columnMax cells with
  | none => some 0
  | some most => if most = 0 then some 0 else cell.map (· / most)

/-- The least number of a column by a cell, if it is positive. -/
def guardedMinOver {K : Type} [LinearOrder K] [Zero K] [Div K] (cells : List (Option K))
    (cell : Option K) : Option K :=
  match columnMin cells with
  | none => cell
  | some least => if 0 < least then cell.map (least / ·) else cell

/-- How the cells of each column are scaled. -/
def scaled (dfOutput : List PerformanceRow) (row : PerformanceRow) : PerformanceRow where
  cpuPowerCap := row.cpuPowerCap
  gpuPowerCap := row.gpuPowerCap
  metric
    | .ips => shareOfMax (column dfOutput .ips) (row.metric .ips)
    | .memoryThroughput =>
      shareOfMax (column dfOutput .memoryThroughput) (row.metric .memoryThroughput)
    | .llcMisses => guardedMinOver (column dfOutput .llcMisses) (row.metric .llcMisses)
    | .smClock => guardedShareOfMax (column dfOutput .smClock) (row.metric .smClock)
    | .dramActive => guardedShareOfMax (column dfOutput .dramActive) (row.metric .dramActive)
    | .fpActive => guardedShareOfMax (column dfOutput .fpActive) (row.metric .fpActive)
  performance := guardedMinOver (dfOutput.map PerformanceRow.performance) row.performance

/-- `fillna(0)` in a row. -/
def fillna (row : PerformanceRow) : PerformanceRow where
  cpuPowerCap := row.cpuPowerCap
  gpuPowerCap := row.gpuPowerCap
  metric metric := some ((row.metric metric).getD 0)
  performance := some (row.performance.getD 0)

/-- The table of the rows that the loop has appended. -/
def finishTable (performanceData : List PerformanceRow) : List PerformanceRow :=
  sortByKey PerformanceRow.caps (performanceData.map fun row => fillna (scaled performanceData row))

/-- The table for the directory of an application. No file is written if it has no rows. -/
def performanceTable (dir : Directory) : Option (List PerformanceRow) := do
  let filenames := dir.keys.filter fun filename => Kind.cpuMetrics.suffix <:+ filename
  return finishTable (← filenames.mapM (measureFile dir))

/-- What the loop appends for the files of a pair of caps. -/
def measuredRow (measured : ℕ × ℕ → CapFiles) (pair : ℕ × ℕ) : PerformanceRow where
  cpuPowerCap := pair.1
  gpuPowerCap := pair.2
  metric := averages (measured pair).cpuMetrics (measured pair).gpuMetrics
  performance := runtime (measured pair).cpuPower

/-- The name of the file for which the loop appends a row. -/
def metricsFileName (pair : ℕ × ℕ) : Text :=
  capFileName (capTexts pair).1 (capTexts pair).2 .cpuMetrics

/-- Only the names of CPU metrics files end like them. -/
theorem suffix_capFileName_iff {cpuPower gpuPower : Text} {kind : Kind} :
    Kind.cpuMetrics.suffix <:+ capFileName cpuPower gpuPower kind ↔ kind = .cpuMetrics := by
  have hown : kind.suffix <:+ capFileName cpuPower gpuPower kind :=
    ⟨cpuPower ++ '_' :: gpuPower, by simp [capFileName]⟩
  constructor
  · intro hends
    have hnested := List.suffix_or_suffix_of_suffix hends hown
    cases kind with
    | cpuMetrics => rfl
    | cpuPower => exact absurd hnested (by decide)
    | gpuMetrics => exact absurd hnested (by decide)
  · rintro rfl
    exact hown

/-- The names of the files tell the pairs of caps. -/
theorem metricsFileName_injective : Function.Injective metricsFileName := by
  intro pair other h
  obtain ⟨hcpu, hgpu, -⟩ := capFileName_inj (not_mem_capTexts pair).1 (not_mem_capTexts pair).2
    (not_mem_capTexts other).1 (not_mem_capTexts other).2 h
  exact capTexts_injective (Prod.ext hcpu hgpu)

/-- How cells are scaled does not depend on the order of the rows. -/
theorem scaled_of_perm {dfOutput others : List PerformanceRow} (h : dfOutput.Perm others) :
    scaled dfOutput = scaled others := by
  have hcolumn : ∀ metric, (column dfOutput metric).Perm (column others metric) :=
    fun metric => h.map _
  have hmax : ∀ metric, columnMax (column dfOutput metric) = columnMax (column others metric) :=
    fun metric => columnMax_of_perm (hcolumn metric)
  have hmin : ∀ metric, columnMin (column dfOutput metric) = columnMin (column others metric) :=
    fun metric => columnMin_of_perm (hcolumn metric)
  have hperformance : columnMin (dfOutput.map PerformanceRow.performance) =
      columnMin (others.map PerformanceRow.performance) := columnMin_of_perm (h.map _)
  funext row
  simp only [scaled, shareOfMax, guardedShareOfMax, guardedMinOver, hmax, hmin, hperformance]

/-- The table of rows with different caps does not depend on the order in which they are appended. -/
theorem finishTable_of_perm {performanceData others : List PerformanceRow}
    (h : performanceData.Perm others) (hcaps : (performanceData.map PerformanceRow.caps).Nodup) :
    finishTable performanceData = finishTable others := by
  rw [finishTable, finishTable, scaled_of_perm h]
  refine sortByKey_eq_of_perm (h.map _) ?_
  rw [List.map_map]
  exact hcaps

/-- The greatest number of a column, or zero if it has none. -/
def greatest (cells : List (Option ℚ≥0)) : ℚ≥0 := (columnMax cells).getD 0

/-- Both ways to take a share of the greatest number come to the same when the missing numbers are
filled. -/
theorem shareOfMax_getD {cells : List (Option ℚ≥0)} {cell : Option ℚ≥0} (hcell : cell ∈ cells) :
    (shareOfMax cells cell).getD 0 = cell.getD 0 / greatest cells ∧
      (guardedShareOfMax cells cell).getD 0 = cell.getD 0 / greatest cells := by
  cases hmost : columnMax cells with
  | none =>
    have hmissing : cell = none := by
      rw [Option.eq_none_iff_forall_ne_some]
      rintro x rfl
      exact columnMax_eq_none_iff.mp hmost x hcell
    simp [shareOfMax, guardedShareOfMax, greatest, hmost, hmissing]
  | some most =>
    by_cases hzero : most = 0
    · simp [shareOfMax, guardedShareOfMax, greatest, hmost, hzero]
    · cases cell with
      | none => simp [shareOfMax, guardedShareOfMax, greatest, hmost, hzero]
      | some x => simp [shareOfMax, guardedShareOfMax, greatest, hmost, hzero]

/-- No number of a column over items exceeds the greatest one, which is zero or stands in the column. -/
theorem greatest_map_spec {I : Type} (cellOf : I → Option ℚ≥0) (items : List I) :
    (∀ item ∈ items, (cellOf item).getD 0 ≤ greatest (items.map cellOf)) ∧
      (greatest (items.map cellOf) = 0 ∨
        ∃ item ∈ items, (cellOf item).getD 0 = greatest (items.map cellOf)) := by
  cases hmost : columnMax (items.map cellOf) with
  | none =>
    simp only [greatest, hmost, Option.getD_none]
    refine ⟨fun item hitem => ?_, Or.inl trivial⟩
    cases hcell : cellOf item with
    | none => exact le_rfl
    | some x =>
      exact absurd (List.mem_map.mpr ⟨item, hitem, hcell⟩) (columnMax_eq_none_iff.mp hmost x)
  | some most =>
    obtain ⟨hmem, hle⟩ := columnMax_eq_some_iff.mp hmost
    simp only [greatest, hmost, Option.getD_some]
    refine ⟨fun item hitem => ?_, Or.inr ?_⟩
    · cases hcell : cellOf item with
      | none => exact bot_le
      | some x => exact hle x (List.mem_map.mpr ⟨item, hitem, hcell⟩)
    · obtain ⟨item, hitem, hcell⟩ := List.mem_map.mp hmem
      exact ⟨item, hitem, by rw [hcell, Option.getD_some]⟩

section Sweep

variable {cpuCaps gpuCaps : List ℕ} {measured : ℕ × ℕ → CapFiles} {dir : Directory}

/-- The file names for which the loop appends rows, in some order. -/
theorem filenames_perm (hcpu : cpuCaps.Nodup) (hgpu : gpuCaps.Nodup)
    (hdir : dir.entries.Perm (runBenchmark cpuCaps gpuCaps measured).entries) :
    (dir.keys.filter fun filename => Kind.cpuMetrics.suffix <:+ filename).Perm
      ((cpuCaps ×ˢ gpuCaps).map metricsFileName) := by
  rw [List.perm_ext_iff_of_nodup (dir.keys_nodup.filter _)
    ((hcpu.product hgpu).map metricsFileName_injective)]
  intro filename
  rw [List.mem_filter, decide_eq_true_eq, ← AList.mem_keys, ← AList.lookup_isSome,
    AList.perm_lookup hdir, Option.isSome_iff_exists, List.mem_map]
  simp only [lookup_runBenchmark]
  constructor
  · rintro ⟨⟨content, pair, hpair, kind, rfl, -⟩, hends⟩
    obtain rfl := suffix_capFileName_iff.mp hends
    exact ⟨pair, hpair, rfl⟩
  · rintro ⟨pair, hpair, rfl⟩
    exact ⟨⟨_, pair, hpair, .cpuMetrics, rfl, rfl⟩, suffix_capFileName_iff.mpr rfl⟩

/-- What the loop appends for a file of the experiments. -/
theorem measureFile_metricsFileName
    (hdir : dir.entries.Perm (runBenchmark cpuCaps gpuCaps measured).entries) {pair : ℕ × ℕ}
    (hpair : pair ∈ cpuCaps ×ˢ gpuCaps) (hpower : (measured pair).cpuPower ≠ []) :
    measureFile dir (metricsFileName pair) = some (measuredRow measured pair) := by
  have hlookup := lookup_of_perm hdir hpair
  have hmem := mem_of_perm hdir hpair
  obtain ⟨last, hlast⟩ : ∃ last, runtime (measured pair).cpuPower = some last :=
    ⟨_, by rw [runtime, List.getLast?_eq_some_getLast hpower, Option.map_some]⟩
  have hmetrics : dir.readCpuMetrics (metricsFileName pair) = some (measured pair).cpuMetrics := by
    rw [Directory.readCpuMetrics, metricsFileName, hlookup]
    rfl
  have hgpu : gpuRows dir (capFileName (capTexts pair).1 (capTexts pair).2 .gpuMetrics) =
      some (measured pair).gpuMetrics := by
    rw [gpuRows, if_pos (hmem _), Directory.readGpuMetrics, hlookup]
    rfl
  have hruntime : fileRuntime dir (capFileName (capTexts pair).1 (capTexts pair).2 .cpuPower) =
      some (some last) := by
    rw [fileRuntime, if_pos (hmem _), Directory.readCpuPower, hlookup]
    simp only [CapFiles.file, Option.bind_some, hlast, Option.map_some]
  have hparts : capParts (metricsFileName pair) = some (capTexts pair) :=
    capParts_capFileName (not_mem_capTexts pair).1 (not_mem_capTexts pair).2 .cpuMetrics
  have hcpuCap : pyInt (capTexts pair).1 = some (pair.1 : ℤ) := pyInt_toDigits pair.1
  have hgpuCap : pyInt (capTexts pair).2 = some (pair.2 : ℤ) := pyInt_toDigits pair.2
  simp only [measureFile, hparts, hmetrics, hgpu, hruntime, hcpuCap, hgpuCap, Option.bind_eq_bind,
    Option.bind_some, Option.pure_def, measuredRow, hlast]

variable (measured) in
/-- A row of the table belongs to a pair of caps: every column but that of the cache misses holds the share
that the own average has of the greatest one, the cache misses hold the least average by the own one, and
the performance is the least runtime by the own one. A missing average counts as zero. If what is least
is not positive, the column holds the own averages and runtimes themselves. -/
structure OwnRow (pairs : List (ℕ × ℕ)) (pair : ℕ × ℕ) (row : PerformanceRow) : Prop where
  cpuPowerCap : row.cpuPowerCap = pair.1
  gpuPowerCap : row.gpuPowerCap = pair.2
  share : ∀ metric ≠ Metric.llcMisses, ∃ most,
    (∀ other ∈ pairs, ((measuredRow measured other).metric metric).getD 0 ≤ most) ∧
    (most = 0 ∨ ∃ other ∈ pairs, ((measuredRow measured other).metric metric).getD 0 = most) ∧
    row.metric metric = some (((measuredRow measured pair).metric metric).getD 0 / most)
  llcMisses : ∀ least, 0 < least →
    IsLeast {x | ∃ other ∈ pairs, (measuredRow measured other).metric .llcMisses = some x} least →
      row.metric .llcMisses = some (least / ((measuredRow measured pair).metric .llcMisses).getD 0)
  llcMisses_unscaled :
    (∀ least, 0 < least →
      ¬IsLeast {x | ∃ other ∈ pairs, (measuredRow measured other).metric .llcMisses = some x} least) →
        row.metric .llcMisses = some (((measuredRow measured pair).metric .llcMisses).getD 0)
  performance : ∀ fastest, 0 < fastest →
    IsLeast {t | ∃ other ∈ pairs, runtime (measured other).cpuPower = some t} fastest →
      row.performance = some (fastest / (runtime (measured pair).cpuPower).getD 0)
  performance_unscaled :
    (∀ fastest, 0 < fastest →
      ¬IsLeast {t | ∃ other ∈ pairs, runtime (measured other).cpuPower = some t} fastest) →
        row.performance = some ((runtime (measured pair).cpuPower).getD 0)

/-- The least number of a column over items. -/
theorem columnMin_map_eq_some_iff {I K : Type} [LinearOrder K] {cellOf : I → Option K} {items : List I}
    {least : K} : columnMin (items.map cellOf) = some least ↔
      IsLeast {x | ∃ item ∈ items, cellOf item = some x} least := by
  rw [columnMin_eq_some_iff, List.mem_map]
  refine and_congr_right fun _ => ?_
  constructor
  · rintro hlower x ⟨item, hitem, hcell⟩
    exact hlower x (List.mem_map.mpr ⟨item, hitem, hcell⟩)
  · intro hlower x hx
    obtain ⟨other, hother, hcell⟩ := List.mem_map.mp hx
    exact hlower ⟨other, hother, hcell⟩

/-- The quotient of a positive least number by a cell when the missing numbers are filled. -/
theorem guardedMinOver_getD {K : Type} [LinearOrder K] [DivisionSemiring K] {cells : List (Option K)}
    {cell : Option K} {least : K} (hleast : columnMin cells = some least) (hpos : 0 < least) :
    (guardedMinOver cells cell).getD 0 = least / cell.getD 0 := by
  cases cell with
  | none => simp [guardedMinOver, hleast, hpos]
  | some x => simp [guardedMinOver, hleast, hpos]

/-- Without a positive least number the cells of a column are kept. -/
theorem guardedMinOver_of_not_pos {I K : Type} [LinearOrder K] [DivisionSemiring K] {cellOf : I → Option K}
    {items : List I}
    (hnone : ∀ least, 0 < least → ¬IsLeast {x | ∃ item ∈ items, cellOf item = some x} least)
    (cell : Option K) : guardedMinOver (items.map cellOf) cell = cell := by
  cases hmin : columnMin (items.map cellOf) with
  | none => simp [guardedMinOver, hmin]
  | some least =>
    have hpos : ¬0 < least := fun hpos => hnone least hpos (columnMin_map_eq_some_iff.mp hmin)
    simp [guardedMinOver, hmin, hpos]

/-- The columns of the rows that the loop has appended. -/
theorem column_map (pairs : List (ℕ × ℕ)) (metric : Metric) :
    column (pairs.map (measuredRow measured)) metric =
      pairs.map fun pair => (measuredRow measured pair).metric metric := by
  rw [column, List.map_map]
  rfl

/-- The runtimes of the rows that the loop has appended. -/
theorem performance_map (pairs : List (ℕ × ℕ)) :
    (pairs.map (measuredRow measured)).map PerformanceRow.performance =
      pairs.map fun pair => runtime (measured pair).cpuPower := by
  rw [List.map_map]
  rfl

/-- The scaled and filled row of a pair is its own. -/
theorem ownRow_scaled {pairs : List (ℕ × ℕ)} {pair : ℕ × ℕ} (hpair : pair ∈ pairs) :
    OwnRow measured pairs pair
      (fillna (scaled (pairs.map (measuredRow measured)) (measuredRow measured pair))) where
  cpuPowerCap := rfl
  gpuPowerCap := rfl
  share metric hmetric := by
    obtain ⟨hle, hattained⟩ :=
      greatest_map_spec (fun other => (measuredRow measured other).metric metric) pairs
    have hmem : (measuredRow measured pair).metric metric ∈
        pairs.map fun other => (measuredRow measured other).metric metric :=
      List.mem_map.mpr ⟨pair, hpair, rfl⟩
    obtain ⟨hshare, hguarded⟩ := shareOfMax_getD hmem
    refine ⟨_, hle, hattained, ?_⟩
    rw [← column_map] at hshare hguarded ⊢
    cases metric with
    | llcMisses => exact absurd rfl hmetric
    | ips => exact congrArg some hshare
    | memoryThroughput => exact congrArg some hshare
    | smClock => exact congrArg some hguarded
    | dramActive => exact congrArg some hguarded
    | fpActive => exact congrArg some hguarded
  llcMisses least hpos hleast := by
    have hmin := columnMin_map_eq_some_iff.mpr hleast
    rw [← column_map] at hmin
    exact congrArg some (guardedMinOver_getD hmin hpos)
  llcMisses_unscaled hnone := by
    have hkept := guardedMinOver_of_not_pos hnone ((measuredRow measured pair).metric .llcMisses)
    rw [← column_map] at hkept
    exact congrArg (fun cell => some (cell.getD 0)) hkept
  performance fastest hpos hfastest := by
    have hmin := columnMin_map_eq_some_iff.mpr hfastest
    rw [← performance_map] at hmin
    exact congrArg some (guardedMinOver_getD hmin hpos)
  performance_unscaled hnone := by
    have hkept := guardedMinOver_of_not_pos hnone (runtime (measured pair).cpuPower)
    rw [← performance_map] at hkept
    exact congrArg (fun cell => some (cell.getD 0)) hkept

/-- The caps of the rows that the loop appends tell the pairs of caps. -/
theorem nodup_caps (hcpu : cpuCaps.Nodup) (hgpu : gpuCaps.Nodup) :
    (((cpuCaps ×ˢ gpuCaps).map (measuredRow measured)).map PerformanceRow.caps).Nodup := by
  rw [List.map_map]
  refine (hcpu.product hgpu).map ?_
  intro pair other h
  have hcaps := congrArg ofLex h
  simp only [Function.comp_apply, PerformanceRow.caps, measuredRow, ofLex_toLex, Prod.mk.injEq,
    Nat.cast_inj] at hcaps
  exact Prod.ext hcaps.1 hcaps.2

/-- The table for a directory that lists the files of the experiments in some order. -/
theorem performanceTable_eq (hcpu : cpuCaps.Nodup) (hgpu : gpuCaps.Nodup)
    (hpower : ∀ pair ∈ cpuCaps ×ˢ gpuCaps, (measured pair).cpuPower ≠ [])
    (hdir : dir.entries.Perm (runBenchmark cpuCaps gpuCaps measured).entries) :
    performanceTable dir = some (finishTable ((cpuCaps ×ˢ gpuCaps).map (measuredRow measured))) := by
  have hgrid : ((cpuCaps ×ˢ gpuCaps).map metricsFileName).mapM (measureFile dir) =
      some ((cpuCaps ×ˢ gpuCaps).map (measuredRow measured)) := by
    rw [List.mapM_map]
    exact mapM_eq_some_map fun pair hpair => measureFile_metricsFileName hdir hpair (hpower pair hpair)
  obtain ⟨performanceData, hdata, hperm⟩ := exists_mapM_of_perm (filenames_perm hcpu hgpu hdir) hgrid
  have hnodup : (performanceData.map PerformanceRow.caps).Nodup :=
    (hperm.map _).nodup_iff.mpr (nodup_caps hcpu hgpu)
  simp only [performanceTable, hdata, Option.bind_eq_bind, Option.bind_some, Option.pure_def]
  rw [finishTable_of_perm hperm hnodup]

/-- Every pair of caps has its own row. -/
theorem exists_ownRow {pairs : List (ℕ × ℕ)} {pair : ℕ × ℕ} (hpair : pair ∈ pairs) :
    ∃ row ∈ finishTable (pairs.map (measuredRow measured)), OwnRow measured pairs pair row :=
  ⟨_, (sortByKey_perm _ _).mem_iff.mpr (List.mem_map_of_mem (List.mem_map_of_mem hpair)),
    ownRow_scaled hpair⟩

/-- Every row belongs to a pair of caps. -/
theorem exists_pair_of_row {pairs : List (ℕ × ℕ)} {row : PerformanceRow}
    (hrow : row ∈ finishTable (pairs.map (measuredRow measured))) :
    ∃ pair ∈ pairs, OwnRow measured pairs pair row := by
  obtain ⟨raw, hraw, rfl⟩ := List.mem_map.mp ((sortByKey_perm _ _).mem_iff.mp hrow)
  obtain ⟨pair, hpair, rfl⟩ := List.mem_map.mp hraw
  exact ⟨pair, hpair, ownRow_scaled hpair⟩

variable (measured) in
/-- The table of an application after the experiments is the same in whatever order the directory lists
the files. Its caps ascend, and it has a row for every pair of caps, made of the files of this pair. -/
theorem performanceTable_runBenchmark (hcpu : cpuCaps.Nodup) (hgpu : gpuCaps.Nodup)
    (hpower : ∀ pair ∈ cpuCaps ×ˢ gpuCaps, (measured pair).cpuPower ≠ []) :
    ∃ rows,
      (∀ dir : Directory, dir.entries.Perm (runBenchmark cpuCaps gpuCaps measured).entries →
        performanceTable dir = some rows) ∧
      (rows.map PerformanceRow.caps).Pairwise (· < ·) ∧
      (∀ pair ∈ cpuCaps ×ˢ gpuCaps, ∃ row ∈ rows, OwnRow measured (cpuCaps ×ˢ gpuCaps) pair row) ∧
      ∀ row ∈ rows, ∃ pair ∈ cpuCaps ×ˢ gpuCaps, OwnRow measured (cpuCaps ×ˢ gpuCaps) pair row := by
  refine ⟨finishTable ((cpuCaps ×ˢ gpuCaps).map (measuredRow measured)), ?_, ?_, ?_, ?_⟩
  · intro dir hdir
    exact performanceTable_eq hcpu hgpu hpower hdir
  · refine sortByKey_strict ?_
    rw [List.map_map]
    exact nodup_caps hcpu hgpu
  · intro pair hpair
    exact exists_ownRow hpair
  · intro row hrow
    exact exists_pair_of_row hrow

end Sweep

/-- `cpu_caps` of `exp_power_cap.py`. -/
def experimentCpuCaps : List ℕ := [200, 190, 180, 170, 160, 150, 140]

/-- `gpu_caps` of `exp_power_cap.py`. -/
def experimentGpuCaps : List ℕ := [250, 240, 230, 220, 210, 200, 190, 180, 170, 160, 150]

/-- A runtime that grows with what the caps lack. -/
def cappedTime (pair : ℕ × ℕ) : ℚ := 1000 - pair.1 - pair.2

/-- Measurements with one row in each file. -/
def cappedRun (pair : ℕ × ℕ) : CapFiles where
  cpuPower := [⟨cappedTime pair, ⟨some pair.1, some 30⟩⟩]
  cpuMetrics := [⟨0, ⟨some pair.1, some pair.1, some 1⟩⟩]
  gpuMetrics := [⟨0, ⟨some pair.2, some 1, some 0, some 1, some 0, some pair.2⟩⟩]

/-- The table of the experiments with the caps of the script. -/
theorem performanceTable_runBenchmark_capped :
    ∃ rows,
      (∀ dir : Directory,
        dir.entries.Perm (runBenchmark experimentCpuCaps experimentGpuCaps cappedRun).entries →
          performanceTable dir = some rows) ∧
      (rows.map PerformanceRow.caps).Pairwise (· < ·) ∧
      (∀ pair ∈ experimentCpuCaps ×ˢ experimentGpuCaps, ∃ row ∈ rows,
        OwnRow cappedRun (experimentCpuCaps ×ˢ experimentGpuCaps) pair row) ∧
      ∀ row ∈ rows, ∃ pair ∈ experimentCpuCaps ×ˢ experimentGpuCaps,
        OwnRow cappedRun (experimentCpuCaps ×ˢ experimentGpuCaps) pair row :=
  performanceTable_runBenchmark cappedRun (by decide) (by decide) fun _ _ => List.cons_ne_nil _ _

end NodePower.Caps
