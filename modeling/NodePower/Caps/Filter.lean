import Mathlib.Algebra.Order.Group.Abs
import Mathlib.Data.List.MinMax
import Mathlib.Data.NNRat.Defs
import Mathlib.Tactic.Linarith
import NodePower.Caps.Files

/-!
# Cutting the idle start off the measurements

`filter.ipynb` looks for the first rows of a GPU file in which the floating-point units stay active, drops
what is before, and counts the times from there. The two CPU files of the same caps are cut at their rows
whose times are nearest to that. Files without activity are passed over, and a missing file ends
the whole run.
-/

namespace NodePower.Caps

variable {Columns : Type}

/-- `count` for an application. -/
def activeCount (appName : String) : ℕ :=
  if appName = "UNet" then 5
  else if appName = "gromacs" then 1
  else if appName = "miniGAN" then 1
  else 15

/-- `fp_active` in one row. -/
def fpActive (row : GpuMetrics) : Option ℚ≥0 := do
  return (← row.fp16Active) + (← row.fp32Active) + (← row.fp64Active)

/-- Whether `fp_active` is positive; a missing number is not. -/
def isActive (row : Timed GpuMetrics) : Bool := (fpActive row.columns).any (0 < ·)

/-- Whether the rows from a position on are active, as many as are looked at. -/
def startsActivity (count : ℕ) (dfGpu : List (Timed GpuMetrics)) (i : ℕ) : Bool :=
  ((dfGpu.drop i).take count).all isActive

/-- The position at which the search for activity stops. -/
def activityStart (count : ℕ) (dfGpu : List (Timed GpuMetrics)) : Option ℕ :=
  (List.range (dfGpu.length - count - 1)).find? (startsActivity count dfGpu)

/-- A row with its time counted from an origin. -/
def Timed.since (origin : ℚ) (row : Timed Columns) : Timed Columns :=
  { row with time := row.time - origin }

/-- The rows from a position on, with their times counted from the first of them. -/
def cutFrom (rows : List (Timed Columns)) (i : ℕ) : List (Timed Columns) :=
  match rows.drop i with
  | [] => []
  | first :: rest => (first :: rest).map (Timed.since first.time)

/-- `idxmin` of the distances to a time. -/
def nearestRow (time : ℚ) (rows : List (Timed Columns)) : Option ℕ :=
  (rows.zipIdx.argmin fun row => |row.1.time - time|).map Prod.snd

/-- `process_csv_files`: the files to be written, if there is activity. An exception is `none`. -/
def processCsvFiles (appName : String) (inputDir : Directory) (cpuPower gpuPower : Text) :
    Option (Option CapFiles) := do
  let dfGpu ← inputDir.readGpuMetrics (capFileName cpuPower gpuPower .gpuMetrics)
  match activityStart (activeCount appName) dfGpu with
  | none => return none
  | some i =>
    let start ← dfGpu[i]?
    let dfCpuPower ← inputDir.readCpuPower (capFileName cpuPower gpuPower .cpuPower)
    let dfCpuMetrics ← inputDir.readCpuMetrics (capFileName cpuPower gpuPower .cpuMetrics)
    let cpuPowerStart ← nearestRow start.time dfCpuPower
    let cpuMetricsStart ← nearestRow start.time dfCpuMetrics
    return some {
      cpuPower := cutFrom dfCpuPower cpuPowerStart
      cpuMetrics := cutFrom dfCpuMetrics cpuMetricsStart
      gpuMetrics := cutFrom dfGpu i }

/-- One file name of the loop over a directory. -/
def filterFile (appName : String) (inputDir outputDir : Directory) (filename : Text) :
    Option Directory :=
  if Kind.gpuMetrics.suffix <:+: filename then do
    let (cpuPower, gpuPower) ← capParts filename
    match ← processCsvFiles appName inputDir cpuPower gpuPower with
    | none => return outputDir
    | some files => return outputDir.writeCapFiles cpuPower gpuPower files
  else some outputDir

/-- The loop over a directory, which fills a new one. -/
def filterDirectory (appName : String) (inputDir : Directory) : Option Directory :=
  inputDir.keys.foldlM (filterFile appName inputDir) ∅

/-- What is cut off is not in front of the rows any more: their times start at zero. -/
theorem exists_cutFrom_eq {rows : List (Timed Columns)} {i : ℕ} {first : Timed Columns}
    (hfirst : rows[i]? = some first) :
    ∃ rest, cutFrom rows i = first.since first.time :: rest ∧ (first.since first.time).time = 0 ∧
      cutFrom rows i = (rows.drop i).map (Timed.since first.time) := by
  obtain ⟨hi, hget⟩ := List.getElem?_eq_some_iff.mp hfirst
  have hdrop : rows.drop i = first :: rows.drop (i + 1) := by
    rw [List.drop_eq_getElem_cons hi, hget]
  refine ⟨(rows.drop (i + 1)).map (Timed.since first.time), ?_, sub_self _, ?_⟩
  · rw [cutFrom, hdrop]
    rfl
  · rw [cutFrom, hdrop]

/-- Rows whose times start at zero are not cut. -/
theorem cutFrom_zero {first : Timed Columns} {rest : List (Timed Columns)} (hfirst : first.time = 0) :
    cutFrom (first :: rest) 0 = first :: rest := by
  have hsince : Timed.since first.time = (id : Timed Columns → Timed Columns) := by
    funext row
    simp [Timed.since, hfirst]
  rw [cutFrom, List.drop_zero]
  simp only [hsince, List.map_id]

/-- Activity starts at the position at which the search stops, and enough rows are left. -/
theorem of_activityStart {count : ℕ} {dfGpu : List (Timed GpuMetrics)} {i : ℕ}
    (h : activityStart count dfGpu = some i) :
    i < dfGpu.length - count - 1 ∧ startsActivity count dfGpu i = true :=
  ⟨List.mem_range.mp (List.mem_of_find?_eq_some h), List.find?_some h⟩

/-- The search stops at once in rows that are active from the first one on. -/
theorem activityStart_eq_zero {count : ℕ} {dfGpu : List (Timed GpuMetrics)}
    (hlength : count + 1 < dfGpu.length) (hstarts : startsActivity count dfGpu 0 = true) :
    activityStart count dfGpu = some 0 := by
  obtain ⟨n, hn⟩ : ∃ n, dfGpu.length - count - 1 = n + 1 :=
    ⟨dfGpu.length - count - 2, by omega⟩
  rw [activityStart, hn, List.range_succ_eq_map, List.find?_cons_of_pos hstarts]

/-- A row with activity still has some when it is read back. -/
theorem Rereading.KeepsActivity.isActive {reread : Rereading} (hreread : reread.KeepsActivity)
    {row : Timed GpuMetrics} (hactive : isActive row = true) :
    isActive ⟨reread.number row.time, reread.gpuMetrics row.columns⟩ = true := by
  obtain ⟨active, hsum, hpos⟩ : ∃ active, fpActive row.columns = some active ∧ 0 < active := by
    cases hsum : fpActive row.columns with
    | none => simp [Caps.isActive, hsum] at hactive
    | some active => exact ⟨active, rfl, by simpa [Caps.isActive, hsum] using hactive⟩
  simp only [fpActive, Option.bind_eq_bind, Option.bind_eq_some_iff, Option.pure_def,
    Option.some.injEq] at hsum
  obtain ⟨fp16, h16, fp32, h32, fp64, h64, rfl⟩ := hsum
  have hread : fpActive (reread.gpuMetrics row.columns) =
      some (reread.share fp16 + reread.share fp32 + reread.share fp64) := by
    simp [fpActive, Rereading.gpuMetrics, h16, h32, h64]
  have hone : 0 < fp16 ∨ 0 < fp32 ∨ 0 < fp64 := by
    by_contra hnone
    simp only [not_or, not_lt, nonpos_iff_eq_zero] at hnone
    obtain ⟨rfl, rfl, rfl⟩ := hnone
    simp at hpos
  rw [Caps.isActive, hread, Option.any_some, decide_eq_true_eq]
  rcases hone with hpart | hpart | hpart
  · exact add_pos_of_pos_of_nonneg (add_pos_of_pos_of_nonneg (hreread.share_pos hpart) zero_le) zero_le
  · exact add_pos_of_pos_of_nonneg (add_pos_of_nonneg_of_pos zero_le (hreread.share_pos hpart)) zero_le
  · exact add_pos_of_nonneg_of_pos zero_le (hreread.share_pos hpart)

/-- The search stops at once in rows that are cut and read back. -/
theorem activityStart_cutFrom {reread : Rereading} (hreread : reread.KeepsActivity) {count : ℕ}
    {dfGpu : List (Timed GpuMetrics)} {i : ℕ} (h : activityStart count dfGpu = some i) :
    activityStart count (reread.rows reread.gpuMetrics (cutFrom dfGpu i)) = some 0 := by
  obtain ⟨hi, hactive⟩ := of_activityStart h
  have hlt : i < dfGpu.length := by omega
  obtain ⟨rest, -, -, hcut⟩ := exists_cutFrom_eq (List.getElem?_eq_getElem hlt)
  apply activityStart_eq_zero
  · rw [Rereading.rows, List.length_map, hcut, List.length_map, List.length_drop]
    omega
  · rw [startsActivity, List.drop_zero, Rereading.rows, hcut, ← List.map_take, ← List.map_take,
      List.all_map, List.all_map, List.all_eq_true]
    intro row hrow
    exact hreread.isActive (List.all_eq_true.mp hactive row hrow : isActive row = true)

/-- In rows that start at zero the first one is nearest to zero. -/
theorem nearestRow_zero {first : Timed Columns} {rest : List (Timed Columns)} (hfirst : first.time = 0) :
    nearestRow 0 (first :: rest) = some 0 := by
  rw [nearestRow, List.zipIdx_cons, List.argmin_cons]
  cases (rest.zipIdx (0 + 1)).argmin fun row => |row.1.time - 0| with
  | none => rfl
  | some best =>
    have hnot : ¬ |best.1.time - 0| < |first.time - 0| := by
      rw [hfirst, sub_self, abs_zero, not_lt]
      exact abs_nonneg _
    simp only [if_neg hnot, Option.map_some]

/-- The nearest row is one of the rows, and none is nearer. -/
theorem of_nearestRow {time : ℚ} {rows : List (Timed Columns)} {i : ℕ}
    (h : nearestRow time rows = some i) :
    ∃ row, rows[i]? = some row ∧ ∀ other ∈ rows, |row.time - time| ≤ |other.time - time| := by
  obtain ⟨⟨row, j⟩, hbest, rfl⟩ := Option.map_eq_some_iff.mp h
  refine ⟨row, List.mem_zipIdx_iff_getElem?.mp (List.argmin_mem hbest), fun other hother => ?_⟩
  obtain ⟨k, hk⟩ := List.mem_iff_getElem?.mp hother
  have hmem : (other, k) ∈ rows.zipIdx := List.mem_zipIdx_iff_getElem?.mpr hk
  have hle : |(row, j).1.time - time| ≤ |(other, k).1.time - time| := by
    apply List.le_of_mem_argmin hmem hbest
  exact hle

/-- The rows that are cut at the nearest one start at zero. -/
theorem exists_cutFrom_nearestRow {time : ℚ} {rows : List (Timed Columns)} {i : ℕ}
    (h : nearestRow time rows = some i) :
    ∃ first rest, cutFrom rows i = first :: rest ∧ first.time = 0 := by
  obtain ⟨row, hrow, -⟩ := of_nearestRow h
  obtain ⟨rest, hcut, hzero, -⟩ := exists_cutFrom_eq hrow
  exact ⟨row.since row.time, rest, hcut, hzero⟩

/-- Rows that start at zero still do when they are read back. -/
theorem Rereading.KeepsActivity.exists_rows_eq {reread : Rereading} (hreread : reread.KeepsActivity)
    (columns : Columns → Columns) {rows rest : List (Timed Columns)} {first : Timed Columns}
    (hrows : rows = first :: rest) (hfirst : first.time = 0) :
    ∃ head tail, reread.rows columns rows = head :: tail ∧ head.time = 0 := by
  refine ⟨_, _, by rw [hrows, Rereading.rows, List.map_cons], ?_⟩
  rw [hfirst, hreread.number_zero]

/-- What the processing of three files depends on, and what it writes. -/
theorem processCsvFiles_eq_some_iff {appName : String} {inputDir : Directory} {cpuPower gpuPower : Text}
    {files : CapFiles} :
    processCsvFiles appName inputDir cpuPower gpuPower = some (some files) ↔
      ∃ dfGpu dfCpuPower dfCpuMetrics i start j k,
        inputDir.readGpuMetrics (capFileName cpuPower gpuPower .gpuMetrics) = some dfGpu ∧
        inputDir.readCpuPower (capFileName cpuPower gpuPower .cpuPower) = some dfCpuPower ∧
        inputDir.readCpuMetrics (capFileName cpuPower gpuPower .cpuMetrics) = some dfCpuMetrics ∧
        activityStart (activeCount appName) dfGpu = some i ∧ dfGpu[i]? = some start ∧
        nearestRow start.time dfCpuPower = some j ∧ nearestRow start.time dfCpuMetrics = some k ∧
        files = ⟨cutFrom dfCpuPower j, cutFrom dfCpuMetrics k, cutFrom dfGpu i⟩ := by
  constructor
  · intro h
    rw [processCsvFiles, Option.bind_eq_bind, Option.bind_eq_some_iff] at h
    obtain ⟨dfGpu, hgpu, h⟩ := h
    cases hstart : activityStart (activeCount appName) dfGpu with
    | none =>
      rw [hstart] at h
      exact nomatch h
    | some i =>
      rw [hstart] at h
      simp only [Option.bind_eq_bind, Option.bind_eq_some_iff, Option.pure_def, Option.some.injEq] at h
      obtain ⟨start, hrow, dfCpuPower, hpower, dfCpuMetrics, hmetrics, j, hj, k, hk, rfl⟩ := h
      exact ⟨dfGpu, dfCpuPower, dfCpuMetrics, i, start, j, k, hgpu, hpower, hmetrics, hstart, hrow, hj, hk, rfl⟩
  · rintro ⟨dfGpu, dfCpuPower, dfCpuMetrics, i, start, j, k, hgpu, hpower, hmetrics, hstart, hrow, hj, hk, rfl⟩
    simp [processCsvFiles, hgpu, hpower, hmetrics, hstart, hrow, hj, hk]

/-- The files that have been written, as they are read back, are processed once more without a change. -/
theorem processCsvFiles_again {reread : Rereading} (hreread : reread.KeepsActivity) {appName : String}
    {inputDir again : Directory} {cpuPower gpuPower : Text} {files : CapFiles}
    (h : processCsvFiles appName inputDir cpuPower gpuPower = some (some files))
    (hagain : ∀ kind, again.lookup (capFileName cpuPower gpuPower kind) =
      some ((reread.capFiles files).file kind)) :
    processCsvFiles appName again cpuPower gpuPower = some (some (reread.capFiles files)) := by
  obtain ⟨dfGpu, dfCpuPower, dfCpuMetrics, i, start, j, k, -, -, -, hstart, hrow, hj, hk, rfl⟩ :=
    processCsvFiles_eq_some_iff.mp h
  obtain ⟨rest, hgpuCut, hgpuZero, -⟩ := exists_cutFrom_eq hrow
  obtain ⟨powerFirst, powerRest, hpowerCut, hpowerZero⟩ := exists_cutFrom_nearestRow hj
  obtain ⟨metricsFirst, metricsRest, hmetricsCut, hmetricsZero⟩ := exists_cutFrom_nearestRow hk
  -- Each of the files that are read back still starts at zero.
  obtain ⟨gpuHead, gpuTail, hgpu, hgpuHead⟩ := hreread.exists_rows_eq reread.gpuMetrics hgpuCut hgpuZero
  obtain ⟨powerHead, powerTail, hpower, hpowerHead⟩ :=
    hreread.exists_rows_eq reread.cpuPower hpowerCut hpowerZero
  obtain ⟨metricsHead, metricsTail, hmetrics, hmetricsHead⟩ :=
    hreread.exists_rows_eq reread.cpuMetrics hmetricsCut hmetricsZero
  rw [processCsvFiles_eq_some_iff]
  refine ⟨reread.rows reread.gpuMetrics (cutFrom dfGpu i), reread.rows reread.cpuPower (cutFrom dfCpuPower j),
    reread.rows reread.cpuMetrics (cutFrom dfCpuMetrics k), 0, gpuHead, 0, 0, ?_, ?_, ?_,
    activityStart_cutFrom hreread hstart, ?_, ?_, ?_, ?_⟩
  · rw [Directory.readGpuMetrics, hagain]
    rfl
  · rw [Directory.readCpuPower, hagain]
    rfl
  · rw [Directory.readCpuMetrics, hagain]
    rfl
  · rw [hgpu, List.getElem?_cons_zero]
  · rw [hgpuHead, hpower, nearestRow_zero hpowerHead]
  · rw [hgpuHead, hmetrics, nearestRow_zero hmetricsHead]
  · simp only [Rereading.capFiles]
    rw [hgpu, hpower, hmetrics, cutFrom_zero hgpuHead, cutFrom_zero hpowerHead, cutFrom_zero hmetricsHead]

/-- The caps of the listed files that the loop over a directory processes. -/
def listedCaps (names : List Text) : List (Text × Text) :=
  (names.filter fun filename => Kind.gpuMetrics.suffix <:+: filename).filterMap capParts

/-- The files that are written for a pair of caps, if there are any. -/
def processedFiles (appName : String) (inputDir : Directory) (pair : Text × Text) : Option CapFiles :=
  (processCsvFiles appName inputDir pair.1 pair.2).join

/-- What is written comes out of the processing. -/
theorem processedFiles_eq_some_iff {appName : String} {inputDir : Directory} {pair : Text × Text}
    {files : CapFiles} : processedFiles appName inputDir pair = some files ↔
      processCsvFiles appName inputDir pair.1 pair.2 = some (some files) := by
  rw [processedFiles, Option.join_eq_some_iff]

/-- The texts of listed caps have no underscore. -/
theorem not_mem_of_listedCaps {names : List Text} {pair : Text × Text} (h : pair ∈ listedCaps names) :
    '_' ∉ pair.1 ∧ '_' ∉ pair.2 := by
  obtain ⟨filename, -, hparts⟩ := List.mem_filterMap.mp h
  exact not_mem_of_capParts hparts

/-- One more file name: the loop goes on if the files with its caps can be processed, and then has them. -/
theorem filterFile_spec {appName : String} {inputDir outputDir : Directory} {names : List Text}
    (h : HasFiles (processedFiles appName inputDir) (listedCaps names) outputDir) (filename : Text) :
    (∀ result, filterFile appName inputDir outputDir filename = some result →
      HasFiles (processedFiles appName inputDir) (listedCaps (names ++ [filename])) result) ∧
    ((Kind.gpuMetrics.suffix <:+: filename → ∃ pair outcome, capParts filename = some pair ∧
        processCsvFiles appName inputDir pair.1 pair.2 = some outcome) →
      ∃ result, filterFile appName inputDir outputDir filename = some result) := by
  by_cases hlisted : Kind.gpuMetrics.suffix <:+: filename
  · cases hparts : capParts filename with
    | none => simp [filterFile, hlisted, hparts]
    | some pair =>
      have hcaps : listedCaps (names ++ [filename]) = listedCaps names ++ [pair] := by
        simp [listedCaps, hlisted, hparts]
      have hclean : '_' ∉ pair.1 ∧ '_' ∉ pair.2 := not_mem_of_capParts hparts
      rw [hcaps, filterFile, if_pos hlisted, hparts]
      cases hprocess : processCsvFiles appName inputDir pair.1 pair.2 with
      | none => simp [hprocess, hlisted]
      | some outcome =>
        have hfiles : processedFiles appName inputDir pair = outcome := by
          rw [processedFiles, hprocess, Option.join_some]
        cases outcome with
        | none => simp [hprocess, h.skip hfiles]
        | some files =>
          simp [hprocess, h.write (fun _ hpair => not_mem_of_listedCaps hpair) hclean hfiles]
  · have hcaps : listedCaps (names ++ [filename]) = listedCaps names := by
      simp [listedCaps, hlisted]
    rw [hcaps, filterFile, if_neg hlisted]
    exact ⟨fun result hresult => Option.some.inj hresult ▸ h, fun _ => ⟨outputDir, rfl⟩⟩

/-- The loop over a list of file names. -/
theorem foldlM_filterFile_spec (appName : String) (inputDir : Directory) (names : List Text) :
    (∀ result, names.foldlM (filterFile appName inputDir) ∅ = some result →
      HasFiles (processedFiles appName inputDir) (listedCaps names) result) ∧
    ((∀ filename ∈ names, ∃ pair outcome, capParts filename = some pair ∧
        processCsvFiles appName inputDir pair.1 pair.2 = some outcome) →
      ∃ result, names.foldlM (filterFile appName inputDir) ∅ = some result) := by
  induction names using List.reverseRecOn with
  | nil =>
    refine ⟨fun result hresult => ?_, fun _ => ⟨∅, rfl⟩⟩
    obtain rfl : ∅ = result := Option.some.inj hresult
    exact hasFiles_empty _
  | append_singleton names filename ih =>
    obtain ⟨hspec, hexists⟩ := ih
    have hloop : (names ++ [filename]).foldlM (filterFile appName inputDir) ∅ =
        (names.foldlM (filterFile appName inputDir) ∅).bind fun outputDir =>
          filterFile appName inputDir outputDir filename := by
      rw [List.foldlM_append, Option.bind_eq_bind]
      refine congrArg _ (funext fun outputDir => ?_)
      rw [List.foldlM_cons, Option.bind_eq_bind]
      exact Option.bind_fun_some _
    rw [hloop]
    constructor
    · intro result hresult
      obtain ⟨outputDir, hnames, hlast⟩ := Option.bind_eq_some_iff.mp hresult
      exact (filterFile_spec (hspec outputDir hnames) filename).1 result hlast
    · intro hall
      obtain ⟨outputDir, hnames⟩ := hexists fun name hname => hall name (List.mem_append_left _ hname)
      obtain ⟨result, hlast⟩ := (filterFile_spec (hspec outputDir hnames) filename).2
        fun _ => hall filename (List.mem_append_right _ List.mem_cons_self)
      exact ⟨result, by rw [hnames, Option.bind_some, hlast]⟩

/-- The caps that are listed are those of the files that there are. -/
theorem HasFiles.mem_listedCaps_iff {filesOf : Text × Text → Option CapFiles} {caps : List (Text × Text)}
    {dir : Directory} (h : HasFiles filesOf caps dir) (hcaps : ∀ pair ∈ caps, '_' ∉ pair.1 ∧ '_' ∉ pair.2)
    {pair : Text × Text} : pair ∈ listedCaps dir.keys ↔ pair ∈ caps ∧ ∃ files, filesOf pair = some files := by
  rw [listedCaps, List.mem_filterMap]
  constructor
  · rintro ⟨filename, hlisted, hparts⟩
    obtain ⟨own, hown, files, kind, hfiles, rfl⟩ := h.exists_of_mem (List.mem_of_mem_filter hlisted)
    obtain ⟨hcpu, hgpu⟩ := hcaps own hown
    obtain rfl := Option.some.inj ((capParts_capFileName hcpu hgpu kind).symm.trans hparts)
    exact ⟨hown, files, hfiles⟩
  · rintro ⟨hpair, files, hfiles⟩
    obtain ⟨hcpu, hgpu⟩ := hcaps pair hpair
    have hname : capFileName pair.1 pair.2 .gpuMetrics ∈ dir.keys := by
      rw [← AList.mem_keys, ← AList.lookup_isSome, h.lookup hpair hfiles]
      rfl
    have hsuffix : Kind.gpuMetrics.suffix <:+: capFileName pair.1 pair.2 .gpuMetrics :=
      ⟨pair.1 ++ '_' :: pair.2, [], by simp [capFileName]⟩
    exact ⟨_, List.mem_filter.mpr ⟨hname, decide_eq_true hsuffix⟩, capParts_capFileName hcpu hgpu _⟩

/-- The filter goes through a directory if it can process the files of every pair of caps in it. -/
theorem exists_filterDirectory {appName : String} {filesOf : Text × Text → Option CapFiles}
    {caps : List (Text × Text)} {dir : Directory} (h : HasFiles filesOf caps dir)
    (hcaps : ∀ pair ∈ caps, '_' ∉ pair.1 ∧ '_' ∉ pair.2)
    (hprocess : ∀ pair ∈ caps, ∀ files, filesOf pair = some files →
      ∃ outcome, processCsvFiles appName dir pair.1 pair.2 = some outcome) :
    ∃ filtered, filterDirectory appName dir = some filtered ∧
      HasFiles (processedFiles appName dir) (listedCaps dir.keys) filtered := by
  obtain ⟨hspec, hexists⟩ := foldlM_filterFile_spec appName dir dir.keys
  obtain ⟨filtered, hfiltered⟩ := hexists fun filename hfilename => by
    obtain ⟨pair, hpair, files, kind, hfiles, rfl⟩ := h.exists_of_mem hfilename
    obtain ⟨outcome, houtcome⟩ := hprocess pair hpair files hfiles
    obtain ⟨hcpu, hgpu⟩ := hcaps pair hpair
    exact ⟨pair, outcome, capParts_capFileName hcpu hgpu kind, houtcome⟩
  exact ⟨filtered, hfiltered, hspec filtered hfiltered⟩

/-- Filtering a directory that has been filtered, in whatever order its files are listed and as they are
read back, fails nowhere and writes what it has read: no row is cut and no clock is shifted again. -/
theorem filterDirectory_again (appName : String) {reread : Rereading} (hreread : reread.KeepsActivity)
    {unfiltered filtered again : Directory} (h : filterDirectory appName unfiltered = some filtered)
    (hagain : ∀ name, again.lookup name = (filtered.lookup name).map reread.file) :
    ∃ result, filterDirectory appName again = some result ∧
      ∀ name, result.lookup name = again.lookup name := by
  have hclean : ∀ pair ∈ listedCaps unfiltered.keys, '_' ∉ pair.1 ∧ '_' ∉ pair.2 :=
    fun pair hpair => not_mem_of_listedCaps hpair
  have hfirst := (foldlM_filterFile_spec appName unfiltered unfiltered.keys).1 filtered h
  have hlisted := hfirst.reread reread hagain
  -- the files of one pair of caps are either all there or none of them, and are processed as before
  have hprocess : ∀ pair ∈ listedCaps unfiltered.keys, ∀ files,
      (processedFiles appName unfiltered pair).map reread.capFiles = some files →
        processCsvFiles appName again pair.1 pair.2 = some (some files) := by
    intro pair hpair files hfiles
    have hread := hlisted.lookup hpair hfiles
    obtain ⟨written, hwritten, rfl⟩ := Option.map_eq_some_iff.mp hfiles
    exact processCsvFiles_again hreread (processedFiles_eq_some_iff.mp hwritten) hread
  obtain ⟨result, hresult, hsecond⟩ := exists_filterDirectory hlisted hclean fun pair hpair files hfiles =>
    ⟨some files, hprocess pair hpair files hfiles⟩
  refine ⟨result, hresult, hsecond.lookup_eq hlisted fun pair files => ?_⟩
  rw [hlisted.mem_listedCaps_iff hclean]
  constructor
  · rintro ⟨⟨hpair, files', hfiles'⟩, hfiles⟩
    have hsame := processedFiles_eq_some_iff.mpr (hprocess pair hpair files' hfiles')
    obtain rfl := Option.some.inj (hsame.symm.trans hfiles)
    exact ⟨hpair, hfiles'⟩
  · rintro ⟨hpair, hfiles⟩
    exact ⟨⟨hpair, files, hfiles⟩, processedFiles_eq_some_iff.mpr (hprocess pair hpair files hfiles)⟩

/-- Measurements whose first GPU row is idle. -/
def idleStart : CapFiles where
  cpuPower := [⟨0, ⟨some 90, some 20⟩⟩, ⟨1, ⟨some 150, some 30⟩⟩, ⟨3, ⟨some 160, some 30⟩⟩]
  cpuMetrics := [⟨0, ⟨some 5, some 7, some 1⟩⟩, ⟨2, ⟨some 8, some 9, some 4⟩⟩,
    ⟨3, ⟨some 8, some 9, some 4⟩⟩]
  gpuMetrics := [⟨0, ⟨some 765, some 0, some 0, some 0, some 0, some 50⟩⟩,
    ⟨1, ⟨some 1410, some 1, some 0, some 1, some 0, some 200⟩⟩,
    ⟨2, ⟨some 1410, some 1, some 0, some 1, some 0, some 200⟩⟩,
    ⟨3, ⟨some 1410, some 1, some 0, some 1, some 0, some 200⟩⟩]

/-- A directory with these measurements. -/
def idleDirectory : Directory := Directory.writeCapFiles ∅ "200".toList "250".toList idleStart

/-- The measurements from the second GPU row on. -/
def idleStartCut : CapFiles where
  cpuPower := cutFrom idleStart.cpuPower 1
  cpuMetrics := cutFrom idleStart.cpuMetrics 0
  gpuMetrics := cutFrom idleStart.gpuMetrics 1

/-- The files of the directory. -/
theorem lookup_idleDirectory (kind : Kind) :
    idleDirectory.lookup (capFileName "200".toList "250".toList kind) = some (idleStart.file kind) :=
  (lookup_writeCapFiles ∅ (by decide) (by decide) idleStart).1 kind

/-- The idle row is cut off, and in the CPU files the rows that are nearest to its end come first. -/
theorem processCsvFiles_idleDirectory :
    processCsvFiles "gromacs" idleDirectory "200".toList "250".toList = some (some idleStartCut) := by
  have hstart : activityStart 1 idleStart.gpuMetrics = some 1 := by
    simp [activityStart, startsActivity, isActive, fpActive, idleStart, List.range_succ]
  have hpower : nearestRow 1 idleStart.cpuPower = some 1 := by
    norm_num [nearestRow, List.argmin_cons, idleStart]
  have hmetrics : nearestRow 1 idleStart.cpuMetrics = some 0 := by
    norm_num [nearestRow, List.argmin_cons, idleStart]
  rw [processCsvFiles_eq_some_iff]
  refine ⟨idleStart.gpuMetrics, idleStart.cpuPower, idleStart.cpuMetrics, 1, _, 1, 0, ?_, ?_, ?_, hstart,
    rfl, hpower, hmetrics, rfl⟩
  · rw [Directory.readGpuMetrics, lookup_idleDirectory]
    rfl
  · rw [Directory.readCpuPower, lookup_idleDirectory]
    rfl
  · rw [Directory.readCpuMetrics, lookup_idleDirectory]
    rfl

/-- The loop runs through the directory. -/
theorem exists_filterDirectory_idle : ∃ filtered, filterDirectory "gromacs" idleDirectory = some filtered := by
  refine (foldlM_filterFile_spec "gromacs" idleDirectory idleDirectory.keys).2 fun filename hfilename => ?_
  have hkeys : idleDirectory.keys = [Kind.cpuMetrics, .cpuPower, .gpuMetrics].map
      (capFileName "200".toList "250".toList) := by decide
  rw [hkeys, List.mem_map] at hfilename
  obtain ⟨kind, -, rfl⟩ := hfilename
  exact ⟨_, _, capParts_capFileName (by decide) (by decide) kind, processCsvFiles_idleDirectory⟩

/-- Numbers that are read back as they are. -/
def exactReread : Rereading := ⟨id, id⟩

/-- They leave a file as it is. -/
theorem exactReread_file (content : CsvFile) : exactReread.file content = content := by
  cases content with
  | cpuPower rows => simp [Rereading.file, Rereading.rows, Rereading.cpuPower, exactReread]
  | cpuMetrics rows => simp [Rereading.file, Rereading.rows, Rereading.cpuMetrics, exactReread]
  | gpuMetrics rows => simp [Rereading.file, Rereading.rows, Rereading.gpuMetrics, exactReread]
  | other => rfl

/-- Filtering a directory with an idle start twice, with numbers that are read back exactly. -/
theorem filterDirectory_again_idle :
    ∃ filtered result, filterDirectory "gromacs" idleDirectory = some filtered ∧
      filterDirectory "gromacs" filtered = some result ∧
      ∀ name, result.lookup name = filtered.lookup name := by
  obtain ⟨filtered, hfiltered⟩ := exists_filterDirectory_idle
  have hexact : exactReread.KeepsActivity := ⟨rfl, fun hx => hx⟩
  have hread : ∀ name, filtered.lookup name = (filtered.lookup name).map exactReread.file := by
    intro name
    rw [show exactReread.file = id from funext exactReread_file, Option.map_id, id]
  obtain ⟨result, hresult, hsame⟩ := filterDirectory_again "gromacs" hexact hfiltered hread
  exact ⟨filtered, result, hfiltered, hresult, hsame⟩

/-- Records whose neighbouring times are at most a period apart, and which span the times of the GPU rows. -/
structure Covers (rows : List (Timed Columns)) (dfGpu : List (Timed GpuMetrics)) (period : ℚ) : Prop where
  steps : rows.IsChain fun row next => next.time - row.time ≤ period
  starts : ∀ first ∈ rows.head?, ∀ row ∈ dfGpu, first.time ≤ row.time
  ends : ∀ last ∈ rows.getLast?, ∀ row ∈ dfGpu, row.time ≤ last.time

/-- Between the first and the last row some row is at most half a period away. -/
theorem exists_near {period time : ℚ} (hperiod : 0 ≤ period) {first : Timed Columns}
    {rest : List (Timed Columns)}
    (hsteps : (first :: rest).IsChain fun row next => next.time - row.time ≤ period)
    (hstart : first.time ≤ time) {last : Timed Columns} (hlast : last ∈ first :: rest)
    (hend : time ≤ last.time) : ∃ row ∈ first :: rest, 2 * |row.time - time| ≤ period := by
  induction rest generalizing first with
  | nil =>
    rw [List.mem_singleton] at hlast
    subst hlast
    refine ⟨last, List.mem_cons_self, ?_⟩
    rw [le_antisymm hstart hend, sub_self, abs_zero, mul_zero]
    exact hperiod
  | cons second rest ih =>
    obtain ⟨hstep, hsteps⟩ := List.isChain_cons_cons.mp hsteps
    rcases le_total time second.time with hbefore | hbehind
    · by_cases hnear : 2 * (time - first.time) ≤ period
      · refine ⟨first, List.mem_cons_self, ?_⟩
        rw [abs_of_nonpos (sub_nonpos.mpr hstart), neg_sub]
        exact hnear
      · refine ⟨second, List.mem_cons_of_mem _ List.mem_cons_self, ?_⟩
        rw [abs_of_nonneg (sub_nonneg.mpr hbefore)]
        linarith
    · have hlast' : last ∈ second :: rest ∨ last = first := (List.mem_cons.mp hlast).symm
      rcases hlast' with hlast' | rfl
      · obtain ⟨row, hrow, hnear⟩ := ih hsteps hbehind hlast'
        exact ⟨row, List.mem_cons_of_mem _ hrow, hnear⟩
      · refine ⟨last, List.mem_cons_self, ?_⟩
        rw [le_antisymm hstart hend, sub_self, abs_zero, mul_zero]
        exact hperiod

/-- The nearest row of a record that spans the GPU rows is at most half a period away. -/
theorem Covers.near {rows : List (Timed Columns)} {dfGpu : List (Timed GpuMetrics)} {period : ℚ}
    (h : Covers rows dfGpu period) (hperiod : 0 ≤ period) {start : Timed GpuMetrics}
    (hstart : start ∈ dfGpu) {row : Timed Columns} (hrow : row ∈ rows)
    (hbest : ∀ other ∈ rows, |row.time - start.time| ≤ |other.time - start.time|) :
    2 * |row.time - start.time| ≤ period := by
  obtain ⟨hsteps, hstarts, hends⟩ := h
  cases rows with
  | nil => exact absurd hrow List.not_mem_nil
  | cons first rest =>
    have hlast := List.getLast_mem (List.cons_ne_nil first rest)
    obtain ⟨near, hnear, hle⟩ := exists_near hperiod hsteps (hstarts first rfl start hstart) hlast
      (hends _ (List.getLast?_eq_some_getLast (List.cons_ne_nil first rest)) start hstart)
    have hmin := hbest near hnear
    linarith

/-- Three files that have been cut: the GPU file at the first of its rows from which enough rows are
active, each CPU file at a row, and each with its times counted from the row at which it is cut. A CPU
record that spans the GPU record is cut at most half its sampling period beside it. -/
structure AlignedCut (count : ℕ) (dfGpu : List (Timed GpuMetrics)) (dfCpuPower : List (Timed CpuPower))
    (dfCpuMetrics : List (Timed CpuMetrics)) (files : CapFiles) (i j k : ℕ)
    (origin powerOffset metricsOffset : ℚ) : Prop where
  enough_rows : i + count + 1 < dfGpu.length
  active : startsActivity count dfGpu i = true
  first : ∀ earlier < i, startsActivity count dfGpu earlier = false
  gpu_origin : dfGpu[i]?.map Timed.time = some origin
  power_origin : dfCpuPower[j]?.map Timed.time = some (origin + powerOffset)
  metrics_origin : dfCpuMetrics[k]?.map Timed.time = some (origin + metricsOffset)
  gpuMetrics_eq : files.gpuMetrics = (dfGpu.drop i).map (Timed.since origin)
  cpuPower_eq : files.cpuPower = (dfCpuPower.drop j).map (Timed.since (origin + powerOffset))
  cpuMetrics_eq : files.cpuMetrics = (dfCpuMetrics.drop k).map (Timed.since (origin + metricsOffset))
  power_near : ∀ period, 0 ≤ period → Covers dfCpuPower dfGpu period → 2 * |powerOffset| ≤ period
  metrics_near : ∀ period, 0 ≤ period → Covers dfCpuMetrics dfGpu period → 2 * |metricsOffset| ≤ period

/-- The files that are written start where the activity does, and if the CPU records span the GPU record,
their clocks differ from that of the GPU file by at most half of their sampling periods. -/
theorem processCsvFiles_aligned {appName : String} {inputDir : Directory} {cpuPower gpuPower : Text}
    {files : CapFiles} (h : processCsvFiles appName inputDir cpuPower gpuPower = some (some files)) :
    ∃ dfGpu dfCpuPower dfCpuMetrics,
      inputDir.readGpuMetrics (capFileName cpuPower gpuPower .gpuMetrics) = some dfGpu ∧
      inputDir.readCpuPower (capFileName cpuPower gpuPower .cpuPower) = some dfCpuPower ∧
      inputDir.readCpuMetrics (capFileName cpuPower gpuPower .cpuMetrics) = some dfCpuMetrics ∧
      ∃ i j k origin powerOffset metricsOffset,
        AlignedCut (activeCount appName) dfGpu dfCpuPower dfCpuMetrics files i j k origin powerOffset
          metricsOffset := by
  obtain ⟨dfGpu, dfCpuPower, dfCpuMetrics, i, start, j, k, hgpu, hpower, hmetrics, hstart, hrow,
    hj, hk, rfl⟩ := processCsvFiles_eq_some_iff.mp h
  refine ⟨dfGpu, dfCpuPower, dfCpuMetrics, hgpu, hpower, hmetrics, ?_⟩
  have hmem : start ∈ dfGpu := List.mem_of_getElem? hrow
  obtain ⟨hi, hactive⟩ := of_activityStart hstart
  obtain ⟨-, -, -, hgpuCut⟩ := exists_cutFrom_eq hrow
  obtain ⟨powerRow, hpowerRow, hpowerBest⟩ := of_nearestRow hj
  obtain ⟨-, -, -, hpowerCut⟩ := exists_cutFrom_eq hpowerRow
  obtain ⟨metricsRow, hmetricsRow, hmetricsBest⟩ := of_nearestRow hk
  obtain ⟨-, -, -, hmetricsCut⟩ := exists_cutFrom_eq hmetricsRow
  refine ⟨i, j, k, start.time, powerRow.time - start.time, metricsRow.time - start.time, ?_⟩
  exact {
    enough_rows := by omega
    active := hactive
    first := by
      intro earlier hearlier
      have hnot := (List.find?_range_eq_some.mp hstart).2.2 earlier hearlier
      simpa using hnot
    gpu_origin := by rw [hrow, Option.map_some]
    power_origin := by rw [hpowerRow, Option.map_some, add_sub_cancel]
    metrics_origin := by rw [hmetricsRow, Option.map_some, add_sub_cancel]
    gpuMetrics_eq := hgpuCut
    cpuPower_eq := by rw [hpowerCut, add_sub_cancel]
    cpuMetrics_eq := by rw [hmetricsCut, add_sub_cancel]
    power_near := fun period hperiod hcovers =>
      hcovers.near hperiod hmem (List.mem_of_getElem? hpowerRow) hpowerBest
    metrics_near := fun period hperiod hcovers =>
      hcovers.near hperiod hmem (List.mem_of_getElem? hmetricsRow) hmetricsBest }

/-- The clocks of the files with an idle start, whose CPU records were sampled every two seconds. -/
theorem processCsvFiles_aligned_idle :
    ∃ i j k origin powerOffset metricsOffset,
      AlignedCut 1 idleStart.gpuMetrics idleStart.cpuPower idleStart.cpuMetrics idleStartCut i j k origin
        powerOffset metricsOffset ∧
      |powerOffset| ≤ 1 ∧ |metricsOffset| ≤ 1 := by
  obtain ⟨dfGpu, dfCpuPower, dfCpuMetrics, hgpu, hpower, hmetrics, i, j, k, origin, powerOffset,
    metricsOffset, hcut⟩ := processCsvFiles_aligned processCsvFiles_idleDirectory
  rw [Directory.readGpuMetrics, lookup_idleDirectory] at hgpu
  rw [Directory.readCpuPower, lookup_idleDirectory] at hpower
  rw [Directory.readCpuMetrics, lookup_idleDirectory] at hmetrics
  obtain rfl : idleStart.gpuMetrics = dfGpu := Option.some.inj hgpu
  obtain rfl : idleStart.cpuPower = dfCpuPower := Option.some.inj hpower
  obtain rfl : idleStart.cpuMetrics = dfCpuMetrics := Option.some.inj hmetrics
  have hpowerNear := hcut.power_near 2 (by norm_num) (by constructor <;> norm_num [idleStart])
  have hmetricsNear := hcut.metrics_near 2 (by norm_num) (by constructor <;> norm_num [idleStart])
  exact ⟨i, j, k, origin, powerOffset, metricsOffset, hcut, by linarith, by linarith⟩

end NodePower.Caps
