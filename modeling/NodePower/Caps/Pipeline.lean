import NodePower.Caps.Filter
import NodePower.Caps.Selection
import NodePower.Prediction.FilledMatrix

/-!
# From the experiments to the choice of power caps

The files of the experiments go through several notebooks before power caps are chosen: `filter.ipynb`
cuts them, `power_motif.ipynb` makes a table of them, `prediction.ipynb` collects the tables of the
training applications in a matrix and adds predicted columns, and `power_cap_selection.ipynb` looks the
performance up by the printed power pairs.

Whatever the learners do, no notebook on the way raises an exception, the training applications keep their
measured columns, and the caps that are chosen for a validation application are as good as its predicted
column is.
-/

namespace NodePower.Caps

open NodePower.Prediction

/-- The caps of the experiments. -/
structure Grid where
  cpuCaps : List ℕ
  gpuCaps : List ℕ
  cpuCaps_nodup : cpuCaps.Nodup
  gpuCaps_nodup : gpuCaps.Nodup

/-- The pairs of caps of the experiments. -/
def Grid.pairs (grid : Grid) : List (ℕ × ℕ) := grid.cpuCaps ×ˢ grid.gpuCaps

/-- The directory of the experiments. -/
def Grid.run (grid : Grid) (measured : ℕ × ℕ → CapFiles) : Directory :=
  runBenchmark grid.cpuCaps grid.gpuCaps measured

section Filtered

variable {grid : Grid} {appName : String} {files : CapFiles} {measured : ℕ × ℕ → CapFiles} {dir : Directory}

/-- Files that can be cut: there is activity, and the CPU files have rows. -/
structure Filterable (appName : String) (files : CapFiles) : Prop where
  active : activityStart (activeCount appName) files.gpuMetrics ≠ none
  cpuPower_ne_nil : files.cpuPower ≠ []
  cpuMetrics_ne_nil : files.cpuMetrics ≠ []

/-- The time of the row at which the activity starts. -/
def startTime (appName : String) (files : CapFiles) : ℚ :=
  let start := (activityStart (activeCount appName) files.gpuMetrics).bind (files.gpuMetrics[·]?)
  (start.map Timed.time).getD 0

/-- The files of a run after they have been cut. -/
def cutFiles (appName : String) (files : CapFiles) : CapFiles where
  cpuPower := cutFrom files.cpuPower ((nearestRow (startTime appName files) files.cpuPower).getD 0)
  cpuMetrics := cutFrom files.cpuMetrics ((nearestRow (startTime appName files) files.cpuMetrics).getD 0)
  gpuMetrics := cutFrom files.gpuMetrics ((activityStart (activeCount appName) files.gpuMetrics).getD 0)

/-- Some row is nearest to a time if there are rows. -/
theorem exists_nearestRow {Columns : Type} (time : ℚ) {rows : List (Timed Columns)} (hrows : rows ≠ []) :
    ∃ i, nearestRow time rows = some i := by
  rw [nearestRow]
  cases hbest : rows.zipIdx.argmin fun row => |row.1.time - time| with
  | none => exact absurd (List.zipIdx_eq_nil_iff.mp (List.argmin_eq_none.mp hbest)) hrows
  | some best => exact ⟨best.2, rfl⟩

/-- What the processing makes of files that can be cut. -/
theorem processCsvFiles_eq_cutFiles {cpuPower gpuPower : Text} (hfiles : Filterable appName files)
    (hlookup : ∀ kind, dir.lookup (capFileName cpuPower gpuPower kind) = some (files.file kind)) :
    processCsvFiles appName dir cpuPower gpuPower = some (some (cutFiles appName files)) := by
  obtain ⟨i, hi⟩ := Option.ne_none_iff_exists'.mp hfiles.active
  obtain ⟨hlt, -⟩ := of_activityStart hi
  obtain ⟨start, hstart⟩ : ∃ start, files.gpuMetrics[i]? = some start :=
    ⟨_, List.getElem?_eq_getElem (by omega)⟩
  have htime : startTime appName files = start.time := by
    rw [startTime, hi, Option.bind_some, hstart]
    rfl
  obtain ⟨j, hj⟩ := exists_nearestRow start.time hfiles.cpuPower_ne_nil
  obtain ⟨k, hk⟩ := exists_nearestRow start.time hfiles.cpuMetrics_ne_nil
  rw [processCsvFiles_eq_some_iff]
  refine ⟨files.gpuMetrics, files.cpuPower, files.cpuMetrics, i, start, j, k, ?_, ?_, ?_, hi, hstart, hj,
    hk, ?_⟩
  · rw [Directory.readGpuMetrics, hlookup]
    rfl
  · rw [Directory.readCpuPower, hlookup]
    rfl
  · rw [Directory.readCpuMetrics, hlookup]
    rfl
  · rw [cutFiles, htime, hi, hj, hk]
    rfl

/-- The filter turns the directory of experiments into that of experiments whose files are cut. -/
theorem filterDirectory_run (hdir : dir.entries.Perm (grid.run measured).entries)
    (hfiles : ∀ pair ∈ grid.pairs, Filterable appName (measured pair)) :
    ∃ filtered, filterDirectory appName dir = some filtered ∧
      filtered.entries.Perm (grid.run fun pair => cutFiles appName (measured pair)).entries := by
  have hlisted := (hasFiles_runBenchmark grid.cpuCaps grid.gpuCaps measured).of_perm hdir
  have hcut := hasFiles_runBenchmark grid.cpuCaps grid.gpuCaps fun pair => cutFiles appName (measured pair)
  have hclean : ∀ texts ∈ grid.pairs.map capTexts, '_' ∉ texts.1 ∧ '_' ∉ texts.2 :=
    fun _ => not_mem_of_mem_map_capTexts
  have hprocess : ∀ pair ∈ grid.pairs, processCsvFiles appName dir (capTexts pair).1 (capTexts pair).2 =
      some (some (cutFiles appName (measured pair))) := fun pair hpair =>
    processCsvFiles_eq_cutFiles (hfiles pair hpair) (lookup_of_perm hdir hpair)
  obtain ⟨filtered, hfiltered, hspec⟩ := exists_filterDirectory hlisted hclean fun texts htexts _ _ => by
    obtain ⟨pair, hpair, rfl⟩ := List.mem_map.mp htexts
    exact ⟨_, hprocess pair hpair⟩
  -- both directories have the cut files of the pairs of caps
  have hown : ∀ pair ∈ grid.pairs, processedFiles appName dir (capTexts pair) =
      measuredOf (fun pair => cutFiles appName (measured pair)) (capTexts pair) := by
    intro pair hpair
    rw [processedFiles, hprocess pair hpair, Option.join_some, measuredOf_capTexts]
  have hsame := hspec.lookup_eq hcut fun texts files => by
    rw [hlisted.mem_listedCaps_iff hclean]
    constructor
    · rintro ⟨⟨htexts, -⟩, hprocessed⟩
      obtain ⟨pair, hpair, rfl⟩ := List.mem_map.mp htexts
      exact ⟨htexts, hown pair hpair ▸ hprocessed⟩
    · rintro ⟨htexts, hmeasured⟩
      obtain ⟨pair, hpair, rfl⟩ := List.mem_map.mp htexts
      exact ⟨⟨htexts, _, measuredOf_capTexts measured pair⟩, (hown pair hpair).trans hmeasured⟩
  refine ⟨filtered, hfiltered, List.lookup_ext filtered.nodupKeys (AList.nodupKeys _) fun name content => ?_⟩
  rw [Option.mem_def, Option.mem_def]
  exact Eq.congr_left (hsame name)

end Filtered

/-- An application with its experiments: the directory with their files, in the order in which they are
listed, and the table that has been made of it. Every run takes some time. -/
structure MeasuredApp (grid : Grid) where
  name : String
  measured : ℕ × ℕ → CapFiles
  runtime_pos : ∀ pair ∈ grid.pairs, ∃ t, runtime (measured pair).cpuPower = some t ∧ 0 < t
  dir : Directory
  listed : dir.entries.Perm (grid.run measured).entries
  rows : List PerformanceRow
  rows_eq : performanceTable dir = some rows

/-- The filtered directory, as its files are read back, is that of experiments with other numbers. -/
theorem perm_run_of_reread {grid : Grid} {files : ℕ × ℕ → CapFiles} {written dir : Directory}
    (hwritten : written.entries.Perm (grid.run files).entries) (reread : Rereading)
    (hdir : ∀ name, dir.lookup name = (written.lookup name).map reread.file) :
    dir.entries.Perm (grid.run fun pair => reread.capFiles (files pair)).entries := by
  have hread := ((hasFiles_runBenchmark grid.cpuCaps grid.gpuCaps files).of_perm hwritten).reread reread hdir
  have hrun := hasFiles_runBenchmark grid.cpuCaps grid.gpuCaps fun pair => reread.capFiles (files pair)
  refine List.lookup_ext dir.nodupKeys (AList.nodupKeys _) fun name content => ?_
  rw [Option.mem_def, Option.mem_def]
  exact Eq.congr_left (hread.lookup_eq hrun (fun _ _ => Iff.rfl) name)

/-- An application whose files have been cut before the table has been made. The numbers of the cut files
are as they are read back. -/
structure FilteredApp (grid : Grid) where
  name : String
  measured : ℕ × ℕ → CapFiles
  filterable : ∀ pair ∈ grid.pairs, Filterable name (measured pair)
  unfiltered : Directory
  listed : unfiltered.entries.Perm (grid.run measured).entries
  reread : Rereading
  runtime_pos : ∀ pair ∈ grid.pairs,
    ∃ t, runtime (reread.capFiles (cutFiles name (measured pair))).cpuPower = some t ∧ 0 < t
  dir : Directory
  filtered : ∃ result, filterDirectory name unfiltered = some result ∧
    ∀ filename, dir.lookup filename = (result.lookup filename).map reread.file
  rows : List PerformanceRow
  rows_eq : performanceTable dir = some rows

/-- After the filter the files are those of shorter runs. -/
def FilteredApp.toMeasured {grid : Grid} (app : FilteredApp grid) : MeasuredApp grid where
  name := app.name
  measured pair := app.reread.capFiles (cutFiles app.name (app.measured pair))
  runtime_pos := app.runtime_pos
  dir := app.dir
  listed := by
    obtain ⟨result, hresult, hread⟩ := app.filtered
    obtain ⟨filtered, hfiltered, hrun⟩ := filterDirectory_run app.listed app.filterable
    obtain rfl := Option.some.inj (hresult.symm.trans hfiltered)
    exact perm_run_of_reread hrun app.reread hread
  rows := app.rows
  rows_eq := app.rows_eq

variable {grid : Grid}

/-- The table of an application, sorted by the caps. -/
theorem MeasuredApp.rows_eq_finishTable (app : MeasuredApp grid) :
    app.rows = finishTable (grid.pairs.map (measuredRow app.measured)) := by
  have htable := performanceTable_eq grid.cpuCaps_nodup grid.gpuCaps_nodup
    (cpuPower_ne_nil app.runtime_pos) app.listed
  exact Option.some.inj (app.rows_eq.symm.trans htable)

/-- The `Power Pair` of a pair of caps. -/
def powerPair (pair : ℕ × ℕ) : ℤ ×ₗ ℤ := toLex ((pair.1 : ℤ), (pair.2 : ℤ))

/-- The power pairs of a table are those of the experiments. -/
theorem MeasuredApp.mem_caps_iff (app : MeasuredApp grid) {caps : ℤ ×ₗ ℤ} :
    caps ∈ app.rows.map PerformanceRow.caps ↔ ∃ pair ∈ grid.pairs, powerPair pair = caps := by
  rw [app.rows_eq_finishTable, List.mem_map]
  constructor
  · rintro ⟨row, hrow, rfl⟩
    obtain ⟨pair, hpair, hown⟩ := exists_pair_of_row hrow
    exact ⟨pair, hpair, by rw [powerPair, PerformanceRow.caps, hown.cpuPowerCap, hown.gpuPowerCap]⟩
  · rintro ⟨pair, hpair, rfl⟩
    obtain ⟨row, hrow, hown⟩ : ∃ row ∈ finishTable (grid.pairs.map (measuredRow app.measured)),
        OwnRow app.measured grid.pairs pair row := exists_ownRow hpair
    exact ⟨row, hrow, by rw [powerPair, PerformanceRow.caps, hown.cpuPowerCap, hown.gpuPowerCap]⟩

/-- The power pairs of a table are different. -/
theorem MeasuredApp.nodup_caps (app : MeasuredApp grid) :
    (app.rows.map PerformanceRow.caps).Nodup := by
  have hcaps : ((grid.pairs.map (measuredRow app.measured)).map PerformanceRow.caps).Nodup :=
    Caps.nodup_caps grid.cpuCaps_nodup grid.gpuCaps_nodup
  have hsorted := sortByKey_perm PerformanceRow.caps ((grid.pairs.map (measuredRow app.measured)).map
    fun row => fillna (scaled (grid.pairs.map (measuredRow app.measured)) row))
  rw [app.rows_eq_finishTable, finishTable, (hsorted.map _).nodup_iff, List.map_map]
  exact hcaps

/-- `app_data` of step 5 for one application. -/
def MeasuredApp.training (app : MeasuredApp grid) : TrainingApp (ℤ ×ₗ ℤ) String ℚ where
  name := app.name
  performance := app.rows.map fun row => (row.caps, row.performance)
  pairs_nodup := by
    rw [List.map_map]
    exact app.nodup_caps

/-- `feature_cols` of a row. -/
def featureCols (row : PerformanceRow) : List (Option ℚ) :=
  [some row.cpuPowerCap, some row.gpuPowerCap, (row.metric .memoryThroughput).map (↑),
    (row.metric .smClock).map (↑), (row.metric .dramActive).map (↑), (row.metric .fpActive).map (↑)]

/-- `df_new` of step 6 for one application. -/
def MeasuredApp.newApp (app : MeasuredApp grid) : NewApp (ℤ ×ₗ ℤ) String (List (Option ℚ)) ℚ where
  name := app.name
  rows := app.rows.map fun row => ⟨row.caps, featureCols row, row.performance⟩

/-- The applications of the prediction notebook. -/
structure Applications (grid : Grid) where
  training : List (MeasuredApp grid)
  validation : List (FilteredApp grid)
  training_ne_nil : training ≠ []
  names_nodup : (training.map MeasuredApp.name ++ validation.map FilteredApp.name).Nodup

/-- `app_data` of step 5. -/
def Applications.appData (apps : Applications grid) : AppData (ℤ ×ₗ ℤ) String ℚ where
  apps := apps.training.map MeasuredApp.training
  names_nodup := by
    rw [List.map_map]
    exact apps.names_nodup.of_append_left

/-- The files of step 6. -/
def Applications.files (apps : Applications grid) : List (NewApp (ℤ ×ₗ ℤ) String (List (Option ℚ)) ℚ) :=
  apps.validation.map fun app => app.toMeasured.newApp

/-- A power pair as it is printed. -/
def pairText (caps : ℤ ×ₗ ℤ) : Text :=
  '(' :: (integerText (ofLex caps).1 ++ ',' :: ' ' :: (integerText (ofLex caps).2 ++ [')']))

/-- `to_csv` and `read_csv`: the rows of the matrix are labelled by the printed power pairs. -/
def saveMatrix (matrix : PerformanceMatrix (ℤ ×ₗ ℤ) String ℚ) : DataFrame Text String ℚ where
  index := matrix.index.map pairText
  columns := matrix.columns
  cell label name :=
    (matrix.index.find? fun caps => pairText caps = label).bind fun caps => matrix.cell caps name

/-- `performance_matrix.loc`, with the label of a pair of caps. -/
def locPerformance (saved : DataFrame Text String ℚ) (app : String) (pair : ℕ × ℕ) : Option (Option ℚ) :=
  let label := '(' :: ((capTexts pair).1 ++ ',' :: ' ' :: ((capTexts pair).2 ++ [')']))
  if label ∈ saved.index ∧ app ∈ saved.columns then some (saved.cell label app) else none

/-- A printed integer has digits and at most a sign. -/
theorem isDigit_or_sign_of_mem_integerText {n : ℤ} {c : Char} (hc : c ∈ integerText n) :
    c.isDigit ∨ c = '-' := by
  cases n with
  | ofNat n => exact Or.inl (isDigit_of_mem_toDigits hc)
  | negSucc n =>
    rcases List.mem_cons.mp hc with rfl | hc
    · exact Or.inr rfl
    · exact Or.inl (isDigit_of_mem_toDigits hc)

/-- Printed naturals with the same digits are equal. -/
theorem toDigits_ten_injective : Function.Injective (Nat.toDigits 10) := by
  intro m n h
  have hvalue := congrArg (Nat.ofDigitChars 10 · 0) h
  simpa only [Nat.ofDigitChars_ten_toDigits] using hvalue

/-- Digits do not start with a sign. -/
theorem toDigits_ne_sign (m : ℕ) (text : Text) : Nat.toDigits 10 m ≠ '-' :: text := by
  intro h
  have hsign : '-' ∈ Nat.toDigits 10 m := h ▸ List.mem_cons_self
  exact absurd (isDigit_of_mem_toDigits hsign) (by decide)

/-- An integer is known by its text. -/
theorem integerText_injective : Function.Injective integerText := by
  intro m n h
  cases m with
  | ofNat m =>
    cases n with
    | ofNat n => exact congrArg Int.ofNat (toDigits_ten_injective h)
    | negSucc n => exact absurd h (toDigits_ne_sign m _)
  | negSucc m =>
    cases n with
    | ofNat n => exact absurd h.symm (toDigits_ne_sign n _)
    | negSucc n =>
      have hnext := toDigits_ten_injective (List.cons.inj h).2
      exact congrArg Int.negSucc (Nat.succ.inj hnext)

/-- A power pair is known by its label. -/
theorem pairText_injective : Function.Injective pairText := by
  intro caps other h
  have hcomma : ∀ n : ℤ, ',' ∉ integerText n := fun n hmem =>
    absurd (isDigit_or_sign_of_mem_integerText hmem) (by decide)
  have hclose : ∀ n : ℤ, ')' ∉ integerText n := fun n hmem =>
    absurd (isDigit_or_sign_of_mem_integerText hmem) (by decide)
  have hinner := (List.cons.inj h).2
  rw [List.append_cons_inj_of_notMem (hcomma _) (by simp [hcomma])] at hinner
  obtain ⟨hcpu, -, hrest⟩ := hinner
  have hgpu := List.append_cancel_right (List.cons.inj hrest).2
  exact ofLex.injective (Prod.ext (integerText_injective hcpu) (integerText_injective hgpu))

/-- The saved matrix is looked up by the labels of the power pairs that it has. -/
theorem locPerformance_saveMatrix {matrix : PerformanceMatrix (ℤ ×ₗ ℤ) String ℚ} {pair : ℕ × ℕ}
    (hpair : powerPair pair ∈ matrix.index) {app : String} (happ : app ∈ matrix.columns) :
    locPerformance (saveMatrix matrix) app pair = some (matrix.cell (powerPair pair) app) := by
  have hlabel : '(' :: ((capTexts pair).1 ++ ',' :: ' ' :: ((capTexts pair).2 ++ [')'])) =
      pairText (powerPair pair) := rfl
  have hfind : (matrix.index.find? fun caps => pairText caps = pairText (powerPair pair)) =
      some (powerPair pair) := by
    cases hfound : matrix.index.find? fun caps => pairText caps = pairText (powerPair pair) with
    | none => exact absurd (List.find?_eq_none.mp hfound _ hpair) (by simp)
    | some caps =>
      have hsame := List.find?_some hfound
      rw [decide_eq_true_eq] at hsame
      rw [pairText_injective hsame]
  simp only [locPerformance, saveMatrix, hlabel, hfind, Option.bind_some]
  rw [if_pos ⟨List.mem_map_of_mem hpair, happ⟩]

/-- A row of a table is found by its key in the list of keys and values. -/
theorem lookup_map_eq_find? {A K V : Type} [DecidableEq K] (key : A → K) (value : A → V) (rows : List A)
    (k : K) : (rows.map fun row => (key row, value row)).lookup k =
      (rows.find? fun row => key row = k).map value := by
  induction rows with
  | nil => rfl
  | cons row rest ih =>
    by_cases hkey : key row = k
    · simp [hkey]
    · rw [List.map_cons, List.lookup_cons, List.find?_cons_of_neg (by simpa using hkey), ← ih,
        beq_false_of_ne (Ne.symm hkey)]

/-- The column of a training application in the matrix is that of its table. -/
theorem MeasuredApp.column_training (app : MeasuredApp grid) (pair : ℕ × ℕ) :
    app.training.column (powerPair pair) = (performanceColumn app.rows pair).join := by
  have hcaps : (fun row : PerformanceRow => decide (row.caps = powerPair pair)) =
      fun row => decide (row.cpuPowerCap = (pair.1 : ℤ) ∧ row.gpuPowerCap = (pair.2 : ℤ)) := by
    funext row
    simp only [PerformanceRow.caps, powerPair, toLex_inj, Prod.mk.injEq]
  rw [TrainingApp.column, MeasuredApp.training, lookup_map_eq_find?, hcaps, performanceColumn]

/-- Every pair of caps of the experiments has a performance in the table. -/
theorem MeasuredApp.exists_performance (app : MeasuredApp grid) {pair : ℕ × ℕ} (hpair : pair ∈ grid.pairs) :
    ∃ actual, performanceColumn app.rows pair = some (some actual) := by
  obtain ⟨fastest, hpos, hfastest⟩ := exists_fastest app.runtime_pos hpair
  obtain ⟨t, ht, -⟩ := app.runtime_pos pair hpair
  rw [app.rows_eq_finishTable]
  exact ⟨_, performanceColumn_eq hpair hpos hfastest ht⟩

/-- The matrix of step 5 has the power pairs of all experiments. -/
theorem Applications.mem_index_iff (apps : Applications grid) {caps : ℤ ×ₗ ℤ} :
    caps ∈ (performanceMatrix apps.appData).index ↔ ∃ pair ∈ grid.pairs, powerPair pair = caps := by
  rw [(performanceMatrix_labels apps.appData).1, AppData.powerPairs, List.mem_flatMap]
  have hown : ∀ app : MeasuredApp grid, caps ∈ app.training.performance.map Prod.fst ↔
      ∃ pair ∈ grid.pairs, powerPair pair = caps := by
    intro app
    rw [← app.mem_caps_iff, MeasuredApp.training, List.map_map]
    rfl
  constructor
  · rintro ⟨training, htraining, hcaps⟩
    obtain ⟨app, -, rfl⟩ := List.mem_map.mp htraining
    exact (hown app).mp hcaps
  · intro hpair
    obtain ⟨app, happ⟩ := List.exists_mem_of_ne_nil _ apps.training_ne_nil
    exact ⟨app.training, List.mem_map_of_mem happ, (hown app).mpr hpair⟩

/-- The table of an application is complete, so a round of step 6 can use it if the sample has some of its
rows. -/
theorem MeasuredApp.completeFile (app : MeasuredApp grid) (apps : Applications grid)
    {learners : Learners (ℤ ×ₗ ℤ) (List (Option ℚ)) ℚ}
    (hsample : ∀ rows, learners.sample rows ⊆ rows ∧ (3 ≤ rows.length → learners.sample rows ≠ []))
    (hsize : 3 ≤ grid.pairs.length) :
    CompleteFile learners (performanceMatrix apps.appData).index app.newApp where
  sample_ne_nil := by
    have hlength : app.newApp.rows.length = grid.pairs.length := by
      rw [MeasuredApp.newApp, List.length_map, app.rows_eq_finishTable, finishTable,
        (sortByKey_perm _ _).length_eq, List.length_map, List.length_map]
    exact (hsample _).2 (hlength ▸ hsize)
  sample_subset := (hsample _).1
  performance_ne_none := by
    intro row hrow
    obtain ⟨raw, hraw, rfl⟩ := List.mem_map.mp hrow
    rw [app.rows_eq_finishTable] at hraw
    obtain ⟨unfilled, -, rfl⟩ := List.mem_map.mp ((sortByKey_perm _ _).mem_iff.mp hraw)
    exact Option.some_ne_none _
  mem_index := by
    intro row hrow
    obtain ⟨raw, hraw, rfl⟩ := List.mem_map.mp hrow
    rw [apps.mem_index_iff, ← app.mem_caps_iff]
    exact List.mem_map_of_mem hraw

/-- A training application is found in the matrix of step 5 with the column of its table. -/
theorem Applications.cell_training (apps : Applications grid) {app : MeasuredApp grid}
    (happ : app ∈ apps.training) (pair : ℕ × ℕ) :
    (performanceMatrix apps.appData).cell (powerPair pair) app.name = (performanceColumn app.rows pair).join ∧
      app.name ∈ (performanceMatrix apps.appData).columns := by
  have hmem : app.training ∈ apps.appData.apps := List.mem_map_of_mem happ
  have hspec := setColumns_spec apps.appData.apps apps.appData.names_nodup
    { index := apps.appData.powerPairs.dedup.mergeSort (· ≤ ·)
      columns := (apps.appData.apps.map TrainingApp.name).mergeSort (· ≤ ·)
      cell := fun _ _ => none }
    (fun other hother => List.mem_mergeSort.mpr (List.mem_map_of_mem hother))
  rw [← app.column_training]
  exact ⟨hspec.2.2.1 app.training hmem (powerPair pair),
    ((performanceMatrix_labels apps.appData).2 _).mpr (List.mem_map_of_mem hmem)⟩

/-- Step 6 goes through. Read by the labels, the saved matrix has the measured performance of every training
application, and some performance of every validation application. -/
theorem exists_savedMatrix (apps : Applications grid) (hsize : 3 ≤ grid.pairs.length)
    {learners : Learners (ℤ ×ₗ ℤ) (List (Option ℚ)) ℚ}
    (hsample : ∀ rows, learners.sample rows ⊆ rows ∧ (3 ≤ rows.length → learners.sample rows ≠ [])) :
    ∃ matrix, predictColumns learners (performanceMatrix apps.appData) apps.files = some matrix ∧
      (∀ app ∈ apps.training, ∀ pair ∈ grid.pairs,
        locPerformance (saveMatrix matrix) app.name pair = performanceColumn app.rows pair) ∧
      ∀ app ∈ apps.validation, ∀ pair ∈ grid.pairs, ∃ predicted,
        locPerformance (saveMatrix matrix) app.name pair = some (some predicted) := by
  have hfiles : ∀ file ∈ apps.files, CompleteFile learners (performanceMatrix apps.appData).index file := by
    intro file hfile
    obtain ⟨app, -, rfl⟩ := List.mem_map.mp hfile
    exact app.toMeasured.completeFile apps hsample hsize
  obtain ⟨matrix, hmatrix⟩ := exists_predictColumns hfiles
  obtain ⟨hindex, hcolumns, hkept, -, hcomplete⟩ := predictColumns_spec hmatrix
  have hmem : ∀ pair ∈ grid.pairs, powerPair pair ∈ matrix.index := fun pair hpair =>
    hindex ▸ apps.mem_index_iff.mpr ⟨pair, hpair, rfl⟩
  refine ⟨matrix, hmatrix, fun app happ pair hpair => ?_, fun app happ pair hpair => ?_⟩
  · obtain ⟨hcell, hcolumn⟩ := apps.cell_training happ pair
    have hnew : app.name ∉ apps.files.map NewApp.name := by
      rw [Applications.files, List.map_map]
      exact List.disjoint_of_nodup_append apps.names_nodup (List.mem_map_of_mem happ)
    obtain ⟨actual, hactual⟩ := app.exists_performance hpair
    rw [locPerformance_saveMatrix (hmem pair hpair) (hcolumns _ hcolumn), hkept _ _ hnew, hcell, hactual,
      Option.join_some]
  · have hown : CompleteColumn matrix app.name :=
      hcomplete app.toMeasured.newApp (List.mem_map_of_mem happ)
    obtain ⟨hcolumn, hcells⟩ := hown
    obtain ⟨predicted, hpredicted⟩ := Option.ne_none_iff_exists'.mp (hcells _ (hmem pair hpair))
    exact ⟨predicted, by rw [locPerformance_saveMatrix (hmem pair hpair) hcolumn, hpredicted]⟩

/-- The caps of `exp_power_cap.py`. -/
def experimentGrid : Grid where
  cpuCaps := experimentCpuCaps
  gpuCaps := experimentGpuCaps
  cpuCaps_nodup := by decide
  gpuCaps_nodup := by decide

/-- A training application with one row in each file. -/
def cappedApp : MeasuredApp experimentGrid where
  name := "bfs"
  measured := cappedRun
  runtime_pos := runtime_cappedRun_pos
  dir := experimentGrid.run cappedRun
  listed := List.Perm.refl _
  rows := finishTable (experimentGrid.pairs.map (measuredRow cappedRun))
  rows_eq := performanceTable_eq (by decide) (by decide) (cpuPower_ne_nil runtime_cappedRun_pos)
    (List.Perm.refl _)

/-- Measurements of a run that keeps the GPU active from its start. -/
def activeRun (pair : ℕ × ℕ) : CapFiles where
  cpuPower := [⟨0, ⟨some pair.1, some 30⟩⟩, ⟨cappedTime pair, ⟨some pair.1, some 30⟩⟩]
  cpuMetrics := [⟨0, ⟨some pair.1, some pair.1, some 1⟩⟩]
  gpuMetrics := [⟨0, ⟨some pair.2, some 1, some 0, some 1, some 0, some pair.2⟩⟩,
    ⟨1, ⟨some pair.2, some 1, some 0, some 1, some 0, some pair.2⟩⟩,
    ⟨2, ⟨some pair.2, some 1, some 0, some 1, some 0, some pair.2⟩⟩]

/-- The activity starts with the first row. -/
theorem activityStart_activeRun (pair : ℕ × ℕ) :
    activityStart (activeCount "gromacs") (activeRun pair).gpuMetrics = some 0 := by
  simp [activityStart, startsActivity, isActive, fpActive, activeRun, activeCount, List.range_succ]

/-- The active runs can be cut. -/
theorem filterable_activeRun (pair : ℕ × ℕ) : Filterable "gromacs" (activeRun pair) where
  active := by
    rw [activityStart_activeRun]
    exact Option.some_ne_none 0
  cpuPower_ne_nil := List.cons_ne_nil _ _
  cpuMetrics_ne_nil := List.cons_ne_nil _ _

/-- Numbers that are read back as they are leave the files of a pair of caps as they are. -/
theorem exactReread_capFiles (files : CapFiles) : exactReread.capFiles files = files := by
  simp [Rereading.capFiles, Rereading.rows, Rereading.cpuPower, Rereading.cpuMetrics,
    Rereading.gpuMetrics, exactReread]

/-- Nothing is cut off the power file of an active run. -/
theorem runtime_cutFiles_activeRun (pair : ℕ × ℕ) :
    runtime (cutFiles "gromacs" (activeRun pair)).cpuPower = some (cappedTime pair) := by
  have hstart : startTime "gromacs" (activeRun pair) = 0 := by
    rw [startTime, activityStart_activeRun]
    rfl
  have hnearest : nearestRow 0 (activeRun pair).cpuPower = some 0 := nearestRow_zero rfl
  have hcut : (cutFiles "gromacs" (activeRun pair)).cpuPower = (activeRun pair).cpuPower := by
    rw [cutFiles, hstart, hnearest, Option.getD_some]
    exact cutFrom_zero rfl
  rw [hcut]
  rfl

/-- The runs take some time after the cut. -/
theorem runtime_activeRun_pos : ∀ pair ∈ experimentGrid.pairs,
    ∃ t, runtime (cutFiles "gromacs" (activeRun pair)).cpuPower = some t ∧ 0 < t := fun pair hpair =>
  ⟨_, runtime_cutFiles_activeRun pair, by linarith [le_cappedTime hpair]⟩

/-- A validation application whose files have been cut, and are read back exactly. -/
def activeApp : FilteredApp experimentGrid where
  name := "gromacs"
  measured := activeRun
  filterable pair _ := filterable_activeRun pair
  unfiltered := experimentGrid.run activeRun
  listed := List.Perm.refl _
  reread := exactReread
  runtime_pos pair hpair := by
    rw [exactReread_capFiles]
    exact runtime_activeRun_pos pair hpair
  dir := experimentGrid.run fun pair => cutFiles "gromacs" (activeRun pair)
  filtered := by
    obtain ⟨result, hresult, hperm⟩ := filterDirectory_run
      (List.Perm.refl (experimentGrid.run activeRun).entries) fun pair _ => filterable_activeRun pair
    refine ⟨result, hresult, fun filename => ?_⟩
    rw [show exactReread.file = id from funext exactReread_file, Option.map_id, id]
    exact (AList.perm_lookup hperm).symm
  rows := finishTable (experimentGrid.pairs.map (measuredRow fun pair => cutFiles "gromacs" (activeRun pair)))
  rows_eq := performanceTable_eq (by decide) (by decide) (cpuPower_ne_nil runtime_activeRun_pos)
    (List.Perm.refl _)

/-- One training and one validation application. -/
def experimentApps : Applications experimentGrid where
  training := [cappedApp]
  validation := [activeApp]
  training_ne_nil := List.cons_ne_nil _ _
  names_nodup := by simp [cappedApp, activeApp]

/-- A sample from the front, a network that averages the caps, and a second model that predicts the mean of
its labels. -/
def averagingLearners : Learners (ℤ ×ₗ ℤ) (List (Option ℚ)) ℚ where
  sample rows := rows.take ((rows.length + 2) / 5)
  network features := (features.flatten.reduceOption).sum / 450
  trainNcf _ _ data _ _ := (mean (data.map fun entry => some entry.2)).getD 0

end NodePower.Caps
