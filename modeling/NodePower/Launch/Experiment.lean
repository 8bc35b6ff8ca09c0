import NodePower.Launch.Numerals

/-!
# The experiment script

`exp_power_motif.py` parses its options, copies them to module globals, and calls
`run_benchmark` for every selected benchmark. If `pcm` is set, `run_benchmark` starts
pcm-memory with a command line that is formatted from the module globals.

Kept are the options and globals that decide which monitors are started and with which words.
A benchmark's name is one word for the shell. A call that reads the local variable
`tmp` where no branch has assigned it raises, and ends the script.
-/

namespace NodePower

/-- A name that the shell keeps as one word. -/
structure BenchmarkName where
  name : String
  plain : (name.toList.all fun c => c.isAlphanum || c == '_') = true
  deriving DecidableEq

/-- The names of a benchmark list. -/
def benchmarkNames (names : List String)
    (hplain : ∀ name ∈ names, (name.toList.all fun c => c.isAlphanum || c == '_') = true) :
    List BenchmarkName :=
  names.attach.map fun name => ⟨name.1, hplain name.1 name.2⟩

/-- The benchmarks of the NPB suite. -/
def npbBenchmarks : List BenchmarkName :=
  benchmarkNames ["bt", "cg", "ep", "ft", "is", "lu", "mg", "sp", "ua"] (by decide)

/-- The benchmarks of the first ALTIS level. -/
def altisBenchmarks0 : List BenchmarkName := benchmarkNames ["maxflops"] (by decide)

/-- The benchmarks of the second ALTIS level. -/
def altisBenchmarks1 : List BenchmarkName :=
  benchmarkNames ["bfs", "gemm", "gups", "pathfinder", "sort"] (by decide)

/-- The benchmarks of the third ALTIS level. -/
def altisBenchmarks2 : List BenchmarkName :=
  benchmarkNames ["cfd", "cfd_double", "fdtd2d", "kmeans", "lavamd", "nw", "particlefilter_float",
    "particlefilter_naive", "raytracing", "srad", "where"] (by decide)

/-- The benchmarks of the ECP suite. -/
def ecpBenchmarks : List BenchmarkName :=
  benchmarkNames ["miniGAN", "CRADL", "sw4lite", "Laghos", "lammps", "UNet", "Resnet50",
    "bert_large", "gromacs"] (by decide)

/-- The values that `parse_args` returns. -/
structure Args where
  benchmark : Option BenchmarkName
  test : Option ℤ
  suite : ℤ
  uncore0 : PyFloat
  uncore1 : PyFloat
  dynamicUfsGpuP : ℤ
  pcm : ℤ
  dynamicUfsMem : ℤ
  incTs : ℤ
  decTs : ℤ
  history : ℤ
  dualCap : ℤ
  burstUp : PyFloat
  burstLow : PyFloat
  powerShift : ℤ
  gCap : ℤ
  ups : ℤ
  soC : ℤ
  memoryThroughputTs : ℤ

/-- The values of options that are not given. -/
def defaultArgs : Args where
  benchmark := none
  test := none
  suite := 1
  uncore0 := floatLiteral (24 / 10) (by decide +kernel)
  uncore1 := floatLiteral (24 / 10) (by decide +kernel)
  dynamicUfsGpuP := 0
  pcm := 0
  dynamicUfsMem := 0
  incTs := 0
  decTs := 0
  history := 2
  dualCap := 1
  burstUp := floatLiteral (4 / 10) (by decide +kernel)
  burstLow := floatLiteral (2 / 10) (by decide +kernel)
  powerShift := 0
  gCap := 0
  ups := 0
  soC := 0
  memoryThroughputTs := 60000

/-- The module globals that `run_benchmark` reads. -/
structure ScriptGlobals where
  gpuPowerTs : ℤ
  pcm : ℤ
  uncore0 : PyFloat
  uncore1 : PyFloat
  dynamicUfsMem : ℤ
  dynamicUfsGpuP : ℤ
  incTs : ℤ
  decTs : ℤ
  history : ℤ
  dualCap : ℤ
  burstUp : PyFloat
  burstLow : PyFloat
  powerShift : ℤ
  gCap : ℤ
  ups : ℤ
  soC : ℤ
  memoryThroughputTs : ℤ

/-- The module globals before the options are copied. -/
def scriptGlobals : ScriptGlobals where
  gpuPowerTs := 70
  pcm := 0
  uncore0 := floatLiteral (8 / 10) (by decide +kernel)
  uncore1 := floatLiteral (8 / 10) (by decide +kernel)
  dynamicUfsMem := 0
  dynamicUfsGpuP := 0
  incTs := 0
  decTs := 0
  history := 2
  dualCap := 0
  burstUp := floatLiteral (4 / 10) (by decide +kernel)
  burstLow := floatLiteral (2 / 10) (by decide +kernel)
  powerShift := 0
  gCap := 0
  ups := 0
  soC := 0
  memoryThroughputTs := 40000

/-- The copy of the options to the module globals. -/
def copyArgs (args : Args) (g : ScriptGlobals) : ScriptGlobals :=
  { g with
    dynamicUfsGpuP := args.dynamicUfsGpuP
    dynamicUfsMem := args.dynamicUfsMem
    pcm := args.pcm
    uncore0 := args.uncore0
    uncore1 := args.uncore1
    incTs := args.incTs
    decTs := args.decTs
    history := args.history
    dualCap := args.dualCap
    powerShift := args.powerShift
    gCap := args.gCap
    ups := args.ups
    memoryThroughputTs := args.memoryThroughputTs
    soC := args.soC }

/-- The local variable `tmp` of `run_benchmark`, unless no branch assigns it. -/
def powerShiftDir (g : ScriptGlobals) : Option String :=
  if g.gCap = 0 ∧ g.powerShift = 0 then some "/no_power_shift/"
  else if g.gCap = 1 ∧ g.powerShift = 0 then some "/cap/noShift/"
  else if g.gCap = 1 ∧ g.powerShift = 1 then some "/cap/shift/"
  else none

/-- The options of the pcm-memory command line, in its order. -/
def pcmMemoryOptions (g : ScriptGlobals) (suite : String) (benchmark : BenchmarkName) :
    List (String × Word) :=
  [("--suite", .text suite), ("--benchmark", .text benchmark.name),
    ("--uncore_0", strFloat g.uncore0), ("--uncore_1", strFloat g.uncore1),
    ("--dynamic_ufs_mem", strInt g.dynamicUfsMem), ("--inc_ts", strInt g.incTs),
    ("--dec_ts", strInt g.decTs), ("--history", strInt g.history), ("--dual_cap", strInt g.dualCap),
    ("--burst_up", strFloat g.burstUp), ("--burst_low", strFloat g.burstLow),
    ("--power_shift", strInt g.powerShift), ("--g_cap", strInt g.gCap), ("--ups", strInt g.ups),
    ("--memory_throughput_ts", strInt g.memoryThroughputTs)]

/-- The words after the program name in the command that starts pcm-memory. -/
def pcmMemoryCommand (g : ScriptGlobals) (suite : String) (benchmark : BenchmarkName) : List Word :=
  .number (.finite (1 / 10)) :: valueWords (pcmMemoryOptions g suite benchmark)

/-- One call of `run_benchmark`: the pcm-memory command it starts, if any, and whether it raises.
Outside a test `tmp` is read before the start, in a test after it for the UPS and SoC files. -/
def runBenchmark (g : ScriptGlobals) (test : Bool) (suite : String) (benchmark : BenchmarkName) :
    Option (List Word) × Bool :=
  if !test && (powerShiftDir g).isNone then (none, true)
  else
    (if g.pcm ≠ 0 then some (pcmMemoryCommand g suite benchmark) else none,
      decide (g.ups = 1 ∨ g.soC = 1) && (powerShiftDir g).isNone)

/-- The commands started by a sequence of calls, up to one that raises. -/
def runBenchmarks (g : ScriptGlobals) (test : Bool) : List (String × BenchmarkName) → List (List Word)
  | [] => []
  | (suite, benchmark) :: rest =>
    let (started, raised) := runBenchmark g test suite benchmark
    started.toList ++ if raised then [] else runBenchmarks g test rest

/-- Select one suite: the variable `benchmark` if it names one that the suite accepts, else all of
the suite's benchmarks, and then the variable is left at the last of them. -/
def selectSuite (suite : String) (all : List BenchmarkName) (accepts : BenchmarkName → Bool)
    (benchmark : Option BenchmarkName) : List (String × BenchmarkName) × Option BenchmarkName :=
  match benchmark.filter (·.name ≠ "") with
  | some chosen => (if accepts chosen then [(suite, chosen)] else [], benchmark)
  | none => (all.map (suite, ·), all.getLast?)

/-- The benchmarks of the ALTIS suite, level by level. -/
def altisBenchmarks : List BenchmarkName :=
  altisBenchmarks0 ++ altisBenchmarks1 ++ altisBenchmarks2

/-- The calls of `run_benchmark` that the main part makes, suite by suite. -/
def selectBenchmarks (args : Args) : List (String × BenchmarkName) :=
  let (ecp, benchmark) :=
    if args.suite = 0 ∨ args.suite = 3 then
      selectSuite "ecp" ecpBenchmarks (fun _ => true) args.benchmark
    else ([], args.benchmark)
  let (altis, benchmark) :=
    if args.suite = 1 ∨ args.suite = 3 then
      selectSuite "altis" altisBenchmarks (altisBenchmarks.contains ·) benchmark
    else ([], benchmark)
  let (npb, _) :=
    if args.suite = 2 ∨ args.suite = 3 then
      selectSuite "npb" npbBenchmarks (fun _ => true) benchmark
    else ([], benchmark)
  ecp ++ altis ++ npb

/-- Whether the run is a test run. -/
def isTest (args : Args) : Bool := args.test.any (· ≠ 0)

/-- The pcm-memory command lines that the script starts, in order. -/
def startedCommands (args : Args) : List (List Word) :=
  runBenchmarks (copyArgs args scriptGlobals) (isTest args) (selectBenchmarks args)

/-- The options select at least one benchmark: every suite but ALTIS runs any name it is given. -/
def Selects (args : Args) : Prop :=
  args.suite = 0 ∨ args.suite = 2 ∨ args.suite = 3 ∨
    (args.suite = 1 ∧ ∀ benchmark ∈ args.benchmark, benchmark.name ≠ "" → benchmark ∈ altisBenchmarks)

/-- The script starts pcm-memory: it is asked to, some benchmark is selected, and outside a test
run the GPU cap and the power shift are one of the three known combinations. -/
def Starts (args : Args) : Prop :=
  args.pcm ≠ 0 ∧ Selects args ∧
    (isTest args = true ∨ (args.gCap = 0 ∧ args.powerShift = 0) ∨
      (args.gCap = 1 ∧ (args.powerShift = 0 ∨ args.powerShift = 1)))

instance (args : Args) : Decidable (Selects args) :=
  inferInstanceAs (Decidable (_ ∨ _ ∨ _ ∨ (_ ∧ ∀ benchmark ∈ args.benchmark, _)))

instance (args : Args) : Decidable (Starts args) := inferInstanceAs (Decidable (_ ∧ _ ∧ _))

/-- The first of several calls decides what comes first and whether the others are made. -/
theorem runBenchmarks_cons (g : ScriptGlobals) (test : Bool) (suite : String) (benchmark : BenchmarkName)
    (rest : List (String × BenchmarkName)) :
    runBenchmarks g test ((suite, benchmark) :: rest) =
      (runBenchmark g test suite benchmark).1.toList ++
        if (runBenchmark g test suite benchmark).2 then [] else runBenchmarks g test rest :=
  rfl

/-- What a call starts is a pcm-memory command of the module globals. -/
theorem runBenchmark_started {g : ScriptGlobals} {test : Bool} {suite : String}
    {benchmark : BenchmarkName} {words : List Word}
    (h : (runBenchmark g test suite benchmark).1 = some words) :
    words = pcmMemoryCommand g suite benchmark := by
  unfold runBenchmark at h
  split at h
  · cases h
  · change (if g.pcm ≠ 0 then some (pcmMemoryCommand g suite benchmark) else none) = some words at h
    split at h
    · exact (Option.some.inj h).symm
    · cases h

/-- Every started command is a pcm-memory command of the module globals. -/
theorem eq_pcmMemoryCommand_of_mem {g : ScriptGlobals} {test : Bool}
    {calls : List (String × BenchmarkName)} {words : List Word}
    (h : words ∈ runBenchmarks g test calls) :
    ∃ suite benchmark, words = pcmMemoryCommand g suite benchmark := by
  induction calls with
  | nil => cases h
  | cons call rest ih =>
    obtain ⟨suite, benchmark⟩ := call
    rw [runBenchmarks_cons, List.mem_append, Option.mem_toList] at h
    rcases h with hstarted | hlater
    · exact ⟨suite, benchmark, runBenchmark_started hstarted⟩
    · split at hlater
      · cases hlater
      · exact ih hlater

/-- Without `pcm` nothing is started. -/
theorem runBenchmarks_of_pcm_eq_zero {g : ScriptGlobals} (hpcm : g.pcm = 0) (test : Bool)
    (calls : List (String × BenchmarkName)) : runBenchmarks g test calls = [] := by
  induction calls with
  | nil => rfl
  | cons call rest ih =>
    obtain ⟨suite, benchmark⟩ := call
    have hstarted : (runBenchmark g test suite benchmark).1 = none := by
      unfold runBenchmark
      split
      · rfl
      · exact if_neg (not_not.mpr hpcm)
    rw [runBenchmarks_cons, hstarted, ih, ite_self]
    rfl

/-- Something is started exactly when `pcm` is set and a first call does not raise beforehand. -/
theorem runBenchmarks_ne_nil_iff (g : ScriptGlobals) (test : Bool) (calls : List (String × BenchmarkName)) :
    runBenchmarks g test calls ≠ [] ↔
      g.pcm ≠ 0 ∧ calls ≠ [] ∧ (test = true ∨ (powerShiftDir g).isSome = true) := by
  by_cases hpcm : g.pcm = 0
  · simp [runBenchmarks_of_pcm_eq_zero hpcm, hpcm]
  cases calls with
  | nil => simp [runBenchmarks]
  | cons call rest =>
    obtain ⟨suite, benchmark⟩ := call
    cases test with
    | true => simp [runBenchmarks, runBenchmark, hpcm]
    | false =>
      cases hdir : powerShiftDir g with
      | none => simp [runBenchmarks, runBenchmark, hdir]
      | some dir => simp [runBenchmarks, runBenchmark, hpcm, hdir]

/-- A suite that accepts every name selects at least one benchmark. -/
theorem selectSuite_ne_nil (suite : String) {all : List BenchmarkName} (hall : all ≠ [])
    (benchmark : Option BenchmarkName) :
    (selectSuite suite all (fun _ => true) benchmark).1 ≠ [] := by
  unfold selectSuite
  split
  · simp
  · simpa using hall

/-- The ALTIS suite selects a benchmark unless it is given a name that it does not have. -/
theorem selectSuite_altis_ne_nil_iff (benchmark : Option BenchmarkName) :
    (selectSuite "altis" altisBenchmarks (altisBenchmarks.contains ·) benchmark).1 ≠ [] ↔
      ∀ chosen ∈ benchmark, chosen.name ≠ "" → chosen ∈ altisBenchmarks := by
  have hall : altisBenchmarks ≠ [] := by decide
  unfold selectSuite
  cases benchmark with
  | none => simpa using hall
  | some chosen =>
    by_cases hname : chosen.name = ""
    · simpa [Option.filter, hname] using hall
    · simp [Option.filter, hname]

/-- The main part calls `run_benchmark` exactly when the options select a benchmark. -/
theorem selectBenchmarks_ne_nil_iff (args : Args) : selectBenchmarks args ≠ [] ↔ Selects args := by
  have hecp := selectSuite_ne_nil "ecp" (show ecpBenchmarks ≠ [] by decide) args.benchmark
  have hnpb := selectSuite_ne_nil "npb" (show npbBenchmarks ≠ [] by decide) args.benchmark
  have haltis := selectSuite_altis_ne_nil_iff args.benchmark
  by_cases hsuite0 : args.suite = 0
  · simp [selectBenchmarks, Selects, hsuite0, hecp]
  by_cases hsuite1 : args.suite = 1
  · simpa [selectBenchmarks, Selects, hsuite1] using haltis
  by_cases hsuite2 : args.suite = 2
  · simp [selectBenchmarks, Selects, hsuite2, hnpb]
  by_cases hsuite3 : args.suite = 3
  · simp [selectBenchmarks, Selects, hsuite3, hecp]
  · simp [selectBenchmarks, Selects, hsuite0, hsuite1, hsuite2, hsuite3]

end NodePower
