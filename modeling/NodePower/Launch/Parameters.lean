import NodePower.Launch.ArgumentLoop
import NodePower.Launch.Experiment
import NodePower.Gpu.Scaling

/-!
# The way of the experiment parameters

A parameter crosses the parsed options, the module globals of the experiment script, the
command line and the argument loop of pcm-memory. The copy to the module globals leaves out
the two burst thresholds, so pcm-memory always runs with 0.4 and 0.2. The other parameters
arrive when their numerals are read back: floats unless they are subnormal, integers in the
range of `int`, or among the `double` numbers where the global is a `double`.
-/

namespace NodePower

/-- Each global of pcm-memory is what its numeral on the command line is read as. -/
structure Reads (g : ScriptGlobals) (options : OptionValues Number) : Prop where
  uncore0 : stod (strFloat g.uncore0) = some options.uncore0
  uncore1 : stod (strFloat g.uncore1) = some options.uncore1
  dynamicUfsMem : stodToInt (strInt g.dynamicUfsMem) = some options.dynamicUfsMem
  incTs : stod (strInt g.incTs) = some options.incTs
  decTs : stod (strInt g.decTs) = some options.decTs
  history : stodToInt (strInt g.history) = some options.history
  dualCap : stodToInt (strInt g.dualCap) = some options.dualCap
  burstUp : stod (strFloat g.burstUp) = some options.burstUp
  burstLow : stod (strFloat g.burstLow) = some options.burstLow
  powerShift : stodToInt (strInt g.powerShift) = some options.powerShift
  gCap : stodToInt (strInt g.gCap) = some options.gCap
  ups : stodToInt (strInt g.ups) = some options.ups
  memoryThroughputTs : stod (strInt g.memoryThroughputTs) = some options.memoryThroughputTs

/-- Each global of pcm-memory holds exactly the value that was passed. -/
structure HoldsPassed (args : Args) (options : OptionValues Number) : Prop where
  uncore0 : options.uncore0 = args.uncore0.value
  uncore1 : options.uncore1 = args.uncore1.value
  dynamicUfsMem : options.dynamicUfsMem.toInt = args.dynamicUfsMem
  incTs : options.incTs = .finite args.incTs
  decTs : options.decTs = .finite args.decTs
  history : options.history.toInt = args.history
  dualCap : options.dualCap.toInt = args.dualCap
  burstUp : options.burstUp = args.burstUp.value
  burstLow : options.burstLow = args.burstLow.value
  powerShift : options.powerShift.toInt = args.powerShift
  gCap : options.gCap.toInt = args.gCap
  ups : options.ups.toInt = args.ups
  memoryThroughputTs : options.memoryThroughputTs = .finite args.memoryThroughputTs

/-- Every pcm-memory process that the script starts ends its argument loop with the values that
were passed. -/
def ParametersArrive (args : Args) : Prop :=
  ∀ words ∈ startedCommands args, ∃ options,
    mainThrowsOptions words = some options ∧ HoldsPassed args options

/-- The values that survive the way, and the two burst thresholds that are never replaced. -/
structure Passable (args : Args) : Prop where
  uncore0 : args.uncore0.value.NotSubnormal
  uncore1 : args.uncore1.value.NotSubnormal
  dynamicUfsMem : InIntRange args.dynamicUfsMem
  incTs : IsBinary64 args.incTs
  decTs : IsBinary64 args.decTs
  history : InIntRange args.history
  dualCap : InIntRange args.dualCap
  burstUp : args.burstUp.value = .finite (roundBinary64 (4 / 10))
  burstLow : args.burstLow.value = .finite (roundBinary64 (2 / 10))
  powerShift : InIntRange args.powerShift
  gCap : InIntRange args.gCap
  ups : InIntRange args.ups
  memoryThroughputTs : IsBinary64 args.memoryThroughputTs

/-- The options of the command line are all value options of pcm-memory. -/
theorem pcmMemoryOptions_isValueOption (g : ScriptGlobals) (suite : String) (benchmark : BenchmarkName) :
    ∀ pair ∈ pcmMemoryOptions g suite benchmark, IsValueOption pair.1 := by
  have hnames : ∀ name ∈ (pcmMemoryOptions g suite benchmark).map Prod.fst, IsValueOption name := by
    change ∀ name ∈ ["--suite", "--benchmark", "--uncore_0", "--uncore_1", "--dynamic_ufs_mem",
      "--inc_ts", "--dec_ts", "--history", "--dual_cap", "--burst_up", "--burst_low",
      "--power_shift", "--g_cap", "--ups", "--memory_throughput_ts"], IsValueOption name
    decide
  intro pair hpair
  exact hnames pair.1 (List.mem_map_of_mem hpair)

/-- The handlers that the options of the command line reach, with their values. -/
def pcmMemoryHandlers (g : ScriptGlobals) (suite : String) (benchmark : BenchmarkName) :
    List (ValueHandler × Word) :=
  [(fileNameOption, .text suite), (fileNameOption, .text benchmark.name),
    (doubleOption fun x o => { o with uncore0 := x }, strFloat g.uncore0),
    (doubleOption fun x o => { o with uncore1 := x }, strFloat g.uncore1),
    (intOption fun n o => { o with dynamicUfsMem := n }, strInt g.dynamicUfsMem),
    (doubleOption fun x o => { o with incTs := x }, strInt g.incTs),
    (doubleOption fun x o => { o with decTs := x }, strInt g.decTs),
    (intOption fun n o => { o with history := n }, strInt g.history),
    (intOption fun n o => { o with dualCap := n }, strInt g.dualCap),
    (doubleOption fun x o => { o with burstUp := x }, strFloat g.burstUp),
    (doubleOption fun x o => { o with burstLow := x }, strFloat g.burstLow),
    (intOption fun n o => { o with powerShift := n }, strInt g.powerShift),
    (intOption fun n o => { o with gCap := n }, strInt g.gCap),
    (intOption fun n o => { o with ups := n }, strInt g.ups),
    (doubleOption fun x o => { o with memoryThroughputTs := x }, strInt g.memoryThroughputTs)]

/-- The options of the command line select these handlers. -/
theorem valueOption_pcmMemoryOptions (g : ScriptGlobals) (suite : String) (benchmark : BenchmarkName) :
    (pcmMemoryOptions g suite benchmark).map (fun pair => (valueOption (.text pair.1), pair.2)) =
      (pcmMemoryHandlers g suite benchmark).map fun pair => (some pair.1, pair.2) :=
  rfl

/-- pcm-memory ends its argument loop exactly with what its numerals are read as. -/
theorem mainThrowsOptions_eq_some_iff (g : ScriptGlobals) (suite : String) (benchmark : BenchmarkName)
    (options : OptionValues Number) :
    mainThrowsOptions (pcmMemoryCommand g suite benchmark) = some options ↔ Reads g options := by
  rw [mainThrowsOptions, mainThrowsState, pcmMemoryCommand,
    argumentLoop_delay (by decide +kernel) (by decide +kernel),
    argumentLoop_valueWords (pcmMemoryOptions_isValueOption g suite benchmark),
    foldlM_applyOption (valueOption_pcmMemoryOptions g suite benchmark)]
  simp only [pcmMemoryHandlers, List.foldlM_cons, List.foldlM_nil, Option.bind_eq_bind]
  simp only [fileNameOption, Option.bind_some]
  simp only [doubleOption, intOption, Option.bind_eq_some_iff, Option.map_eq_some_iff,
    Option.pure_def, Option.some.injEq, exists_exists_and_eq_and]
  constructor
  · intro h
    obtain ⟨_, h1, _, h2, _, h3, _, h4, _, h5, _, h6, _, h7, _, h8, _, h9, _, h10, _, h11, _, h12, _,
      h13, heq⟩ := h
    rw [← heq]
    exact ⟨h1, h2, h3, h4, h5, h6, h7, h8, h9, h10, h11, h12, h13⟩
  · intro h
    exact ⟨_, h.uncore0, _, h.uncore1, _, h.dynamicUfsMem, _, h.incTs, _, h.decTs, _, h.history,
      _, h.dualCap, _, h.burstUp, _, h.burstLow, _, h.powerShift, _, h.gCap, _, h.ups,
      _, h.memoryThroughputTs, rfl⟩

/-- pcm-memory leaves its argument loop with the suite and the benchmark of the command line. -/
theorem mainThrowsState_fileNames {g : ScriptGlobals} {suite : String} {benchmark : BenchmarkName}
    {state : ArgumentState} (hstate : mainThrowsState (pcmMemoryCommand g suite benchmark) = some state) :
    state.fileNames = ⟨.text suite, .text benchmark.name⟩ := by
  rw [mainThrowsState, pcmMemoryCommand,
    argumentLoop_delay (by decide +kernel) (by decide +kernel)] at hstate
  exact argumentLoop_fileNames (pcmMemoryOptions_isValueOption g suite benchmark) hstate

/-- A copied float arrives exactly when it is not subnormal. -/
theorem float_arrives_iff (x : PyFloat) :
    (∃ y, stod (strFloat x) = some y ∧ y = x.value) ↔ x.value.NotSubnormal := by
  rw [← stod_strFloat_iff]
  simp

/-- An integer for a `double` global arrives exactly when it is a `double`. -/
theorem integer_arrives_iff (n : ℤ) :
    (∃ y, stod (strInt n) = some y ∧ y = .finite n) ↔ IsBinary64 n := by
  rw [← stod_strInt_iff]
  simp

/-- The burst thresholds of the script are read back. -/
theorem stod_strFloat_scriptGlobals :
    stod (strFloat scriptGlobals.burstUp) = some scriptGlobals.burstUp.value ∧
      stod (strFloat scriptGlobals.burstLow) = some scriptGlobals.burstLow.value := by
  have hup : scriptGlobals.burstUp.value.NotSubnormal := Or.inr (by decide +kernel)
  have hlow : scriptGlobals.burstLow.value.NotSubnormal := Or.inr (by decide +kernel)
  exact ⟨(stod_strFloat_iff _).mpr hup, (stod_strFloat_iff _).mpr hlow⟩

/-- The globals that pcm-memory reads hold the passed values exactly when these are passable. -/
theorem exists_reads_holdsPassed_iff (args : Args) :
    (∃ options, Reads (copyArgs args scriptGlobals) options ∧ HoldsPassed args options) ↔
      Passable args := by
  obtain ⟨hup, hlow⟩ := stod_strFloat_scriptGlobals
  constructor
  · rintro ⟨options, hreads, hholds⟩
    have hburstUp : scriptGlobals.burstUp.value = options.burstUp :=
      Option.some.inj (hup.symm.trans hreads.burstUp)
    have hburstLow : scriptGlobals.burstLow.value = options.burstLow :=
      Option.some.inj (hlow.symm.trans hreads.burstLow)
    exact
      { uncore0 := (float_arrives_iff _).mp ⟨_, hreads.uncore0, hholds.uncore0⟩
        uncore1 := (float_arrives_iff _).mp ⟨_, hreads.uncore1, hholds.uncore1⟩
        dynamicUfsMem := (exists_stodToInt_strInt_iff _).mp
          ⟨_, hreads.dynamicUfsMem, hholds.dynamicUfsMem⟩
        incTs := (integer_arrives_iff _).mp ⟨_, hreads.incTs, hholds.incTs⟩
        decTs := (integer_arrives_iff _).mp ⟨_, hreads.decTs, hholds.decTs⟩
        history := (exists_stodToInt_strInt_iff _).mp ⟨_, hreads.history, hholds.history⟩
        dualCap := (exists_stodToInt_strInt_iff _).mp ⟨_, hreads.dualCap, hholds.dualCap⟩
        burstUp := (hburstUp.trans hholds.burstUp).symm
        burstLow := (hburstLow.trans hholds.burstLow).symm
        powerShift := (exists_stodToInt_strInt_iff _).mp ⟨_, hreads.powerShift, hholds.powerShift⟩
        gCap := (exists_stodToInt_strInt_iff _).mp ⟨_, hreads.gCap, hholds.gCap⟩
        ups := (exists_stodToInt_strInt_iff _).mp ⟨_, hreads.ups, hholds.ups⟩
        memoryThroughputTs := (integer_arrives_iff _).mp
          ⟨_, hreads.memoryThroughputTs, hholds.memoryThroughputTs⟩ }
  · intro h
    obtain ⟨dynamicUfsMem, hread1, hheld1⟩ := (exists_stodToInt_strInt_iff _).mpr h.dynamicUfsMem
    obtain ⟨history, hread2, hheld2⟩ := (exists_stodToInt_strInt_iff _).mpr h.history
    obtain ⟨dualCap, hread3, hheld3⟩ := (exists_stodToInt_strInt_iff _).mpr h.dualCap
    obtain ⟨powerShift, hread4, hheld4⟩ := (exists_stodToInt_strInt_iff _).mpr h.powerShift
    obtain ⟨gCap, hread5, hheld5⟩ := (exists_stodToInt_strInt_iff _).mpr h.gCap
    obtain ⟨ups, hread6, hheld6⟩ := (exists_stodToInt_strInt_iff _).mpr h.ups
    refine ⟨⟨args.uncore0.value, args.uncore1.value, .finite args.incTs, .finite args.decTs,
      dynamicUfsMem, history, dualCap, scriptGlobals.burstUp.value, scriptGlobals.burstLow.value,
      powerShift, gCap, ups, .finite args.memoryThroughputTs⟩, ?_, ?_⟩
    · exact ⟨(stod_strFloat_iff _).mpr h.uncore0, (stod_strFloat_iff _).mpr h.uncore1, hread1,
        (stod_strInt_iff _).mpr h.incTs, (stod_strInt_iff _).mpr h.decTs, hread2, hread3, hup, hlow,
        hread4, hread5, hread6, (stod_strInt_iff _).mpr h.memoryThroughputTs⟩
    · exact ⟨rfl, rfl, hheld1, rfl, rfl, hheld2, hheld3, h.burstUp.symm, h.burstLow.symm, hheld4,
        hheld5, hheld6, rfl⟩

/-- The power-shift directory is known for three combinations of the GPU cap and the power shift. -/
theorem isSome_powerShiftDir_iff (g : ScriptGlobals) :
    (powerShiftDir g).isSome = true ↔
      (g.gCap = 0 ∧ g.powerShift = 0) ∨ (g.gCap = 1 ∧ (g.powerShift = 0 ∨ g.powerShift = 1)) := by
  unfold powerShiftDir
  split_ifs <;> simp_all

/-- The script starts some pcm-memory process exactly under its starting conditions. -/
theorem startedCommands_ne_nil_iff (args : Args) : startedCommands args ≠ [] ↔ Starts args := by
  rw [startedCommands, runBenchmarks_ne_nil_iff, selectBenchmarks_ne_nil_iff, isSome_powerShiftDir_iff]
  rfl

/-- The parameters arrive exactly when no process is started or the values are passable. -/
theorem parametersArrive_iff_passable (args : Args) :
    ParametersArrive args ↔ (Starts args → Passable args) := by
  rw [← startedCommands_ne_nil_iff, ← exists_reads_holdsPassed_iff]
  constructor
  · intro harrive hstarted
    obtain ⟨words, hwords⟩ := List.exists_mem_of_ne_nil _ hstarted
    obtain ⟨options, hoptions, hholds⟩ := harrive words hwords
    obtain ⟨suite, benchmark, rfl⟩ := eq_pcmMemoryCommand_of_mem hwords
    exact ⟨options, (mainThrowsOptions_eq_some_iff _ _ _ _).mp hoptions, hholds⟩
  · intro h words hwords
    obtain ⟨options, hreads, hholds⟩ := h (List.ne_nil_of_mem hwords)
    obtain ⟨suite, benchmark, rfl⟩ := eq_pcmMemoryCommand_of_mem hwords
    exact ⟨options, (mainThrowsOptions_eq_some_iff _ _ _ _).mpr hreads, hholds⟩

/-- The experiment parameters reach the two controllers unchanged exactly when the script starts no
pcm-memory process or is given passable values, with the burst thresholds that it never
replaces, and the GPU monitor compares no power or is given the threshold that the module
starts with. -/
theorem experimentParameters_arrive_iff (args : Args) (gpuArgs : Gpu.Args) :
    ParametersArrive args ∧ Gpu.ThresholdArrives gpuArgs ↔
      (Starts args → Passable args) ∧
        (gpuArgs.dynamicUncoreFrequency = 0 ∨ gpuArgs.gpuPowerTs = 100) :=
  and_congr (parametersArrive_iff_passable args) (Gpu.thresholdArrives_iff gpuArgs)

/-- A burst threshold of 0.7 does not reach pcm-memory. -/
theorem experimentParameters_lost :
    ¬ ∀ (args : Args) (gpuArgs : Gpu.Args), ParametersArrive args ∧ Gpu.ThresholdArrives gpuArgs := by
  intro h
  have harrive := (h { defaultArgs with
    pcm := 1, burstUp := floatLiteral (7 / 10) (by decide +kernel) } ⟨1, 100⟩).1
  have hstarts : Starts { defaultArgs with
      pcm := 1, burstUp := floatLiteral (7 / 10) (by decide +kernel) } := by decide
  have hpassable := (parametersArrive_iff_passable _).mp harrive hstarts
  exact absurd hpassable.burstUp (by decide +kernel)

end NodePower
