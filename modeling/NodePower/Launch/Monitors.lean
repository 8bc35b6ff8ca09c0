import NodePower.Common.CString
import NodePower.Launch.Parameters
import NodePower.Pcm.MainLoop

/-!
# The monitors of an experiment

Besides pcm-memory, `run_benchmark` starts up to two processes that set the uncore frequency: `ups` and
`SoC`. Their main functions read the same command line: options with their values behind a sign of
equality, two of which must be given. That of `ups` first looks for the energy files of the DRAM, and
exits if there is none. The words of a command line are those into which the shell cuts it; the names of
suites, directories and benchmarks are plain.
-/

namespace NodePower

/-- `atoi`: the value of `strtol` with base 10, cut down to an `int`. -/
def atoi (text : Text) : Int32 :=
  let (negative, unsigned) := splitSign (text.dropWhile isCSpace)
  Int32.ofInt (max (-2 ^ 63) (min (2 ^ 63 - 1)
    (signedNumber negative (unsigned.takeWhile Char.isDigit))))

/-- The names of the options, with the sign behind them. -/
inductive MonitorOption where
  | pid
  | outputCsv
  | dualCap
  deriving DecidableEq

/-- The text of a name. -/
def MonitorOption.name : MonitorOption → Text
  | .pid => "--pid=".toList
  | .outputCsv => "--output_csv=".toList
  | .dualCap => "--dual_cap=".toList

/-- The variables that the argument loop sets. -/
structure MonitorArguments where
  pid : Int32
  outputCsv : Option Text
  dualCap : Int32

/-- Their values before the loop. -/
def startArguments : MonitorArguments := ⟨-1, none, 0⟩

/-- One pass of the argument loop, which an unknown argument ends. -/
def monitorArgument (a : MonitorArguments) (argument : Text) : Option MonitorArguments :=
  if MonitorOption.pid.name.isPrefixOf argument then
    some { a with pid := atoi (argument.drop 6) }
  else if MonitorOption.outputCsv.name.isPrefixOf argument then
    some { a with outputCsv := some (argument.drop 13) }
  else if MonitorOption.dualCap.name.isPrefixOf argument then
    some { a with dualCap := atoi (argument.drop 11) }
  else none

/-- The variables with which a command line lets `main` start to monitor, if it does not exit. -/
def commandLineArguments (argv : List Text) : Option MonitorArguments :=
  (argv.foldlM monitorArgument startArguments).filter fun a => a.pid ≠ -1 && a.outputCsv.isSome

/-- The energy file of the DRAM of a socket. -/
def dramEnergyFile (socketId : ℕ) : Text :=
  let id := Nat.toDigits 10 socketId
  "/sys/class/powercap/intel-rapl:".toList ++ id ++ "/intel-rapl:".toList ++ id ++
    ":0/energy_uj".toList

/-- `discover_dram_rapl_files`: the energy files that can be accessed, or the exit without any. There is
memory for a copy of their paths. -/
def discoverDramRaplFiles (access : Text → Bool) : Option (List Text) :=
  let dramEnergyFiles := ((List.range 2).map dramEnergyFile).filter access
  if dramEnergyFiles = [] then none else some dramEnergyFiles

/-- `main` of `ups.c`: the energy files and the variables with which it starts to monitor. -/
def upsMain (access : Text → Bool) (argv : List Text) : Option (List Text × MonitorArguments) := do
  let dramEnergyFiles ← discoverDramRaplFiles access
  let a ← commandLineArguments argv
  some (dramEnergyFiles, a)

/-- `main` of `SoC.c`: the variables with which it starts to monitor. -/
def soCMain (argv : List Text) : Option MonitorArguments := commandLineArguments argv

/-- The values that a list of arguments gives to an option, in their order. -/
def valuesOf (option : MonitorOption) (argv : List Text) : List Text :=
  argv.filterMap fun argument =>
    if option.name.isPrefixOf argument then some (argument.drop option.name.length) else none

/-- No name starts with another one. -/
theorem MonitorOption.eq_of_isPrefixOf {option other : MonitorOption} {argument : Text}
    (h : option.name.isPrefixOf argument = true) (hother : other.name.isPrefixOf argument = true) :
    option = other := by
  rw [List.isPrefixOf_iff_prefix] at h hother
  have hdisjoint : ∀ {first second : MonitorOption}, first.name <+: second.name → first = second := by
    intro first second hprefix
    rw [← List.isPrefixOf_iff_prefix] at hprefix
    cases first <;> cases second <;> first | rfl | exact absurd hprefix (by decide)
  rcases List.prefix_or_prefix_of_prefix h hother with hprefix | hprefix
  · exact hdisjoint hprefix
  · exact (hdisjoint hprefix).symm

/-- The argument is an option with a value. -/
def IsOption (argument : Text) : Prop := ∃ option : MonitorOption, option.name.isPrefixOf argument = true

/-- What the variables are after arguments that are all options: the last value of each decides. -/
def lastArguments (a : MonitorArguments) (argv : List Text) : MonitorArguments where
  pid := ((valuesOf .pid argv).map atoi).getLastD a.pid
  outputCsv := ((valuesOf .outputCsv argv).map some).getLastD a.outputCsv
  dualCap := ((valuesOf .dualCap argv).map atoi).getLastD a.dualCap

/-- An argument is a value for its own option alone. -/
theorem valuesOf_cons {option : MonitorOption} {argument : Text}
    (h : option.name.isPrefixOf argument = true) (other : MonitorOption) (rest : List Text) :
    valuesOf other (argument :: rest) =
      if other = option then argument.drop option.name.length :: valuesOf other rest
      else valuesOf other rest := by
  by_cases hsame : other = option
  · subst hsame
    rw [valuesOf, List.filterMap_cons, if_pos h, if_pos rfl]
    rfl
  · have hnone : other.name.isPrefixOf argument = false := by
      rw [← Bool.not_eq_true]
      exact fun hother => hsame (MonitorOption.eq_of_isPrefixOf hother h)
    rw [valuesOf, List.filterMap_cons, if_neg (ne_true_of_eq_false hnone), if_neg hsame]
    rfl

/-- An option sets its own variable. -/
theorem monitorArgument_of_isPrefixOf (a : MonitorArguments) {option : MonitorOption} {argument : Text}
    (h : option.name.isPrefixOf argument = true) (rest : List Text) :
    ∃ b, monitorArgument a argument = some b ∧
      lastArguments a (argument :: rest) = lastArguments b rest := by
  have hothers : ∀ other : MonitorOption, other ≠ option → ¬other.name.isPrefixOf argument = true :=
    fun other hother hprefix => hother (MonitorOption.eq_of_isPrefixOf hprefix h)
  have hvalues := valuesOf_cons h
  cases option with
  | pid =>
    refine ⟨{ a with pid := atoi (argument.drop 6) }, if_pos h, ?_⟩
    simp only [lastArguments, hvalues, reduceCtorEq, if_true, if_false, List.map_cons,
      List.getLastD_cons]
    rfl
  | outputCsv =>
    refine ⟨{ a with outputCsv := some (argument.drop 13) }, ?_, ?_⟩
    · rw [monitorArgument, if_neg (hothers .pid (by decide)), if_pos h]
    · simp only [lastArguments, hvalues, reduceCtorEq, if_true, if_false, List.map_cons,
        List.getLastD_cons]
      rfl
  | dualCap =>
    refine ⟨{ a with dualCap := atoi (argument.drop 11) }, ?_, ?_⟩
    · rw [monitorArgument, if_neg (hothers .pid (by decide)), if_neg (hothers .outputCsv (by decide)),
        if_pos h]
    · simp only [lastArguments, hvalues, reduceCtorEq, if_true, if_false, List.map_cons,
        List.getLastD_cons]
      rfl

/-- What is no option ends the loop. -/
theorem monitorArgument_eq_none (a : MonitorArguments) {argument : Text} (h : ¬IsOption argument) :
    monitorArgument a argument = none := by
  have hnone : ∀ option : MonitorOption, ¬option.name.isPrefixOf argument = true :=
    fun option hprefix => h ⟨option, hprefix⟩
  rw [monitorArgument, if_neg (hnone .pid), if_neg (hnone .outputCsv), if_neg (hnone .dualCap)]

/-- The loop ends exactly when all arguments are options. -/
theorem argumentLoop_eq_some_iff (a b : MonitorArguments) (argv : List Text) :
    argv.foldlM monitorArgument a = some b ↔
      (∀ argument ∈ argv, IsOption argument) ∧ b = lastArguments a argv := by
  induction argv generalizing a with
  | nil =>
    have hstart : lastArguments a [] = a := rfl
    rw [hstart]
    constructor
    · intro h
      exact ⟨fun _ h => absurd h List.not_mem_nil, (Option.some.inj h).symm⟩
    · rintro ⟨-, rfl⟩
      rfl
  | cons argument rest ih =>
    rw [List.foldlM_cons, Option.bind_eq_bind]
    by_cases hoption : IsOption argument
    · obtain ⟨option, hprefix⟩ := id hoption
      obtain ⟨next, hnext, hlast⟩ := monitorArgument_of_isPrefixOf a hprefix rest
      rw [hnext, Option.bind_some, ih, hlast, List.forall_mem_cons, and_iff_right hoption]
    · rw [monitorArgument_eq_none a hoption, Option.bind_none]
      simp [hoption]

/-- A command line is accepted exactly when all arguments are options and the last values name a process
and an output, and then the variables are the last values. -/
theorem commandLineArguments_eq_some_iff (argv : List Text) (a : MonitorArguments) :
    commandLineArguments argv = some a ↔
      (∀ argument ∈ argv, IsOption argument) ∧ a = lastArguments startArguments argv ∧
        a.pid ≠ -1 ∧ valuesOf .outputCsv argv ≠ [] := by
  have hcsv : (lastArguments startArguments argv).outputCsv.isSome = true ↔
      valuesOf .outputCsv argv ≠ [] := by
    rw [lastArguments, startArguments]
    cases hvalues : valuesOf .outputCsv argv using List.reverseRecOn with
    | nil => simp
    | append_singleton earlier last => simp
  rw [commandLineArguments, Option.filter_eq_some_iff, argumentLoop_eq_some_iff, Bool.and_eq_true,
    decide_eq_true_eq, and_assoc]
  constructor
  · rintro ⟨hoptions, rfl, hpid, hsome⟩
    exact ⟨hoptions, rfl, hpid, hcsv.mp hsome⟩
  · rintro ⟨hoptions, rfl, hpid, hvalues⟩
    exact ⟨hoptions, rfl, hpid, hcsv.mpr hvalues⟩

/-- The energy files are found exactly when one of the two sockets has one. -/
theorem discoverDramRaplFiles_eq_some_iff (access : Text → Bool) (dramEnergyFiles : List Text) :
    discoverDramRaplFiles access = some dramEnergyFiles ↔
      dramEnergyFiles = [dramEnergyFile 0, dramEnergyFile 1].filter access ∧
        (access (dramEnergyFile 0) = true ∨ access (dramEnergyFile 1) = true) := by
  have hfiles : (List.range 2).map dramEnergyFile = [dramEnergyFile 0, dramEnergyFile 1] := rfl
  have hfound : [dramEnergyFile 0, dramEnergyFile 1].filter access ≠ [] ↔
      access (dramEnergyFile 0) = true ∨ access (dramEnergyFile 1) = true := by
    cases hfirst : access (dramEnergyFile 0) with
    | true => simp [hfirst]
    | false => simp [hfirst]
  rw [discoverDramRaplFiles, hfiles, ← hfound]
  by_cases hnone : [dramEnergyFile 0, dramEnergyFile 1].filter access = []
  · simp [hnone]
  · rw [if_neg hnone, Option.some.injEq, eq_comm, and_iff_left hnone]

/-- `SoC` starts to monitor exactly when its command line is accepted, and `ups` exactly if, besides, one
of the sockets has an energy file of its DRAM; both do so with the last values of their options. -/
theorem monitorMains_eq_some_iff (access : Text → Bool) (argv : List Text) (a : MonitorArguments) :
    let accepted := (∀ argument ∈ argv, IsOption argument) ∧ a = lastArguments startArguments argv ∧
      a.pid ≠ -1 ∧ valuesOf .outputCsv argv ≠ []
    (soCMain argv = some a ↔ accepted) ∧
      ∀ dramEnergyFiles, upsMain access argv = some (dramEnergyFiles, a) ↔
        accepted ∧ dramEnergyFiles = [dramEnergyFile 0, dramEnergyFile 1].filter access ∧
          (access (dramEnergyFile 0) = true ∨ access (dramEnergyFile 1) = true) := by
  intro accepted
  refine ⟨commandLineArguments_eq_some_iff argv a, ?_⟩
  intro dramEnergyFiles
  rw [← discoverDramRaplFiles_eq_some_iff, ← show commandLineArguments argv = some a ↔ accepted from
    commandLineArguments_eq_some_iff argv a, upsMain]
  constructor
  · intro h
    obtain ⟨files, hfiles, h⟩ := Option.bind_eq_some_iff.mp h
    obtain ⟨b, hb, h⟩ := Option.bind_eq_some_iff.mp h
    obtain ⟨rfl, rfl⟩ := Prod.mk.inj (Option.some.inj h)
    exact ⟨hb, hfiles⟩
  · rintro ⟨ha, hfiles⟩
    rw [hfiles, ha]
    rfl

/-- The arguments with which both monitors are started. -/
def monitorCommand (outputCsv : Text) (benchmarkPid : ℕ) (dualCap : ℤ) : List Text :=
  [MonitorOption.outputCsv.name ++ outputCsv, MonitorOption.pid.name ++ Nat.toDigits 10 benchmarkPid,
    MonitorOption.dualCap.name ++ integerText dualCap]

/-- The name of a data file outside a test. -/
def dataFile (suite tmp : String) (benchmark : BenchmarkName) (quantity : String) : Text :=
  ("../data/" ++ suite ++ "_power_res/" ++ tmp ++ benchmark.name ++ quantity ++ ".csv").toList

/-- The name of a data file in a test. -/
def testFile (suite : String) (benchmark : BenchmarkName) (quantity : String) : Text :=
  ("../data/" ++ suite ++ "_test/" ++ benchmark.name ++ quantity ++ ".csv").toList

/-- `ups_tag`. -/
def upsTag (g : ScriptGlobals) : String := if g.ups ≠ 0 then "_ups" else ""

/-- `SoC_tag`. -/
def soCTag (g : ScriptGlobals) : String := if g.soC ≠ 0 then "_SoC" else ""

/-- The processes that `run_benchmark` starts, with what they are given. -/
inductive Process where
  | pcmMemory (words : List Word)
  | benchmark (suite : String) (benchmark : BenchmarkName)
  | ups (argv : List Text)
  | soC (argv : List Text)
  | readCpuPower (outputCsv : Text) (pid : ℕ)
  | readGpuPower (outputCsv : Text) (pid : ℕ) (dynamicUncore gpuPowerTs : ℤ)

section

variable (g : ScriptGlobals) (test : Bool) (suite : String) (benchmark : BenchmarkName)
  (benchmarkPid : ℕ)

/-- pcm-memory, if it is asked for, and the benchmark itself. -/
def firstProcesses : List Process :=
  (if g.pcm ≠ 0 then [.pcmMemory (pcmMemoryCommand g suite benchmark)] else []) ++
    [.benchmark suite benchmark]

/-- The two monitors that set the uncore frequency. -/
def uncoreMonitors (tmp : String) : List Process :=
  (if g.ups = 1 then
    [.ups (monitorCommand (dataFile suite tmp benchmark ("_dram_ipc" ++ upsTag g)) benchmarkPid g.dualCap)]
  else []) ++
  if g.soC = 1 then
    [.soC (monitorCommand (dataFile suite tmp benchmark ("_cpu_util" ++ soCTag g)) benchmarkPid g.dualCap)]
  else []

/-- The monitors of the power; that of the GPU is not started for the NPB suite. -/
def powerMonitors (file : String → Text) : List Process :=
  .readCpuPower (file "_power_cpu") benchmarkPid ::
    if suite = "altis" ∨ suite = "ecp" then
      [.readGpuPower (file "_power_gpu") benchmarkPid g.dynamicUfsGpuP g.gpuPowerTs]
    else []

/-- The name of a power file. -/
def powerFile (tmp quantity : String) : Text :=
  if test then testFile suite benchmark quantity
  else dataFile suite tmp benchmark (quantity ++ upsTag g ++ soCTag g)

/-- The processes that one call of `run_benchmark` starts, in order, and whether it raises. -/
def startProcesses : List Process × Bool :=
  match powerShiftDir g with
  | some tmp =>
    (firstProcesses g suite benchmark ++ uncoreMonitors g suite benchmark benchmarkPid tmp ++
      powerMonitors g suite benchmarkPid (powerFile g test suite benchmark tmp), false)
  | none =>
    if !test then ([], true)
    else if g.ups = 1 ∨ g.soC = 1 then (firstProcesses g suite benchmark, true)
    else
      (firstProcesses g suite benchmark ++
        powerMonitors g suite benchmarkPid (testFile suite benchmark), false)

/-- The command of pcm-memory, if a process is one. -/
def Process.pcmWords : Process → Option (List Word)
  | .pcmMemory words => some words
  | _ => none

/-- The first command of pcm-memory among the processes is that of `pcm`. -/
theorem findSome_firstProcesses (rest : List Process) (hrest : ∀ process ∈ rest, process.pcmWords = none) :
    (firstProcesses g suite benchmark ++ rest).findSome? Process.pcmWords =
      if g.pcm ≠ 0 then some (pcmMemoryCommand g suite benchmark) else none := by
  rw [firstProcesses]
  split_ifs with hpcm
  · rfl
  · rw [List.nil_append, List.singleton_append, List.findSome?_cons]
    exact List.findSome?_eq_none_iff.mpr hrest

/-- No other process is pcm-memory. -/
theorem pcmWords_monitors (tmp : String) (file : String → Text) :
    ∀ process ∈ uncoreMonitors g suite benchmark benchmarkPid tmp ++ powerMonitors g suite benchmarkPid file,
      process.pcmWords = none := by
  intro process hprocess
  simp only [uncoreMonitors, powerMonitors, List.mem_append, List.mem_ite_nil_right, List.mem_cons,
    List.not_mem_nil, or_false] at hprocess
  rcases hprocess with (⟨-, rfl⟩ | ⟨-, rfl⟩) | rfl | ⟨-, rfl⟩ <;> rfl

/-- Of all processes `runBenchmark` keeps the command of pcm-memory. -/
theorem runBenchmark_eq_startProcesses :
    runBenchmark g test suite benchmark =
      ((startProcesses g test suite benchmark benchmarkPid).1.findSome? Process.pcmWords,
        (startProcesses g test suite benchmark benchmarkPid).2) := by
  have hpower : ∀ process ∈ powerMonitors g suite benchmarkPid (testFile suite benchmark),
      process.pcmWords = none :=
    fun process hprocess => pcmWords_monitors g suite benchmark benchmarkPid "" _ process
      (List.mem_append_right _ hprocess)
  unfold runBenchmark startProcesses
  cases hdir : powerShiftDir g with
  | some tmp =>
    dsimp only
    rw [List.append_assoc, findSome_firstProcesses g suite benchmark _
      (pcmWords_monitors g suite benchmark benchmarkPid tmp _)]
    simp
  | none =>
    cases test with
    | false => simp
    | true =>
      by_cases hmonitors : g.ups = 1 ∨ g.soC = 1
      · have hfirst := findSome_firstProcesses g suite benchmark [] (fun _ h => absurd h List.not_mem_nil)
        rw [List.append_nil] at hfirst
        simp [hmonitors, hfirst]
      · have hfirst := findSome_firstProcesses g suite benchmark _ hpower
        simp [hmonitors, hfirst]

end

/-- Digits stop neither at their front nor before their end. -/
theorem digits_of_toDigits (n : ℕ) :
    (Nat.toDigits 10 n).dropWhile isCSpace = Nat.toDigits 10 n ∧
      splitSign (Nat.toDigits 10 n) = (false, Nat.toDigits 10 n) ∧
      (Nat.toDigits 10 n).takeWhile Char.isDigit = Nat.toDigits 10 n := by
  obtain ⟨c, rest, hdigits, hc⟩ := exists_toDigits_eq_cons n
  have hspace : isCSpace c = false := by
    rw [← Bool.not_eq_true]
    intro hspace
    simp only [isCSpace, List.mem_cons, List.not_mem_nil, or_false, decide_eq_true_eq] at hspace
    rcases hspace with rfl | rfl | rfl | rfl | rfl | rfl <;> exact absurd hc (by decide)
  refine ⟨?_, ?_, ?_⟩
  · rw [hdigits, List.dropWhile_cons_of_neg (ne_true_of_eq_false hspace)]
  · rw [hdigits]
    unfold splitSign
    split
    · rename_i heq
      rw [(List.cons.inj heq).1] at hc
      exact absurd hc (by decide)
    · rename_i heq
      rw [(List.cons.inj heq).1] at hc
      exact absurd hc (by decide)
    · rfl
  · exact List.takeWhile_eq_self_iff.mpr fun d hd => isDigit_of_mem_toDigits hd

/-- A printed integer is read back, as far as `strtol` and the cut allow. -/
theorem atoi_integerText (n : ℤ) :
    atoi (integerText n) = Int32.ofInt (max (-2 ^ 63) (min (2 ^ 63 - 1) n)) := by
  cases n with
  | ofNat n =>
    obtain ⟨hspace, hsign, hdigits⟩ := digits_of_toDigits n
    simp [atoi, integerText, hspace, hsign, hdigits, signedNumber, Nat.ofDigitChars_ten_toDigits]
  | negSucc n =>
    obtain ⟨-, -, hdigits⟩ := digits_of_toDigits (n + 1)
    have hsign : ('-' :: Nat.toDigits 10 (n + 1)).dropWhile isCSpace = '-' :: Nat.toDigits 10 (n + 1) :=
      List.dropWhile_cons_of_neg (by decide)
    have hvalue : signedNumber true (Nat.toDigits 10 (n + 1)) = Int.negSucc n := by
      rw [signedNumber, Nat.ofDigitChars_ten_toDigits, Int.negSucc_eq]
      simp
    simp only [atoi, integerText, hsign, splitSign, hdigits, hvalue]

/-- A printed integer arrives exactly when it is in the range of `int`. -/
theorem atoi_integerText_iff (n : ℤ) : (atoi (integerText n)).toInt = n ↔ InIntRange n := by
  rw [atoi_integerText]
  constructor
  · intro h
    rw [← h]
    exact ⟨Int32.le_toInt _, Int32.toInt_lt _⟩
  · rintro ⟨hlow, hhigh⟩
    have hclamp : max (-2 ^ 63) (min (2 ^ 63 - 1) n) = n := by
      rw [min_eq_right (by omega), max_eq_right (by omega)]
    rw [hclamp]
    exact Int32.toInt_ofInt_of_le hlow hhigh

/-- An option written in front of its value. -/
theorem valuesOf_option (option other : MonitorOption) (value : Text) (rest : List Text) :
    valuesOf other ((option.name ++ value) :: rest) =
      if other = option then value :: valuesOf other rest else valuesOf other rest := by
  have hprefix : option.name.isPrefixOf (option.name ++ value) = true :=
    List.isPrefixOf_iff_prefix.mpr (List.prefix_append _ _)
  rw [valuesOf_cons hprefix, List.drop_left]

/-- A monitor that `run_benchmark` starts watches the benchmark and knows its output. -/
theorem commandLineArguments_command (outputCsv : Text) {pid : ℕ} (hpid : pid < 2 ^ 31) (dualCap : ℤ) :
    commandLineArguments (monitorCommand outputCsv pid dualCap) =
      some ⟨Int32.ofInt pid, some outputCsv, atoi (integerText dualCap)⟩ := by
  have hread : atoi (Nat.toDigits 10 pid) = Int32.ofInt pid := by
    have hatoi := atoi_integerText pid
    rw [min_eq_right (by omega), max_eq_right (by omega)] at hatoi
    exact hatoi
  have hne : Int32.ofInt pid ≠ -1 := by
    intro h
    have hint : (Int32.ofInt pid).toInt = pid := Int32.toInt_ofInt_of_le (by omega) (by omega)
    rw [h, show (-1 : Int32).toInt = -1 from rfl] at hint
    omega
  have hloop : (monitorCommand outputCsv pid dualCap).foldlM monitorArgument startArguments =
      some ⟨Int32.ofInt pid, some outputCsv, atoi (integerText dualCap)⟩ := by
    rw [argumentLoop_eq_some_iff]
    constructor
    · intro argument hargument
      simp only [monitorCommand, List.mem_cons, List.not_mem_nil, or_false] at hargument
      rcases hargument with rfl | rfl | rfl
      · exact ⟨.outputCsv, List.isPrefixOf_iff_prefix.mpr (List.prefix_append _ _)⟩
      · exact ⟨.pid, List.isPrefixOf_iff_prefix.mpr (List.prefix_append _ _)⟩
      · exact ⟨.dualCap, List.isPrefixOf_iff_prefix.mpr (List.prefix_append _ _)⟩
    · have hnone : ∀ option, valuesOf option [] = [] := fun _ => rfl
      simp only [lastArguments, monitorCommand, valuesOf_option, hnone, reduceCtorEq, if_true, if_false,
        List.map_cons, List.map_nil, List.getLastD_cons, List.getLastD_nil, hread]
  rw [commandLineArguments, hloop, Option.filter_some, if_pos]
  simpa using hne

/-- The variables of a monitor are the benchmark and this file, and its cap of both sockets is that of the
script exactly if this is an `int`. -/
structure Watches (g : ScriptGlobals) (pid : ℕ) (outputCsv : Text) (a : MonitorArguments) : Prop where
  pid_eq : a.pid.toInt = pid
  outputCsv_eq : a.outputCsv = some outputCsv
  dualCap_iff : a.dualCap.toInt = g.dualCap ↔ InIntRange g.dualCap

/-- The arguments of both monitors are read back. -/
theorem exists_watches (g : ScriptGlobals) {pid : ℕ} (hpid : pid < 2 ^ 31) (outputCsv : Text) :
    ∃ a, Watches g pid outputCsv a ∧
      commandLineArguments (monitorCommand outputCsv pid g.dualCap) = some a :=
  ⟨_, ⟨Int32.toInt_ofInt_of_le (by omega) (by omega), rfl, atoi_integerText_iff g.dualCap⟩,
    commandLineArguments_command outputCsv hpid g.dualCap⟩

/-- The global `power_shift_dir`, as `mainThrows` sets it. -/
def pcmPowerShiftDir {Double : Type} (options : OptionValues Double) : String :=
  if options.gCap = 0 then "/no_power_shift/"
  else if options.powerShift = 0 then "/cap/noShift/"
  else "/cap/shift/"

/-- The file to which `record_mem_throughput` appends, unless a name is a numeral, whose spelling is not
kept. -/
def throughputFile (state : ArgumentState) : Option String :=
  match state.fileNames with
  | ⟨.text suite, .text benchmark⟩ =>
    some ("/home/cc/power/GPGPU/data/" ++ suite ++ "_power_res" ++ pcmPowerShiftDir state.options ++
      "mem_throughput/" ++ benchmark ++ if state.options.ups = 1 then "_ups.csv" else ".csv")
  | _ => none

/-- A small integer is read as itself. -/
theorem eq_of_stodToInt {n : ℤ} (hn : InIntRange n) {k : Int32} (h : stodToInt (strInt n) = some k) :
    k.toInt = n := by
  obtain ⟨j, hj, hvalue⟩ := (exists_stodToInt_strInt_iff n).mpr hn
  rw [hj] at h
  rw [← Option.some.inj h]
  exact hvalue

/-- pcm-memory finds the directory of the script, where the script has one. -/
theorem pcmPowerShiftDir_of_reads {g : ScriptGlobals} {options : OptionValues Number}
    (hreads : Reads g options) {tmp : String} (htmp : powerShiftDir g = some tmp) :
    pcmPowerShiftDir options = tmp := by
  have hzero : InIntRange 0 := by decide
  have hone : InIntRange 1 := by decide
  unfold powerShiftDir at htmp
  split_ifs at htmp with hnone hcap hshift
  · have hgCap := eq_of_stodToInt hzero (hnone.1 ▸ hreads.gCap)
    rw [← Option.some.inj htmp, pcmPowerShiftDir, if_pos (Int32.toInt_inj.mp hgCap)]
  · have hgCap := eq_of_stodToInt hone (hcap.1 ▸ hreads.gCap)
    have hpowerShift := eq_of_stodToInt hzero (hcap.2 ▸ hreads.powerShift)
    have hne : options.gCap ≠ 0 := by
      intro h
      rw [h] at hgCap
      exact absurd hgCap (by decide)
    rw [← Option.some.inj htmp, pcmPowerShiftDir, if_neg hne, if_pos (Int32.toInt_inj.mp hpowerShift)]
  · have hgCap := eq_of_stodToInt hone (hshift.1 ▸ hreads.gCap)
    have hpowerShift := eq_of_stodToInt hone (hshift.2 ▸ hreads.powerShift)
    have hne : options.gCap ≠ 0 := by
      intro h
      rw [h] at hgCap
      exact absurd hgCap (by decide)
    have hneShift : options.powerShift ≠ 0 := by
      intro h
      rw [h] at hpowerShift
      exact absurd hpowerShift (by decide)
    rw [← Option.some.inj htmp, pcmPowerShiftDir, if_neg hne, if_neg hneShift]

section

variable {g : ScriptGlobals} {test : Bool} {suite : String} {benchmark : BenchmarkName} {pid : ℕ}

/-- A process `ups` is started for `--ups 1` alone, with these arguments. -/
theorem ups_mem_startProcesses {argv : List Text}
    (h : Process.ups argv ∈ (startProcesses g test suite benchmark pid).1) :
    g.ups = 1 ∧ ∃ tmp, powerShiftDir g = some tmp ∧
      argv = monitorCommand (dataFile suite tmp benchmark ("_dram_ipc" ++ upsTag g)) pid g.dualCap := by
  unfold startProcesses at h
  cases hdir : powerShiftDir g with
  | some tmp =>
    have hstarted : g.ups = 1 ∧
        argv = monitorCommand (dataFile suite tmp benchmark ("_dram_ipc" ++ upsTag g)) pid g.dualCap := by
      simpa [hdir, firstProcesses, uncoreMonitors, powerMonitors] using h
    exact ⟨hstarted.1, tmp, rfl, hstarted.2⟩
  | none =>
    rw [hdir] at h
    split_ifs at h <;> simp [firstProcesses, powerMonitors] at h

/-- A process `SoC` is started with these arguments. -/
theorem soC_mem_startProcesses {argv : List Text}
    (h : Process.soC argv ∈ (startProcesses g test suite benchmark pid).1) :
    ∃ tmp, powerShiftDir g = some tmp ∧
      argv = monitorCommand (dataFile suite tmp benchmark ("_cpu_util" ++ soCTag g)) pid g.dualCap := by
  unfold startProcesses at h
  cases hdir : powerShiftDir g with
  | some tmp =>
    have hstarted : g.soC = 1 ∧
        argv = monitorCommand (dataFile suite tmp benchmark ("_cpu_util" ++ soCTag g)) pid g.dualCap := by
      simpa [hdir, firstProcesses, uncoreMonitors, powerMonitors] using h
    exact ⟨tmp, rfl, hstarted.2⟩
  | none =>
    rw [hdir] at h
    split_ifs at h <;> simp [firstProcesses, powerMonitors] at h

/-- pcm-memory is started with its command. -/
theorem pcmMemory_mem_startProcesses {words : List Word}
    (h : Process.pcmMemory words ∈ (startProcesses g test suite benchmark pid).1) :
    words = pcmMemoryCommand g suite benchmark := by
  unfold startProcesses at h
  cases hdir : powerShiftDir g with
  | some tmp =>
    have hstarted : g.pcm ≠ 0 ∧ words = pcmMemoryCommand g suite benchmark := by
      simpa [hdir, firstProcesses, uncoreMonitors, powerMonitors] using h
    exact hstarted.2
  | none =>
    rw [hdir] at h
    split_ifs at h <;> simp [firstProcesses, powerMonitors] at h <;> exact h.2

end

/-- Among the processes of a call of `run_benchmark`, the monitors `ups`, where there is an energy file of
the DRAM, and `SoC` watch the benchmark, with an output in the directory of the power-shift mode.
pcm-memory is started as the model of the parameters has it, appends to the subdirectory
`mem_throughput` of that directory, and does not call its own controller beside a process `ups`. -/
theorem startProcesses_agree (g : ScriptGlobals) (test : Bool) (suite : String) (benchmark : BenchmarkName)
    {pid : ℕ} (hpid : pid < 2 ^ 31) :
    let processes := (startProcesses g test suite benchmark pid).1
    (∀ argv, Process.ups argv ∈ processes → ∃ tmp a, powerShiftDir g = some tmp ∧
        Watches g pid (dataFile suite tmp benchmark ("_dram_ipc" ++ upsTag g)) a ∧
          ∀ access, access (dramEnergyFile 0) = true ∨ access (dramEnergyFile 1) = true →
            ∃ dramEnergyFiles, upsMain access argv = some (dramEnergyFiles, a)) ∧
      (∀ argv, Process.soC argv ∈ processes → ∃ tmp a, powerShiftDir g = some tmp ∧
        Watches g pid (dataFile suite tmp benchmark ("_cpu_util" ++ soCTag g)) a ∧
          soCMain argv = some a) ∧
      (runBenchmark g test suite benchmark).1 = processes.findSome? Process.pcmWords ∧
      ∀ words, Process.pcmMemory words ∈ processes → ∀ state, mainThrowsState words = some state →
        (∀ tmp, powerShiftDir g = some tmp → throughputFile state =
          some ("/home/cc/power/GPGPU/data/" ++ suite ++ "_power_res" ++ tmp ++ "mem_throughput/" ++
            benchmark.name ++ if state.options.ups = 1 then "_ups.csv" else ".csv")) ∧
        ((∃ argv, Process.ups argv ∈ processes) → ∀ fuel (opt : Options) m settings v readings calls,
          opt.ups = state.options.ups →
            runCalls (monitorPass fuel opt m settings) v readings = some calls →
              ∀ call ∈ commandsOf calls, ∃ sample, call = .recordMemThroughput sample) := by
  intro processes
  refine ⟨?_, ?_, ?_, ?_⟩
  · intro argv hargv
    obtain ⟨-, tmp, htmp, rfl⟩ := ups_mem_startProcesses hargv
    obtain ⟨a, hwatches, ha⟩ := exists_watches g hpid
      (dataFile suite tmp benchmark ("_dram_ipc" ++ upsTag g))
    refine ⟨tmp, a, htmp, hwatches, ?_⟩
    intro access haccess
    have hfiles := (discoverDramRaplFiles_eq_some_iff access _).mpr ⟨rfl, haccess⟩
    refine ⟨[dramEnergyFile 0, dramEnergyFile 1].filter access, ?_⟩
    rw [upsMain, hfiles, ha]
    rfl
  · intro argv hargv
    obtain ⟨tmp, htmp, rfl⟩ := soC_mem_startProcesses hargv
    obtain ⟨a, hwatches, ha⟩ := exists_watches g hpid
      (dataFile suite tmp benchmark ("_cpu_util" ++ soCTag g))
    exact ⟨tmp, a, htmp, hwatches, ha⟩
  · rw [runBenchmark_eq_startProcesses g test suite benchmark pid]
  · intro words hwords state hstate
    rw [pcmMemory_mem_startProcesses hwords] at hstate
    have hoptions : mainThrowsOptions (pcmMemoryCommand g suite benchmark) = some state.options := by
      rw [mainThrowsOptions, hstate, Option.map_some]
    have hreads := (mainThrowsOptions_eq_some_iff g suite benchmark state.options).mp hoptions
    refine ⟨?_, ?_⟩
    · intro tmp htmp
      rw [throughputFile, mainThrowsState_fileNames hstate, pcmPowerShiftDir_of_reads hreads htmp]
    · rintro ⟨argv, hargv⟩ fuel opt m settings v readings calls hups hrun
      have hone := eq_of_stodToInt (n := 1) (by decide) ((ups_mem_startProcesses hargv).1 ▸ hreads.ups)
      refine monitorRun_records_only ?_ hrun
      rintro ⟨-, hzero⟩
      rw [← hups, hzero] at hone
      exact absurd hone (by decide)

/-- Both monitors of an experiment on the first benchmark of the NPB suite, where socket 0 has an energy
file: `ups` and `SoC` start to watch process 4242. -/
theorem startProcesses_agree_first :
    (∃ files a, upsMain (fun file => decide (file = dramEnergyFile 0))
        (monitorCommand (dataFile "npb" "/no_power_shift/" ⟨"bt", by decide⟩ "_dram_ipc_ups") 4242 0) =
          some (files, a) ∧ a.pid.toInt = 4242) ∧
      ∃ a, soCMain (monitorCommand
        (dataFile "npb" "/no_power_shift/" ⟨"bt", by decide⟩ "_cpu_util_SoC") 4242 0) = some a ∧
          a.pid.toInt = 4242 := by
  obtain ⟨hups, hsoC, -⟩ := @startProcesses_agree { scriptGlobals with ups := 1, soC := 1 } false "npb"
    ⟨"bt", by decide⟩ 4242 (by decide)
  constructor
  · obtain ⟨tmp, a, -, hwatches, hmain⟩ := hups _
      (List.mem_append_left _ (List.mem_append_right _ List.mem_cons_self))
    obtain ⟨files, hfiles⟩ := hmain (fun file => decide (file = dramEnergyFile 0))
      (Or.inl (decide_eq_true rfl))
    exact ⟨files, a, hfiles, hwatches.pid_eq⟩
  · obtain ⟨tmp, a, -, hwatches, hmain⟩ := hsoC _
      (List.mem_append_left _ (List.mem_append_right _ (List.mem_cons_of_mem _ List.mem_cons_self)))
    exact ⟨a, hmain, hwatches.pid_eq⟩

end NodePower
