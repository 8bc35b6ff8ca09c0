import NodePower.Common.SharedDevice
import NodePower.Gpu.Scaling
import NodePower.Pcm.Level
import NodePower.Uncore.RoundTrip
import NodePower.Ups.ClosedForm

/-!
# The programs that set the uncore frequency

While a benchmark runs, up to three programs of an experiment set the uncore frequency through
`set_uncore_freq.sh`: pcm-memory, `ups`, and the GPU monitor. None knows of the others. The script
writes the register of CPU 0 and then that of CPU 1, so two runs of it can interleave between the sockets.
(A fourth program, `SoC`, prints its bounds with a conversion that does not fit them, so that what it
passes to the script is not determined.)

The programs act on the registers through texts and the script. Below, they tell each socket a frequency
directly, one socket after the other. Whatever the order, the registers hold what the sockets have been
told, and this is never outside the range of the script. A program that is alone finds both sockets at what
it commanded last.
-/

namespace NodePower.Uncore

/-- The programs that set the uncore frequency while a benchmark runs. -/
inductive Setter where
  | pcmMemory
  | ups
  | readGpuPower
  deriving DecidableEq

/-- The variables of each program. -/
abbrev SetterState : Setter → Type
  | .pcmMemory => NodePower.Globals
  | .ups => Ups.Globals
  | .readGpuPower => Gpu.Globals

/-- What each program measures for one step. -/
abbrev SetterReading : Setter → Type
  | .pcmMemory => NodePower.Sample
  | .ups => Ups.Sample
  | .readGpuPower => List ℚ

/-- What the programs are started with. -/
structure SetterSettings where
  opt : Options
  dualCap : Int32
  gpuArgs : Gpu.Args

/-- The uncore command that a command of the throughput controller is, if it is one. -/
def uncoreCommandOf : Command → Option UncoreCommand
  | .setUncoreFreq cpu0 cpu1 => some ⟨cpu0, cpu1⟩
  | .setGpuPowerLimit _ => none

/-- The variables with which each program starts. -/
def setterStart (settings : SetterSettings) : (setter : Setter) → SetterState setter
  | .pcmMemory => (mainThrowsStart settings.opt).globals
  | .ups => Ups.initialGlobals
  | .readGpuPower => Gpu.mainGlobals settings.gpuArgs

/-- One step of each program, with the uncore commands it issues. -/
def setterStep (settings : SetterSettings) : (setter : Setter) → SetterState setter →
    SetterReading setter → Option (SetterState setter × List UncoreCommand)
  | .pcmMemory, g, sample =>
    (dynamicUfs settings.opt g sample).map fun answer => (answer.1, answer.2.filterMap uncoreCommandOf)
  | .ups, g, sample => some (Ups.ups settings.dualCap g sample)
  | .readGpuPower, g, gpuPowers => some (Gpu.monitorScaling g gpuPowers)

/-- The two arguments of the script spell the frequencies of a command. -/
def Spells (arguments : Text × Text) (command : UncoreCommand) : Prop :=
  (parseDecimal arguments.1).map Decimal.value = some command.cpu0 ∧
    (parseDecimal arguments.2).map Decimal.value = some command.cpu1

instance (arguments : Text × Text) (command : UncoreCommand) : Decidable (Spells arguments command) :=
  inferInstanceAs (Decidable (_ ∧ _))

/-- A step is given a measurement and the texts of the arguments that the program prints. -/
abbrev SetterInput (setter : Setter) : Type := SetterReading setter × List (Text × Text)

/-- The registers of the CPUs. -/
abbrev Registers : Type := ℕ → ℕ → ℕ

/-- The effect of a write on the registers. -/
def writeRegister (registers : Registers) (write : MsrWrite) : Registers := fun cpu register =>
  if cpu = write.cpu ∧ register = write.register then write.value else registers cpu register

/-- The programs with the script: every command is a run of the script on texts that spell it. -/
def scriptPrograms (tools : Calculators) (script : Text) (settings : SetterSettings) :
    Programs SetterState SetterInput MsrWrite Registers where
  step setter state input :=
    (setterStep settings setter state input.1).bind fun answer =>
      if List.Forall₂ Spells input.2 answer.2 then
        some (answer.1, input.2.flatMap fun arguments =>
          msrWrites tools script [arguments.1, arguments.2])
      else none
  perform := writeRegister

/-- The command with which pcm-memory starts. -/
def startCommand (settings : SetterSettings) : UncoreCommand :=
  ⟨stdToString settings.opt.uncore0, stdToString settings.opt.uncore1⟩

/-- The texts that `std::to_string` gives its arguments. -/
def startArguments (settings : SetterSettings) : Text × Text :=
  ((printedDecimal 6 settings.opt.uncore0).text, (printedDecimal 6 settings.opt.uncore1).text)

/-- The programs at their start, with the start-up command of pcm-memory still to be carried out. -/
def scriptStart (tools : Calculators) (script : Text) (settings : SetterSettings) (registers : Registers) :
    Shared SetterState MsrWrite Registers where
  states := setterStart settings
  pending setter :=
    if setter = .pcmMemory then
      msrWrites tools script [(startArguments settings).1, (startArguments settings).2]
    else []
  device := registers

/-- A frequency that a socket is told. -/
structure SocketFrequency where
  cpu : ℕ
  frequency : ℚ

/-- What a command tells the two sockets, one after the other. -/
def socketFrequencies (command : UncoreCommand) : List SocketFrequency :=
  [⟨0, command.cpu0⟩, ⟨1, command.cpu1⟩]

/-- The programs without the script: a command tells the sockets its frequencies. -/
def socketPrograms (settings : SetterSettings) :
    Programs SetterState SetterInput SocketFrequency (ℕ → ℚ) where
  step setter state input :=
    (setterStep settings setter state input.1).map fun answer =>
      (answer.1, answer.2.flatMap socketFrequencies)
  perform told write := Function.update told write.cpu write.frequency

/-- The programs at their start. -/
def socketStart (settings : SetterSettings) (told : ℕ → ℚ) : Shared SetterState SocketFrequency (ℕ → ℚ) where
  states := setterStart settings
  pending setter := if setter = .pcmMemory then socketFrequencies (startCommand settings) else []
  device := told

/-- The uncore registers of both CPUs hold what the sockets have been told, which the script accepts, and
the other registers are as they were. -/
structure Holds (others : Registers) (told : ℕ → ℚ) (registers : Registers) : Prop where
  inRange : ∀ cpu < 2, InRange (told cpu)
  encodes : ∀ cpu < 2, Encodes (registers cpu 0x620) (told cpu)
  others_eq : ∀ cpu register, ¬(cpu < 2 ∧ register = 0x620) →
    registers cpu register = others cpu register

/-- The sockets have been told what the throughput controller knows of its hardware. -/
def Tells (told : ℕ → ℚ) (hardware : Hardware) : Prop :=
  told 0 = hardware.cpu0 ∧ told 1 = hardware.cpu1

/-- Both frequencies of a command are accepted by the script. -/
def CommandAccepted (command : UncoreCommand) : Prop := InRange command.cpu0 ∧ InRange command.cpu1

/-- The learned lower bound has one of its two values. -/
def BoundLearned (g : NodePower.Globals) : Prop :=
  g.uncoreLowerBound = 8 / 10 ∨ g.uncoreLowerBound = 15 / 10

/-- The facts about the variables of each program from which its commands are accepted. -/
def SetterInv : (setter : Setter) → SetterState setter → Prop
  | .pcmMemory, g => BoundLearned g
  | .ups, g => Ups.FrequencyOnLadder g
  | .readGpuPower, _ => True

/-- All uncore commands among these are accepted. -/
def AllAccepted (commands : List Command) : Prop :=
  ∀ command ∈ commands.filterMap uncoreCommandOf, CommandAccepted command

/-- Without commands there is nothing to check. -/
theorem allAccepted_nil : AllAccepted [] := fun _ hcommand => absurd hcommand List.not_mem_nil

/-- The power shift issues no uncore command. -/
theorem allAccepted_shiftPower (opt : Options) (g : NodePower.Globals) :
    AllAccepted (shiftPower opt g).2 := by
  unfold shiftPower
  split_ifs
  · exact fun _ hcommand => absurd hcommand List.not_mem_nil
  · exact fun _ hcommand => absurd hcommand List.not_mem_nil
  · exact allAccepted_nil
  · exact allAccepted_nil

/-- Joined lists of commands. -/
theorem allAccepted_append {first second : List Command} :
    AllAccepted (first ++ second) ↔ AllAccepted first ∧ AllAccepted second := by
  rw [AllAccepted, List.filterMap_append, List.forall_mem_append]
  rfl

section

variable {g : NodePower.Globals} {opt : Options}

/-- The lowering command is accepted. -/
theorem allAccepted_lowerCommand (h : BoundLearned g) : AllAccepted [lowerCommand g] := by
  have hprint := (stdToString_of_bound h).1
  intro command hcommand
  obtain rfl : command = ⟨g.uncoreLowerBound, g.uncoreLowerBound⟩ := by
    simpa [lowerCommand, uncoreCommand, uncoreCommandOf, hprint] using hcommand
  have hrange : InRange g.uncoreLowerBound := by
    rcases h with hbound | hbound <;> rw [hbound] <;> norm_num [InRange]
  exact ⟨hrange, hrange⟩

/-- The raising command is accepted. -/
theorem allAccepted_raiseCommand (opt : Options) (h : BoundLearned g) :
    AllAccepted [raiseCommand opt g] := by
  have hprint := (stdToString_of_bound h).1
  have hupper : InRange uncoreUpperBound := by norm_num [InRange, uncoreUpperBound]
  have hbound : InRange g.uncoreLowerBound := by
    rcases h with hbound | hbound <;> rw [hbound] <;> norm_num [InRange]
  intro command hcommand
  rw [raiseCommand] at hcommand
  split at hcommand
  · obtain rfl : command = ⟨uncoreUpperBound, uncoreUpperBound⟩ := by
      simpa [uncoreCommand, uncoreCommandOf] using hcommand
    exact ⟨hupper, hupper⟩
  · obtain rfl : command = ⟨uncoreUpperBound, g.uncoreLowerBound⟩ := by
      simpa [uncoreCommand, uncoreCommandOf, hprint] using hcommand
    exact ⟨hupper, hbound⟩

/-- The burst check keeps the learned bound and issues accepted commands. -/
theorem checkBurst_accepted (opt : Options) (burstStatus : Bool) (h : BoundLearned g) :
    BoundLearned (checkBurst opt burstStatus g).2.1 ∧
      AllAccepted (checkBurst opt burstStatus g).2.2 := by
  have hnone := allAccepted_nil
  unfold checkBurst
  split_ifs
  · exact ⟨h, hnone⟩
  · exact ⟨h, allAccepted_raiseCommand opt h⟩
  · exact ⟨h, hnone⟩
  · exact ⟨h, hnone⟩

/-- The decision keeps the learned bound and issues accepted commands. -/
theorem memDecision_accepted (opt : Options) (burstStatus : Bool) (slope : Option ℚ) (h : BoundLearned g) :
    BoundLearned (memDecision opt burstStatus slope g).1 ∧
      AllAccepted (memDecision opt burstStatus slope g).2 := by
  have hnone := allAccepted_nil
  unfold memDecision
  dsimp only
  split_ifs
  · exact ⟨h, allAccepted_raiseCommand opt h⟩
  · exact ⟨h, hnone⟩
  · exact ⟨h, allAccepted_lowerCommand h⟩
  · exact ⟨h, hnone⟩
  · exact ⟨h, hnone⟩

/-- So does the branch for a nonnegative average. -/
theorem throughputControl_accepted {answer : NodePower.Globals × List Command}
    (h : BoundLearned g) (hanswer : throughputControl opt g = some answer) :
    BoundLearned answer.1 ∧ AllAccepted answer.2 := by
  obtain ⟨hburst, hburstCommands⟩ := checkBurst_accepted opt false h
  unfold throughputControl at hanswer
  obtain ⟨slope, -, hresult⟩ := Option.bind_eq_some_iff.mp hanswer
  obtain ⟨hdecision, hdecisionCommands⟩ :=
    memDecision_accepted opt (checkBurst opt false g).1 slope hburst
  rw [← Option.some.inj hresult]
  exact ⟨hdecision, allAccepted_append.mpr ⟨hburstCommands, hdecisionCommands⟩⟩

/-- The throughput controller keeps its learned bound among two values and issues accepted commands, with
any window length and any samples. -/
theorem dynamicUfs_accepted {sample : NodePower.Sample} {answer : NodePower.Globals × List Command}
    (h : BoundLearned g) (hanswer : dynamicUfs opt g sample = some answer) :
    BoundLearned answer.1 ∧ AllAccepted answer.2 := by
  have hrecorded : BoundLearned (recordThroughput opt g sample.currentThroughput) := by
    simp only [BoundLearned, recordThroughput]
    split
    · exact Or.inr rfl
    · exact h
  have hfinish : ∀ controlled : NodePower.Globals × List Command,
      BoundLearned controlled.1 → AllAccepted controlled.2 →
        BoundLearned (shiftPower opt controlled.1).1 ∧
          AllAccepted (controlled.2 ++ (shiftPower opt controlled.1).2) := by
    intro controlled hbound hcommands
    rw [shiftPower_globals]
    exact ⟨hbound, allAccepted_append.mpr ⟨hcommands, allAccepted_shiftPower opt controlled.1⟩⟩
  unfold dynamicUfs at hanswer
  dsimp only at hanswer
  split at hanswer
  · split at hanswer
    · rw [← Option.some.inj hanswer]
      exact hfinish (lowMemory _) hrecorded (allAccepted_lowerCommand hrecorded)
    · obtain ⟨controlled, hcontrolled, hresult⟩ := Option.bind_eq_some_iff.mp hanswer
      obtain ⟨hbound, hcommands⟩ := throughputControl_accepted hrecorded hcontrolled
      rw [← Option.some.inj hresult]
      exact hfinish controlled hbound hcommands
  · rw [← Option.some.inj hanswer]
    exact ⟨hrecorded, allAccepted_nil⟩

end

/-- The UPS controller stays on its ladder and issues accepted commands. -/
theorem ups_accepted (dualCap : Int32) {g : Ups.Globals} (sample : Ups.Sample)
    (h : Ups.FrequencyOnLadder g) :
    Ups.FrequencyOnLadder (Ups.ups dualCap g sample).1 ∧
      ∀ command ∈ (Ups.ups dualCap g sample).2, CommandAccepted command := by
  refine ⟨h.ups dualCap sample, ?_⟩
  intro command hcommand
  cases Ups.ups_outcome dualCap g sample with
  | kept _ _ _ houtput => simp [houtput] at hcommand
  | decremented _ habove _ houtput =>
    obtain ⟨k, hk, hladder⟩ := h
    rw [houtput, List.mem_singleton] at hcommand
    have hprint : roundDecimal 2 (g.currentUf - Ups.step) = g.currentUf - Ups.step := by
      rw [hladder, ← Ups.frequencyAt_succ, Ups.roundDecimal_frequencyAt]
    have hlow : InRange (g.currentUf - Ups.step) := by
      have hupper : g.currentUf ≤ 22 / 10 := by
        rw [hladder, Ups.frequencyAt]
        have hcast : (0 : ℚ) ≤ k := Nat.cast_nonneg k
        linarith
      constructor
      · rw [Ups.step]
        linarith
      · rw [Ups.step]
        linarith
    rw [hcommand, Ups.printedCommand, hprint]
    exact ⟨hlow, hlow⟩
  | reset _ _ houtput =>
    rw [houtput, List.mem_singleton] at hcommand
    rw [hcommand, Ups.literalCommand]
    split
    · norm_num [CommandAccepted, InRange]
    · norm_num [CommandAccepted, InRange]

/-- The GPU monitor knows two commands, and both are accepted. -/
theorem scaleUncoreFreq_accepted (g : Gpu.Globals) (gpuPowers : List ℚ) :
    ∀ command ∈ (Gpu.scaleUncoreFreq g gpuPowers).2, CommandAccepted command := by
  induction gpuPowers generalizing g with
  | nil => exact fun _ hcommand => absurd hcommand List.not_mem_nil
  | cons power rest ih =>
    have hfirst : ∀ command ∈ (Gpu.scaleOne g power).2, CommandAccepted command := by
      unfold Gpu.scaleOne
      split_ifs
      · norm_num [CommandAccepted, InRange]
      · norm_num [CommandAccepted, InRange]
      · exact fun _ hcommand => absurd hcommand List.not_mem_nil
    change ∀ command ∈ (Gpu.scaleOne g power).2 ++ (Gpu.scaleUncoreFreq (Gpu.scaleOne g power).1 rest).2,
      CommandAccepted command
    rw [List.forall_mem_append]
    exact ⟨hfirst, ih _⟩

/-- Every program keeps its facts, and its commands are accepted. -/
theorem setterStep_accepted {settings : SetterSettings} {setter : Setter} {state : SetterState setter}
    {reading : SetterReading setter} {answer : SetterState setter × List UncoreCommand}
    (h : SetterInv setter state) (hanswer : setterStep settings setter state reading = some answer) :
    SetterInv setter answer.1 ∧ ∀ command ∈ answer.2, CommandAccepted command := by
  cases setter with
  | pcmMemory =>
    obtain ⟨called, hcalled, rfl⟩ := Option.map_eq_some_iff.mp hanswer
    exact dynamicUfs_accepted h hcalled
  | ups =>
    rw [← Option.some.inj hanswer]
    exact ups_accepted settings.dualCap reading h
  | readGpuPower =>
    rw [← Option.some.inj hanswer]
    refine ⟨trivial, ?_⟩
    unfold Gpu.monitorScaling
    split
    · exact scaleUncoreFreq_accepted state reading
    · exact fun _ hcommand => absurd hcommand List.not_mem_nil

/-- The write that tells a socket its frequency. -/
def encodeFrequency (write : SocketFrequency) : MsrWrite :=
  ⟨write.cpu, 0x620, ratio write.frequency * 256 + ratio write.frequency⟩

/-- A frequency for one of the two sockets that the script accepts. -/
def SafeFrequency (write : SocketFrequency) : Prop := write.cpu < 2 ∧ InRange write.frequency

/-- What an accepted command tells the sockets is safe. -/
theorem safeFrequency_of_accepted {command : UncoreCommand} (h : CommandAccepted command) :
    ∀ write ∈ socketFrequencies command, SafeFrequency write := by
  simp only [socketFrequencies, List.mem_cons, List.not_mem_nil, or_false, forall_eq_or_imp, forall_eq]
  exact ⟨⟨zero_lt_two, h.1⟩, one_lt_two, h.2⟩

/-- A write that tells a socket its frequency. -/
theorem Holds.write {others registers : Registers} {told : ℕ → ℚ} (h : Holds others told registers)
    {write : SocketFrequency} (hsafe : SafeFrequency write) :
    Holds others (Function.update told write.cpu write.frequency)
      (writeRegister registers (encodeFrequency write)) where
  inRange := by
    intro cpu hcpu
    by_cases hsame : cpu = write.cpu
    · rw [hsame, Function.update_self]
      exact hsafe.2
    · rw [Function.update_of_ne hsame]
      exact h.inRange cpu hcpu
  encodes := by
    intro cpu hcpu
    by_cases hsame : cpu = write.cpu
    · rw [hsame, Function.update_self, writeRegister, if_pos ⟨rfl, rfl⟩]
      exact encodes_ratio hsafe.2
    · rw [Function.update_of_ne hsame, writeRegister, if_neg fun hwritten => hsame hwritten.1]
      exact h.encodes cpu hcpu
  others_eq := by
    intro cpu register hother
    have hne : ¬(cpu = (encodeFrequency write).cpu ∧ register = (encodeFrequency write).register) := by
      rintro ⟨rfl, rfl⟩
      exact hother ⟨hsafe.1, rfl⟩
    rw [writeRegister, if_neg hne]
    exact h.others_eq cpu register hother

section

variable {tools : Calculators} (hexact : tools.Exact) (script : Text)

include hexact

/-- A run of the script on texts that spell an accepted command writes its two frequencies. -/
theorem msrWrites_of_spells {arguments : Text × Text} {command : UncoreCommand}
    (hspells : Spells arguments command) (haccepted : CommandAccepted command) :
    msrWrites tools script [arguments.1, arguments.2] =
      (socketFrequencies command).map encodeFrequency := by
  obtain ⟨d0, hparse0, hvalue0⟩ := Option.map_eq_some_iff.mp hspells.1
  obtain ⟨d1, hparse1, hvalue1⟩ := Option.map_eq_some_iff.mp hspells.2
  obtain ⟨hrange0, hrange1⟩ := haccepted
  rw [← hvalue0] at hrange0
  rw [← hvalue1] at hrange1
  rw [msrWrites_eq hexact script hparse0 hparse1 hrange0 hrange1, hvalue0, hvalue1]
  rfl

/-- So do runs for several commands. -/
theorem msrWrites_of_forall₂_spells {texts : List (Text × Text)} {commands : List UncoreCommand}
    (hspells : List.Forall₂ Spells texts commands) (haccepted : ∀ command ∈ commands, CommandAccepted command) :
    texts.flatMap (fun arguments => msrWrites tools script [arguments.1, arguments.2]) =
      (commands.flatMap socketFrequencies).map encodeFrequency := by
  induction hspells with
  | nil => rfl
  | cons hfirst hrest ih =>
    rw [List.forall_mem_cons] at haccepted
    rw [List.flatMap_cons, List.flatMap_cons, List.map_append,
      msrWrites_of_spells hexact script hfirst haccepted.1, ih haccepted.2]

/-- The script translates what the sockets are told into writes to their registers. -/
theorem socketPrograms_translates (settings : SetterSettings) (others : Registers) :
    (socketPrograms settings).Translates (scriptPrograms tools script settings) SetterInv SafeFrequency
      encodeFrequency (Holds others) where
  keeps := by
    intro setter state input next writes hinv hstep
    obtain ⟨answer, hanswer, hresult⟩ := Option.map_eq_some_iff.mp hstep
    obtain ⟨rfl, rfl⟩ := Prod.mk.inj hresult
    obtain ⟨hnext, haccepted⟩ := setterStep_accepted hinv hanswer
    refine ⟨hnext, fun write hwrite => ?_⟩
    obtain ⟨command, hcommand, hsocket⟩ := List.mem_flatMap.mp hwrite
    exact safeFrequency_of_accepted (haccepted command hcommand) write hsocket
  step := by
    intro setter state input next writes hinv hstep
    obtain ⟨answer, hanswer, hresult⟩ := Option.bind_eq_some_iff.mp hstep
    split at hresult
    · rename_i hspells
      obtain ⟨rfl, rfl⟩ := Prod.mk.inj (Option.some.inj hresult)
      refine ⟨answer.2.flatMap socketFrequencies, ?_, ?_⟩
      · exact Option.map_eq_some_iff.mpr ⟨answer, hanswer, rfl⟩
      · exact msrWrites_of_forall₂_spells hexact script hspells (setterStep_accepted hinv hanswer).2
    · exact absurd hresult (Option.some_ne_none _).symm
  perform _ _ _ hsafe hholds := hholds.write hsafe

end

/-- A frequency in the range is printed as one in the range. -/
theorem inRange_stdToString {frequency : ℚ} (h : InRange frequency) : InRange (stdToString frequency) := by
  constructor
  · exact le_roundDecimal (n := 800000) (by norm_num) h.1
  · exact roundDecimal_le (n := 2400000) (by norm_num) h.2

/-- The start-up command is spelled by what `std::to_string` prints. -/
theorem spells_startArguments (settings : SetterSettings) :
    Spells (startArguments settings) (startCommand settings) := by
  constructor
  · rw [startArguments, parseDecimal_text, Option.map_some, value_printedDecimal]
    rfl
  · rw [startArguments, parseDecimal_text, Option.map_some, value_printedDecimal]
    rfl

/-- Commands that are carried out on the hardware of the controller and told to the sockets. -/
theorem Tells.commands {told : ℕ → ℚ} {hardware : Hardware} (h : Tells told hardware)
    (settings : SetterSettings) (commands : List Command) :
    Tells (((commands.filterMap uncoreCommandOf).flatMap socketFrequencies).foldl
      (socketPrograms settings).perform told) (commands.foldl Hardware.apply hardware) := by
  induction commands generalizing told hardware with
  | nil => exact h
  | cons command rest ih =>
    cases command with
    | setUncoreFreq cpu0 cpu1 => exact ih ⟨rfl, rfl⟩
    | setGpuPowerLimit watts => exact ih h

/-- The step of pcm-memory among the programs. -/
theorem socketPrograms_step_pcmMemory {settings : SetterSettings} {g next : NodePower.Globals}
    {input : SetterInput .pcmMemory} {out : List SocketFrequency}
    (hstep : (socketPrograms settings).step .pcmMemory g input = some (next, out)) :
    ∃ commands, dynamicUfs settings.opt g input.1 = some (next, commands) ∧
      out = (commands.filterMap uncoreCommandOf).flatMap socketFrequencies := by
  obtain ⟨answer, hanswer, hresult⟩ := Option.map_eq_some_iff.mp hstep
  obtain ⟨⟨called, commands⟩, hcalled, rfl⟩ := Option.map_eq_some_iff.mp hanswer
  obtain ⟨rfl, rfl⟩ := Prod.mk.inj hresult
  exact ⟨commands, hcalled, rfl⟩

/-- The throughput samples among the measurements of all programs. -/
def samplesOf (events : List (SharedEvent SetterInput)) : List NodePower.Sample :=
  (inputsOf Setter.pcmMemory events).map fun input => input.1

/-- A run of pcm-memory by itself is a run of its controller, and what it tells the sockets is what the
controller has told the hardware. -/
theorem controllerRunFrom_of_socketPrograms {settings : SetterSettings} {sys : System}
    {inputs : List (SetterInput .pcmMemory)}
    {own : List (Call NodePower.Globals (SetterInput .pcmMemory) SocketFrequency)}
    (hrun : runCalls ((socketPrograms settings).step .pcmMemory) sys.globals inputs = some own)
    {told : ℕ → ℚ} (htold : Tells told sys.hardware) :
    ∃ calls, controllerRunFrom settings.opt sys (inputs.map fun input => input.1) = some calls ∧
      Tells ((commandsOf own).foldl (socketPrograms settings).perform told) (finalState sys calls).hardware := by
  induction inputs generalizing sys own told with
  | nil =>
    obtain rfl := Option.some.inj hrun
    exact ⟨[], rfl, htold⟩
  | cons input rest ih =>
    obtain ⟨⟨next, out⟩, hstep, hrest⟩ := Option.bind_eq_some_iff.mp hrun
    obtain ⟨later, hlater, rfl⟩ := Option.map_eq_some_iff.mp hrest
    obtain ⟨commands, hcalled, rfl⟩ := socketPrograms_step_pcmMemory hstep
    have hsys : System.step settings.opt sys input.1 =
        some (⟨next, commands.foldl Hardware.apply sys.hardware⟩, commands) := by
      rw [System.step, hcalled]
      rfl
    obtain ⟨calls, hcalls, htells⟩ := @ih ⟨next, commands.foldl Hardware.apply sys.hardware⟩ later hlater _
      (htold.commands settings commands)
    refine ⟨⟨sys, input.1, ⟨next, commands.foldl Hardware.apply sys.hardware⟩, commands⟩ :: calls, ?_, ?_⟩
    · rw [List.map_cons, controllerRunFrom, runCalls, hsys, Option.bind_some]
      rw [controllerRunFrom] at hcalls
      rw [hcalls]
      rfl
    · rw [commandsOf, List.flatMap_cons, List.foldl_append]
      exact htells

section

variable {tools : Calculators} (hexact : tools.Exact) (script : Text) {settings : SetterSettings}
  (hrange0 : InRange settings.opt.uncore0) (hrange1 : InRange settings.opt.uncore1)
  {registers : Registers} {told : ℕ → ℚ} (hholds : Holds registers told registers)

include hexact hrange0 hrange1 hholds

/-- The two systems start in corresponding states. -/
theorem socketStart_corresponds :
    Corresponds SetterInv SafeFrequency encodeFrequency (Holds registers) (socketStart settings told)
      (scriptStart tools script settings registers) := by
  have haccepted : CommandAccepted (startCommand settings) :=
    ⟨inRange_stdToString hrange0, inRange_stdToString hrange1⟩
  refine ⟨rfl, ?_, ⟨?_, ?_⟩, hholds⟩
  · intro setter
    simp only [socketStart, scriptStart]
    split
    · exact msrWrites_of_spells hexact script (spells_startArguments settings) haccepted
    · rfl
  · intro setter
    cases setter with
    | pcmMemory => exact Or.inl rfl
    | ups => exact ⟨0, Nat.zero_le _, Ups.frequencyAt_zero.symm⟩
    | readGpuPower => trivial
  · intro setter
    simp only [socketStart]
    split
    · exact safeFrequency_of_accepted haccepted
    · exact fun _ hwrite => absurd hwrite List.not_mem_nil

/-- Whatever the order of the steps and of the single register writes, a run of the programs through the
script is a run in which they tell the sockets their frequencies directly: the uncore registers of both CPUs
hold what the sockets have been told, within the range of the script, and no other register changes. -/
theorem scriptPrograms_refine {events : List (SharedEvent SetterInput)}
    {calls : List (Call (Shared SetterState MsrWrite Registers) (SharedEvent SetterInput) (Setter × MsrWrite))}
    (hrun : runCalls (scriptPrograms tools script settings).next
      (scriptStart tools script settings registers) events = some calls) :
    ∃ toldCalls, runCalls (socketPrograms settings).next (socketStart settings told) events =
        some toldCalls ∧
      (finalState (scriptStart tools script settings registers) calls).states =
        (finalState (socketStart settings told) toldCalls).states ∧
      Holds registers (finalState (socketStart settings told) toldCalls).device
        (finalState (scriptStart tools script settings registers) calls).device := by
  have hstart := socketStart_corresponds hexact script hrange0 hrange1 hholds
  obtain ⟨toldCalls, htoldRun, hfinal, -⟩ :=
    hstart.run (socketPrograms_translates hexact script settings registers) hrun
  exact ⟨toldCalls, htoldRun, hfinal.states_eq, hfinal.related⟩

/-- While nobody else has written and none of its own commands is under way, the uncore registers hold what the
controller of pcm-memory takes its hardware to be. -/
theorem pcmMemory_alone {events : List (SharedEvent SetterInput)}
    {calls : List (Call (Shared SetterState MsrWrite Registers) (SharedEvent SetterInput) (Setter × MsrWrite))}
    (hrun : runCalls (scriptPrograms tools script settings).next
      (scriptStart tools script settings registers) events = some calls)
    (halone : ∀ entry ∈ commandsOf calls, entry.1 = .pcmMemory)
    (hidle : (finalState (scriptStart tools script settings registers) calls).pending .pcmMemory = []) :
    ∃ controllerCalls,
      controllerRun settings.opt (samplesOf events) = some controllerCalls ∧
      Encodes ((finalState (scriptStart tools script settings registers) calls).device 0 0x620)
        (finalState (mainThrowsStart settings.opt) controllerCalls).hardware.cpu0 ∧
      Encodes ((finalState (scriptStart tools script settings registers) calls).device 1 0x620)
        (finalState (mainThrowsStart settings.opt) controllerCalls).hardware.cpu1 := by
  have hstart := socketStart_corresponds hexact script hrange0 hrange1 hholds
  obtain ⟨toldCalls, htoldRun, hfinal, houtput⟩ :=
    hstart.run (socketPrograms_translates hexact script settings registers) hrun
  obtain ⟨own, hown⟩ := Programs.projects .pcmMemory htoldRun
  have htoldAlone : ∀ entry ∈ commandsOf toldCalls, entry.1 = .pcmMemory := by
    intro entry hentry
    exact halone (entry.1, encodeFrequency entry.2) (houtput ▸ List.mem_map_of_mem hentry)
  have htoldIdle : (finalState (socketStart settings told) toldCalls).pending .pcmMemory = [] := by
    rw [hfinal.pending_eq .pcmMemory] at hidle
    exact List.map_eq_nil_iff.mp hidle
  have hwrites := hown.writes_eq
  rw [writesOf_eq_map htoldAlone, htoldIdle, List.append_nil] at hwrites
  have hdevice := Programs.device_eq htoldRun
  rw [← hwrites, List.foldl_append] at hdevice
  -- The start-up command has told both sockets before the first call of the controller.
  obtain ⟨controllerCalls, hcontroller, htells⟩ :=
    @controllerRunFrom_of_socketPrograms settings (mainThrowsStart settings.opt) _ own hown.run_eq
      ((socketFrequencies (startCommand settings)).foldl (socketPrograms settings).perform told) ⟨rfl, rfl⟩
  refine ⟨controllerCalls, hcontroller, ?_⟩
  have htold : Tells (finalState (socketStart settings told) toldCalls).device
      (finalState (mainThrowsStart settings.opt) controllerCalls).hardware := by
    rw [hdevice]
    exact htells
  rw [← htold.1, ← htold.2]
  exact ⟨hfinal.related.encodes 0 (by decide), hfinal.related.encodes 1 (by decide)⟩

end

/-- Registers that all hold one frequency. -/
def registersAt (frequency : ℚ) : Registers := fun _ _ => ratio frequency * 256 + ratio frequency

/-- They hold it for both sockets. -/
theorem holds_registersAt {frequency : ℚ} (h : InRange frequency) :
    Holds (registersAt frequency) (fun _ => frequency) (registersAt frequency) where
  inRange _ _ := h
  encodes _ _ := encodes_ratio h
  others_eq _ _ _ := rfl

/-- A step that commands nothing needs no texts. -/
theorem scriptPrograms_step_silent {tools : Calculators} (script : Text) {settings : SetterSettings}
    {setter : Setter} {state next : SetterState setter} {reading : SetterReading setter}
    (h : setterStep settings setter state reading = some (next, [])) :
    (scriptPrograms tools script settings).step setter state (reading, []) = some (next, []) := by
  rw [scriptPrograms]
  dsimp only
  rw [h, Option.bind_some, if_pos .nil]
  rfl

/-- The events of a start: `ups` takes its first measurement while the start-up command of pcm-memory is being
carried out, and pcm-memory takes its first one afterwards. -/
def startEvents (first : Ups.Sample) (sample : NodePower.Sample) : List (SharedEvent SetterInput) :=
  [.write .pcmMemory, .act .ups (first, []), .write .pcmMemory, .act .pcmMemory (sample, [])]

/-- The programs can start so, if the first call of the controller commands nothing. -/
theorem exists_startRun {tools : Calculators} (hexact : tools.Exact) (script : Text)
    {settings : SetterSettings} (hrange0 : InRange settings.opt.uncore0)
    (hrange1 : InRange settings.opt.uncore1) (registers : Registers) (first : Ups.Sample)
    {sample : NodePower.Sample} {next : NodePower.Globals}
    (hcall : dynamicUfs settings.opt (mainThrowsStart settings.opt).globals sample = some (next, [])) :
    ∃ calls, runCalls (scriptPrograms tools script settings).next
        (scriptStart tools script settings registers) (startEvents first sample) = some calls ∧
      (∀ entry ∈ commandsOf calls, entry.1 = .pcmMemory) ∧
      (finalState (scriptStart tools script settings registers) calls).pending .pcmMemory = [] := by
  have hpending : (scriptStart tools script settings registers).pending .pcmMemory =
      (socketFrequencies (startCommand settings)).map encodeFrequency :=
    msrWrites_of_spells hexact script (spells_startArguments settings)
      ⟨inRange_stdToString hrange0, inRange_stdToString hrange1⟩
  have hsetter : setterStep settings .pcmMemory (mainThrowsStart settings.opt).globals sample =
      some (next, []) := by
    rw [setterStep, hcall]
    rfl
  have hstart : runCalls (scriptPrograms tools script settings).next
      (scriptStart tools script settings registers) [] = some [] := rfl
  have hwritten0 := runCalls_concat hstart (Programs.next_write hpending)
  have hmeasured := runCalls_concat hwritten0 (Programs.next_act
    ((Function.update_of_ne (by decide) _ _).trans (if_neg (by decide)))
    (@scriptPrograms_step_silent tools script settings .ups Ups.initialGlobals _ first rfl))
  have hwritten1 := runCalls_concat hmeasured (Programs.next_write
    ((Function.update_of_ne (by decide) _ _).trans (Function.update_self _ _ _)))
  have hcalled := runCalls_concat hwritten1 (Programs.next_act (Function.update_self _ _ _)
    (scriptPrograms_step_silent script hsetter))
  refine ⟨_, hcalled, ?_, rfl⟩
  simp [commandsOf]

/-- The default options with the shortest window. -/
def firstSettings : SetterSettings := ⟨{ defaultOptions with history := 2 }, 1, ⟨0, 100⟩⟩

/-- Both start frequencies of the default options are in the range. -/
theorem inRange_firstSettings :
    InRange firstSettings.opt.uncore0 ∧ InRange firstSettings.opt.uncore1 := by
  norm_num [InRange, firstSettings, defaultOptions]

/-- The first call fills the window. -/
theorem dynamicUfs_firstSettings : ∃ next, dynamicUfs firstSettings.opt
    (mainThrowsStart firstSettings.opt).globals ⟨1000, 500⟩ = some (next, []) := by
  refine ⟨recordThroughput firstSettings.opt (mainThrowsStart firstSettings.opt).globals (1000 + 500), ?_⟩
  rw [dynamicUfs]
  exact if_neg (by decide)

/-- The start of two programs, event by event. -/
theorem scriptPrograms_refine_start :
    let start := scriptStart exactCalculators "set_uncore_freq.sh".toList firstSettings (registersAt (8 / 10))
    let toldStart := socketStart firstSettings fun _ => 8 / 10
    ∃ calls, runCalls (scriptPrograms exactCalculators "set_uncore_freq.sh".toList firstSettings).next start
        (startEvents ⟨10, 1⟩ ⟨1000, 500⟩) = some calls ∧
      ∃ toldCalls, runCalls (socketPrograms firstSettings).next toldStart (startEvents ⟨10, 1⟩ ⟨1000, 500⟩) =
          some toldCalls ∧
        (finalState start calls).states = (finalState toldStart toldCalls).states ∧
        Holds (registersAt (8 / 10)) (finalState toldStart toldCalls).device (finalState start calls).device := by
  intro start toldStart
  obtain ⟨hrange0, hrange1⟩ := inRange_firstSettings
  obtain ⟨next, hcall⟩ := dynamicUfs_firstSettings
  obtain ⟨calls, hrun, -, -⟩ := exists_startRun exactCalculators_exact "set_uncore_freq.sh".toList hrange0
    hrange1 (registersAt (8 / 10)) ⟨10, 1⟩ hcall
  exact ⟨calls, hrun, scriptPrograms_refine exactCalculators_exact _ hrange0 hrange1
    (holds_registersAt (by norm_num [InRange])) hrun⟩

/-- The registers after this start. -/
theorem pcmMemory_alone_start :
    let start := scriptStart exactCalculators "set_uncore_freq.sh".toList firstSettings (registersAt (8 / 10))
    ∃ calls, runCalls (scriptPrograms exactCalculators "set_uncore_freq.sh".toList firstSettings).next start
        (startEvents ⟨10, 1⟩ ⟨1000, 500⟩) = some calls ∧
      ∃ controllerCalls, controllerRun firstSettings.opt [⟨1000, 500⟩] = some controllerCalls ∧
        Encodes ((finalState start calls).device 0 0x620)
          (finalState (mainThrowsStart firstSettings.opt) controllerCalls).hardware.cpu0 ∧
        Encodes ((finalState start calls).device 1 0x620)
          (finalState (mainThrowsStart firstSettings.opt) controllerCalls).hardware.cpu1 := by
  intro start
  obtain ⟨hrange0, hrange1⟩ := inRange_firstSettings
  obtain ⟨next, hcall⟩ := dynamicUfs_firstSettings
  obtain ⟨calls, hrun, halone, hidle⟩ := exists_startRun exactCalculators_exact "set_uncore_freq.sh".toList
    hrange0 hrange1 (registersAt (8 / 10)) ⟨10, 1⟩ hcall
  exact ⟨calls, hrun, pcmMemory_alone exactCalculators_exact _ hrange0 hrange1
    (holds_registersAt (by norm_num [InRange])) hrun halone hidle⟩

end NodePower.Uncore
