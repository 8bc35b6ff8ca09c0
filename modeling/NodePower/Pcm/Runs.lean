import NodePower.Pcm.StepSpec

/-!
# Runs of the controller

A run over nonnegative samples never gets stuck, and each of its calls is a supervised
step. The lemmas below read a call off its own two states: which flags it left, which
uncore commands it issued, and what the hardware was told. Invariants of runs are proved
from them one call at a time.
-/

namespace NodePower

/-- Every throughput sample of the input is nonnegative. -/
def NonnegSamples (samples : List Sample) : Prop :=
  ∀ sample ∈ samples, 0 ≤ sample.currentThroughput

instance (samples : List Sample) : Decidable (NonnegSamples samples) :=
  inferInstanceAs (Decidable (∀ sample ∈ samples, 0 ≤ sample.currentThroughput))

/-- Every throughput in the history is nonnegative. -/
def System.NonnegHistory (sys : System) : Prop :=
  ∀ x ∈ sys.globals.throughputHistory, 0 ≤ x

/-- A call that is answered by a supervised step, with its commands carried out. -/
structure Answered (opt : Options) (c : ControllerCall) : Prop where
  globals_eq : c.after.globals = (answer opt c.before.globals c.input).1
  output_eq : c.output = (answer opt c.before.globals c.input).2
  hardware_eq : c.after.hardware = c.output.foldl Hardware.apply c.before.hardware

/-- The recorded state in which a call took its decisions. -/
def observed (opt : Options) (c : ControllerCall) : Globals :=
  observe opt c.before.globals c.input

/-- The call found the history full. -/
def Deciding (opt : Options) (c : ControllerCall) : Prop :=
  decides opt c.before.globals c.input

instance (opt : Options) (c : ControllerCall) : Decidable (Deciding opt c) :=
  inferInstanceAs (Decidable (decides _ _ _))

/-- The power shift leaves everything but the flag of the GPU limit. -/
theorem shiftPower_globals (opt : Options) (g : Globals) :
    (shiftPower opt g).1 = { g with highGpuPower := (shiftPower opt g).1.highGpuPower } := by
  unfold shiftPower
  split_ifs <;> rfl

/-- Commands for the uncore frequency. -/
def Command.isUncore : Command → Bool
  | .setUncoreFreq _ _ => true
  | .setGpuPowerLimit _ => false

/-- The uncore commands among the commands of a call. -/
def uncoreCommands (commands : List Command) : List Command :=
  commands.filter Command.isUncore

/-- The power shift issues no uncore command. -/
theorem uncoreCommands_shiftPower (opt : Options) (g : Globals) :
    uncoreCommands (shiftPower opt g).2 = [] := by
  unfold shiftPower
  split_ifs <;> rfl

/-- Level commands are uncore commands. -/
theorem uncoreCommands_levelCommands (opt : Options) (g : Globals) (change : Option Bool) :
    uncoreCommands (levelCommands opt g change) = levelCommands opt g change := by
  cases change with
  | none => rfl
  | some up =>
    cases up with
    | false => rfl
    | true =>
      simp only [levelCommands, raiseCommand]
      split <;> rfl

/-- The frequencies of both sockets depend on the uncore commands alone. -/
theorem foldl_apply_uncoreCommands (commands : List Command) (hw : Hardware) :
    ((commands.foldl Hardware.apply hw).cpu0, (commands.foldl Hardware.apply hw).cpu1) =
      (((uncoreCommands commands).foldl Hardware.apply hw).cpu0,
        ((uncoreCommands commands).foldl Hardware.apply hw).cpu1) := by
  have hagree : ∀ left right : Hardware, left.cpu0 = right.cpu0 → left.cpu1 = right.cpu1 →
      ((commands.foldl Hardware.apply left).cpu0, (commands.foldl Hardware.apply left).cpu1) =
        (((uncoreCommands commands).foldl Hardware.apply right).cpu0,
          ((uncoreCommands commands).foldl Hardware.apply right).cpu1) := by
    induction commands with
    | nil => intro left right h0 h1; simp [uncoreCommands, h0, h1]
    | cons command rest ih =>
      intro left right h0 h1
      cases command with
      | setUncoreFreq cpu0 cpu1 => exact ih _ _ rfl rfl
      | setGpuPowerLimit watts => exact ih _ _ h0 h1
  exact hagree hw hw rfl rfl

/-- Level commands leave the GPU power limit. -/
theorem gpuLimit_levelCommands (opt : Options) (g : Globals) (change : Option Bool) (hw : Hardware) :
    ((levelCommands opt g change).foldl Hardware.apply hw).gpuLimit = hw.gpuLimit := by
  cases change with
  | none => rfl
  | some up =>
    cases up with
    | false => rfl
    | true =>
      simp only [levelCommands, raiseCommand]
      split <;> rfl

/-- The upper bound is printed as it is. -/
@[simp] theorem stdToString_uncoreUpperBound : stdToString uncoreUpperBound = uncoreUpperBound :=
  roundDecimal_of_decimal (n := 2200000) (by norm_num [uncoreUpperBound])

variable {opt : Options} {c : ControllerCall}

namespace Answered

/-- A call that finds the history not yet full only records its sample. -/
theorem globals_of_filling (h : Answered opt c) (hfilling : ¬ Deciding opt c) :
    c.after.globals = observed opt c ∧ c.output = [] := by
  have hnot : ¬ decides opt c.before.globals c.input := hfilling
  constructor
  · simp only [h.globals_eq, answer, if_neg hnot, observed]
  · simp only [h.output_eq, answer, if_neg hnot]

/-- A deciding call is a supervised step followed by the power shift. -/
theorem globals_of_deciding (h : Answered opt c) (hdeciding : Deciding opt c) :
    c.after.globals = (shiftPower opt (supervised opt (observed opt c))).1 ∧
      c.output = supervisedCommands opt (observed opt c) ++
        (shiftPower opt (supervised opt (observed opt c))).2 := by
  have hdecides : decides opt c.before.globals c.input := hdeciding
  constructor
  · simp only [h.globals_eq, answer, if_pos hdecides, observed]
  · simp only [h.output_eq, answer, if_pos hdecides, observed]

/-- The flags after a deciding call are the supervised ones. -/
theorem mode_of_deciding (h : Answered opt c) (hdeciding : Deciding opt c) :
    c.after.globals.mode = supervisedMode opt (observed opt c) := by
  rw [(h.globals_of_deciding hdeciding).1, shiftPower_globals]
  rfl

/-- A filling call keeps the flags. -/
theorem mode_of_filling (h : Answered opt c) (hfilling : ¬ Deciding opt c) :
    c.after.globals.mode = c.before.globals.mode := by
  rw [(h.globals_of_filling hfilling).1]
  rfl

/-- A filling call keeps the level. -/
theorem high_of_filling (h : Answered opt c) (hfilling : ¬ Deciding opt c) :
    c.after.globals.highUncore = c.before.globals.highUncore :=
  congrArg Mode.high (h.mode_of_filling hfilling)

/-- The fields that only the recording of the sample changes. -/
theorem recorded (h : Answered opt c) :
    c.after.globals.throughputHistory = (observed opt c).throughputHistory ∧
      c.after.globals.maxMemThroughput = (observed opt c).maxMemThroughput ∧
      c.after.globals.uncoreLowerBound = (observed opt c).uncoreLowerBound := by
  by_cases hdeciding : Deciding opt c
  · rw [(h.globals_of_deciding hdeciding).1, shiftPower_globals]
    exact ⟨rfl, rfl, rfl⟩
  · rw [(h.globals_of_filling hdeciding).1]
    exact ⟨rfl, rfl, rfl⟩

/-- The uncore commands of a call are those of the edge of its level. -/
theorem uncoreCommands_eq (h : Answered opt c) :
    uncoreCommands c.output =
      levelCommands opt (observed opt c) (edge c.before.globals.highUncore c.after.globals.highUncore) := by
  by_cases hdeciding : Deciding opt c
  · have hhigh : c.after.globals.highUncore = (supervisedMode opt (observed opt c)).high :=
      congrArg Mode.high (h.mode_of_deciding hdeciding)
    have happend := List.filter_append (p := Command.isUncore) (supervisedCommands opt (observed opt c))
      (shiftPower opt (supervised opt (observed opt c))).2
    have hshift := uncoreCommands_shiftPower opt (supervised opt (observed opt c))
    rw [(h.globals_of_deciding hdeciding).2, uncoreCommands, happend]
    rw [uncoreCommands] at hshift
    rw [hshift, List.append_nil, hhigh]
    exact uncoreCommands_levelCommands _ _ _
  · rw [(h.globals_of_filling hdeciding).2, h.high_of_filling hdeciding, edge_self]
    rfl

/-- What the hardware was told about both sockets is what the edge of the level says. -/
theorem cpu_eq (h : Answered opt c) :
    (c.after.hardware.cpu0, c.after.hardware.cpu1) =
      match edge c.before.globals.highUncore c.after.globals.highUncore with
      | none => (c.before.hardware.cpu0, c.before.hardware.cpu1)
      | some true => (uncoreUpperBound,
          if opt.dualCap = 1 then uncoreUpperBound else stdToString c.after.globals.uncoreLowerBound)
      | some false => (stdToString c.after.globals.uncoreLowerBound,
          stdToString c.after.globals.uncoreLowerBound) := by
  have hbound := h.recorded.2.2
  have hcommands := h.uncoreCommands_eq
  rw [h.hardware_eq, foldl_apply_uncoreCommands, hcommands, hbound]
  cases edge c.before.globals.highUncore c.after.globals.highUncore with
  | none => rfl
  | some up =>
    cases up with
    | false => rfl
    | true =>
      by_cases hdual : opt.dualCap = 1 <;>
        simp [levelCommands, raiseCommand, hdual, uncoreCommand, Hardware.apply]

end Answered

section Rules

variable {sys : System} {samples : List Sample} (hopt : 2 ≤ opt.history.toInt)

include hopt

/-- In a state with a nonnegative history, a call with a nonnegative sample is answered. -/
theorem step_answered (hnonneg : sys.NonnegHistory) {sample : Sample}
    (hsample : 0 ≤ sample.currentThroughput) :
    ∃ reply, System.step opt sys sample = some reply ∧
      Answered opt ⟨sys, sample, reply.1, reply.2⟩ ∧ reply.1.NonnegHistory := by
  let reply : System × List Command :=
    (⟨(answer opt sys.globals sample).1,
      (answer opt sys.globals sample).2.foldl Hardware.apply sys.hardware⟩,
      (answer opt sys.globals sample).2)
  have hanswered : Answered opt ⟨sys, sample, reply.1, reply.2⟩ := ⟨rfl, rfl, rfl⟩
  refine ⟨reply, ?_, hanswered, ?_⟩
  · rw [System.step, dynamicUfs_eq_answer hopt hnonneg hsample]
    rfl
  · intro x hx
    rw [hanswered.recorded.1] at hx
    exact observe_nonneg opt hnonneg hsample x hx

/-- A run over nonnegative samples never gets stuck. -/
theorem controllerRunFrom_exists (hnonneg : sys.NonnegHistory) (hsamples : NonnegSamples samples) :
    ∃ calls, controllerRunFrom opt sys samples = some calls := by
  refine runCalls_progress System.NonnegHistory hnonneg ?_ ?_ hsamples
  · intro t sample ht hsample
    obtain ⟨reply, hreply, -⟩ := step_answered hopt ht hsample
    exact ⟨reply, hreply⟩
  · intro t sample u out ht hsample hstep
    obtain ⟨reply, hreply, -, hkeeps⟩ := step_answered hopt ht hsample
    obtain rfl := Option.some.inj (hreply.symm.trans hstep)
    exact hkeeps

/-- Induction along a run over nonnegative samples, one supervised call at a time. -/
theorem controllerRunFrom_induction (motive : List ControllerCall → System → Prop)
    (start : motive [] sys)
    (extend : ∀ calls c, motive calls c.before → Answered opt c → motive (calls ++ [c]) c.after)
    (hnonneg : sys.NonnegHistory) (hsamples : NonnegSamples samples)
    {calls : List ControllerCall} (hrun : controllerRunFrom opt sys samples = some calls) :
    motive calls (finalState sys calls) := by
  have hboth := runCalls_induction (fun calls t => motive calls t ∧ t.NonnegHistory)
    ⟨start, hnonneg⟩ ?_ hsamples hrun
  · exact hboth.1
  · intro calls t sample u out ht hsample hstep
    obtain ⟨reply, hreply, hanswered, hkeeps⟩ := step_answered hopt ht.2 hsample
    obtain rfl := Option.some.inj (hreply.symm.trans hstep)
    exact ⟨extend calls _ ht.1 hanswered, hkeeps⟩

/-- An invariant that supervised calls keep under a condition holds on both sides of every call of
a run whose calls all meet the condition. -/
theorem controllerRunFrom_conditional (Inv : System → Prop) (Condition : ControllerCall → Prop)
    (hinit : Inv sys)
    (hkeeps : ∀ c, Inv c.before → Answered opt c → Condition c → Inv c.after)
    (hnonneg : sys.NonnegHistory) (hsamples : NonnegSamples samples)
    {calls : List ControllerCall} (hrun : controllerRunFrom opt sys samples = some calls)
    (hcondition : ∀ c ∈ calls, Condition c) :
    ∀ c ∈ calls, Inv c.before ∧ Answered opt c ∧ Inv c.after := by
  have hall := controllerRunFrom_induction hopt
    (fun calls t => (∀ c ∈ calls, Condition c) →
      (∀ c ∈ calls, Inv c.before ∧ Answered opt c ∧ Inv c.after) ∧ Inv t)
    (fun _ => ⟨by simp, hinit⟩) ?_ hnonneg hsamples hrun hcondition
  · exact hall.1
  · intro calls c hcalls hanswered hconditions
    obtain ⟨hearlier, hbefore⟩ := hcalls fun d hd => hconditions d (by simp [hd])
    have hafter := hkeeps c hbefore hanswered (hconditions c (by simp))
    refine ⟨?_, hafter⟩
    intro d hd
    rcases List.mem_append.mp hd with hold | hnew
    · exact hearlier d hold
    · obtain rfl := List.mem_singleton.mp hnew
      exact ⟨hbefore, hanswered, hafter⟩

/-- An invariant of supervised calls holds on both sides of every call of a run. -/
theorem controllerRunFrom_invariant (Inv : System → Prop) (hinit : Inv sys)
    (hkeeps : ∀ c, Inv c.before → Answered opt c → Inv c.after)
    (hnonneg : sys.NonnegHistory) (hsamples : NonnegSamples samples)
    {calls : List ControllerCall} (hrun : controllerRunFrom opt sys samples = some calls) :
    ∀ c ∈ calls, Inv c.before ∧ Answered opt c ∧ Inv c.after :=
  controllerRunFrom_conditional hopt Inv (fun _ => True) hinit
    (fun c hc hanswered _ => hkeeps c hc hanswered) hnonneg hsamples hrun fun _ _ => trivial

/-- Each call of a run over nonnegative samples is answered, after a run over the earlier ones. -/
theorem controllerRunFrom_call (hnonneg : sys.NonnegHistory) (hsamples : NonnegSamples samples)
    {calls : List ControllerCall} (hrun : controllerRunFrom opt sys samples = some calls)
    {n : ℕ} (hn : n < calls.length) :
    controllerRunFrom opt sys (samples.take n) = some (calls.take n) ∧
      calls[n].before = finalState sys (calls.take n) ∧ Answered opt calls[n] := by
  obtain ⟨htake, hbefore, -⟩ := runCalls_take hrun hn
  have hall := controllerRunFrom_invariant hopt (fun _ => True) trivial (fun _ _ _ => trivial)
    hnonneg hsamples hrun
  exact ⟨htake, hbefore, (hall calls[n] (List.getElem_mem hn)).2.1⟩

end Rules

/-- The calls before a call of a run are themselves a run over nonnegative samples, and the call
starts where that run ended. -/
theorem controllerRunFrom_earlier {sys : System} {samples : List Sample}
    (hsamples : NonnegSamples samples) {earlier later : List ControllerCall} {c : ControllerCall}
    (hrun : controllerRunFrom opt sys samples = some (earlier ++ c :: later)) :
    NonnegSamples (earlier.map Call.input) ∧
      controllerRunFrom opt sys (earlier.map Call.input) = some earlier ∧
      c.before = finalState sys earlier := by
  refine ⟨?_, (runCalls_split hrun).1, (runCalls_call hrun).1⟩
  intro sample hsample
  apply hsamples
  rw [← runCalls_inputs hrun, List.map_append]
  exact List.mem_append_left _ hsample

/-- A history without a throughput has no negative one. -/
theorem nonnegHistory_of_nil {sys : System} (hhistory : sys.globals.throughputHistory = []) :
    sys.NonnegHistory := by
  intro x hx
  rw [hhistory] at hx
  exact absurd hx List.not_mem_nil

/-- The history is empty when the main loop starts. -/
theorem mainThrowsStart_nonneg (opt : Options) : (mainThrowsStart opt).NonnegHistory :=
  nonnegHistory_of_nil rfl

end NodePower
