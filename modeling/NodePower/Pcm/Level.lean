import NodePower.Pcm.Runs

/-!
# The level of the uncore along a run

The learned lower bound only ever has two values, both below the upper bound, so a raising
and a lowering command can be told apart, and a call issues the one or the other exactly
when its level changes. A change window with an entry means that the history is full, so
the burst condition can be read off the state before a call.
-/

namespace NodePower

/-- The facts about the reachable states of the controller that tell its commands apart. -/
structure Regular (opt : Options) (sys : System) : Prop where
  bound : sys.globals.uncoreLowerBound = 8 / 10 ∨ sys.globals.uncoreLowerBound = 15 / 10
  window : sys.globals.uncoreChangeWindow ≠ [] →
    sys.globals.throughputHistory.length = sizeT opt.history

variable {opt : Options} {c : ControllerCall}

/-- The learned lower bound is printed as it is and lies below the upper bound. -/
theorem stdToString_of_bound {bound : ℚ} (h : bound = 8 / 10 ∨ bound = 15 / 10) :
    stdToString bound = bound ∧ bound < uncoreUpperBound := by
  rcases h with rfl | rfl
  · exact ⟨roundDecimal_of_decimal (n := 800000) (by norm_num), by norm_num [uncoreUpperBound]⟩
  · exact ⟨roundDecimal_of_decimal (n := 1500000) (by norm_num), by norm_num [uncoreUpperBound]⟩

/-- The three ways in which a call can treat the level, with what it tells the sockets. -/
inductive LevelOutcome (opt : Options) (c : ControllerCall) : Prop where
  | kept (edge_eq : edge c.before.globals.highUncore c.after.globals.highUncore = none)
      (cpu0_eq : c.after.hardware.cpu0 = c.before.hardware.cpu0)
      (cpu1_eq : c.after.hardware.cpu1 = c.before.hardware.cpu1)
  | raised (edge_eq : edge c.before.globals.highUncore c.after.globals.highUncore = some true)
      (cpu0_eq : c.after.hardware.cpu0 = uncoreUpperBound)
      (cpu1_eq : c.after.hardware.cpu1 =
        if opt.dualCap = 1 then uncoreUpperBound else c.after.globals.uncoreLowerBound)
  | lowered (edge_eq : edge c.before.globals.highUncore c.after.globals.highUncore = some false)
      (cpu0_eq : c.after.hardware.cpu0 = c.after.globals.uncoreLowerBound)
      (cpu1_eq : c.after.hardware.cpu1 = c.after.globals.uncoreLowerBound)

/-- The controller is regular when its main loop starts. -/
theorem mainThrowsStart_regular (opt : Options) : Regular opt (mainThrowsStart opt) where
  bound := Or.inl rfl
  window h := absurd rfl h

namespace Regular

/-- The lower bound in which a call takes its decisions is one of the two values. -/
theorem observed_bound (h : Regular opt c.before) :
    (observed opt c).uncoreLowerBound = 8 / 10 ∨ (observed opt c).uncoreLowerBound = 15 / 10 := by
  simp only [observed, observe, recordThroughput]
  split
  · exact Or.inr rfl
  · exact h.bound

/-- A call with an entry in its change window finds the history full. -/
theorem deciding_of_window (hopt : 2 ≤ opt.history.toInt) (h : Regular opt c.before)
    (hwindow : c.before.globals.uncoreChangeWindow ≠ []) : Deciding opt c := by
  have hsize := sizeT_eq hopt
  exact length_slide_of_full (by omega) (h.window hwindow) _

/-- A call that finds a burst finds the history full. -/
theorem deciding_of_burst (hopt : 2 ≤ opt.history.toInt) (h : Regular opt c.before)
    (hburst : findsBurst opt c.before.globals = true) : Deciding opt c := by
  apply h.deciding_of_window hopt
  intro hnil
  simp [findsBurst, hnil, windowSize] at hburst

/-- Calls keep the controller regular. -/
theorem step (hopt : 2 ≤ opt.history.toInt) (h : Regular opt c.before) (hanswered : Answered opt c) :
    Regular opt c.after where
  bound := by
    rw [hanswered.recorded.2.2]
    exact h.observed_bound
  window hwindow := by
    rw [hanswered.recorded.1]
    by_cases hdeciding : Deciding opt c
    · exact hdeciding
    · have hglobals := (hanswered.globals_of_filling hdeciding).1
      rw [hglobals] at hwindow
      exact absurd (h.deciding_of_window hopt hwindow) hdeciding

/-- The lowering command is not the raising one. -/
theorem lowerCommand_ne_raiseCommand (h : Regular opt c.before) :
    lowerCommand (observed opt c) ≠ raiseCommand opt (observed opt c) := by
  obtain ⟨hprint, hlt⟩ := stdToString_of_bound h.observed_bound
  intro heq
  rw [lowerCommand, raiseCommand] at heq
  have hcpu0 : stdToString (observed opt c).uncoreLowerBound = stdToString uncoreUpperBound := by
    split at heq <;> exact (Command.setUncoreFreq.inj heq).1
  rw [hprint, stdToString_uncoreUpperBound] at hcpu0
  exact hlt.ne hcpu0

end Regular

namespace Answered

/-- A call that keeps the level keeps what both sockets were told. -/
theorem cpu_of_no_edge (h : Answered opt c)
    (hedge : edge c.before.globals.highUncore c.after.globals.highUncore = none) :
    c.after.hardware.cpu0 = c.before.hardware.cpu0 ∧ c.after.hardware.cpu1 = c.before.hardware.cpu1 := by
  have hcpu := h.cpu_eq
  rw [hedge] at hcpu
  exact Prod.mk.inj hcpu

/-- The bound that a call leaves is printed as it is and lies below the upper bound. -/
theorem bound_lt (hregular : Regular opt c.before) (h : Answered opt c) :
    stdToString c.after.globals.uncoreLowerBound = c.after.globals.uncoreLowerBound ∧
      c.after.globals.uncoreLowerBound < uncoreUpperBound := by
  rw [h.recorded.2.2]
  exact stdToString_of_bound hregular.observed_bound

/-- Every call treats the level in one of the three ways. -/
theorem outcome (hregular : Regular opt c.before) (h : Answered opt c) : LevelOutcome opt c := by
  have hprint := (h.bound_lt hregular).1
  have hcpu := h.cpu_eq
  cases hedge : edge c.before.globals.highUncore c.after.globals.highUncore with
  | none =>
    obtain ⟨hcpu0, hcpu1⟩ := h.cpu_of_no_edge hedge
    exact .kept hedge hcpu0 hcpu1
  | some up =>
    simp only [hedge, hprint] at hcpu
    cases up with
    | false => exact .lowered hedge (Prod.mk.inj hcpu).1 (Prod.mk.inj hcpu).2
    | true => exact .raised hedge (Prod.mk.inj hcpu).1 (Prod.mk.inj hcpu).2

/-- Membership of an uncore command is decided among the uncore commands of the call. -/
theorem mem_output_iff (h : Answered opt c) {command : Command} (huncore : command.isUncore = true) :
    command ∈ c.output ↔ command ∈ levelCommands opt (observed opt c)
      (edge c.before.globals.highUncore c.after.globals.highUncore) := by
  rw [← h.uncoreCommands_eq, uncoreCommands, List.mem_filter]
  simp [huncore]

/-- A call issues the lowering command exactly when its level falls. -/
theorem lowers_iff (hregular : Regular opt c.before) (h : Answered opt c) :
    lowerCommand (observed opt c) ∈ c.output ↔
      edge c.before.globals.highUncore c.after.globals.highUncore = some false := by
  rw [h.mem_output_iff rfl]
  cases edge c.before.globals.highUncore c.after.globals.highUncore with
  | none => simp [levelCommands]
  | some up =>
    cases up with
    | false => simp [levelCommands]
    | true => simpa [levelCommands] using hregular.lowerCommand_ne_raiseCommand

/-- A call issues the raising command exactly when its level rises. -/
theorem raises_iff (hregular : Regular opt c.before) (h : Answered opt c) :
    raiseCommand opt (observed opt c) ∈ c.output ↔
      edge c.before.globals.highUncore c.after.globals.highUncore = some true := by
  have huncore : (raiseCommand opt (observed opt c)).isUncore = true := by
    rw [raiseCommand]
    split <;> rfl
  rw [h.mem_output_iff huncore]
  cases edge c.before.globals.highUncore c.after.globals.highUncore with
  | none => simp [levelCommands]
  | some up =>
    cases up with
    | false => simpa [levelCommands] using hregular.lowerCommand_ne_raiseCommand.symm
    | true => simp [levelCommands]

/-- A deciding call changes its flags as the supervisor does for the burst it finds. -/
theorem mode_eq (h : Answered opt c) (hdeciding : Deciding opt c) :
    c.after.globals.mode = c.before.globals.mode.supervise
      (findsBurst opt c.before.globals) (throughputDecision opt (observed opt c)) :=
  h.mode_of_deciding hdeciding

/-- The level falls exactly in deciding calls without a burst that decide a decrease of a high
level. -/
theorem edge_lower_iff (h : Answered opt c) :
    edge c.before.globals.highUncore c.after.globals.highUncore = some false ↔
      Deciding opt c ∧ findsBurst opt c.before.globals = false ∧
        throughputDecision opt (observed opt c) = .decrease ∧ c.before.globals.highUncore = true := by
  by_cases hdeciding : Deciding opt c
  · have hhigh := congrArg Mode.high (h.mode_eq hdeciding)
    have hedge := Mode.edge_lower_iff c.before.globals.mode (findsBurst opt c.before.globals)
      (throughputDecision opt (observed opt c))
    rw [← hhigh] at hedge
    simp only [hdeciding, true_and]
    exact hedge
  · simp [hdeciding, h.high_of_filling hdeciding]

/-- The level rises exactly in deciding calls that find a burst or decide an increase at a low
level. -/
theorem edge_raise_iff (h : Answered opt c) :
    edge c.before.globals.highUncore c.after.globals.highUncore = some true ↔
      Deciding opt c ∧ c.before.globals.highUncore = false ∧
        (findsBurst opt c.before.globals = true ∨
          throughputDecision opt (observed opt c) = .increase) := by
  by_cases hdeciding : Deciding opt c
  · have hhigh := congrArg Mode.high (h.mode_eq hdeciding)
    have hedge := Mode.edge_raise_iff c.before.globals.mode (findsBurst opt c.before.globals)
      (throughputDecision opt (observed opt c))
    rw [← hhigh] at hedge
    simp only [hdeciding, true_and]
    exact hedge
  · simp [hdeciding, h.high_of_filling hdeciding]

end Answered

/-- A run from start-up over nonnegative samples exists, and all its calls are supervised steps
between regular states. -/
theorem controllerRun_regular {samples : List Sample} (hopt : 2 ≤ opt.history.toInt)
    (hsamples : NonnegSamples samples) :
    ∃ calls, controllerRun opt samples = some calls ∧
      ∀ c ∈ calls, Regular opt c.before ∧ Answered opt c ∧ Regular opt c.after := by
  obtain ⟨calls, hrun⟩ := controllerRunFrom_exists hopt (mainThrowsStart_nonneg opt) hsamples
  exact ⟨calls, hrun, controllerRunFrom_invariant hopt (Regular opt) (mainThrowsStart_regular opt)
    (fun c hc hanswered => hc.step hopt hanswered) (mainThrowsStart_nonneg opt) hsamples hrun⟩

end NodePower
