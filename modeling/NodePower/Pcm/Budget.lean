import NodePower.Pcm.Level

/-!
# The learned lower bound and the shared power budget

Two promises of the controller depend on state that is not brought up to date. The lower
bound is raised at the top of a call, but no command follows from that alone. The power
shift reads copies of the uncore frequencies that keep their initial values, so the first
deciding call raises the GPU limit and nothing ever restores it.

For both, the runs that keep the promise are characterised exactly.
-/

namespace NodePower

variable {opt : Options} {c : ControllerCall}

/-- Both sockets were last commanded to at least the learned lower bound. -/
def BoundHonoured (sys : System) : Prop :=
  sys.globals.uncoreLowerBound ≤ sys.hardware.cpu0 ∧
    sys.globals.uncoreLowerBound ≤ sys.hardware.cpu1

/-- The call changes the level: at a low level it finds a burst or decides an increase, or at a
high level it decides a decrease outside a burst. -/
def LevelChanges (opt : Options) (c : ControllerCall) : Prop :=
  Deciding opt c ∧
    (c.before.globals.highUncore = false ∧
        (findsBurst opt c.before.globals = true ∨
          throughputDecision opt (observed opt c) = .increase) ∨
      c.before.globals.highUncore = true ∧ findsBurst opt c.before.globals = false ∧
        throughputDecision opt (observed opt c) = .decrease)

/-- If the call raises the bound, then both sockets are already at the new bound or the call
changes the level. -/
def CatchesUp (opt : Options) (c : ControllerCall) : Prop :=
  c.before.globals.uncoreLowerBound = 8 / 10 →
    opt.memoryThroughputTs < max c.input.currentThroughput c.before.globals.maxMemThroughput →
    (15 / 10 ≤ c.before.hardware.cpu0 ∧ 15 / 10 ≤ c.before.hardware.cpu1) ∨ LevelChanges opt c

instance (sys : System) : Decidable (BoundHonoured sys) := inferInstanceAs (Decidable (_ ∧ _))

instance (opt : Options) (c : ControllerCall) : Decidable (LevelChanges opt c) :=
  inferInstanceAs (Decidable (_ ∧ (_ ∧ (_ ∨ _) ∨ _ ∧ _ ∧ _)))

instance (opt : Options) (c : ControllerCall) : Decidable (CatchesUp opt c) :=
  inferInstanceAs (Decidable (_ → _ → (_ ∧ _) ∨ _))

/-- After every call of every run over nonnegative samples the bound is honoured. -/
def BoundAlwaysHonoured (opt : Options) : Prop :=
  ∀ samples, NonnegSamples samples →
    ∃ calls, controllerRun opt samples = some calls ∧ ∀ c ∈ calls, BoundHonoured c.after

/-- The level changes exactly when it has an edge. -/
theorem Answered.levelChanges_iff (h : Answered opt c) :
    LevelChanges opt c ↔ edge c.before.globals.highUncore c.after.globals.highUncore ≠ none := by
  have hraise := h.edge_raise_iff
  have hlower := h.edge_lower_iff
  cases hedge : edge c.before.globals.highUncore c.after.globals.highUncore with
  | none =>
    rw [hedge] at hraise hlower
    simp only [reduceCtorEq, false_iff, ne_eq, not_true, iff_false] at hraise hlower ⊢
    rintro ⟨hdeciding, hup | hdown⟩
    · exact hraise ⟨hdeciding, hup⟩
    · exact hlower ⟨hdeciding, hdown.2.1, hdown.2.2, hdown.1⟩
  | some up =>
    simp only [ne_eq, reduceCtorEq, not_false_eq_true, iff_true]
    cases up with
    | false =>
      obtain ⟨hdeciding, hburst, hdecision, hhigh⟩ := hlower.mp hedge
      exact ⟨hdeciding, Or.inr ⟨hhigh, hburst, hdecision⟩⟩
    | true =>
      obtain ⟨hdeciding, hup⟩ := hraise.mp hedge
      exact ⟨hdeciding, Or.inl hup⟩

/-- A call that changes the level leaves both sockets at or above the bound. -/
theorem Answered.boundHonoured_of_edge (hregular : Regular opt c.before) (h : Answered opt c)
    (hedge : edge c.before.globals.highUncore c.after.globals.highUncore ≠ none) :
    BoundHonoured c.after := by
  have hlt := (h.bound_lt hregular).2
  cases h.outcome hregular with
  | kept hnone => exact absurd hnone hedge
  | raised _ hcpu0 hcpu1 =>
    refine ⟨hlt.le.trans hcpu0.ge, ?_⟩
    rw [hcpu1]
    split
    · exact hlt.le
    · exact le_rfl
  | lowered _ hcpu0 hcpu1 => exact ⟨hcpu0.ge, hcpu1.ge⟩

/-- The bound that a call leaves. -/
theorem Answered.bound_eq (h : Answered opt c) :
    c.after.globals.uncoreLowerBound =
      if opt.memoryThroughputTs < max c.input.currentThroughput c.before.globals.maxMemThroughput
      then 15 / 10 else c.before.globals.uncoreLowerBound :=
  h.recorded.2.2

/-- A call that catches up keeps the bound honoured. -/
theorem Answered.boundHonoured (hregular : Regular opt c.before) (h : Answered opt c)
    (hhonoured : BoundHonoured c.before) (hcatches : CatchesUp opt c) : BoundHonoured c.after := by
  by_cases hedge : edge c.before.globals.highUncore c.after.globals.highUncore = none
  · obtain ⟨hcpu0, hcpu1⟩ := h.cpu_of_no_edge hedge
    have hlevel : ¬ LevelChanges opt c := fun hchanges => h.levelChanges_iff.mp hchanges hedge
    rw [BoundHonoured, hcpu0, hcpu1, h.bound_eq]
    split
    · rename_i hexceeds
      rcases hregular.bound with hlow | hhigh
      · exact (hcatches hlow hexceeds).resolve_right hlevel
      · rw [← hhigh]
        exact hhonoured
    · exact hhonoured
  · exact h.boundHonoured_of_edge hregular hedge

/-- A call that leaves the bound honoured has caught up. -/
theorem Answered.catchesUp (h : Answered opt c) (hhonoured : BoundHonoured c.after) :
    CatchesUp opt c := by
  intro _ hexceeds
  by_cases hedge : edge c.before.globals.highUncore c.after.globals.highUncore = none
  · obtain ⟨hcpu0, hcpu1⟩ := h.cpu_of_no_edge hedge
    rw [BoundHonoured, hcpu0, hcpu1, h.bound_eq, if_pos hexceeds] at hhonoured
    exact Or.inl hhonoured
  · exact Or.inr (h.levelChanges_iff.mpr hedge)

/-- The bound is honoured after every call of a run exactly when the call that raises it finds
both sockets at 1.5 GHz or more, or changes the level itself. -/
theorem boundHonoured_iff_catchesUp (opt : Options) (hopt : 2 ≤ opt.history.toInt)
    (h0 : 8 / 10 ≤ opt.uncore0) (h1 : 8 / 10 ≤ opt.uncore1) (samples : List Sample)
    (hsamples : NonnegSamples samples) :
    ∃ calls, controllerRun opt samples = some calls ∧
      ((∀ c ∈ calls, BoundHonoured c.after) ↔ ∀ c ∈ calls, CatchesUp opt c) := by
  obtain ⟨calls, hrun, hcalls⟩ := controllerRun_regular hopt hsamples
  refine ⟨calls, hrun, ?_, ?_⟩
  · intro hhonoured c hc
    exact (hcalls c hc).2.1.catchesUp (hhonoured c hc)
  · intro hcatches c hc
    have hstart : BoundHonoured (mainThrowsStart opt) :=
      ⟨le_roundDecimal (n := 800000) (by norm_num [mainThrowsStart, initialGlobals]) h0,
        le_roundDecimal (n := 800000) (by norm_num [mainThrowsStart, initialGlobals]) h1⟩
    have hall := controllerRunFrom_conditional hopt
      (fun sys => Regular opt sys ∧ BoundHonoured sys) (CatchesUp opt)
      ⟨mainThrowsStart_regular opt, hstart⟩
      (fun d hd hanswered hcatch =>
        ⟨hd.1.step hopt hanswered, hanswered.boundHonoured hd.1 hd.2 hcatch⟩)
      (mainThrowsStart_nonneg opt) hsamples hrun hcatches
    exact (hall c hc).2.2.2

/-- A peak that raises the bound is a rise of the throughput as well, so the uncore goes up with it. -/
theorem boundHonoured_iff_catchesUp_peak :
    ∃ earlier c, controllerRun { defaultOptions with history := 2 } [⟨0, 0⟩, ⟨40000, 20000⟩] =
        some (earlier ++ [c]) ∧
      c.after.globals.uncoreLowerBound = 15 / 10 ∧ ∀ d ∈ earlier ++ [c], BoundHonoured d.after := by
  obtain ⟨earlier, c, hlast, hraised⟩ := exists_last_of_any
    (controllerRun { defaultOptions with history := 2 } [⟨0, 0⟩, ⟨40000, 20000⟩])
    (fun c => c.after.globals.uncoreLowerBound = 15 / 10) (by decide +kernel)
  obtain ⟨calls, hrun, hiff⟩ := boundHonoured_iff_catchesUp { defaultOptions with history := 2 }
    (by decide +kernel) (by decide +kernel) (by decide +kernel) [⟨0, 0⟩, ⟨40000, 20000⟩] (by decide +kernel)
  obtain rfl := Option.some.inj (hlast.symm.trans hrun)
  refine ⟨earlier, c, hlast, hraised, hiff.mpr ?_⟩
  exact of_all_calls (fun calls => ∀ d ∈ calls, CatchesUp { defaultOptions with history := 2 } d)
    (by decide +kernel) hlast

/-- One sample above the threshold raises the bound to 1.5 GHz over sockets left at 0.8 GHz. -/
theorem boundHonoured_fails_at_first_peak :
    ¬ BoundAlwaysHonoured { defaultOptions with history := 2 } := by
  intro h
  exact not_forall_calls_of_any _ (by decide +kernel) (h [⟨40000, 20000⟩] (by decide +kernel))

/-- The GPU limit was last set to the raised one, and the controller knows it. -/
def GpuRaised (sys : System) : Prop :=
  sys.hardware.gpuLimit = some 233 ∧ sys.globals.highGpuPower = true

/-- Both sockets were last commanded to the upper bound. -/
def BothAtUpperBound (hardware : Hardware) : Prop :=
  hardware.cpu0 = uncoreUpperBound ∧ hardware.cpu1 = uncoreUpperBound

/-- A deciding call does not leave the GPU limit raised with both sockets at the upper bound. -/
def BudgetKept (opt : Options) (c : ControllerCall) : Prop :=
  Deciding opt c → ¬ (GpuRaised c.after ∧ BothAtUpperBound c.after.hardware)

instance (hardware : Hardware) : Decidable (BothAtUpperBound hardware) :=
  inferInstanceAs (Decidable (_ ∧ _))

instance (opt : Options) (c : ControllerCall) : Decidable (BudgetKept opt c) :=
  inferInstanceAs (Decidable (_ → ¬ ((_ ∧ _) ∧ _)))

/-- The budget is kept in every run over nonnegative samples. -/
def BudgetAlwaysKept (opt : Options) : Prop :=
  ∀ samples, NonnegSamples samples →
    ∃ calls, controllerRun opt samples = some calls ∧ ∀ c ∈ calls, BudgetKept opt c

/-- In a deciding call the start-up command was not for both sockets at the upper bound, and the
call neither finds a burst nor decides an increase. -/
def StaysLow (opt : Options) (c : ControllerCall) : Prop :=
  Deciding opt c →
    ¬ BothAtUpperBound (mainThrowsStart opt).hardware ∧
      findsBurst opt c.before.globals = false ∧
      throughputDecision opt (observed opt c) ≠ .increase

instance (opt : Options) (c : ControllerCall) : Decidable (StaysLow opt c) :=
  inferInstanceAs (Decidable (_ → ¬ _ ∧ _ ∧ _ ≠ _))

/-- The power shift still sees the initial copies of the uncore frequencies, and a raised GPU
limit was commanded. -/
structure GpuKnown (sys : System) : Prop where
  copy_eq : sys.globals.newUncoreFreq0 = 8 / 10
  limit_eq : sys.globals.highGpuPower = true → sys.hardware.gpuLimit = some 233

/-- The power shift on stale copies leaves the GPU limit raised. -/
theorem shiftPower_raises (hshift : opt.powerShift = 1) (hcap : opt.gCap = 1) {g : Globals}
    (hcopy : g.newUncoreFreq0 = 8 / 10) {hardware : Hardware}
    (hlimit : g.highGpuPower = true → hardware.gpuLimit = some 233) :
    (shiftPower opt g).1.highGpuPower = true ∧
      ((shiftPower opt g).2.foldl Hardware.apply hardware).gpuLimit = some 233 := by
  cases hflag : g.highGpuPower with
  | false =>
    simp [shiftPower, hshift, hcap, hcopy, hflag, Hardware.apply]
  | true =>
    have hstale : ¬ (g.newUncoreFreq0 = 22 / 10 ∧ g.newUncoreFreq1 = 22 / 10) := by
      rw [hcopy]
      norm_num
    simp [shiftPower, hshift, hcap, hstale, hflag, hlimit hflag]

/-- After a deciding call the GPU limit is the raised one. -/
theorem Answered.gpuRaised (hshift : opt.powerShift = 1) (hcap : opt.gCap = 1) (h : Answered opt c)
    (hknown : GpuKnown c.before) (hdeciding : Deciding opt c) : GpuRaised c.after := by
  have hglobals := h.globals_of_deciding hdeciding
  have hlimit : (supervised opt (observed opt c)).highGpuPower = true →
      ((supervisedCommands opt (observed opt c)).foldl Hardware.apply
        c.before.hardware).gpuLimit = some 233 := by
    rw [supervisedCommands, gpuLimit_levelCommands]
    exact hknown.limit_eq
  have hraises := shiftPower_raises (g := supervised opt (observed opt c)) hshift hcap
    hknown.copy_eq hlimit
  rw [GpuRaised, h.hardware_eq, hglobals.2, hglobals.1, List.foldl_append]
  exact ⟨hraises.2, hraises.1⟩

/-- Calls keep the copies of the uncore frequencies stale. -/
theorem Answered.gpuKnown (hshift : opt.powerShift = 1) (hcap : opt.gCap = 1) (h : Answered opt c)
    (hknown : GpuKnown c.before) : GpuKnown c.after := by
  by_cases hdeciding : Deciding opt c
  · refine ⟨?_, fun _ => (h.gpuRaised hshift hcap hknown hdeciding).1⟩
    rw [(h.globals_of_deciding hdeciding).1, shiftPower_globals]
    exact hknown.copy_eq
  · obtain ⟨hglobals, houtput⟩ := h.globals_of_filling hdeciding
    refine ⟨?_, ?_⟩
    · rw [hglobals]
      exact hknown.copy_eq
    · rw [hglobals, h.hardware_eq, houtput]
      exact hknown.limit_eq

/-- The level is low, and the hardware is as the start-up command left it. -/
structure Untouched (opt : Options) (sys : System) : Prop where
  low : sys.globals.highUncore = false
  cpu0_eq : sys.hardware.cpu0 = (mainThrowsStart opt).hardware.cpu0
  cpu1_eq : sys.hardware.cpu1 = (mainThrowsStart opt).hardware.cpu1

/-- A raise under `dual_cap` takes both sockets to the upper bound. -/
theorem Answered.bothAtUpperBound (hdual : opt.dualCap = 1) (h : Answered opt c)
    (hedge : edge c.before.globals.highUncore c.after.globals.highUncore = some true) :
    BothAtUpperBound c.after.hardware := by
  have hcpu := h.cpu_eq
  rw [hedge] at hcpu
  simp only [hdual, if_true, Prod.mk.injEq] at hcpu
  exact hcpu

/-- From an untouched state, a call either raises the uncore or leaves it untouched. -/
theorem Answered.untouched (h : Answered opt c) (huntouched : Untouched opt c.before)
    (hedge : edge c.before.globals.highUncore c.after.globals.highUncore ≠ some true) :
    Untouched opt c.after := by
  have hnone : edge c.before.globals.highUncore c.after.globals.highUncore = none := by
    rw [huntouched.low] at hedge ⊢
    cases hhigh : c.after.globals.highUncore with
    | false => rfl
    | true => exact absurd (by rw [hhigh]; rfl) hedge
  obtain ⟨hcpu0, hcpu1⟩ := h.cpu_of_no_edge hnone
  exact ⟨(eq_of_edge_eq_none hnone).trans huntouched.low, hcpu0.trans huntouched.cpu0_eq,
    hcpu1.trans huntouched.cpu1_eq⟩

/-- From an untouched state, a call that stays low does not raise. -/
theorem Answered.not_raise (h : Answered opt c) (hstays : StaysLow opt c) :
    edge c.before.globals.highUncore c.after.globals.highUncore ≠ some true := by
  intro hedge
  obtain ⟨hdeciding, -, hup⟩ := h.edge_raise_iff.mp hedge
  obtain ⟨-, hburst, hdecision⟩ := hstays hdeciding
  rcases hup with hfound | hincrease
  · rw [hfound] at hburst
    cases hburst
  · exact hdecision hincrease

/-- From an untouched state, a call that keeps the budget does not raise. -/
theorem Answered.not_raise_of_budgetKept (hshift : opt.powerShift = 1) (hcap : opt.gCap = 1)
    (hdual : opt.dualCap = 1) (h : Answered opt c) (hknown : GpuKnown c.before)
    (hkept : BudgetKept opt c) :
    edge c.before.globals.highUncore c.after.globals.highUncore ≠ some true := by
  intro hedge
  have hdeciding := (h.edge_raise_iff.mp hedge).1
  exact hkept hdeciding ⟨h.gpuRaised hshift hcap hknown hdeciding, h.bothAtUpperBound hdual hedge⟩

/-- From an untouched state, a call keeps the budget exactly when it stays low. -/
theorem Answered.budgetKept_iff (hshift : opt.powerShift = 1) (hcap : opt.gCap = 1)
    (hdual : opt.dualCap = 1) (h : Answered opt c) (hknown : GpuKnown c.before)
    (huntouched : Untouched opt c.before) : BudgetKept opt c ↔ StaysLow opt c := by
  constructor
  · intro hkept hdeciding
    have hedge := h.not_raise_of_budgetKept hshift hcap hdual hknown hkept
    have hafter := h.untouched huntouched hedge
    refine ⟨fun hboth => hkept hdeciding ⟨h.gpuRaised hshift hcap hknown hdeciding, ?_⟩, ?_, ?_⟩
    · exact ⟨hafter.cpu0_eq.trans hboth.1, hafter.cpu1_eq.trans hboth.2⟩
    · rw [← Bool.not_eq_true]
      exact fun hburst => hedge (h.edge_raise_iff.mpr ⟨hdeciding, huntouched.low, Or.inl hburst⟩)
    · exact fun hincrease =>
        hedge (h.edge_raise_iff.mpr ⟨hdeciding, huntouched.low, Or.inr hincrease⟩)
  · rintro hstays hdeciding ⟨-, hboth⟩
    have hafter := h.untouched huntouched (h.not_raise hstays)
    exact (hstays hdeciding).1 ⟨hafter.cpu0_eq.symm.trans hboth.1, hafter.cpu1_eq.symm.trans hboth.2⟩

/-- With power shift, GPU capping and both sockets governed, the budget is kept along a run
exactly when no deciding call follows a start of both sockets at the upper bound, finds a burst
or decides an increase: the first raise of the uncore hands the budget out twice. -/
theorem budgetKept_iff_staysLow (opt : Options) (hopt : 2 ≤ opt.history.toInt)
    (hshift : opt.powerShift = 1) (hcap : opt.gCap = 1) (hdual : opt.dualCap = 1)
    (samples : List Sample) (hsamples : NonnegSamples samples) :
    ∃ calls, controllerRun opt samples = some calls ∧
      ((∀ c ∈ calls, BudgetKept opt c) ↔ ∀ c ∈ calls, StaysLow opt c) := by
  obtain ⟨calls, hrun⟩ := controllerRunFrom_exists hopt (mainThrowsStart_nonneg opt) hsamples
  have hinit : GpuKnown (mainThrowsStart opt) ∧ Untouched opt (mainThrowsStart opt) :=
    ⟨⟨rfl, fun hflag => absurd hflag (by simp [mainThrowsStart, initialGlobals])⟩, ⟨rfl, rfl, rfl⟩⟩
  refine ⟨calls, hrun, ?_, ?_⟩
  · intro hkept
    have hall := controllerRunFrom_conditional hopt
      (fun sys => GpuKnown sys ∧ Untouched opt sys) (BudgetKept opt) hinit
      (fun c hc hanswered hgood => ⟨hanswered.gpuKnown hshift hcap hc.1, hanswered.untouched hc.2
        (hanswered.not_raise_of_budgetKept hshift hcap hdual hc.1 hgood)⟩)
      (mainThrowsStart_nonneg opt) hsamples hrun hkept
    intro c hc
    obtain ⟨⟨hknown, huntouched⟩, hanswered, -⟩ := hall c hc
    exact (hanswered.budgetKept_iff hshift hcap hdual hknown huntouched).mp (hkept c hc)
  · intro hstays
    have hall := controllerRunFrom_conditional hopt
      (fun sys => GpuKnown sys ∧ Untouched opt sys) (StaysLow opt) hinit
      (fun c hc hanswered hgood => ⟨hanswered.gpuKnown hshift hcap hc.1,
        hanswered.untouched hc.2 (hanswered.not_raise hgood)⟩)
      (mainThrowsStart_nonneg opt) hsamples hrun hstays
    intro c hc
    obtain ⟨⟨hknown, huntouched⟩, hanswered, -⟩ := hall c hc
    exact (hanswered.budgetKept_iff hshift hcap hdual hknown huntouched).mpr (hstays c hc)

/-- While the throughput is steady, the GPU limit is raised and the sockets stay low. -/
theorem budgetKept_iff_staysLow_steady :
    ∃ earlier c, controllerRun { defaultOptions with history := 2, powerShift := 1, gCap := 1 }
        [⟨100, 0⟩, ⟨100, 0⟩] = some (earlier ++ [c]) ∧
      Deciding { defaultOptions with history := 2, powerShift := 1, gCap := 1 } c ∧
      c.after.hardware.gpuLimit = some 233 ∧
      ∀ d ∈ earlier ++ [c],
        BudgetKept { defaultOptions with history := 2, powerShift := 1, gCap := 1 } d := by
  obtain ⟨earlier, c, hlast, hdeciding, hlimit⟩ := exists_last_of_any
    (controllerRun { defaultOptions with history := 2, powerShift := 1, gCap := 1 }
      [⟨100, 0⟩, ⟨100, 0⟩])
    (fun c => Deciding { defaultOptions with history := 2, powerShift := 1, gCap := 1 } c ∧
      c.after.hardware.gpuLimit = some 233) (by decide +kernel)
  obtain ⟨calls, hrun, hiff⟩ := budgetKept_iff_staysLow
    { defaultOptions with history := 2, powerShift := 1, gCap := 1 } (by decide +kernel) rfl rfl rfl
    [⟨100, 0⟩, ⟨100, 0⟩] (by decide +kernel)
  obtain rfl := Option.some.inj (hlast.symm.trans hrun)
  refine ⟨earlier, c, hlast, hdeciding, hlimit, hiff.mpr ?_⟩
  exact of_all_calls (fun calls => ∀ d ∈ calls,
    StaysLow { defaultOptions with history := 2, powerShift := 1, gCap := 1 } d) (by decide +kernel) hlast

/-- The first rise of the throughput raises both sockets while the GPU limit is raised as well. -/
theorem budgetKept_fails_at_first_raise :
    ¬ BudgetAlwaysKept { defaultOptions with history := 2, powerShift := 1, gCap := 1 } := by
  intro h
  exact not_forall_calls_of_any _ (by decide +kernel) (h [⟨0, 0⟩, ⟨100, 0⟩] (by decide +kernel))

end NodePower
