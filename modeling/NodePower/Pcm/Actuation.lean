import NodePower.Pcm.Level

/-!
# The actuation flag and the commands of a run

The flag `high_uncore` is meant to say whether socket 0 was last commanded to the upper
bound. It starts at zero whatever the start-up command was, so it says so throughout a run
exactly when the start-up command left socket 0 below the upper bound.

The commands of `dynamicUfs` themselves are consistent: at most one per call, raising and
lowering in turn, and a call that finds a burst leaves the uncore raised.
-/

namespace NodePower

/-- The flag is set exactly when socket 0 was last commanded to at least the upper bound. -/
def TellsTruth (sys : System) : Prop :=
  sys.globals.highUncore = true ↔ uncoreUpperBound ≤ sys.hardware.cpu0

/-- A decrease that is decided outside a burst, while socket 0 is at the upper bound, is
commanded. -/
def LowersOnDecrease (opt : Options) (c : ControllerCall) : Prop :=
  Deciding opt c → findsBurst opt c.before.globals = false →
    throughputDecision opt (observed opt c) = .decrease →
    uncoreUpperBound ≤ c.before.hardware.cpu0 → lowerCommand (observed opt c) ∈ c.output

/-- In every state that a run over nonnegative samples reaches the flag tells the truth, and no
lowering that is due is withheld. -/
def ActuationFlagTruthful (opt : Options) : Prop :=
  ∀ samples, NonnegSamples samples → ∃ calls, controllerRun opt samples = some calls ∧
    TellsTruth (finalState (mainThrowsStart opt) calls) ∧ ∀ c ∈ calls, LowersOnDecrease opt c

instance (opt : Options) (c : ControllerCall) : Decidable (LowersOnDecrease opt c) :=
  inferInstanceAs (Decidable (_ → _ → _ → _ → _))

variable {opt : Options} {c : ControllerCall}

/-- A call keeps a truthful flag truthful. -/
theorem Answered.tellsTruth (hregular : Regular opt c.before) (h : Answered opt c)
    (htruth : TellsTruth c.before) : TellsTruth c.after := by
  have hlt := (h.bound_lt hregular).2
  cases h.outcome hregular with
  | kept hedge hcpu0 =>
    rw [TellsTruth, hcpu0, eq_of_edge_eq_none hedge]
    exact htruth
  | raised hedge hcpu0 =>
    rw [TellsTruth, hcpu0, (eq_of_edge_eq_some hedge).2]
    simp
  | lowered hedge hcpu0 =>
    rw [TellsTruth, hcpu0, (eq_of_edge_eq_some hedge).2]
    simpa using hlt

/-- Where the flag tells the truth, a lowering that is due is commanded. -/
theorem Answered.lowersOnDecrease (hregular : Regular opt c.before) (h : Answered opt c)
    (htruth : TellsTruth c.before) : LowersOnDecrease opt c := by
  intro hdeciding hburst hdecision hcpu
  rw [h.lowers_iff hregular, h.edge_lower_iff]
  exact ⟨hdeciding, hburst, hdecision, htruth.mpr hcpu⟩

/-- The start-up state tells the truth exactly when socket 0 starts below the upper bound. -/
theorem mainThrowsStart_tellsTruth (opt : Options) :
    TellsTruth (mainThrowsStart opt) ↔ stdToString opt.uncore0 < uncoreUpperBound := by
  simp [TellsTruth, mainThrowsStart, initialGlobals]

/-- The actuation flag tells the truth along every run exactly when the start-up command leaves
socket 0 below the upper bound. -/
theorem actuationFlagTruthful_iff (hopt : 2 ≤ opt.history.toInt) :
    ActuationFlagTruthful opt ↔ stdToString opt.uncore0 < uncoreUpperBound := by
  constructor
  · intro h
    obtain ⟨calls, hrun, htruth, -⟩ := h [] (by simp [NonnegSamples])
    obtain rfl := Option.some.inj hrun
    exact (mainThrowsStart_tellsTruth opt).mp htruth
  · intro hstart samples hsamples
    obtain ⟨calls, hrun⟩ := controllerRunFrom_exists hopt (mainThrowsStart_nonneg opt) hsamples
    have hinit := And.intro (mainThrowsStart_regular opt) ((mainThrowsStart_tellsTruth opt).mpr hstart)
    have hkeeps : ∀ c : ControllerCall, Regular opt c.before ∧ TellsTruth c.before → Answered opt c →
        Regular opt c.after ∧ TellsTruth c.after := fun c hc hanswered =>
      ⟨hc.1.step hopt hanswered, hanswered.tellsTruth hc.1 hc.2⟩
    have hfinal := controllerRunFrom_induction hopt
      (fun _ sys => Regular opt sys ∧ TellsTruth sys) hinit
      (fun _ c hc hanswered => hkeeps c hc hanswered) (mainThrowsStart_nonneg opt) hsamples hrun
    have hcalls := controllerRunFrom_invariant hopt
      (fun sys => Regular opt sys ∧ TellsTruth sys) hinit hkeeps (mainThrowsStart_nonneg opt)
      hsamples hrun
    refine ⟨calls, hrun, hfinal.2, ?_⟩
    intro c hc
    obtain ⟨⟨hregular, htruth⟩, hanswered, -⟩ := hcalls c hc
    exact hanswered.lowersOnDecrease hregular htruth

/-- The default start of both sockets at 0.8 GHz keeps the flag truthful. -/
theorem actuationFlagTruthful_default : ActuationFlagTruthful { defaultOptions with history := 2 } :=
  (actuationFlagTruthful_iff (by decide +kernel)).mpr (by decide +kernel)

/-- After a start of both sockets at 2.4 GHz, a fall of the throughput in the second call is a
decrease that is not commanded. -/
theorem actuationFlagTruthful_fails_at_maximum :
    ¬ ActuationFlagTruthful
      { defaultOptions with history := 2, uncore0 := 24 / 10, uncore1 := 24 / 10 } := by
  intro h
  obtain ⟨calls, hrun, -, hlowers⟩ := h [⟨100, 0⟩, ⟨0, 0⟩] (by decide +kernel)
  exact not_forall_calls_of_any _ (by decide +kernel) ⟨calls, hrun, hlowers⟩

/-- Whether a command is an uncore command that takes socket 0 to the upper bound. -/
def raisesSocket0 : Command → Bool
  | .setUncoreFreq cpu0 _ => decide (cpu0 = uncoreUpperBound)
  | .setGpuPowerLimit _ => false

/-- The raising command takes socket 0 to the upper bound. -/
theorem raisesSocket0_raiseCommand (opt : Options) (g : Globals) :
    raisesSocket0 (raiseCommand opt g) = true := by
  rw [raiseCommand]
  split <;> simp [raisesSocket0, uncoreCommand]

/-- The lowering command does not take socket 0 to the upper bound. -/
theorem raisesSocket0_lowerCommand (hregular : Regular opt c.before) :
    raisesSocket0 (lowerCommand (observed opt c)) = false := by
  obtain ⟨hprint, hlt⟩ := stdToString_of_bound hregular.observed_bound
  simp [raisesSocket0, lowerCommand, uncoreCommand, hprint, hlt.ne]

/-- The uncore commands of a call report the edge of its level. -/
theorem Answered.raisesSocket0_eq (hregular : Regular opt c.before) (h : Answered opt c) :
    (uncoreCommands c.output).map raisesSocket0 =
      (edge c.before.globals.highUncore c.after.globals.highUncore).toList := by
  rw [h.uncoreCommands_eq]
  cases edge c.before.globals.highUncore c.after.globals.highUncore with
  | none => rfl
  | some up =>
    cases up with
    | false => simp [levelCommands, raisesSocket0_lowerCommand hregular]
    | true => simp [levelCommands, raisesSocket0_raiseCommand]

/-- A call issues at most one uncore command, and that is the raising or the lowering one. -/
theorem Answered.uncoreCommands_le_one (h : Answered opt c) :
    (uncoreCommands c.output).length ≤ 1 ∧
      ∀ command ∈ uncoreCommands c.output,
        command = raiseCommand opt (observed opt c) ∨ command = lowerCommand (observed opt c) := by
  rw [h.uncoreCommands_eq]
  cases edge c.before.globals.highUncore c.after.globals.highUncore with
  | none => simp [levelCommands]
  | some up => cases up <;> simp [levelCommands]

/-- No call commands the uncore twice, and over a whole run raising and lowering commands
alternate, the first one being a raise. -/
theorem uncoreCommands_alternate (opt : Options) (hopt : 2 ≤ opt.history.toInt)
    (samples : List Sample) (hsamples : NonnegSamples samples) :
    ∃ calls, controllerRun opt samples = some calls ∧
      (∀ c ∈ calls, (uncoreCommands c.output).length ≤ 1 ∧
        ∀ command ∈ uncoreCommands c.output,
          command = raiseCommand opt (observed opt c) ∨ command = lowerCommand (observed opt c)) ∧
      (false :: (uncoreCommands (commandsOf calls)).map raisesSocket0).IsChain (· ≠ ·) := by
  obtain ⟨calls, hrun, hcalls⟩ := controllerRun_regular hopt hsamples
  refine ⟨calls, hrun, fun c hc => (hcalls c hc).2.1.uncoreCommands_le_one, ?_⟩
  have hedges := flatMap_eq_edges (fun sys : System => sys.globals.highUncore)
    (fun c => (uncoreCommands c.output).map raisesSocket0) hrun
    (fun c hc => (hcalls c hc).2.1.raisesSocket0_eq (hcalls c hc).1)
  have hkinds : (uncoreCommands (commandsOf calls)).map raisesSocket0 =
      calls.flatMap fun c => (uncoreCommands c.output).map raisesSocket0 := by
    rw [uncoreCommands, commandsOf, List.filter_flatMap, List.map_flatMap]
    rfl
  rw [hkinds, hedges]
  exact edges_isChain _ _

/-- A rise and a fall of the throughput are commanded by one raise and one lowering. -/
theorem uncoreCommands_alternate_rise_fall :
    ∃ calls, controllerRun { defaultOptions with history := 2 } [⟨0, 0⟩, ⟨100, 0⟩, ⟨0, 0⟩] =
        some calls ∧
      commandsOf calls =
        [uncoreCommand (22 / 10) (22 / 10), uncoreCommand (8 / 10) (8 / 10)] ∧
      (∀ c ∈ calls, (uncoreCommands c.output).length ≤ 1) ∧
      (false :: (uncoreCommands (commandsOf calls)).map raisesSocket0).IsChain (· ≠ ·) := by
  obtain ⟨calls, hrun, hone, hchain⟩ := uncoreCommands_alternate { defaultOptions with history := 2 }
    (by decide +kernel) [⟨0, 0⟩, ⟨100, 0⟩, ⟨0, 0⟩] (by decide +kernel)
  have hcommands := of_all_calls (fun calls => commandsOf calls =
    [uncoreCommand (22 / 10) (22 / 10), uncoreCommand (8 / 10) (8 / 10)]) (by decide +kernel) hrun
  exact ⟨calls, hrun, hcommands, fun c hc => (hone c hc).1, hchain⟩

/-- The last uncore command of a run was the raise issued by this call, with the commands that
raise gave to both sockets. -/
def LastRaise (opt : Options) (calls : List ControllerCall) (hardware : Hardware) : Prop :=
  ∃ earlier raise later, calls = earlier ++ raise :: later ∧
    raiseCommand opt (observed opt raise) ∈ raise.output ∧
    (∀ d ∈ later, uncoreCommands d.output = []) ∧
    hardware.cpu0 = uncoreUpperBound ∧
    hardware.cpu1 =
      if opt.dualCap = 1 then uncoreUpperBound else raise.after.globals.uncoreLowerBound

/-- A call keeps the level and the last raise in step. -/
theorem Answered.lastRaise (hregular : Regular opt c.before) (h : Answered opt c)
    {calls : List ControllerCall}
    (hlast : c.before.globals.highUncore = true → LastRaise opt calls c.before.hardware)
    (hhigh : c.after.globals.highUncore = true) : LastRaise opt (calls ++ [c]) c.after.hardware := by
  cases h.outcome hregular with
  | kept hedge hcpu0 hcpu1 =>
    have hbefore : c.before.globals.highUncore = true := (eq_of_edge_eq_none hedge).symm.trans hhigh
    obtain ⟨earlier, raise, later, rfl, hraise, hlater, hraised0, hraised1⟩ := hlast hbefore
    refine ⟨earlier, raise, later ++ [c], by simp, hraise, ?_, hcpu0.trans hraised0,
      hcpu1.trans hraised1⟩
    intro d hd
    rcases List.mem_append.mp hd with hold | hnew
    · exact hlater d hold
    · obtain rfl := List.mem_singleton.mp hnew
      rw [h.uncoreCommands_eq, hedge]
      rfl
  | raised hedge hcpu0 hcpu1 =>
    exact ⟨calls, c, [], rfl, (h.raises_iff hregular).mpr hedge, by simp, hcpu0, hcpu1⟩
  | lowered hedge =>
    have hlow := (eq_of_edge_eq_some hedge).2
    rw [hhigh] at hlow
    cases hlow

/-- A call that finds a burst leaves the uncore raised: it issues no lowering command, socket 0
was last commanded to the upper bound, and socket 1 to what the last raise gave it. -/
theorem burst_keeps_uncore_high (opt : Options) (hopt : 2 ≤ opt.history.toInt)
    (samples : List Sample) (hsamples : NonnegSamples samples) :
    ∃ calls, controllerRun opt samples = some calls ∧
      ∀ earlier c later, calls = earlier ++ c :: later →
        findsBurst opt c.before.globals = true →
        lowerCommand (observed opt c) ∉ c.output ∧ c.after.globals.highUncore = true ∧
          LastRaise opt (earlier ++ [c]) c.after.hardware := by
  obtain ⟨calls, hrun, hcalls⟩ := controllerRun_regular hopt hsamples
  refine ⟨calls, hrun, ?_⟩
  rintro earlier c later rfl hburst
  obtain ⟨hregular, hanswered, -⟩ := hcalls c (by simp)
  have hdeciding := hregular.deciding_of_burst hopt hburst
  have hhigh : c.after.globals.highUncore = true := by
    have hmode := congrArg Mode.high (hanswered.mode_eq hdeciding)
    simpa [Globals.mode, Mode.supervise, hburst] using hmode
  obtain ⟨hsamples', hearlier, hbefore⟩ := controllerRunFrom_earlier hsamples hrun
  have hlast := controllerRunFrom_induction hopt
    (fun calls sys => Regular opt sys ∧
      (sys.globals.highUncore = true → LastRaise opt calls sys.hardware))
    ⟨mainThrowsStart_regular opt, by simp [mainThrowsStart, initialGlobals]⟩
    (fun calls d hd hanswered => ⟨hd.1.step hopt hanswered, hanswered.lastRaise hd.1 hd.2⟩)
    (mainThrowsStart_nonneg opt) hsamples' hearlier
  rw [← hbefore] at hlast
  refine ⟨?_, hhigh, hanswered.lastRaise hregular hlast.2 hhigh⟩
  rw [hanswered.lowers_iff hregular, hanswered.edge_lower_iff]
  simp [hburst]

/-- Thirteen samples that change the expectation each time: the last call finds a burst and decides
a decrease, and leaves the uncore raised. -/
theorem burst_keeps_uncore_high_alternating :
    ∃ earlier c, controllerRun { defaultOptions with history := 2 }
        ((List.range 13).map fun i => ⟨if i % 2 = 0 then 0 else 100, 0⟩) = some (earlier ++ [c]) ∧
      findsBurst { defaultOptions with history := 2 } c.before.globals = true ∧
      throughputDecision { defaultOptions with history := 2 }
        (observed { defaultOptions with history := 2 } c) = .decrease ∧
      lowerCommand (observed { defaultOptions with history := 2 } c) ∉ c.output ∧
      c.after.globals.highUncore = true ∧
      LastRaise { defaultOptions with history := 2 } (earlier ++ [c]) c.after.hardware := by
  obtain ⟨earlier, c, hlast, hburst, hdecision⟩ := exists_last_of_any
    (controllerRun { defaultOptions with history := 2 }
      ((List.range 13).map fun i => ⟨if i % 2 = 0 then 0 else 100, 0⟩))
    (fun c => findsBurst { defaultOptions with history := 2 } c.before.globals = true ∧
      throughputDecision { defaultOptions with history := 2 }
        (observed { defaultOptions with history := 2 } c) = .decrease)
    (by decide +kernel)
  obtain ⟨calls, hrun, hkeeps⟩ := burst_keeps_uncore_high { defaultOptions with history := 2 }
    (by decide +kernel) ((List.range 13).map fun i => ⟨if i % 2 = 0 then 0 else 100, 0⟩)
    (by decide +kernel)
  obtain rfl := Option.some.inj (hlast.symm.trans hrun)
  exact ⟨earlier, c, hlast, hburst, hdecision, hkeeps earlier c [] rfl hburst⟩

end NodePower
