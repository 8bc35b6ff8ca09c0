import NodePower.Ups.ClosedForm

/-!
# What a UPS step-down does to the sockets

Without `dual_cap` a reset tells the second socket the floor, but a step-down tells both
sockets the one frequency that the state keeps. So the first step-down after a reset raises
the second socket, and a run is free of such raises exactly when no steady call comes after
a reset.
-/

namespace NodePower.Ups

/-- A steady call that commands something after an earlier command tells neither socket more than
it was last told. -/
def StepsDown (earlier : List UpsCall) (c : UpsCall) : Prop :=
  callBranch c = .steady → ∀ command ∈ c.output, ∀ previous ∈ (commandsOf earlier).getLast?,
    command.cpu0 ≤ previous.cpu0 ∧ command.cpu1 ≤ previous.cpu1

/-- A steady call does not come after a reset. -/
def SteadyBeforeResets (earlier : List UpsCall) (c : UpsCall) : Prop :=
  callBranch c = .steady → ∀ d ∈ earlier, ¬ Resets d

/-- What the sockets were last told. They were told the frequency of the state as long as resets
treat them alike or there was none; a reset that no steady call followed is the last command. -/
structure LastTold (dualCap : Int32) (calls : List UpsCall) (g : Globals) : Prop where
  ladder : FrequencyOnLadder g
  even : dualCap = 1 ∨ (∀ d ∈ calls, ¬ Resets d) → ∀ previous ∈ (commandsOf calls).getLast?,
    previous.cpu0 = g.currentUf ∧ previous.cpu1 = g.currentUf
  reset : EveryCall SteadyBeforeResets calls → (∃ d ∈ calls, Resets d) →
    (commandsOf calls).getLast? = some (literalCommand dualCap) ∧ g.currentUf = 22 / 10

/-- At the start nothing was told. -/
theorem lastTold_initial (dualCap : Int32) : LastTold dualCap [] initialGlobals where
  ladder := ⟨0, Nat.zero_le _, frequencyAt_zero.symm⟩
  even := by simp [commandsOf]
  reset := by simp

/-- A frequency of the ladder stepped down is printed unchanged. -/
theorem printedCommand_step {g : Globals} (hladder : FrequencyOnLadder g) :
    printedCommand (g.currentUf - step) (g.currentUf - step) =
      ⟨g.currentUf - step, g.currentUf - step⟩ := by
  obtain ⟨k, -, hfrequency⟩ := hladder
  rw [hfrequency, ← frequencyAt_succ, printedCommand, roundDecimal_frequencyAt]

/-- A call after which no reset has separated the sockets leaves them told the frequency of the
state. -/
theorem LastTold.even_concat {dualCap : Int32} {calls : List UpsCall} {c : UpsCall}
    (h : LastTold dualCap calls c.before)
    (hstep : ups dualCap c.before c.input = (c.after, c.output))
    (hcondition : dualCap = 1 ∨ ∀ d ∈ calls ++ [c], ¬ Resets d) :
    ∀ previous ∈ (commandsOf (calls ++ [c])).getLast?,
      previous.cpu0 = c.after.currentUf ∧ previous.cpu1 = c.after.currentUf := by
  have hafter : c.after = (ups dualCap c.before c.input).1 := by rw [hstep]
  have houtput : c.output = (ups dualCap c.before c.input).2 := by rw [hstep]
  have hearlier : dualCap = 1 ∨ ∀ d ∈ calls, ¬ Resets d :=
    hcondition.imp_right fun hnone d hd => hnone d (List.mem_append_left _ hd)
  intro previous hprevious
  rw [commandsOf_append, commandsOf_singleton, houtput] at hprevious
  rw [hafter]
  cases ups_outcome dualCap c.before c.input with
  | kept _ _ hfrequency hout =>
    rw [hout, List.append_nil] at hprevious
    rw [hfrequency]
    exact h.even hearlier previous hprevious
  | decremented _ _ hfrequency hout =>
    rw [hout, printedCommand_step h.ladder] at hprevious
    obtain rfl : ⟨_, _⟩ = previous := by simpa using hprevious
    exact ⟨hfrequency.symm, hfrequency.symm⟩
  | reset hrestart hfrequency hout =>
    have hdual : dualCap = 1 :=
      hcondition.resolve_right fun hnone => hnone c (by simp) hrestart
    rw [hout, literalCommand, if_pos hdual] at hprevious
    obtain rfl : ⟨_, _⟩ = previous := by simpa using hprevious
    exact ⟨hfrequency.symm, hfrequency.symm⟩

/-- A steady call is no reset. -/
theorem not_resets_of_steady {c : UpsCall} (hsteady : callBranch c = .steady) : ¬ Resets c := by
  change (callBranch c).event ≠ .restart
  rw [hsteady]
  decide

/-- A reset that is not the last call is an earlier one. -/
theorem exists_earlier_reset {calls : List UpsCall} {c : UpsCall} (hlast : ¬ Resets c)
    (hreset : ∃ d ∈ calls ++ [c], Resets d) : ∃ d ∈ calls, Resets d := by
  obtain ⟨d, hd, hresets⟩ := hreset
  rcases List.mem_append.mp hd with hmem | hmem
  · exact ⟨d, hmem, hresets⟩
  · rw [List.mem_singleton.mp hmem] at hresets
    exact absurd hresets hlast

/-- A call of a run with a reset that no steady call followed leaves the reset as the last command. -/
theorem LastTold.reset_concat {dualCap : Int32} {calls : List UpsCall} {c : UpsCall}
    (h : LastTold dualCap calls c.before)
    (hstep : ups dualCap c.before c.input = (c.after, c.output))
    (hsteady : EveryCall SteadyBeforeResets (calls ++ [c]))
    (hreset : ∃ d ∈ calls ++ [c], Resets d) :
    (commandsOf (calls ++ [c])).getLast? = some (literalCommand dualCap) ∧
      c.after.currentUf = 22 / 10 := by
  have hafter : c.after = (ups dualCap c.before c.input).1 := by rw [hstep]
  have houtput : c.output = (ups dualCap c.before c.input).2 := by rw [hstep]
  rw [everyCall_concat] at hsteady
  rw [commandsOf_append, commandsOf_singleton, houtput, hafter]
  cases ups_outcome dualCap c.before c.input with
  | kept hrestart _ hfrequency hout =>
    rw [hout, List.append_nil, hfrequency]
    exact h.reset hsteady.1 (exists_earlier_reset hrestart hreset)
  | decremented hbranch _ _ _ =>
    obtain ⟨d, hd, hresets⟩ := exists_earlier_reset (not_resets_of_steady hbranch) hreset
    exact absurd hresets (hsteady.2 hbranch d hd)
  | reset _ hfrequency hout =>
    rw [hout, hfrequency]
    simp

/-- A further call keeps track of what the sockets were last told. -/
theorem LastTold.step {dualCap : Int32} {calls : List UpsCall} {c : UpsCall}
    (h : LastTold dualCap calls c.before)
    (hstep : ups dualCap c.before c.input = (c.after, c.output)) :
    LastTold dualCap (calls ++ [c]) c.after := by
  have hafter : c.after = (ups dualCap c.before c.input).1 := by rw [hstep]
  exact {
    ladder := hafter ▸ h.ladder.ups dualCap c.input
    even := h.even_concat hstep
    reset := h.reset_concat hstep }

/-- As long as no steady call followed a reset, a further call tells neither socket more in a steady
step exactly when resets treat the sockets alike or it does not follow a reset either. -/
theorem LastTold.stepsDown_iff {dualCap : Int32} {calls : List UpsCall} {c : UpsCall}
    (h : LastTold dualCap calls c.before)
    (hstep : ups dualCap c.before c.input = (c.after, c.output))
    (hearlier : dualCap = 1 ∨ EveryCall SteadyBeforeResets calls) :
    StepsDown calls c ↔ dualCap = 1 ∨ SteadyBeforeResets calls c := by
  have houtput : c.output = (ups dualCap c.before c.input).2 := by rw [hstep]
  constructor
  · intro hdown
    refine or_iff_not_imp_left.mpr fun hdual hbranch d hd hresets => ?_
    obtain ⟨hlast, hfrequency⟩ := h.reset (hearlier.resolve_left hdual) ⟨d, hd, hresets⟩
    have hout : c.output = [⟨c.before.currentUf - Ups.step, c.before.currentUf - Ups.step⟩] := by
      rw [houtput, ups_eq_react, show branchOf c.before c.input = .steady from hbranch, react,
        if_pos (by rw [hfrequency]; norm_num), printedCommand_step h.ladder]
    have hraise := (hdown hbranch _ (hout ▸ List.mem_singleton_self _) _ hlast).2
    rw [hfrequency, literalCommand, if_neg hdual, Ups.step] at hraise
    norm_num at hraise
  · intro hcondition hbranch command hcommand previous hprevious
    have heven : dualCap = 1 ∨ ∀ d ∈ calls, ¬ Resets d :=
      hcondition.imp_right fun hbefore => hbefore hbranch
    obtain ⟨hcpu0, hcpu1⟩ := h.even heven previous hprevious
    rw [houtput] at hcommand
    cases ups_outcome dualCap c.before c.input with
    | kept _ _ _ hout => simp [hout] at hcommand
    | decremented _ _ _ hout =>
      rw [hout, printedCommand_step h.ladder, List.mem_singleton] at hcommand
      rw [hcommand, hcpu0, hcpu1, Ups.step]
      constructor <;> linarith
    | reset hrestart _ _ =>
      rw [show branchOf c.before c.input = .steady from hbranch] at hrestart
      cases hrestart

/-- In a run no step-down raises a socket exactly when resets treat both sockets alike or no steady
call comes after a reset. -/
theorem stepsDown_iff_steady_before_resets (dualCap : Int32) (samples : List Sample) :
    EveryCall StepsDown (upsRun dualCap samples) ↔
      dualCap = 1 ∨ EveryCall SteadyBeforeResets (upsRun dualCap samples) := by
  refine (totalCalls_final_induction (fun calls g => LastTold dualCap calls g ∧
    (EveryCall StepsDown calls ↔ dualCap = 1 ∨ EveryCall SteadyBeforeResets calls))
    ⟨lastTold_initial dualCap, by simp [everyCall_nil]⟩ ?_ samples).2
  intro calls c hinvariant hstep
  obtain ⟨htold, hcalls⟩ := hinvariant
  refine ⟨htold.step hstep, ?_⟩
  rw [everyCall_concat, everyCall_concat, hcalls]
  constructor
  · intro hboth
    obtain ⟨hearlier, hdown⟩ := hboth
    have hlast := (htold.stepsDown_iff hstep hearlier).mp hdown
    tauto
  · intro hcondition
    have hearlier : dualCap = 1 ∨ EveryCall SteadyBeforeResets calls :=
      hcondition.imp_right And.left
    exact ⟨hearlier, (htold.stepsDown_iff hstep hearlier).mpr (hcondition.imp_right And.right)⟩

/-- Without `dual_cap`, a rise of the power followed by a steady sample raises the second socket. -/
theorem stepsDown_fails_after_reset :
    ¬ ∀ (dualCap : Int32) (samples : List Sample), EveryCall StepsDown (upsRun dualCap samples) := by
  intro hevery
  have hdown := hevery 0 [⟨10, 1⟩, ⟨20, 1⟩, ⟨20, 1⟩] 2 (by decide)
  have hprinted : roundDecimal 2 (21 / 10 : ℚ) = 21 / 10 :=
    roundDecimal_of_decimal (n := 210) (by norm_num)
  have hdual : ¬ (0 : Int32) = 1 := by decide
  norm_num [StepsDown, callBranch, branchOf, upsRun, totalCalls, commandsOf, ups, initialGlobals,
    literalCommand, printedCommand, Ups.step, hprinted, hdual] at hdown

end NodePower.Ups
