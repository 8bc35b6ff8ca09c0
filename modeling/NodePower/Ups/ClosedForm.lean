import NodePower.Ups.Controller
import NodePower.Common.ResetCounter
import Mathlib.Tactic.IntervalCases

/-!
# The UPS frequency in closed form

The frequency of the UPS controller is a saturating counter in disguise: a steady call
advances it by one step of 0.1 GHz down to the floor, the three resetting branches restart
it, and the other calls keep it. Hence it is determined by the number of steady calls since
the last reset, and it is always the frequency that socket 0 was last told.

Which branch a call takes depends on references that earlier branches have moved. They are
computed here from the samples alone, and the controller is proved to hold the same ones.
-/

namespace NodePower.Ups

/-- The number of steps from the maximum down to the floor. -/
def stepsToFloor : ℕ := 10

/-- The frequency that lies a number of steps below the maximum. -/
def frequencyAt (k : ℕ) : ℚ := 22 / 10 - 1 / 10 * k

/-- The effect of a branch on the number of steps below the maximum. -/
def Branch.event : Branch → CounterEvent
  | .steady => .advance
  | .powerRise | .powerDropIpcRise | .powerDropIpcDrop => .restart
  | .initial | .hold => .keep

/-- The branch of a call in a run. -/
def callBranch (c : UpsCall) : Branch := branchOf c.before c.input

/-- The call took one of the three branches that reset the frequency. -/
def Resets (c : UpsCall) : Prop := (callBranch c).event = .restart

/-- The values that the calls after the first one compare with. -/
structure References where
  dramPower : ℚ
  ipc : ℚ

/-- The branch of a call that compares with references: by the power first, and by the IPC when
the power drops. -/
def References.branch (r : References) (sample : Sample) : Branch :=
  if |sample.dramPower - r.dramPower| ≤ 5 / 100 * r.dramPower then .steady
  else if 5 / 100 * r.dramPower < sample.dramPower - r.dramPower then .powerRise
  else if 5 / 100 * r.ipc ≤ sample.ipc - r.ipc then .powerDropIpcRise
  else if sample.ipc - r.ipc < -(5 / 100 * r.ipc) then .powerDropIpcDrop
  else .hold

/-- The references that a branch leaves: the first call and two of the resets take both from the
sample, the reset on a drop of the IPC takes the IPC only, and the other calls keep both. -/
def References.move (r : References) (sample : Sample) : Branch → References
  | .initial | .powerRise | .powerDropIpcRise => ⟨sample.dramPower, sample.ipc⟩
  | .powerDropIpcDrop => { r with ipc := sample.ipc }
  | .steady | .hold => r

/-- A sample with its branch and the references after it. -/
structure ClassifiedSample where
  sample : Sample
  branch : Branch
  references : References

/-- The samples that follow given references, classified one after another. -/
def References.classify (r : References) : List Sample → List ClassifiedSample
  | [] => []
  | sample :: rest =>
    let next := r.move sample (r.branch sample)
    ⟨sample, r.branch sample, next⟩ :: next.classify rest

/-- The samples of a run, classified without looking at the controller: the first one, and only the
first one, is the initial one. -/
def classify : List Sample → List ClassifiedSample
  | [] => []
  | sample :: rest =>
    let first : References := ⟨sample.dramPower, sample.ipc⟩
    ⟨sample, .initial, first⟩ :: first.classify rest

/-- The number of steady samples since the last reset, or since the start. -/
def steadySinceReset (classified : List ClassifiedSample) : ℕ :=
  advancesSinceRestart (classified.map fun entry => entry.branch.event)

/-- What the closed form says of a call, whose sample is the last one of those classified so far,
and of the run up to it. -/
structure ClosedForm (classified : List ClassifiedSample) (entry : ClassifiedSample)
    (calls : List UpsCall) (c : UpsCall) : Prop where
  input : c.input = entry.sample
  setpoint : c.after.setpointDramPower = entry.references.dramPower
  preIpc : c.after.preIpc = entry.references.ipc
  frequency : c.after.currentUf = 22 / 10 - 1 / 10 * (min (steadySinceReset classified) 10 : ℕ)
  hold_keeps : entry.branch = .hold → c.after.currentUf = c.before.currentUf
  command_iff : c.output ≠ [] ↔
    entry.branch.event = .restart ∨ (entry.branch = .steady ∧ 12 / 10 < c.before.currentUf)
  one_command : c.output.length ≤ 1
  commanded : ∀ command ∈ (commandsOf calls).getLast?, command.cpu0 = c.after.currentUf
  floor_le : 12 / 10 ≤ c.after.currentUf
  le_maximum : c.after.currentUf ≤ 22 / 10

/-- A frequency of the ladder is above the floor exactly when fewer than ten steps were taken. -/
theorem floor_lt_frequencyAt (k : ℕ) : 12 / 10 < frequencyAt k ↔ k < stepsToFloor := by
  have hcast : (k : ℚ) < 10 ↔ k < 10 := by exact_mod_cast Iff.rfl
  rw [stepsToFloor, ← hcast, frequencyAt]
  constructor <;> intro h <;> linarith

/-- One step further down. -/
theorem frequencyAt_succ (k : ℕ) : frequencyAt (k + 1) = frequencyAt k - step := by
  simp only [frequencyAt, step]
  push_cast
  ring

/-- The frequencies of the ladder have two decimals, so they are printed unchanged. -/
theorem roundDecimal_frequencyAt (k : ℕ) : roundDecimal 2 (frequencyAt k) = frequencyAt k :=
  roundDecimal_of_decimal (n := 220 - 10 * k) (by
    simp only [frequencyAt]
    push_cast
    ring)

/-- The three things that a call can do to the frequency, with the commands it issues. -/
inductive FrequencyOutcome (dualCap : Int32) (g : Globals) (sample : Sample) : Prop where
  | kept (not_restart : (branchOf g sample).event ≠ .restart)
      (at_floor : branchOf g sample = .steady → ¬ 12 / 10 < g.currentUf)
      (currentUf_eq : (ups dualCap g sample).1.currentUf = g.currentUf)
      (output_eq : (ups dualCap g sample).2 = [])
  | decremented (steady : branchOf g sample = .steady) (above_floor : 12 / 10 < g.currentUf)
      (currentUf_eq : (ups dualCap g sample).1.currentUf = g.currentUf - step)
      (output_eq : (ups dualCap g sample).2 = [printedCommand (g.currentUf - step) (g.currentUf - step)])
  | reset (restart : (branchOf g sample).event = .restart)
      (currentUf_eq : (ups dualCap g sample).1.currentUf = 22 / 10)
      (output_eq : (ups dualCap g sample).2 = [literalCommand dualCap])

/-- Every call keeps, decrements or resets the frequency. -/
theorem ups_outcome (dualCap : Int32) (g : Globals) (sample : Sample) :
    FrequencyOutcome dualCap g sample := by
  have hreact := ups_eq_react dualCap g sample
  cases hbranch : branchOf g sample with
  | initial =>
    rw [hbranch] at hreact
    exact .kept (by simp [hbranch, Branch.event]) (by simp [hbranch]) (by rw [hreact]; rfl)
      (by rw [hreact]; rfl)
  | steady =>
    rw [hbranch, react] at hreact
    by_cases habove : 12 / 10 < g.currentUf
    · rw [if_pos habove] at hreact
      exact .decremented hbranch habove (by rw [hreact]) (by rw [hreact])
    · rw [if_neg habove] at hreact
      exact .kept (by simp [hbranch, Branch.event]) (fun _ => habove) (by rw [hreact]) (by rw [hreact])
  | powerRise =>
    rw [hbranch] at hreact
    exact .reset (by rw [hbranch]; rfl) (by rw [hreact]; rfl) (by rw [hreact]; rfl)
  | powerDropIpcRise =>
    rw [hbranch] at hreact
    exact .reset (by rw [hbranch]; rfl) (by rw [hreact]; rfl) (by rw [hreact]; rfl)
  | powerDropIpcDrop =>
    rw [hbranch] at hreact
    exact .reset (by rw [hbranch]; rfl) (by rw [hreact]; rfl) (by rw [hreact]; rfl)
  | hold =>
    rw [hbranch] at hreact
    exact .kept (by simp [hbranch, Branch.event]) (by simp [hbranch]) (by rw [hreact]; rfl)
      (by rw [hreact]; rfl)

/-- An event that neither restarts nor advances keeps the counter. -/
theorem apply_of_kept {g : Globals} {sample : Sample} {k : ℕ} (hk : k ≤ stepsToFloor)
    (hg : g.currentUf = frequencyAt k) (hrestart : (branchOf g sample).event ≠ .restart)
    (hfloor : branchOf g sample = .steady → ¬ 12 / 10 < g.currentUf) :
    (branchOf g sample).event.apply stepsToFloor k = k := by
  cases hbranch : branchOf g sample with
  | initial => rfl
  | steady =>
    have hlow := hfloor hbranch
    rw [hg, floor_lt_frequencyAt, not_lt] at hlow
    change min (k + 1) stepsToFloor = k
    omega
  | powerRise => simp [hbranch, Branch.event] at hrestart
  | powerDropIpcRise => simp [hbranch, Branch.event] at hrestart
  | powerDropIpcDrop => simp [hbranch, Branch.event] at hrestart
  | hold => rfl

/-- A call on the ladder moves along it by the effect of its branch. -/
theorem ups_frequency (dualCap : Int32) {g : Globals} (sample : Sample) {k : ℕ}
    (hk : k ≤ stepsToFloor) (hg : g.currentUf = frequencyAt k) :
    (ups dualCap g sample).1.currentUf =
      frequencyAt ((branchOf g sample).event.apply stepsToFloor k) := by
  cases ups_outcome dualCap g sample with
  | kept hrestart hfloor hfrequency => rw [hfrequency, apply_of_kept hk hg hrestart hfloor, hg]
  | decremented hsteady habove hfrequency =>
    rw [hg, floor_lt_frequencyAt] at habove
    rw [hfrequency, hg, ← frequencyAt_succ, hsteady]
    congr 1
    exact (min_eq_left habove).symm
  | reset hrestart hfrequency =>
    rw [hfrequency, hrestart]
    simp [CounterEvent.apply, frequencyAt]

/-- The frequency lies on the ladder. -/
def FrequencyOnLadder (g : Globals) : Prop := ∃ k ≤ stepsToFloor, g.currentUf = frequencyAt k

/-- The top of the ladder. -/
theorem frequencyAt_zero : frequencyAt 0 = 22 / 10 := by simp [frequencyAt]

/-- The floor of the ladder. -/
theorem frequencyAt_floor : frequencyAt stepsToFloor = 12 / 10 := by
  norm_num [frequencyAt, stepsToFloor]

/-- Every call keeps the frequency on the ladder. -/
theorem FrequencyOnLadder.ups (dualCap : Int32) {g : Globals} (sample : Sample)
    (hg : FrequencyOnLadder g) : FrequencyOnLadder (ups dualCap g sample).1 := by
  obtain ⟨k, hk, hfrequency⟩ := hg
  refine ⟨_, ?_, ups_frequency dualCap sample hk hfrequency⟩
  cases (branchOf g sample).event with
  | advance => exact min_le_right _ _
  | restart => exact Nat.zero_le _
  | keep => exact hk

/-- A call commands something exactly when it resets, or steps down from above the floor. -/
theorem ups_output_ne_nil (dualCap : Int32) (g : Globals) (sample : Sample) :
    (ups dualCap g sample).2 ≠ [] ↔
      (branchOf g sample).event = .restart ∨
        (branchOf g sample = .steady ∧ 12 / 10 < g.currentUf) := by
  cases ups_outcome dualCap g sample with
  | kept hrestart hfloor _ houtput =>
    refine iff_of_false (not_not.mpr houtput) ?_
    rintro (h | ⟨hsteady, habove⟩)
    · exact hrestart h
    · exact hfloor hsteady habove
  | decremented hsteady habove _ houtput => simp [houtput, hsteady, habove]
  | reset hrestart _ houtput => simp [houtput, hrestart]

/-- A call commands at most once. -/
theorem length_ups_output_le (dualCap : Int32) (g : Globals) (sample : Sample) :
    (ups dualCap g sample).2.length ≤ 1 := by
  cases ups_outcome dualCap g sample with
  | kept _ _ _ houtput => simp [houtput]
  | decremented _ _ _ houtput => simp [houtput]
  | reset _ _ houtput => simp [houtput]

/-- Every command of a call on the ladder tells socket 0 the frequency that the call leaves. -/
theorem ups_commands_cpu0 (dualCap : Int32) {g : Globals} (sample : Sample) {k : ℕ}
    (hg : g.currentUf = frequencyAt k) :
    ∀ command ∈ (ups dualCap g sample).2, command.cpu0 = (ups dualCap g sample).1.currentUf := by
  intro command hcommand
  cases ups_outcome dualCap g sample with
  | kept _ _ _ houtput => simp [houtput] at hcommand
  | decremented _ _ hfrequency houtput =>
    rw [houtput, List.mem_singleton] at hcommand
    rw [hcommand, hfrequency, hg, ← frequencyAt_succ]
    exact roundDecimal_frequencyAt (k + 1)
  | reset _ hfrequency houtput =>
    rw [houtput, List.mem_singleton] at hcommand
    rw [hcommand, hfrequency, literalCommand]
    split <;> rfl

/-- A call that commands nothing keeps the frequency. -/
theorem ups_frequency_of_silent {dualCap : Int32} {g : Globals} {sample : Sample}
    (hsilent : (ups dualCap g sample).2 = []) :
    (ups dualCap g sample).1.currentUf = g.currentUf := by
  cases ups_outcome dualCap g sample with
  | kept _ _ hfrequency => exact hfrequency
  | decremented _ _ _ houtput => simp [houtput] at hsilent
  | reset _ _ houtput => simp [houtput] at hsilent

/-- After a run the frequency lies on the ladder at the counted step, and socket 0 was last told
that frequency. -/
structure OnLadder (calls : List UpsCall) (g : Globals) : Prop where
  frequency_eq :
    g.currentUf = frequencyAt (countUpTo stepsToFloor (calls.map fun c => (callBranch c).event))
  commanded : ∀ command ∈ (commandsOf calls).getLast?, command.cpu0 = g.currentUf

/-- The controller starts at the top of the ladder with nothing commanded. -/
theorem onLadder_initial : OnLadder [] initialGlobals where
  frequency_eq := by simp [initialGlobals, frequencyAt, countUpTo]
  commanded := by simp [commandsOf]

/-- One more call keeps the frequency on the ladder. -/
theorem OnLadder.step {calls : List UpsCall} {c : UpsCall} {dualCap : Int32}
    (h : OnLadder calls c.before) (hstep : ups dualCap c.before c.input = (c.after, c.output)) :
    OnLadder (calls ++ [c]) c.after := by
  have hafter : c.after = (ups dualCap c.before c.input).1 := by rw [hstep]
  have houtput : c.output = (ups dualCap c.before c.input).2 := by rw [hstep]
  constructor
  · rw [List.map_append, List.map_singleton, countUpTo_concat, hafter]
    exact ups_frequency dualCap c.input (countUpTo_le _ _) h.frequency_eq
  · intro command hcommand
    rw [commandsOf_append, commandsOf_singleton, List.getLast?_append, Option.mem_def,
      Option.or_eq_some_iff] at hcommand
    rcases hcommand with hlast | ⟨hnone, hearlier⟩
    · rw [hafter]
      exact ups_commands_cpu0 dualCap c.input h.frequency_eq command
        (houtput ▸ List.mem_of_getLast? hlast)
    · have hsilent : (ups dualCap c.before c.input).2 = [] :=
        houtput ▸ List.getLast?_eq_none_iff.mp hnone
      rw [hafter, ups_frequency_of_silent hsilent]
      exact h.commanded command hearlier

/-- The references that the globals hold. -/
def Globals.references (g : Globals) : References := ⟨g.setpointDramPower, g.preIpc⟩

/-- A call as its sample is classified by what the controller itself holds. -/
def classifiedCall (c : UpsCall) : ClassifiedSample :=
  ⟨c.input, callBranch c, c.after.references⟩

/-- Once a call has been made, the branch is the one of the references that the globals hold. -/
theorem branchOf_of_running {g : Globals} (hg : g.init = false) (sample : Sample) :
    branchOf g sample = g.references.branch sample := by
  rw [branchOf, if_neg (by rw [hg]; exact Bool.false_ne_true)]
  rfl

/-- A reaction moves the references by its branch. -/
theorem react_references (dualCap : Int32) (g : Globals) (sample : Sample) (branch : Branch) :
    (react dualCap g sample branch).1.references = g.references.move sample branch := by
  cases branch with
  | initial => rfl
  | steady =>
    rw [react]
    split
    · rfl
    · rfl
  | powerRise => rfl
  | powerDropIpcRise => rfl
  | powerDropIpcDrop => rfl
  | hold => rfl

/-- A call moves the references by its branch. -/
theorem ups_references (dualCap : Int32) (g : Globals) (sample : Sample) :
    (ups dualCap g sample).1.references = g.references.move sample (branchOf g sample) := by
  rw [ups_eq_react, react_references]

/-- After a call the initial phase is over. -/
theorem ups_init (dualCap : Int32) (g : Globals) (sample : Sample) :
    (ups dualCap g sample).1.init = false := by
  cases hinit : g.init with
  | true => simp [ups, hinit]
  | false =>
    rw [ups_eq_react, branchOf_of_running hinit]
    cases g.references.branch sample with
    | initial => rfl
    | steady =>
      rw [react]
      split
      · exact hinit
      · exact hinit
    | powerRise => exact hinit
    | powerDropIpcRise => exact hinit
    | powerDropIpcDrop => exact hinit
    | hold => exact hinit

/-- From the first call on the controller classifies as its samples alone do. -/
theorem classifiedCalls_of_running (dualCap : Int32) {g : Globals} (hg : g.init = false)
    (samples : List Sample) :
    (totalCalls (ups dualCap) g samples).map classifiedCall = g.references.classify samples := by
  induction samples generalizing g with
  | nil => rfl
  | cons sample rest ih =>
    have hmoved := ups_references dualCap g sample
    have hbranch := branchOf_of_running hg sample
    rw [totalCalls, List.map_cons, ih (ups_init dualCap g sample), References.classify, ← hbranch,
      ← hmoved]
    rfl

/-- A run classifies its samples as they are classified without it. -/
theorem classifiedCalls_upsRun (dualCap : Int32) (samples : List Sample) :
    (upsRun dualCap samples).map classifiedCall = classify samples := by
  cases samples with
  | nil => rfl
  | cons sample rest =>
    rw [upsRun, totalCalls, List.map_cons,
      classifiedCalls_of_running dualCap (ups_init dualCap initialGlobals sample)]
    rfl

/-- The call that led to the ladder has the closed form. -/
theorem OnLadder.closedForm {calls : List UpsCall} {c : UpsCall} {dualCap : Int32}
    (h : OnLadder calls c.after) (hstep : ups dualCap c.before c.input = (c.after, c.output)) :
    ClosedForm (calls.map classifiedCall) (classifiedCall c) calls c := by
  have hafter : c.after = (ups dualCap c.before c.input).1 := by rw [hstep]
  have houtput : c.output = (ups dualCap c.before c.input).2 := by rw [hstep]
  have hle := countUpTo_le stepsToFloor (calls.map fun c => (callBranch c).event)
  have hcast : (countUpTo stepsToFloor (calls.map fun c => (callBranch c).event) : ℚ) ≤ 10 := by
    exact_mod_cast hle
  have hfrequency := h.frequency_eq
  refine ⟨rfl, rfl, rfl, ?_, ?_, ?_, ?_, h.commanded, ?_, ?_⟩
  · rw [hfrequency, countUpTo_eq_min, steadySinceReset, List.map_map]
    rfl
  · intro hhold
    rw [hafter]
    apply ups_frequency_of_silent
    rw [ups_eq_react, show branchOf c.before c.input = .hold from hhold]
    rfl
  · rw [houtput]
    exact ups_output_ne_nil dualCap c.before c.input
  · rw [houtput]
    exact length_ups_output_le dualCap c.before c.input
  · rw [hfrequency, frequencyAt]
    linarith
  · rw [hfrequency, frequencyAt]
    have hnonneg := Nat.cast_nonneg (α := ℚ)
      (countUpTo stepsToFloor (calls.map fun c => (callBranch c).event))
    linarith

/-- The frequency of the UPS controller in closed form, for every governed-socket setting and every
sequence of samples, classified from the samples alone: after each call it is the maximum less
one step per steady call since the last reset, at most ten. -/
theorem ups_closed_form (dualCap : Int32) (samples : List Sample) :
    (upsRun dualCap samples).length = samples.length ∧
      ∀ n (hn : n < (upsRun dualCap samples).length),
        (upsRun dualCap samples)[n].before =
            finalState initialGlobals ((upsRun dualCap samples).take n) ∧
          ∃ entry, (classify samples)[n]? = some entry ∧
            ClosedForm ((classify samples).take (n + 1)) entry
              ((upsRun dualCap samples).take (n + 1)) (upsRun dualCap samples)[n] := by
  refine ⟨length_totalCalls _ _ _, ?_⟩
  intro n hn
  obtain ⟨-, hbefore, -⟩ := runCalls_take (runCalls_total (ups dualCap) initialGlobals samples) hn
  obtain ⟨hstep, hladder⟩ := totalCalls_induction OnLadder onLadder_initial
    (fun calls c hcalls hstep => hcalls.step hstep) samples hn
  refine ⟨hbefore, classifiedCall (upsRun dualCap samples)[n], ?_, ?_⟩
  · rw [← classifiedCalls_upsRun dualCap, List.getElem?_map, List.getElem?_eq_getElem hn]
    rfl
  · rw [← classifiedCalls_upsRun dualCap, ← List.map_take]
    exact hladder.closedForm hstep

/-- Two steady samples lower the uncore to 2.0 GHz, and a rise of the power resets it. -/
theorem ups_closed_form_steady_then_rise :
    (classify [⟨10, 1⟩, ⟨10, 1⟩, ⟨10, 1⟩, ⟨20, 1⟩]).map ClassifiedSample.branch =
        [.initial, .steady, .steady, .powerRise] ∧
      (upsRun 0 [⟨10, 1⟩, ⟨10, 1⟩, ⟨10, 1⟩, ⟨20, 1⟩]).map (fun c => c.after.currentUf) =
        [22 / 10, 21 / 10, 20 / 10, 22 / 10] := by
  have hclassified : classify [⟨10, 1⟩, ⟨10, 1⟩, ⟨10, 1⟩, ⟨20, 1⟩] =
      [⟨⟨10, 1⟩, .initial, ⟨10, 1⟩⟩, ⟨⟨10, 1⟩, .steady, ⟨10, 1⟩⟩, ⟨⟨10, 1⟩, .steady, ⟨10, 1⟩⟩,
        ⟨⟨20, 1⟩, .powerRise, ⟨20, 1⟩⟩] := by
    norm_num [classify, References.classify, References.branch, References.move]
  refine ⟨by rw [hclassified]; rfl, ?_⟩
  have hcounts : ∀ n < 4,
      steadySinceReset ((classify [⟨10, 1⟩, ⟨10, 1⟩, ⟨10, 1⟩, ⟨20, 1⟩]).take (n + 1)) =
        [0, 1, 2, 0].getD n 0 := by
    rw [hclassified]
    decide
  obtain ⟨hlength, hcalls⟩ := ups_closed_form 0 [⟨10, 1⟩, ⟨10, 1⟩, ⟨10, 1⟩, ⟨20, 1⟩]
  apply List.ext_getElem
  · rw [List.length_map, hlength]
    rfl
  · intro n hn hbound
    rw [List.getElem_map]
    rw [List.length_map] at hn
    obtain ⟨-, entry, -, hform⟩ := hcalls n hn
    change n < 4 at hbound
    rw [hform.frequency, hcounts n hbound]
    interval_cases n <;> norm_num

end NodePower.Ups
