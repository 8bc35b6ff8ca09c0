import Mathlib.Algebra.Order.Ring.Rat
import NodePower.Actuators
import NodePower.Common.CallTrace

/-!
# Uncore scaling by GPU power

`read_gpu_power.py` samples the power of all GPUs once per interval. If dynamic scaling is
on, `scale_uncore_freq` compares every power with a threshold: at most the threshold raises
a lowered uncore, above it lowers a raised one.

The main part parses a threshold, but the comparison reads the module global, which nothing
assigns.
-/

namespace NodePower.Gpu

/-- The module globals. -/
structure Globals where
  highUncoreFreq : Bool
  gpuPowerTs : ℤ
  dynamicUncore : ℤ

/-- The module globals before the main part runs. -/
def initialGlobals : Globals where
  highUncoreFreq := true
  gpuPowerTs := 100
  dynamicUncore := 0

/-- The parsed options that concern the scaling. -/
structure Args where
  dynamicUncoreFrequency : ℤ
  gpuPowerTs : ℤ

/-- The globals with which the main part starts the monitor. -/
def mainGlobals (args : Args) : Globals :=
  { initialGlobals with dynamicUncore := args.dynamicUncoreFrequency }

/-- The comparison for one GPU. -/
def scaleOne (g : Globals) (power : ℚ) : Globals × List UncoreCommand :=
  if power ≤ g.gpuPowerTs ∧ g.highUncoreFreq = false then
    ({ g with highUncoreFreq := true }, [⟨24 / 10, 24 / 10⟩])
  else if g.gpuPowerTs < power ∧ g.highUncoreFreq = true then
    ({ g with highUncoreFreq := false }, [⟨8 / 10, 8 / 10⟩])
  else (g, [])

/-- One call of `scale_uncore_freq`, over the powers of all GPUs in order. -/
def scaleUncoreFreq (g : Globals) : List ℚ → Globals × List UncoreCommand
  | [] => (g, [])
  | power :: rest =>
    let (g, first) := scaleOne g power
    let (g, later) := scaleUncoreFreq g rest
    (g, first ++ later)

/-- The scaling in one round of the monitoring loop. -/
def monitorScaling (g : Globals) (gpuPowers : List ℚ) : Globals × List UncoreCommand :=
  if g.dynamicUncore ≠ 0 then scaleUncoreFreq g gpuPowers else (g, [])

/-- The scaling over a run of the monitor. -/
def monitorRun (args : Args) (readings : List (List ℚ)) : List (Call Globals (List ℚ) UncoreCommand) :=
  totalCalls monitorScaling (mainGlobals args) readings

/-- The thresholds that one call of `scale_uncore_freq` compares with, one for each GPU. -/
def comparedThresholds (g : Globals) : List ℚ → List ℤ
  | [] => []
  | power :: rest => g.gpuPowerTs :: comparedThresholds (scaleOne g power).1 rest

/-- The thresholds that one round of the monitoring loop compares with: none without dynamic
scaling. -/
def roundThresholds (g : Globals) (gpuPowers : List ℚ) : List ℤ :=
  if g.dynamicUncore ≠ 0 then comparedThresholds g gpuPowers else []

/-- Every comparison of every run uses the threshold that was passed. -/
def ThresholdArrives (args : Args) : Prop :=
  ∀ readings, ∀ call ∈ monitorRun args readings,
    ∀ threshold ∈ roundThresholds call.before call.input, threshold = args.gpuPowerTs

/-- The comparison for one GPU leaves the flag that belongs to it. -/
theorem scaleOne_globals (g : Globals) (power : ℚ) :
    (scaleOne g power).1 = { g with highUncoreFreq := decide (power ≤ g.gpuPowerTs) } := by
  by_cases hlow : power ≤ g.gpuPowerTs
  · cases hflag : g.highUncoreFreq with
    | false => simp [scaleOne, hlow, hflag]
    | true =>
      simp only [scaleOne, hlow, hflag, not_lt.mpr hlow, Bool.true_eq_false, and_false, if_false,
        false_and, decide_true]
      rw [← hflag]
  · cases hflag : g.highUncoreFreq with
    | false =>
      simp only [scaleOne, hlow, hflag, Bool.false_eq_true, and_false, if_false, false_and,
        decide_false]
      rw [← hflag]
    | true => simp [scaleOne, hlow, hflag, not_le.mp hlow]

/-- Scaling changes only the remembered level. -/
theorem scaleUncoreFreq_settings (g : Globals) (gpuPowers : List ℚ) :
    ∃ high, (scaleUncoreFreq g gpuPowers).1 = { g with highUncoreFreq := high } := by
  induction gpuPowers generalizing g with
  | nil => exact ⟨g.highUncoreFreq, rfl⟩
  | cons power rest ih =>
    obtain ⟨later, hlater⟩ := ih (scaleOne g power).1
    refine ⟨later, ?_⟩
    change (scaleUncoreFreq (scaleOne g power).1 rest).1 = _
    rw [hlater, scaleOne_globals]

/-- A round of the monitoring loop changes only the remembered level. -/
theorem monitorScaling_settings (g : Globals) (gpuPowers : List ℚ) :
    ∃ high, (monitorScaling g gpuPowers).1 = { g with highUncoreFreq := high } := by
  unfold monitorScaling
  split
  · exact scaleUncoreFreq_settings g gpuPowers
  · exact ⟨g.highUncoreFreq, rfl⟩

/-- One call compares with the stored threshold only. -/
theorem eq_of_mem_comparedThresholds {g : Globals} {gpuPowers : List ℚ} {threshold : ℤ}
    (h : threshold ∈ comparedThresholds g gpuPowers) : threshold = g.gpuPowerTs := by
  induction gpuPowers generalizing g with
  | nil => exact absurd h List.not_mem_nil
  | cons power rest ih =>
    rw [comparedThresholds, List.mem_cons] at h
    rcases h with hfirst | hlater
    · exact hfirst
    · rw [ih hlater, scaleOne_globals]

/-- Every round of every run starts with the threshold of the module and the parsed switch. -/
theorem monitorRun_globals {args : Args} {readings : List (List ℚ)}
    {call : Call Globals (List ℚ) UncoreCommand} (hcall : call ∈ monitorRun args readings) :
    call.before.gpuPowerTs = 100 ∧ call.before.dynamicUncore = args.dynamicUncoreFrequency := by
  have haccepts : ∀ gpuPowers ∈ readings, True := fun _ _ => trivial
  refine (runCalls_invariant (fun g : Globals => g.gpuPowerTs = 100 ∧
    g.dynamicUncore = args.dynamicUncoreFrequency) ⟨rfl, rfl⟩ ?_ haccepts
    (runCalls_total monitorScaling (mainGlobals args) readings) hcall).1
  rintro g gpuPowers next commands hg - hstep
  have hnext : (monitorScaling g gpuPowers).1 = next := congrArg Prod.fst (Option.some.inj hstep)
  obtain ⟨high, hsettings⟩ := monitorScaling_settings g gpuPowers
  rw [← hnext, hsettings]
  exact hg

/-- The threshold that was passed is the one compared with exactly without dynamic scaling, where
nothing is compared, or when it is the one the module starts with. -/
theorem thresholdArrives_iff (args : Args) :
    ThresholdArrives args ↔ args.dynamicUncoreFrequency = 0 ∨ args.gpuPowerTs = 100 := by
  constructor
  · intro harrives
    by_cases hdynamic : args.dynamicUncoreFrequency = 0
    · exact Or.inl hdynamic
    · right
      have hswitch : (mainGlobals args).dynamicUncore ≠ 0 := hdynamic
      have hcompared : (100 : ℤ) ∈ roundThresholds (mainGlobals args) [0] := by
        rw [roundThresholds, if_pos hswitch]
        exact List.mem_cons_self
      exact (harrives [[0]] _ List.mem_cons_self _ hcompared).symm
  · intro hcondition readings call hcall threshold hthreshold
    obtain ⟨hstored, hswitch⟩ := monitorRun_globals hcall
    by_cases hdynamic : args.dynamicUncoreFrequency = 0
    · rw [roundThresholds, hswitch, if_neg (not_not.mpr hdynamic)] at hthreshold
      exact absurd hthreshold List.not_mem_nil
    · rw [roundThresholds, hswitch, if_pos hdynamic] at hthreshold
      rw [eq_of_mem_comparedThresholds hthreshold, hstored]
      exact (hcondition.resolve_left hdynamic).symm

end NodePower.Gpu
