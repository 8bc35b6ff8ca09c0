import NodePower.Actuators
import NodePower.Common.CallTrace
import NodePower.Common.DecimalRounding
import Mathlib.Data.List.DropRight

/-!
# The SoC governor

`SoC` sets the uncore frequency by the CPU utilisation: up to ten percent it goes to the
minimum, from ninety percent on it steps up, in between nothing changes. The reference
governor says the same with the bounds 0.8 and 2.2 GHz.

The bounds of the source are integers, so the initialisers 2.2 and 0.8 are cut to 2 and 0,
and printing them with `%.2f` prints nothing determined. The parameter has no declared type
and is an `int`; the `double` that is passed to it is not converted, so what the function
receives is not determined either. Numbers of type `double` are exact rationals.
-/

namespace NodePower.Soc

/-- The globals that `SoC` changes. -/
@[ext] structure Globals where
  currentUf1 : ℚ
  currentUf2 : ℚ

/-- The initial values of the globals. -/
def initialGlobals : Globals where
  currentUf1 := 22 / 10
  currentUf2 := 22 / 10

/-- The size of one increment. -/
def step : ℚ := 1 / 10

/-- The upper bound, an `int` with the initialiser 2.2. -/
def maxUf : Int32 := Int32.ofInt (truncate (22 / 10))

/-- The lower bound, an `int` with the initialiser 0.8. -/
def minUf : Int32 := Int32.ofInt (truncate (8 / 10))

/-- The utilisation up to which the frequency is lowered. -/
def lowTs : Int32 := 10

/-- The utilisation from which on the frequency is raised. -/
def highTs : Int32 := 90

/-- A command `set_uncore_freq.sh` with the number that each `%.2f` prints, if it is determined. -/
structure PrintedCommand where
  cpu0 : Option ℚ
  cpu1 : Option ℚ
  deriving DecidableEq

/-- What `%.2f` prints of a `double`. -/
def printDouble (x : ℚ) : Option ℚ := some (roundDecimal 2 x)

/-- What `%.2f` prints of an `int` is not determined. -/
def printInt (_ : Int32) : Option ℚ := none

/-- One call of the governor. -/
def soC (dualCap : Int32) (g : Globals) (util : Int32) : Globals × List PrintedCommand :=
  if util ≤ lowTs then
    if dualCap = 1 then
      (⟨8 / 10, 8 / 10⟩, [⟨printInt minUf, printInt minUf⟩])
    else
      (⟨8 / 10, 22 / 10⟩, [⟨printInt minUf, printInt maxUf⟩])
  else if highTs ≤ util then
    if dualCap = 1 then
      let g := if g.currentUf1 < maxUf.toInt then { g with currentUf1 := g.currentUf1 + step } else g
      let g := if g.currentUf2 < maxUf.toInt then { g with currentUf2 := g.currentUf2 + step } else g
      (g, [⟨printDouble g.currentUf1, printDouble g.currentUf2⟩])
    else
      let g := if g.currentUf1 < maxUf.toInt then { g with currentUf1 := g.currentUf1 + step } else g
      (g, [⟨printDouble g.currentUf1, printDouble g.currentUf2⟩])
  else (g, [])

/-- The utilisation that is passed to a call, and the `int` that the call receives. -/
structure Utilisation where
  passed : ℚ
  received : Int32

/-- One call of the governor inside a run. -/
abbrev SocCall := Call Globals Utilisation PrintedCommand

/-- A run of the governor over the utilisations of the monitoring loop. -/
def socRun (dualCap : Int32) (utilisations : List Utilisation) : List SocCall :=
  totalCalls (fun g u => soC dualCap g u.received) initialGlobals utilisations

/-- The reference governor: the frequencies that a call leaves. -/
def governed (dualCap : Int32) (g : Globals) (utilisation : ℚ) : Globals :=
  if utilisation ≤ 10 then
    ⟨8 / 10, if dualCap = 1 then 8 / 10 else 22 / 10⟩
  else if 90 ≤ utilisation then
    ⟨min (g.currentUf1 + 1 / 10) (22 / 10),
      if dualCap = 1 then min (g.currentUf2 + 1 / 10) (22 / 10) else g.currentUf2⟩
  else g

/-- The utilisation is low or high, so the reference governor commands the frequencies it leaves. -/
def Commands (utilisation : ℚ) : Prop := utilisation ≤ 10 ∨ 90 ≤ utilisation

/-- The number of consecutive high utilisations at the end of a run. -/
def highsAtEnd (calls : List SocCall) : ℕ := (calls.rtakeWhile fun c => 90 ≤ c.input.passed).length

/-- What the reference governor promises of the last call of a run. -/
structure FollowsReference (dualCap : Int32) (earlier : List SocCall) (c : SocCall) : Prop where
  frequencies : c.after = governed dualCap c.before c.input.passed
  command : Commands c.input.passed → c.output = [⟨some c.after.currentUf1, some c.after.currentUf2⟩]
  silent : ¬ Commands c.input.passed → c.output = []
  in_range : Commands c.input.passed →
    (8 / 10 ≤ c.after.currentUf1 ∧ c.after.currentUf1 ≤ 22 / 10) ∧
      (8 / 10 ≤ c.after.currentUf2 ∧ c.after.currentUf2 ≤ 22 / 10)
  ramp_ends : 14 ≤ highsAtEnd (earlier ++ [c]) →
    c.after.currentUf1 = 22 / 10 ∧ (dualCap = 1 → c.after.currentUf2 = 22 / 10)

/-- A utilisation that is not low, and of which the call receives an `int` on the same side of the
thresholds. -/
structure Utilisation.Harmless (u : Utilisation) : Prop where
  passed_not_low : 10 < u.passed
  received_not_low : ¬ u.received ≤ lowTs
  same_side : highTs ≤ u.received ↔ 90 ≤ u.passed

/-- The integer upper bound is 2. -/
theorem toInt_maxUf : maxUf.toInt = 2 := by
  norm_num [maxUf, truncate]
  decide

/-- The initial frequency is printed unchanged. -/
theorem printDouble_initial : printDouble (22 / 10) = some (22 / 10) := by
  rw [printDouble, roundDecimal_of_decimal (n := 220) (by norm_num)]

/-- In the initial state a high utilisation changes nothing and commands the two frequencies. -/
theorem soC_initial_of_high (dualCap : Int32) {util : Int32} (hlow : ¬ util ≤ lowTs)
    (hhigh : highTs ≤ util) :
    soC dualCap initialGlobals util =
      (initialGlobals, [⟨some (22 / 10), some (22 / 10)⟩]) := by
  have htop : ¬ (22 / 10 : ℚ) < (2 : ℤ) := by norm_num
  simp only [soC, hlow, hhigh, if_false, if_true, initialGlobals, toInt_maxUf, htop,
    printDouble_initial, ite_self]

/-- In the initial state the reference governor keeps the frequencies of a high utilisation. -/
theorem governed_initial_of_high (dualCap : Int32) {utilisation : ℚ} (hhigh : 90 ≤ utilisation) :
    governed dualCap initialGlobals utilisation = initialGlobals := by
  have hlow : ¬ utilisation ≤ 10 := by linarith
  have hcap : min (22 / 10 + 1 / 10 : ℚ) (22 / 10) = 22 / 10 := min_eq_right (by norm_num)
  simp only [governed, hlow, hhigh, if_false, initialGlobals, hcap, ite_self]

/-- A harmless utilisation leaves the initial state as it is. -/
theorem soC_initial_of_harmless (dualCap : Int32) {u : Utilisation} (h : u.Harmless) :
    (soC dualCap initialGlobals u.received).1 = initialGlobals := by
  by_cases hhigh : highTs ≤ u.received
  · rw [soC_initial_of_high dualCap h.received_not_low hhigh]
  · simp only [soC, h.received_not_low, hhigh, if_false]

/-- In the initial state a harmless utilisation is answered as the reference governor does. -/
theorem followsReference_of_harmless {dualCap : Int32} {earlier : List SocCall} {c : SocCall}
    (hbefore : c.before = initialGlobals)
    (hstep : soC dualCap c.before c.input.received = (c.after, c.output))
    (h : c.input.Harmless) : FollowsReference dualCap earlier c := by
  have hlow : ¬ c.input.passed ≤ 10 := not_le.mpr h.passed_not_low
  rw [hbefore] at hstep
  have hafter : c.after = initialGlobals := by
    rw [← soC_initial_of_harmless dualCap h, hstep]
  have hcommands : Commands c.input.passed ↔ highTs ≤ c.input.received := by
    rw [Commands, or_iff_right hlow, h.same_side]
  refine ⟨?_, ?_, ?_, ?_, ?_⟩
  · rw [hafter, hbefore]
    by_cases hhigh : 90 ≤ c.input.passed
    · exact (governed_initial_of_high dualCap hhigh).symm
    · rw [governed, if_neg hlow, if_neg hhigh]
  · rw [hcommands, hafter]
    intro hhigh
    rw [soC_initial_of_high dualCap h.received_not_low hhigh] at hstep
    exact (Prod.mk.inj hstep).2.symm
  · rw [hcommands]
    intro hhigh
    simp only [soC, h.received_not_low, hhigh, if_false] at hstep
    exact (Prod.mk.inj hstep).2.symm
  · rw [hafter]
    norm_num [initialGlobals]
  · rw [hafter]
    exact fun _ => ⟨rfl, fun _ => rfl⟩

/-- A low utilisation commands a frequency that is not determined. -/
theorem soC_of_low (dualCap : Int32) (g : Globals) {util : Int32} (hlow : util ≤ lowTs) :
    ∃ cpu1, (soC dualCap g util).2 = [⟨none, cpu1⟩] := by
  rw [soC, if_pos hlow]
  split
  · exact ⟨_, rfl⟩
  · exact ⟨_, rfl⟩

/-- In the initial state only a harmless utilisation is answered as the reference governor does. -/
theorem harmless_of_followsReference {dualCap : Int32} {earlier : List SocCall} {c : SocCall}
    (hbefore : c.before = initialGlobals)
    (hstep : soC dualCap c.before c.input.received = (c.after, c.output))
    (h : FollowsReference dualCap earlier c) : c.input.Harmless := by
  rw [hbefore] at hstep
  have houtput : (soC dualCap initialGlobals c.input.received).2 = c.output := by rw [hstep]
  have hafter : (soC dualCap initialGlobals c.input.received).1 = c.after := by rw [hstep]
  have hreceived : ¬ c.input.received ≤ lowTs := by
    intro hlow
    obtain ⟨cpu1, hundetermined⟩ := soC_of_low dualCap initialGlobals hlow
    rw [houtput] at hundetermined
    by_cases hcommands : Commands c.input.passed
    · simp [h.command hcommands] at hundetermined
    · simp [h.silent hcommands] at hundetermined
  have hkept : c.after = initialGlobals := by
    rw [← hafter]
    by_cases hhigh : highTs ≤ c.input.received
    · rw [soC_initial_of_high dualCap hreceived hhigh]
    · simp only [soC, hreceived, hhigh, if_false]
  have hpassed : ¬ c.input.passed ≤ 10 := by
    intro hlow
    have hlowered := congrArg Globals.currentUf1 (hkept.symm.trans h.frequencies)
    rw [governed, if_pos hlow] at hlowered
    norm_num [initialGlobals] at hlowered
  have hcommands : Commands c.input.passed ↔ 90 ≤ c.input.passed := or_iff_right hpassed
  refine ⟨not_le.mp hpassed, hreceived, ?_⟩
  constructor
  · intro hhigh
    by_contra hnot
    have hsilent := houtput.trans (h.silent (hcommands.not.mpr hnot))
    rw [soC_initial_of_high dualCap hreceived hhigh] at hsilent
    cases hsilent
  · intro hhigh
    by_contra hnot
    have hcommand := houtput.trans (h.command (hcommands.mpr hhigh))
    simp only [soC, hreceived, hnot, if_false] at hcommand
    cases hcommand

/-- As long as all utilisations are harmless the frequencies stay initial, and a run follows the
reference governor up to there exactly when they are. -/
theorem followsReference_iff_calls (dualCap : Int32) (utilisations : List Utilisation) :
    EveryCall (FollowsReference dualCap) (socRun dualCap utilisations) ↔
      ∀ c ∈ socRun dualCap utilisations, c.input.Harmless := by
  refine (totalCalls_final_induction
    (fun calls g => ((∀ c ∈ calls, c.input.Harmless) → g = initialGlobals) ∧
      (EveryCall (FollowsReference dualCap) calls ↔ ∀ c ∈ calls, c.input.Harmless))
    ⟨fun _ => rfl, by simp [everyCall_nil]⟩ ?_ utilisations).2
  intro calls c hinvariant hstep
  obtain ⟨hinitial, hcalls⟩ := hinvariant
  refine ⟨?_, ?_⟩
  · intro hall
    rw [List.forall_mem_append] at hall
    rw [hinitial hall.1] at hstep
    rw [← soC_initial_of_harmless dualCap (hall.2 c (by simp)), hstep]
  · rw [everyCall_concat, List.forall_mem_append, hcalls, List.forall_mem_singleton]
    refine and_congr_right fun hall => ?_
    exact ⟨harmless_of_followsReference (hinitial hall) hstep,
      followsReference_of_harmless (hinitial hall) hstep⟩

/-- A run follows the reference governor exactly when all its utilisations are harmless. -/
theorem followsReference_iff_harmless (dualCap : Int32) (utilisations : List Utilisation) :
    EveryCall (FollowsReference dualCap) (socRun dualCap utilisations) ↔
      ∀ u ∈ utilisations, u.Harmless := by
  have hinputs : (socRun dualCap utilisations).map Call.input = utilisations :=
    runCalls_inputs (runCalls_total _ _ _)
  rw [followsReference_iff_calls]
  nth_rewrite 2 [← hinputs]
  rw [List.forall_mem_map]

/-- Twelve steps lead from the minimum to the integer bound, where the ramp stops. -/
def stepsToMaxUf : ℕ := 12

/-- The frequency of socket 0 a number of steps above the minimum. -/
def rampAt (k : ℕ) : ℚ := 8 / 10 + 1 / 10 * k

/-- A high utilisation takes the ramp one step further, up to the integer bound. -/
theorem soC_rampAt (dualCap : Int32) {g : Globals} {util : Int32} {k : ℕ} (hlow : ¬ util ≤ lowTs)
    (hhigh : highTs ≤ util) (hk : k ≤ stepsToMaxUf) (hg : g.currentUf1 = rampAt k) :
    (soC dualCap g util).1.currentUf1 = rampAt (min (k + 1) stepsToMaxUf) := by
  have hbelow : rampAt k < (2 : ℤ) ↔ k < stepsToMaxUf := by
    have hcast : (k : ℚ) < 12 ↔ k < 12 := by exact_mod_cast Iff.rfl
    rw [stepsToMaxUf, ← hcast, rampAt]
    constructor <;> intro h <;> push_cast at * <;> linarith
  have hfirst : (soC dualCap g util).1.currentUf1 =
      if g.currentUf1 < (2 : ℤ) then g.currentUf1 + step else g.currentUf1 := by
    simp only [soC, hlow, hhigh, if_false, if_true, toInt_maxUf]
    split_ifs <;> rfl
  rw [hfirst, hg]
  by_cases hlt : k < stepsToMaxUf
  · rw [if_pos (hbelow.mpr hlt), min_eq_left hlt, rampAt, rampAt, step]
    push_cast
    ring
  · rw [if_neg (hbelow.not.mpr hlt), min_eq_right (by omega)]
    congr 1
    omega

/-- Repeated high utilisations after a low one end at the integer bound. -/
theorem stateAfter_rampAt (dualCap : Int32) {u : Utilisation} (hlow : ¬ u.received ≤ lowTs)
    (hhigh : highTs ≤ u.received) (n : ℕ) {g : Globals} {k : ℕ} (hk : k ≤ stepsToMaxUf)
    (hg : g.currentUf1 = rampAt k) :
    (stateAfter (fun g u => soC dualCap g u.received) g (List.replicate n u)).currentUf1 =
      rampAt (min (k + n) stepsToMaxUf) := by
  induction n generalizing g k with
  | zero => rw [List.replicate_zero, stateAfter_nil, hg, Nat.add_zero, min_eq_left hk]
  | succ n ih =>
    rw [List.replicate_succ, stateAfter_cons,
      ih (min_le_right _ _) (soC_rampAt dualCap hlow hhigh hk hg)]
    congr 1
    omega

/-- After a low utilisation and thirteen high ones, one more leaves socket 0 at 2 GHz where the
reference governor goes on to 2.1 GHz. -/
theorem followsReference_fails_on_ramp :
    ¬ ∀ (dualCap : Int32) (utilisations : List Utilisation),
      EveryCall (FollowsReference dualCap) (socRun dualCap utilisations) := by
  intro hevery
  have hrun := hevery 0 (⟨5, 5⟩ :: List.replicate 13 ⟨95, 95⟩ ++ [⟨95, 95⟩])
  rw [socRun, totalCalls_concat, everyCall_concat] at hrun
  have hlow : ¬ (95 : Int32) ≤ lowTs := by decide
  have hhigh : highTs ≤ (95 : Int32) := by decide
  have hbefore : (stateAfter (fun g (u : Utilisation) => soC 0 g u.received) initialGlobals
      (⟨5, 5⟩ :: List.replicate 13 ⟨95, 95⟩)).currentUf1 = rampAt stepsToMaxUf := by
    have hminimum : (soC 0 initialGlobals 5).1.currentUf1 = rampAt 0 := by simp [rampAt, soC, lowTs]
    have hramp := stateAfter_rampAt 0 (u := ⟨95, 95⟩) hlow hhigh 13 (Nat.zero_le _) hminimum
    rw [stateAfter_cons, hramp]
    rfl
  have hstays := soC_rampAt 0 hlow hhigh le_rfl hbefore
  have hraises := congrArg Globals.currentUf1 hrun.2.frequencies
  simp only [governed, hbefore] at hraises
  rw [hstays] at hraises
  norm_num [rampAt, stepsToMaxUf] at hraises

end NodePower.Soc
