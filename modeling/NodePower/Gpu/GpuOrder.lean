import Mathlib.Data.List.Perm.Basic
import NodePower.Gpu.Scaling

/-!
# The order of the GPUs

`scale_uncore_freq` compares the power of one GPU after the other with the threshold and
keeps one flag for all of them. The last GPU of the list decides how the flag ends, so the
outcome does not depend on the order exactly when all GPUs are on the same side of the
threshold. Only then there is at most one command.
-/

namespace NodePower.Gpu

/-- At most one command, and the same commands and globals for every order of the GPUs. -/
structure OrderIndependent (g : Globals) (gpuPowers : List ℚ) : Prop where
  at_most_one : (scaleUncoreFreq g gpuPowers).2.length ≤ 1
  permuted : ∀ reordered, reordered.Perm gpuPowers →
    scaleUncoreFreq g reordered = scaleUncoreFreq g gpuPowers

/-- All GPUs are on the same side of the threshold. -/
def OneSided (g : Globals) (gpuPowers : List ℚ) : Prop :=
  (∀ power ∈ gpuPowers, power ≤ g.gpuPowerTs) ∨ ∀ power ∈ gpuPowers, g.gpuPowerTs < power

/-- A comparison that finds the flag as it belongs to its GPU issues no command. -/
theorem scaleOne_of_flag {g : Globals} {power : ℚ}
    (hflag : g.highUncoreFreq = decide (power ≤ g.gpuPowerTs)) : scaleOne g power = (g, []) := by
  by_cases hlow : power ≤ g.gpuPowerTs
  · simp [scaleOne, hflag, hlow, not_lt.mpr hlow]
  · simp [scaleOne, hflag, hlow]

/-- Powers on the side of the flag leave everything as it is. -/
theorem scaleUncoreFreq_of_flag {g : Globals} {gpuPowers : List ℚ}
    (hflag : ∀ power ∈ gpuPowers, g.highUncoreFreq = decide (power ≤ g.gpuPowerTs)) :
    scaleUncoreFreq g gpuPowers = (g, []) := by
  induction gpuPowers with
  | nil => rfl
  | cons power rest ih =>
    rw [scaleUncoreFreq, scaleOne_of_flag (hflag power List.mem_cons_self)]
    simp only [ih fun later hlater => hflag later (List.mem_cons_of_mem _ hlater), List.nil_append]

/-- Powers on one side of the threshold are answered as the first of them. -/
theorem scaleUncoreFreq_of_side {g : Globals} {gpuPowers : List ℚ} {side : Bool}
    (hside : ∀ power ∈ gpuPowers, decide (power ≤ g.gpuPowerTs) = side) :
    scaleUncoreFreq g gpuPowers =
      if gpuPowers = [] ∨ g.highUncoreFreq = side then (g, [])
      else ({ g with highUncoreFreq := side },
        [if side then ⟨24 / 10, 24 / 10⟩ else ⟨8 / 10, 8 / 10⟩]) := by
  cases gpuPowers with
  | nil => rfl
  | cons power rest =>
    have hfirst := hside power List.mem_cons_self
    have hrest : ∀ later ∈ rest, (scaleOne g power).1.highUncoreFreq =
        decide (later ≤ (scaleOne g power).1.gpuPowerTs) := by
      intro later hlater
      rw [scaleOne_globals, hfirst]
      exact (hside later (List.mem_cons_of_mem _ hlater)).symm
    have hstep : scaleUncoreFreq g (power :: rest) = scaleOne g power := by
      rw [scaleUncoreFreq]
      simp only [scaleUncoreFreq_of_flag hrest, List.append_nil]
    rw [hstep]
    by_cases hflag : g.highUncoreFreq = side
    · rw [scaleOne_of_flag (hflag.trans hfirst.symm), if_pos (Or.inr hflag)]
    · rw [if_neg (by simp [hflag])]
      cases side with
      | false =>
        have hhigh : g.gpuPowerTs < power := not_le.mp (of_decide_eq_false hfirst)
        have hraised : g.highUncoreFreq = true := by simpa using hflag
        simp [scaleOne, hraised, hhigh]
      | true =>
        have hlow : power ≤ g.gpuPowerTs := of_decide_eq_true hfirst
        have hlowered : g.highUncoreFreq = false := by simpa using hflag
        simp [scaleOne, hlowered, hlow]

/-- The last GPU decides how the flag ends. -/
theorem highUncoreFreq_concat (g : Globals) (gpuPowers : List ℚ) (power : ℚ) :
    (scaleUncoreFreq g (gpuPowers ++ [power])).1.highUncoreFreq = decide (power ≤ g.gpuPowerTs) := by
  induction gpuPowers generalizing g with
  | nil =>
    change (scaleOne g power).1.highUncoreFreq = _
    rw [scaleOne_globals]
  | cons first rest ih =>
    change (scaleUncoreFreq (scaleOne g first).1 (rest ++ [power])).1.highUncoreFreq = _
    rw [ih, scaleOne_globals]

/-- If the order does not matter, every GPU is on the side on which the flag ends. -/
theorem OrderIndependent.side_eq {g : Globals} {gpuPowers : List ℚ} (h : OrderIndependent g gpuPowers)
    {power : ℚ} (hpower : power ∈ gpuPowers) :
    decide (power ≤ g.gpuPowerTs) = (scaleUncoreFreq g gpuPowers).1.highUncoreFreq := by
  have hreordered : (gpuPowers.erase power ++ [power]).Perm gpuPowers :=
    List.perm_append_comm.trans (List.perm_cons_erase hpower).symm
  rw [← h.permuted _ hreordered, highUncoreFreq_concat]

/-- For every list of powers, every threshold and both values of the flag, there is at most one
command and the order does not matter exactly when all GPUs are on the same side of the
threshold. -/
theorem orderIndependent_iff_oneSided (g : Globals) (gpuPowers : List ℚ) :
    OrderIndependent g gpuPowers ↔ OneSided g gpuPowers := by
  constructor
  · intro hindependent
    cases hend : (scaleUncoreFreq g gpuPowers).1.highUncoreFreq with
    | false =>
      refine Or.inr fun power hpower => ?_
      exact not_le.mp (of_decide_eq_false ((hindependent.side_eq hpower).trans hend))
    | true =>
      refine Or.inl fun power hpower => ?_
      exact of_decide_eq_true ((hindependent.side_eq hpower).trans hend)
  · intro honeSided
    obtain ⟨side, hside⟩ : ∃ side, ∀ power ∈ gpuPowers, decide (power ≤ g.gpuPowerTs) = side := by
      rcases honeSided with hlow | hhigh
      · exact ⟨true, fun power hpower => decide_eq_true (hlow power hpower)⟩
      · exact ⟨false, fun power hpower => decide_eq_false (not_le.mpr (hhigh power hpower))⟩
    constructor
    · rw [scaleUncoreFreq_of_side hside]
      split
      · exact Nat.zero_le 1
      · exact le_rfl
    · intro reordered hperm
      have hreordered : ∀ power ∈ reordered, decide (power ≤ g.gpuPowerTs) = side :=
        fun power hpower => hside power (hperm.mem_iff.mp hpower)
      have hempty : reordered = [] ↔ gpuPowers = [] := by
        rw [← List.length_eq_zero_iff, hperm.length_eq, List.length_eq_zero_iff]
      rw [scaleUncoreFreq_of_side hside, scaleUncoreFreq_of_side hreordered]
      simp only [hempty]

/-- A GPU above the threshold of 100 W before one below it lowers the uncore and raises it again. -/
theorem orderIndependent_fails_for_mixed_powers :
    ¬ ∀ (g : Globals) (gpuPowers : List ℚ), OrderIndependent g gpuPowers := by
  intro hevery
  have hlength := (hevery initialGlobals [150, 50]).at_most_one
  exact absurd hlength (by decide +kernel)

end NodePower.Gpu
