import NodePower.Common.BooleanEdges

/-!
# The purpose of the uncore controller

The supervisor is the controller reduced to its two flags. A throughput decision sets,
clears or keeps the expectation. The level follows the decision outside a burst and is high
throughout a burst, and the hardware is commanded exactly at the edges of the level.

This is a statement of purpose in its own terms: it knows no samples, thresholds, windows
or frequencies. The faithful controller is related to it call by call.
-/

namespace NodePower

/-- What the throughput logic decides in one call. -/
inductive Decision where
  | increase
  | decrease
  | stay
  deriving DecidableEq

/-- The effect of a decision on a flag that it governs. -/
def Decision.govern : Decision → Bool → Bool
  | .increase, _ => true
  | .decrease, _ => false
  | .stay, flag => flag

/-- The flip indicator of a decision. -/
def Decision.flip : Decision → ℕ
  | .stay => 0
  | _ => 1

/-- The expected level and the commanded level. -/
structure Mode where
  expectation : Bool
  high : Bool

/-- One supervised call: a burst forces the level high, else the decision governs it. -/
def Mode.supervise (burst : Bool) (decision : Decision) (mode : Mode) : Mode where
  expectation := decision.govern mode.expectation
  high := burst || decision.govern mode.high

/-- An expected maximum is commanded. -/
def Mode.Covered (mode : Mode) : Prop := mode.expectation = true → mode.high = true

/-- A supervised call never leaves an expected maximum uncommanded. -/
theorem Mode.covered_supervise {mode : Mode} (burst : Bool) (decision : Decision)
    (h : mode.Covered) : (mode.supervise burst decision).Covered := by
  intro hexpect
  cases decision with
  | increase => simp [Mode.supervise, Decision.govern]
  | decrease => simp [Mode.supervise, Decision.govern] at hexpect
  | stay => simp [Mode.supervise, Decision.govern, h hexpect]

/-- Outside a burst, the level leaves the expectation only where it differed before and no
decision was taken. -/
theorem Mode.high_eq_expectation_iff {mode : Mode} (decision : Decision) (h : mode.Covered) :
    (mode.supervise false decision).high = (mode.supervise false decision).expectation ↔
      ¬ (decision = .stay ∧ mode.high = true ∧ mode.expectation = false) := by
  cases decision with
  | increase => simp [Mode.supervise, Decision.govern]
  | decrease => simp [Mode.supervise, Decision.govern]
  | stay =>
    have hcovered := h
    unfold Mode.Covered at hcovered
    cases hhigh : mode.high <;> cases hexpect : mode.expectation <;>
      simp_all [Mode.supervise, Decision.govern]

/-- A level that is lowered was high, outside a burst, and met a decrease. -/
theorem Mode.edge_lower_iff (mode : Mode) (burst : Bool) (decision : Decision) :
    edge mode.high (mode.supervise burst decision).high = some false ↔
      burst = false ∧ decision = .decrease ∧ mode.high = true := by
  cases burst <;> cases decision <;> cases hhigh : mode.high <;>
    simp [Mode.supervise, Decision.govern, edge, hhigh]

/-- A level that is raised was low, and met a burst or an increase. -/
theorem Mode.edge_raise_iff (mode : Mode) (burst : Bool) (decision : Decision) :
    edge mode.high (mode.supervise burst decision).high = some true ↔
      mode.high = false ∧ (burst = true ∨ decision = .increase) := by
  cases burst <;> cases decision <;> cases hhigh : mode.high <;>
    simp [Mode.supervise, Decision.govern, edge, hhigh]

end NodePower
