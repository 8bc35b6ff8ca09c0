import Mathlib.Algebra.BigOperators.Group.Finset.Basic
import Mathlib.Algebra.Order.BigOperators.Group.Finset
import Mathlib.Algebra.Order.Field.Basic
import Mathlib.Data.Nat.Cast.Order.Ring
import Mathlib.Tactic.Ring
import Mathlib.Tactic.Linarith

/-!
# Banks of wrapping counters

A counter of finite range shows its cumulative count modulo the range, so a difference of two
readings misses one range for every lap in between. Over a bank of counters whose counts
never fall, the missing ranges cannot cancel: summed readings differ by what was counted
exactly when no counter of the sum has started a new lap.
-/

namespace NodePower

variable {ι K : Type*} [Field K] [LinearOrder K] [IsStrictOrderedRing K]

/-- A bank of counters, each with a positive range. -/
structure CounterBank (ι : Type*) where
  range : ι → ℕ
  range_pos : ∀ i, 0 < range i

namespace CounterBank

variable (bank : CounterBank ι)

/-- What a counter shows of its cumulative count. -/
def shown (count : ι → ℕ) (i : ι) : ℕ := count i % bank.range i

/-- Counts do not fall, and no counter moves by a full range. -/
def Advances (before after : ι → ℕ) : Prop :=
  ∀ i, before i ≤ after i ∧ after i < before i + bank.range i

/-- No counter of the set starts a new lap. -/
def SameLap (s : Finset ι) (before after : ι → ℕ) : Prop :=
  ∀ i ∈ s, before i / bank.range i = after i / bank.range i

/-- The part of the count that the shown value misses between two readings. -/
def missed (before after : ι → ℕ) (i : ι) : K :=
  bank.range i * ((after i / bank.range i : ℕ) - (before i / bank.range i : ℕ))

variable {bank}

omit [LinearOrder K] [IsStrictOrderedRing K] in
/-- The count of a counter is what it shows and a range for every lap. -/
theorem cast_shown (count : ι → ℕ) (i : ι) :
    (bank.shown count i : K) = count i - bank.range i * (count i / bank.range i : ℕ) := by
  have hcount := congrArg (Nat.cast (R := K)) (Nat.mod_add_div (count i) (bank.range i))
  push_cast at hcount
  rw [shown, ← hcount]
  ring

omit [LinearOrder K] [IsStrictOrderedRing K] in
/-- Summed readings differ by what was counted less what was missed. -/
theorem sum_shown_sub (s : Finset ι) (before after : ι → ℕ) :
    ∑ i ∈ s, (bank.shown after i : K) - ∑ i ∈ s, (bank.shown before i : K) =
      (∑ i ∈ s, (after i : K) - ∑ i ∈ s, (before i : K)) - ∑ i ∈ s, bank.missed before after i := by
  simp only [← Finset.sum_sub_distrib, cast_shown, missed]
  apply Finset.sum_congr rfl
  intro i _
  ring

/-- What is missed is not negative as long as the count does not fall. -/
theorem missed_nonneg {before after : ι → ℕ} {i : ι} (hle : before i ≤ after i) :
    (0 : K) ≤ bank.missed before after i := by
  have hlaps : ((before i / bank.range i : ℕ) : K) ≤ (after i / bank.range i : ℕ) := by
    exact_mod_cast Nat.div_le_div_right hle
  exact mul_nonneg (Nat.cast_nonneg _) (sub_nonneg.mpr hlaps)

/-- Nothing is missed exactly when no new lap has started. -/
theorem missed_eq_zero_iff {before after : ι → ℕ} {i : ι} :
    (bank.missed before after i : K) = 0 ↔ before i / bank.range i = after i / bank.range i := by
  have hrange : (bank.range i : K) ≠ 0 := by exact_mod_cast (bank.range_pos i).ne'
  rw [missed, mul_eq_zero, or_iff_right hrange, sub_eq_zero, Nat.cast_inj, eq_comm]

/-- Summed readings differ by what was counted exactly when no counter of the sum has started a new
lap. -/
theorem sum_shown_sub_eq_iff {s : Finset ι} {before after : ι → ℕ}
    (hle : ∀ i ∈ s, before i ≤ after i) :
    ∑ i ∈ s, (bank.shown after i : K) - ∑ i ∈ s, (bank.shown before i : K) =
        ∑ i ∈ s, (after i : K) - ∑ i ∈ s, (before i : K) ↔
      bank.SameLap s before after := by
  rw [sum_shown_sub, sub_eq_self, Finset.sum_eq_zero_iff_of_nonneg fun i hi => missed_nonneg (hle i hi)]
  exact forall₂_congr fun i _ => missed_eq_zero_iff

end CounterBank

end NodePower
