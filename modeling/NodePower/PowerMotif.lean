import NodePower.Common.Binary64
import NodePower.Common.NeighbourPass

/-!
# Repairing a power trace before it is plotted

A counter that wraps around leaves negative powers in a recorded trace. Before plotting,
the notebook replaces each of them by the average of its neighbours, in place and from the
first to the last row. The left neighbour of an average is thus already repaired and the
right one is not, and the two ends of the trace are never looked at.

Powers are binary64 numbers, and every sum and every half is rounded to one; they are taken
to be far below the largest one.
-/

namespace NodePower.PowerMotif

/-- The average of two powers, `(previous_value + next_value) / 2` with both results rounded. -/
def average (previous next : ℚ) : ℚ := roundBinary64 (roundBinary64 (previous + next) / 2)

/-- The body of the loop: a label that the table does not have is an error. -/
def repairSample (data : List ℚ) (i : ℕ) : Option (List ℚ) := do
  let value ← data[i]?
  if value < 0 then
    let previousValue ← data[i - 1]?
    let nextValue ← data[i + 1]?
    some (data.set i (average previousValue nextValue))
  else
    some data

/-- `replace_negative_with_average` on the column of a table that is labelled from zero. -/
def replaceNegativeWithAverage (data : List ℚ) : Option (List ℚ) :=
  (List.range' 1 (data.length - 1 - 1)).foldlM repairSample data

/-- What becomes of a power between two others. -/
def repairedSample (previous value next : ℚ) : ℚ :=
  if value < 0 then average previous next else value

/-- The body of the loop applies this rule at every inner row. -/
theorem repairSample_appliesRule : AppliesRule repairedSample repairSample 0 := by
  intro data i hi
  have hread : ∀ j < data.length, data[j]? = some (data.getD j 0) := by
    intro j hj
    rw [List.getD_eq_getElem data 0 hj, List.getElem?_eq_getElem hj]
  have hmiddle := hread (i + 1) (by omega)
  simp only [repairSample, repairedSample, hmiddle, hread i (by omega), hread (i + 2) hi,
    Option.bind_eq_bind, Option.bind_some, Nat.add_sub_cancel]
  by_cases hneg : data.getD (i + 1) 0 < 0
  · rw [if_pos hneg, if_pos hneg]
  · rw [if_neg hneg, if_neg hneg]
    have hlt : i + 1 < data.length := by omega
    rw [List.getD_eq_getElem data 0 hlt, List.set_getElem_self]

/-- The repair never fails, and what it leaves is described row by row. -/
theorem replaceNegativeWithAverage_swept (data : List ℚ) :
    ∃ repaired, replaceNegativeWithAverage data = some repaired ∧
      Swept repairedSample 0 data (data.length - 2) repaired :=
  repairSample_appliesRule.pass data

/-- No power is negative any more, and those that were not negative are as before. -/
structure Repaired (data repaired : List ℚ) : Prop where
  length : repaired.length = data.length
  nonneg : ∀ i < data.length, 0 ≤ repaired.getD i 0
  kept : ∀ i < data.length, 0 ≤ data.getD i 0 → repaired.getD i 0 = data.getD i 0

/-- `distance` rows after row `i` all powers since that row have been negative. -/
def NegativeRun (data : List ℚ) (i distance : ℕ) : Prop :=
  i + distance + 1 < data.length ∧ 0 ≤ data.getD i 0 ∧
    ∀ j, i < j → j ≤ i + distance → data.getD j 0 < 0

/-- The average that is carried along a negative run: at first the power in front of it, then at
each row averaged with the power behind that row. -/
def carriedAverage (data : List ℚ) (i : ℕ) : ℕ → ℚ
  | 0 => data.getD i 0
  | distance + 1 => average (carriedAverage data i distance) (data.getD (i + distance + 2) 0)

/-- The traces without a negative power at either end in which the average that is carried along a
negative run never becomes negative. -/
structure Repairable (data : List ℚ) : Prop where
  ends : ∀ i < data.length, i = 0 ∨ i + 1 = data.length → 0 ≤ data.getD i 0
  runs : ∀ i distance, NegativeRun data i distance → 0 ≤ carriedAverage data i distance

section

variable {data repaired : List ℚ} (hswept : Swept repairedSample 0 data (data.length - 2) repaired)

include hswept

/-- The ends of the trace are kept. -/
theorem ends_kept {i : ℕ} (hi : i < data.length) (hend : i = 0 ∨ i + 1 = data.length) :
    repaired.getD i 0 = data.getD i 0 := by
  by_cases hfirst : i = 0
  · rw [hfirst, hswept.first]
  · exact hswept.beyond i (by omega)

/-- An inner power that is not negative is kept. -/
theorem nonneg_kept {i : ℕ} (hi : i < data.length) (hnonneg : 0 ≤ data.getD i 0) :
    repaired.getD i 0 = data.getD i 0 := by
  by_cases hend : i = 0 ∨ i + 1 = data.length
  · exact ends_kept hswept hi hend
  · obtain ⟨k, rfl⟩ := Nat.exists_eq_succ_of_ne_zero (fun h => hend (Or.inl h))
    rw [Nat.succ_eq_add_one] at hnonneg ⊢
    rw [hswept.inner k (by omega), repairedSample, if_neg (not_lt.mpr hnonneg)]

/-- Within a negative run the repaired power is the average that is carried along it. -/
theorem repaired_in_run {i distance : ℕ} (hrun : NegativeRun data i distance) :
    repaired.getD (i + distance) 0 = carriedAverage data i distance := by
  obtain ⟨hlength, hnonneg, hnegative⟩ := hrun
  induction distance with
  | zero => exact nonneg_kept hswept (by omega) hnonneg
  | succ distance ih =>
    have hbefore := ih (by omega) (fun j hij hj => hnegative j hij (by omega))
    have hneg := hnegative (i + distance + 1) (by omega) (by omega)
    have hhere := hswept.inner (i + distance) (by omega)
    rw [repairedSample, if_pos hneg, hbefore] at hhere
    exact hhere

end

/-- Before a negative power there is a nearest one that is not negative, if the first is not. -/
theorem exists_negativeRun {data : List ℚ} (hfirst : 0 ≤ data.getD 0 0) (k : ℕ)
    (hk : k + 1 < data.length) :
    ∃ i distance, i + distance = k ∧ NegativeRun data i distance := by
  induction k with
  | zero => exact ⟨0, 0, rfl, hk, hfirst, fun j hlt hle => absurd hlt (by omega)⟩
  | succ k ih =>
    by_cases hneg : data.getD (k + 1) 0 < 0
    · obtain ⟨i, distance, hsum, hlength, hnonneg, hnegative⟩ := ih (by omega)
      refine ⟨i, distance + 1, by omega, by omega, hnonneg, ?_⟩
      intro j hlt hle
      by_cases hj : j ≤ i + distance
      · exact hnegative j hlt hj
      · have hlast : j = k + 1 := by omega
        rw [hlast]
        exact hneg
    · exact ⟨k + 1, 0, rfl, hk, not_lt.mp hneg, fun j hlt hle => absurd hlt (by omega)⟩

/-- Powers whose sum is not negative have an average that is not negative. -/
theorem average_nonneg {previous next : ℚ} (h : 0 ≤ previous + next) : 0 ≤ average previous next :=
  roundBinary64_nonneg (div_nonneg (roundBinary64_nonneg h) two_pos.le)

/-- A trace whose ends are not negative is repairable if at most two negative powers stand side by
side, and the power in front of two of them outweighs the second one. -/
theorem repairable_of_pairs {data : List ℚ}
    (hends : ∀ i < data.length, i = 0 ∨ i + 1 = data.length → 0 ≤ data.getD i 0)
    (hpairs : ∀ i, i + 3 < data.length → data.getD (i + 1) 0 < 0 → data.getD (i + 2) 0 < 0 →
      0 ≤ data.getD i 0 + data.getD (i + 2) 0 ∧ 0 ≤ data.getD (i + 3) 0) :
    Repairable data := by
  refine ⟨hends, ?_⟩
  intro i distance hrun
  obtain ⟨hlength, hnonneg, hnegative⟩ := hrun
  have hfirst : 1 ≤ distance → 0 ≤ carriedAverage data i 1 := by
    intro hone
    apply average_nonneg
    rcases le_or_gt 0 (data.getD (i + 2) 0) with hnext | hnext
    · exact add_nonneg hnonneg hnext
    · have hinner : i + 3 < data.length := by
        by_contra hend
        have hlast : i + 2 + 1 = data.length := by omega
        exact absurd hnext (not_lt.mpr (hends (i + 2) (by omega) (Or.inr hlast)))
      exact (hpairs i hinner (hnegative (i + 1) (by omega) (by omega)) hnext).1
  match distance with
  | 0 => exact hnonneg
  | 1 => exact hfirst le_rfl
  | 2 =>
    have hbehind := (hpairs i (by omega) (hnegative (i + 1) (by omega) (by omega))
      (hnegative (i + 2) (by omega) (by omega))).2
    exact average_nonneg (add_nonneg (hfirst (by omega)) hbehind)
  | distance + 3 =>
    have hbehind := (hpairs i (by omega) (hnegative (i + 1) (by omega) (by omega))
      (hnegative (i + 2) (by omega) (by omega))).2
    exact absurd (hnegative (i + 3) (by omega) (by omega)) (not_lt.mpr hbehind)

end NodePower.PowerMotif
