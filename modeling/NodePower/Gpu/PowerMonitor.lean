import NodePower.Common.DecimalRounding
import Mathlib.Algebra.BigOperators.Ring.List
import Mathlib.Data.List.GetD

/-!
# The GPU power monitor

`monitor_gpu_power` stores one row of elapsed time and device powers per round. In energy
mode it takes the mean of every column, adds the means and multiplies by the elapsed time of
the last row; the columns are those of the last reading, and a row with fewer of them raises
an index error. Trace mode writes the rows under a header with those columns. A run without
a round leaves the last reading unbound, so both modes raise an error.

Floats are exact rationals. The directory of the output file is taken to exist.
-/

namespace NodePower.Gpu

/-- A row of `power_data`. -/
structure PowerRow where
  elapsedTime : ℚ
  gpuPowers : List ℚ

/-- The mean of one column, or nothing when a row has no such column. -/
def columnMean (powerData : List PowerRow) (i : ℕ) : Option ℚ :=
  (powerData.mapM fun row => row.gpuPowers[i]?).map fun column => column.sum / powerData.length

/-- The sum of the column means, or nothing when a row has too few columns. -/
def avgPowerAllGpus (powerData : List PowerRow) (columns : ℕ) : Option ℚ :=
  ((List.range columns).mapM (columnMean powerData)).map List.sum

/-- What is written to the output file: a total energy that is appended, or all rows under a header
with a number of columns. -/
inductive CsvWrite where
  | appendEnergy (totalEnergy : ℚ)
  | writeRows (columns : ℕ) (rows : List PowerRow)

/-- The end of the monitor in energy mode or in trace mode, or nothing when it raises an error. -/
def monitorGpuPower (avg : Bool) (powerData : List PowerRow) : Option CsvWrite :=
  powerData.getLast?.bind fun last =>
    let columns := last.gpuPowers.length
    if avg then
      (avgPowerAllGpus powerData columns).map fun avgPower =>
        .appendEnergy (roundDecimal 2 (avgPower * last.elapsedTime))
    else some (.writeRows columns powerData)

/-- The power of a row over a number of columns. -/
def PowerRow.columnsPower (columns : ℕ) (row : PowerRow) : ℚ := (row.gpuPowers.take columns).sum

/-- The sum of the first entries of a list. -/
theorem sum_map_range_getD (l : List ℚ) (n : ℕ) :
    ((List.range n).map fun i => l.getD i 0).sum = (l.take n).sum := by
  induction n generalizing l with
  | zero => simp
  | succ n ih =>
    cases l with
    | nil => simp
    | cons x rest =>
      rw [List.range_succ_eq_map, List.map_cons, List.sum_cons, List.map_map, List.take_succ_cons,
        List.sum_cons, ← ih rest]
      rfl

/-- Columns first and rows first give the same sum. -/
theorem sum_columns_eq_sum_rows (powerData : List PowerRow) (columns : ℕ) :
    ((List.range columns).map fun i => (powerData.map fun row => row.gpuPowers.getD i 0).sum).sum =
      (powerData.map (PowerRow.columnsPower columns)).sum := by
  induction powerData with
  | nil => simp
  | cons row rest ih =>
    simp only [List.map_cons, List.sum_cons]
    rw [List.sum_map_add, ih, sum_map_range_getD, PowerRow.columnsPower]

/-- A guarded computation over a list succeeds when every guard holds. -/
theorem mapM_ite {A B : Type*} (P : A → Prop) [DecidablePred P] (g : A → B) (l : List A) :
    (l.mapM fun a => if P a then some (g a) else none) =
      if ∀ a ∈ l, P a then some (l.map g) else none := by
  induction l with
  | nil => simp
  | cons a rest ih =>
    rw [List.mapM_cons, ih]
    by_cases ha : P a
    · by_cases hrest : ∀ b ∈ rest, P b
      · rw [if_pos ha, if_pos hrest, if_pos (List.forall_mem_cons.mpr ⟨ha, hrest⟩)]
        rfl
      · rw [if_pos ha, if_neg hrest, if_neg fun h => hrest (List.forall_mem_cons.mp h).2]
        rfl
    · rw [if_neg ha, if_neg fun h => ha (List.forall_mem_cons.mp h).1]
      rfl

/-- A column mean is taken when every row has the column. -/
theorem columnMean_eq (powerData : List PowerRow) (i : ℕ) :
    columnMean powerData i =
      if ∀ row ∈ powerData, i < row.gpuPowers.length then
        some ((powerData.map fun row => row.gpuPowers.getD i 0).sum / powerData.length)
      else none := by
  have hcolumn : ∀ row : PowerRow, row.gpuPowers[i]? =
      if i < row.gpuPowers.length then some (row.gpuPowers.getD i 0) else none := by
    intro row
    by_cases hrow : i < row.gpuPowers.length
    · rw [if_pos hrow, List.getElem?_eq_getElem hrow, List.getD_eq_getElem _ _ hrow]
    · rw [if_neg hrow, List.getElem?_eq_none (not_lt.mp hrow)]
  simp only [columnMean, hcolumn]
  rw [mapM_ite]
  split <;> rfl

/-- The column means are taken when every row has all columns, and add up to the mean power. -/
theorem avgPowerAllGpus_eq (powerData : List PowerRow) (columns : ℕ) :
    avgPowerAllGpus powerData columns =
      if ∀ row ∈ powerData, columns ≤ row.gpuPowers.length then
        some ((powerData.map (PowerRow.columnsPower columns)).sum / powerData.length)
      else none := by
  have hcolumns : (∀ i ∈ List.range columns, ∀ row ∈ powerData, i < row.gpuPowers.length) ↔
      ∀ row ∈ powerData, columns ≤ row.gpuPowers.length := by
    constructor
    · intro h row hrow
      by_contra hlt
      exact lt_irrefl _ (h _ (List.mem_range.mpr (not_le.mp hlt)) row hrow)
    · intro h i hi row hrow
      exact (List.mem_range.mp hi).trans_le (h row hrow)
  simp only [avgPowerAllGpus, funext (columnMean_eq powerData)]
  rw [mapM_ite, if_congr hcolumns rfl rfl]
  split
  · rw [Option.map_some, ← sum_columns_eq_sum_rows]
    simp only [div_eq_mul_inv, List.sum_map_mul_right]
  · rfl

end NodePower.Gpu
