import Mathlib.Algebra.GroupWithZero.Basic
import Mathlib.Algebra.Field.Defs
import Mathlib.Data.List.MinMax
import Mathlib.Data.List.ReduceOption
import Mathlib.Data.List.Sort

/-!
# Columns with missing cells

The mean, the greatest and the least of the numbers in a column, whose missing cells are passed
over. The last two do not depend on the order of the rows, and neither does a table that is sorted by a
key which no two rows share.
-/

namespace NodePower

variable {A B K : Type*}

/-- The mean of a column, which is missing if all of its cells are. -/
def mean [DivisionSemiring K] (cells : List (Option K)) : Option K :=
  match cells.reduceOption with
  | [] => none
  | x :: rest => some ((x :: rest).sum / (x :: rest).length)

/-- The greatest number in a column. -/
def columnMax [LinearOrder K] (cells : List (Option K)) : Option K := cells.reduceOption.max?

/-- The least number in a column. -/
def columnMin [LinearOrder K] (cells : List (Option K)) : Option K := cells.reduceOption.min?

/-- Sort by a key in ascending order; rows with the same key keep their order. -/
def sortByKey [LinearOrder K] (key : A → K) (rows : List A) : List A :=
  rows.mergeSort fun a b => key a ≤ key b

/-- The mean of one number. -/
theorem mean_singleton [DivisionSemiring K] (x : K) : mean [some x] = some x := by
  simp [mean, List.reduceOption, div_one]

/-- A fallible function over a permuted list gives permuted results. -/
theorem exists_mapM_of_perm {f : A → Option B} {xs ys : List A} (h : xs.Perm ys) {bs : List B}
    (hys : ys.mapM f = some bs) : ∃ as, xs.mapM f = some as ∧ as.Perm bs := by
  induction h generalizing bs with
  | nil => exact ⟨bs, hys, List.Perm.refl _⟩
  | cons x _ ih =>
    simp only [List.mapM_cons, Option.bind_eq_bind, Option.bind_eq_some_iff, Option.pure_def,
      Option.some.injEq] at hys
    obtain ⟨b, hb, rest, hrest, rfl⟩ := hys
    obtain ⟨as, has, hperm⟩ := ih hrest
    exact ⟨b :: as, by simp [List.mapM_cons, hb, has], hperm.cons b⟩
  | swap x y rest =>
    simp only [List.mapM_cons, Option.bind_eq_bind, Option.bind_eq_some_iff, Option.pure_def,
      Option.some.injEq] at hys
    obtain ⟨b, hb, others, ⟨c, hc, tail, htail, rfl⟩, rfl⟩ := hys
    exact ⟨c :: b :: tail, by simp [List.mapM_cons, hb, hc, htail], List.Perm.swap b c tail⟩
  | trans _ _ ih ih' =>
    obtain ⟨as, has, hperm⟩ := ih' hys
    obtain ⟨as', has', hperm'⟩ := ih has
    exact ⟨as', has', hperm'.trans hperm⟩

/-- A fallible function that succeeds on all items of a list. -/
theorem mapM_eq_some_map {f : A → Option B} {g : A → B} {items : List A}
    (h : ∀ item ∈ items, f item = some (g item)) : items.mapM f = some (items.map g) := by
  induction items with
  | nil => rfl
  | cons item rest ih =>
    rw [List.forall_mem_cons] at h
    simp [List.mapM_cons, h.1, ih h.2]

variable [LinearOrder K]

/-- What the greatest number of a column is. -/
theorem columnMax_eq_some_iff {cells : List (Option K)} {most : K} :
    columnMax cells = some most ↔ some most ∈ cells ∧ ∀ x, some x ∈ cells → x ≤ most := by
  simp only [columnMax, List.max?_eq_some_iff, List.reduceOption_mem_iff]

/-- What the least number of a column is. -/
theorem columnMin_eq_some_iff {cells : List (Option K)} {least : K} :
    columnMin cells = some least ↔ some least ∈ cells ∧ ∀ x, some x ∈ cells → least ≤ x := by
  simp only [columnMin, List.min?_eq_some_iff, List.reduceOption_mem_iff]

/-- There is no greatest number exactly if all cells are missing. -/
theorem columnMax_eq_none_iff {cells : List (Option K)} :
    columnMax cells = none ↔ ∀ x, some x ∉ cells := by
  rw [columnMax, List.max?_eq_none_iff, List.eq_nil_iff_forall_not_mem]
  simp only [List.reduceOption_mem_iff]

/-- There is no least number exactly if all cells are missing. -/
theorem columnMin_eq_none_iff {cells : List (Option K)} :
    columnMin cells = none ↔ ∀ x, some x ∉ cells := by
  rw [columnMin, List.min?_eq_none_iff, List.eq_nil_iff_forall_not_mem]
  simp only [List.reduceOption_mem_iff]

/-- The greatest number of a column in any order. -/
theorem columnMax_of_perm {cells others : List (Option K)} (h : cells.Perm others) :
    columnMax cells = columnMax others := by
  refine Option.ext fun most => ?_
  simp only [columnMax_eq_some_iff, h.mem_iff]

/-- The least number of a column in any order. -/
theorem columnMin_of_perm {cells others : List (Option K)} (h : cells.Perm others) :
    columnMin cells = columnMin others := by
  refine Option.ext fun least => ?_
  simp only [columnMin_eq_some_iff, h.mem_iff]

/-- Sorting keeps the rows. -/
theorem sortByKey_perm (key : A → K) (rows : List A) : (sortByKey key rows).Perm rows :=
  List.mergeSort_perm _ _

/-- The keys of sorted rows ascend. -/
theorem sortByKey_ascending (key : A → K) (rows : List A) :
    (sortByKey key rows).Pairwise fun a b => key a ≤ key b := by
  have hsorted := @List.pairwise_mergeSort A (fun a b => decide (key a ≤ key b))
    (fun a b c hab hbc => decide_eq_true ((of_decide_eq_true hab).trans (of_decide_eq_true hbc)))
    (fun a b => by simpa using le_total (key a) (key b)) rows
  simpa only [sortByKey, decide_eq_true_eq] using hsorted

/-- Rows of which no two share a key are sorted in one way only. -/
theorem sortByKey_eq_of_perm {key : A → K} {rows others : List A} (h : rows.Perm others)
    (hkeys : (rows.map key).Nodup) : sortByKey key rows = sortByKey key others := by
  have hinj := List.inj_on_of_nodup_map hkeys
  refine List.Perm.eq_of_pairwise ?_ (sortByKey_ascending key rows) (sortByKey_ascending key others)
    (((sortByKey_perm key rows).trans h).trans (sortByKey_perm key others).symm)
  intro a b ha hb hab hba
  exact hinj ((sortByKey_perm key rows).mem_iff.mp ha)
    (h.mem_iff.mpr ((sortByKey_perm key others).mem_iff.mp hb)) (le_antisymm hab hba)

/-- If no two rows share a key, the keys of sorted rows ascend strictly. -/
theorem sortByKey_strict {key : A → K} {rows : List A} (hkeys : (rows.map key).Nodup) :
    ((sortByKey key rows).map key).Pairwise (· < ·) := by
  have hne : ((sortByKey key rows).map key).Nodup := (((sortByKey_perm key rows).map key).nodup_iff).mpr hkeys
  rw [List.pairwise_map]
  exact ((sortByKey_ascending key rows).and (List.pairwise_map.mp hne)).imp
    fun hboth => lt_of_le_of_ne hboth.1 hboth.2

end NodePower
