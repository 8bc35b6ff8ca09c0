import Mathlib.Algebra.BigOperators.Group.List.Basic
import Mathlib.Algebra.Order.Group.Defs
import Mathlib.Data.List.Pairwise
import Mathlib.Tactic.Abel

/-!
# The drift of sampled clocks

A list of times is its start and the periods between neighbours. At an index, two lists are
as far apart as they were at their start, and by what their periods differ in sum.
-/

namespace NodePower

variable {K : Type*} [AddCommGroup K]

/-- The differences of neighbouring times. -/
def periods (times : List K) : List K := List.zipWith (fun later earlier => later - earlier) times.tail times

/-- How far one list is ahead of another at an index: the difference of their starts, and the sum of
the differences of their periods. -/
def drift (times others : List K) (i : ℕ) : K :=
  times.headD 0 - others.headD 0 + (((periods times).take i).sum - ((periods others).take i).sum)

/-- A period is the difference of a time and the one before it. -/
theorem getElem?_periods_eq_some {times : List K} {i : ℕ} {period : K} :
    (periods times)[i]? = some period ↔
      ∃ earlier later, times[i]? = some earlier ∧ times[i + 1]? = some later ∧ later - earlier = period := by
  rw [periods, List.getElem?_zipWith_eq_some]
  constructor
  · intro h
    obtain ⟨later, earlier, hlater, hearlier, heq⟩ := h
    rw [List.getElem?_tail] at hlater
    exact ⟨earlier, later, hearlier, hlater, heq⟩
  · intro h
    obtain ⟨earlier, later, hearlier, hlater, heq⟩ := h
    rw [← List.getElem?_tail] at hlater
    exact ⟨later, earlier, hlater, hearlier, heq⟩

/-- A time is the start and the sum of the periods up to it. -/
theorem start_add_sum_periods {times : List K} {i : ℕ} {time : K} (htime : times[i]? = some time) :
    times.headD 0 + ((periods times).take i).sum = time := by
  induction i generalizing time with
  | zero =>
    cases times with
    | nil => exact absurd htime (by simp)
    | cons first rest =>
      obtain rfl : first = time := Option.some.inj htime
      simp
  | succ i ih =>
    obtain ⟨hlength, -⟩ := List.getElem?_eq_some_iff.mp htime
    have hearlier : times[i]? = some times[i] := List.getElem?_eq_getElem (by omega)
    have hperiod : (periods times)[i]? = some (time - times[i]) :=
      getElem?_periods_eq_some.mpr ⟨times[i], time, hearlier, htime, rfl⟩
    rw [List.take_add_one, hperiod, Option.toList_some, List.sum_append, List.sum_singleton, ← add_assoc,
      ih hearlier, add_sub_cancel]

/-- The drift is the difference of the times. -/
theorem drift_eq {times others : List K} {i : ℕ} {time other : K} (htime : times[i]? = some time)
    (hother : others[i]? = some other) : drift times others i = time - other := by
  rw [drift, ← start_add_sum_periods htime, ← start_add_sum_periods hother]
  abel

/-- Up to an index, periods that start a common list are those of that list. -/
theorem take_periods_of_common {times clock : List K} (hstarts : periods times <+: clock) {i : ℕ}
    (hi : i < times.length) : (periods times).take i = clock.take i := by
  have hlength : (periods times).length = times.length - 1 := by
    rw [periods, List.length_zipWith, List.length_tail]
    omega
  rw [List.prefix_iff_eq_take.mp hstarts, List.take_take, hlength]
  congr 1
  omega

/-- Lists with the same periods do not drift. -/
theorem drift_of_common_periods {times others clock : List K} (htimes : periods times <+: clock)
    (hothers : periods others <+: clock) {i : ℕ} (hi : i < times.length) (hother : i < others.length) :
    drift times others i = times.headD 0 - others.headD 0 := by
  rw [drift, take_periods_of_common htimes hi, take_periods_of_common hothers hother, sub_self,
    add_zero]

/-- Times with positive periods do not fall. -/
theorem le_of_periods_pos [LinearOrder K] [IsOrderedAddMonoid K] {times : List K}
    (hpos : ∀ period ∈ periods times, 0 < period) {i j : ℕ} (hij : i ≤ j) {earlier later : K}
    (hearlier : times[i]? = some earlier) (hlater : times[j]? = some later) : earlier ≤ later := by
  induction j, hij using Nat.le_induction generalizing later with
  | base => exact (Option.some.inj (hearlier.symm.trans hlater)).le
  | succ j hij ih =>
    obtain ⟨hlength, -⟩ := List.getElem?_eq_some_iff.mp hlater
    have hbetween : times[j]? = some times[j] := List.getElem?_eq_getElem (by omega)
    have hperiod : (periods times)[j]? = some (later - times[j]) :=
      getElem?_periods_eq_some.mpr ⟨times[j], later, hbetween, hlater, rfl⟩
    exact (ih hbetween).trans (sub_pos.mp (hpos _ (List.mem_of_getElem? hperiod))).le

end NodePower
