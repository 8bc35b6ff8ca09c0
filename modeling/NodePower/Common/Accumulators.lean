import Mathlib.Algebra.BigOperators.Group.List.Basic
import Mathlib.Logic.Function.Basic
import Mathlib.Algebra.Module.Prod
import Mathlib.Tactic.Abel

/-!
# Loops that add up

A loop over a list keeps a state, and each pass adds to one quantity of the state an amount that
depends on the element alone. After the loop the quantity has grown by the sum of these amounts.
-/

namespace NodePower

variable {S I M : Type*}

/-- A quantity to which each pass adds an amount of its own grows by their sum. -/
theorem foldl_accumulates [AddMonoid M] (quantity : S → M) {step : S → I → S} {amount : I → M}
    {items : List I} (hstep : ∀ item ∈ items, ∀ s, quantity (step s item) = quantity s + amount item)
    (s : S) : quantity (items.foldl step s) = quantity s + (items.map amount).sum := by
  induction items generalizing s with
  | nil => simp
  | cons item rest ih =>
    rw [List.foldl_cons, ih (fun i hi => hstep i (List.mem_cons_of_mem _ hi)),
      hstep item List.mem_cons_self, List.map_cons, List.sum_cons, add_assoc]

/-- A quantity that no pass touches is the same after the loop. -/
theorem foldl_keeps {Q : Type*} (quantity : S → Q) {step : S → I → S}
    (hstep : ∀ s item, quantity (step s item) = quantity s) (items : List I) (s : S) :
    quantity (items.foldl step s) = quantity s := by
  induction items generalizing s with
  | nil => rfl
  | cons item rest ih => rw [List.foldl_cons, ih, hstep]

/-- A table in which each pass writes the entry of its own element holds these entries after the loop. -/
theorem foldl_updates {V : Type*} [DecidableEq I] (table : S → I → V) {step : S → I → S}
    {value : I → V} (hstep : ∀ s item, table (step s item) = Function.update (table s) item (value item))
    (items : List I) (s : S) (item : I) :
    table (items.foldl step s) item = if item ∈ items then value item else table s item := by
  induction items generalizing s with
  | nil => simp
  | cons other rest ih =>
    rw [List.foldl_cons, ih, hstep]
    by_cases hrest : item ∈ rest
    · rw [if_pos hrest, if_pos (List.mem_cons_of_mem other hrest)]
    · by_cases hsame : item = other
      · subst hsame
        rw [if_neg hrest, if_pos List.mem_cons_self, Function.update_self]
      · rw [if_neg hrest, if_neg (List.not_mem_cons_of_ne_of_not_mem hsame hrest),
          Function.update_of_ne hsame]

/-- Two sums side by side are the sum of the pairs. -/
theorem prodMk_sum_map {N : Type*} [AddMonoid M] [AddMonoid N] (items : List I) (left : I → M)
    (right : I → N) :
    ((items.map left).sum, (items.map right).sum) =
      (items.map fun item => (left item, right item)).sum := by
  induction items with
  | nil => rfl
  | cons item rest ih => simp only [List.map_cons, List.sum_cons, ← ih, Prod.mk_add_mk]

/-- Scaled differences add up to the scaled difference of the sums. -/
theorem sum_map_smul_sub {R : Type*} [Ring R] [AddCommGroup M] [Module R M] (factor : R)
    (items : List I) (last first : I → M) :
    (items.map fun item => factor • (last item - first item)).sum =
      factor • ((items.map last).sum - (items.map first).sum) := by
  induction items with
  | nil => simp
  | cons item rest ih =>
    simp only [List.map_cons, List.sum_cons, ih, ← smul_add]
    congr 1
    abel

end NodePower
