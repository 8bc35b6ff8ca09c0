import Mathlib.Data.List.GetD
import Mathlib.Tactic.Common

/-!
# Passes in place that look at both neighbours

A pass from left to right replaces the inner entries of a list one after another. The new
entry is computed from the left neighbour as the pass has left it, the entry itself and the
right neighbour as the pass has found it. The two ends are not visited.
-/

namespace NodePower

variable {A : Type*} {rule : A → A → A → A} {step : List A → ℕ → Option (List A)} {a : A}

/-- Reading a list in which one entry has been set. -/
theorem getD_set (xs : List A) {i : ℕ} (hi : i < xs.length) (j : ℕ) (value a : A) :
    (xs.set i value).getD j a = if j = i then value else xs.getD j a := by
  rw [List.getD_eq_getElem?_getD, List.getD_eq_getElem?_getD, List.getElem?_set]
  by_cases hj : i = j
  · rw [if_pos hj, if_pos hi, if_pos hj.symm, Option.getD_some]
  · rw [if_neg hj, if_neg (Ne.symm hj)]

/-- A step that succeeds at every inner position and applies a rule there. -/
def AppliesRule (rule : A → A → A → A) (step : List A → ℕ → Option (List A)) (a : A) : Prop :=
  ∀ xs i, i + 2 < xs.length → step xs (i + 1) =
    some (xs.set (i + 1) (rule (xs.getD i a) (xs.getD (i + 1) a) (xs.getD (i + 2) a)))

/-- What a list has become when the first inner entries have been visited. -/
structure Swept (rule : A → A → A → A) (a : A) (before : List A) (visited : ℕ) (after : List A) :
    Prop where
  length : after.length = before.length
  first : after.getD 0 a = before.getD 0 a
  inner : ∀ i < visited, after.getD (i + 1) a =
    rule (after.getD i a) (before.getD (i + 1) a) (before.getD (i + 2) a)
  beyond : ∀ i, visited < i → after.getD i a = before.getD i a

/-- Nothing has been visited yet. -/
theorem Swept.start (rule : A → A → A → A) (a : A) (xs : List A) : Swept rule a xs 0 xs where
  length := rfl
  first := rfl
  inner := by
    intro i hi
    exact absurd hi (Nat.not_lt_zero i)
  beyond := by
    intro i _
    rfl

/-- One more inner entry is visited. -/
theorem Swept.next {before after : List A} {visited : ℕ} (h : Swept rule a before visited after)
    (hinner : visited + 2 < before.length) :
    Swept rule a before (visited + 1) (after.set (visited + 1)
      (rule (after.getD visited a) (after.getD (visited + 1) a) (after.getD (visited + 2) a))) := by
  have hset := getD_set after (i := visited + 1) (by rw [h.length]; omega)
  rw [h.beyond (visited + 1) (by omega), h.beyond (visited + 2) (by omega)]
  constructor
  · rw [List.length_set, h.length]
  · rw [hset, if_neg (by omega), h.first]
  · intro i hi
    rw [hset, hset i, if_neg (by omega : ¬ i = visited + 1)]
    by_cases hlast : i = visited
    · rw [hlast, if_pos rfl]
    · rw [if_neg (by omega), h.inner i (by omega)]
  · intro i hi
    rw [hset, if_neg (by omega), h.beyond i (by omega)]

/-- The first inner entries are visited one after another, and no step fails. -/
theorem AppliesRule.pass_partial (hstep : AppliesRule rule step a) (before : List A) (visited : ℕ)
    (hinner : visited + 2 ≤ before.length ∨ visited = 0) :
    ∃ after, (List.range' 1 visited).foldlM step before = some after ∧
      Swept rule a before visited after := by
  induction visited with
  | zero => exact ⟨before, rfl, Swept.start rule a before⟩
  | succ visited ih =>
    obtain ⟨after, hrun, hswept⟩ := ih (by omega)
    have hone := hstep after visited (by rw [hswept.length]; omega)
    refine ⟨_, ?_, hswept.next (by omega)⟩
    rw [List.range'_1_concat, List.foldlM_append, hrun, Option.bind_eq_bind, Option.bind_some,
      Nat.add_comm 1 visited, List.foldlM_cons, hone]
    rfl

/-- The pass over all inner entries succeeds and visits every one of them. -/
theorem AppliesRule.pass (hstep : AppliesRule rule step a) (before : List A) :
    ∃ after, (List.range' 1 (before.length - 2)).foldlM step before = some after ∧
      Swept rule a before (before.length - 2) after :=
  hstep.pass_partial before (before.length - 2) (by omega)

end NodePower
