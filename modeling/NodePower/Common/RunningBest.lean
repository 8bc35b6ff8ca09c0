import Mathlib.Data.List.MinMax

/-!
# The best item of a scan

A loop goes through items, computes a score for each, and keeps the item whose score is strictly
below all scores before it. An item without a score is passed over. What the loop ends with is the
minimum over the items with a score, and nothing exactly when there are none.
-/

namespace NodePower

variable {A S : Type*} [LinearOrder S] (score : A → Option S)

/-- One round of the loop: the best item so far with its score, and the next item. -/
def keepBest (best : Option (A × S)) (a : A) : Option (A × S) :=
  match score a, best with
  | none, _ => best
  | some s, none => some (a, s)
  | some s, some (b, t) => if s < t then some (a, s) else some (b, t)

/-- The best item of a list with its score. -/
def runningBest (items : List A) : Option (A × S) := items.foldl (keepBest score) none

/-- The items that have a score, with their scores. -/
def scoredItems (items : List A) : List (A × S) :=
  items.filterMap fun a => (score a).map fun s => (a, s)

variable {score}

omit [LinearOrder S] in
/-- What is among the scored items. -/
theorem mem_scoredItems {items : List A} {a : A} {s : S} :
    (a, s) ∈ scoredItems score items ↔ a ∈ items ∧ score a = some s := by
  simp only [scoredItems, List.mem_filterMap, Option.map_eq_some_iff, Prod.mk.injEq]
  constructor
  · rintro ⟨b, hb, t, hscore, rfl, rfl⟩
    exact ⟨hb, hscore⟩
  · rintro ⟨ha, hscore⟩
    exact ⟨a, ha, s, hscore, rfl, rfl⟩

/-- The loop takes the minimum of the scored items. -/
theorem runningBest_eq_argmin (score : A → Option S) (items : List A) :
    runningBest score items = (scoredItems score items).argmin Prod.snd := by
  induction items using List.reverseRecOn with
  | nil => rfl
  | append_singleton items a ih =>
    have hloop : runningBest score (items ++ [a]) = keepBest score (runningBest score items) a := by
      rw [runningBest, List.foldl_append]
      rfl
    have hscored : scoredItems score (items ++ [a]) =
        scoredItems score items ++ ((score a).map fun s => (a, s)).toList := by
      rw [scoredItems, List.filterMap_append]
      cases hscore : score a with
      | none => simp [scoredItems, hscore]
      | some s => simp [scoredItems, hscore]
    rw [hloop, hscored, ih]
    cases hscore : score a with
    | none => simp [keepBest, hscore]
    | some s =>
      rw [Option.map_some, Option.toList_some, List.argmin_concat]
      cases (scoredItems score items).argmin Prod.snd with
      | none => simp only [keepBest, hscore]
      | some best => simp only [keepBest, hscore]

/-- The item that the loop ends with has a score, and no item has a smaller one. -/
theorem of_runningBest {items : List A} {a : A} {s : S} (h : runningBest score items = some (a, s)) :
    a ∈ items ∧ score a = some s ∧ ∀ b ∈ items, ∀ t, score b = some t → s ≤ t := by
  rw [runningBest_eq_argmin] at h
  obtain ⟨ha, hs⟩ := mem_scoredItems.mp (List.argmin_mem h)
  refine ⟨ha, hs, fun b hb t ht => ?_⟩
  exact List.le_of_mem_argmin (mem_scoredItems.mpr ⟨hb, ht⟩) h

/-- The loop ends without an item exactly if no item has a score. -/
theorem runningBest_eq_none_iff {items : List A} :
    runningBest score items = none ↔ ∀ a ∈ items, score a = none := by
  rw [runningBest_eq_argmin, List.argmin_eq_none, List.eq_nil_iff_forall_not_mem]
  constructor
  · intro hempty a ha
    rw [Option.eq_none_iff_forall_ne_some]
    intro s hs
    exact hempty (a, s) (mem_scoredItems.mpr ⟨ha, hs⟩)
  · rintro hnone ⟨a, s⟩ hmem
    obtain ⟨ha, hs⟩ := mem_scoredItems.mp hmem
    rw [hnone a ha] at hs
    exact nomatch hs

/-- The item that the loop ends with over the images of a list. -/
theorem of_runningBest_map {B : Type*} {f : B → A} {items : List B} {a : A} {s : S}
    (h : runningBest score (items.map f) = some (a, s)) :
    ∃ b ∈ items, f b = a ∧ score (f b) = some s ∧ ∀ c ∈ items, ∀ t, score (f c) = some t → s ≤ t := by
  obtain ⟨hmem, hscore, hmin⟩ := of_runningBest h
  obtain ⟨b, hb, rfl⟩ := List.mem_map.mp hmem
  exact ⟨b, hb, rfl, hscore, fun c hc => hmin (f c) (List.mem_map_of_mem hc)⟩

/-- The loop ends without an item over the images of a list exactly if none of these has a score. -/
theorem runningBest_map_eq_none_iff {B : Type*} {f : B → A} {items : List B} :
    runningBest score (items.map f) = none ↔ ∀ b ∈ items, score (f b) = none := by
  rw [runningBest_eq_none_iff]
  exact List.forall_mem_map

end NodePower
