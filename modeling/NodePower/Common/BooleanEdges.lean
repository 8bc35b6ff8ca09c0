import Mathlib.Data.List.Chain
import Mathlib.Data.Bool.Basic
import NodePower.Common.CallTrace

/-!
# Edges of a Boolean signal

The edges of a signal are its changes, each recorded by the value it changes to. A device
that is commanded only at the edges of a signal receives commands that alternate, the
first of them leaving the start value of the signal.
-/

namespace NodePower

/-- The change between two successive values of a signal, if any. -/
def edge (before after : Bool) : Option Bool :=
  if before = after then none else some after

/-- All changes of a signal that started with the given value. -/
def edges : Bool → List Bool → List Bool
  | _, [] => []
  | before, after :: rest => (edge before after).toList ++ edges after rest

/-- A signal without a change has no edge. -/
@[simp] theorem edge_self (value : Bool) : edge value value = none := by simp [edge]

/-- A change is recorded by the value it leads to. -/
theorem edge_of_ne {before after : Bool} (h : before ≠ after) : edge before after = some after :=
  if_neg h

/-- Without an edge, the signal kept its value. -/
theorem eq_of_edge_eq_none {before after : Bool} (h : edge before after = none) : after = before := by
  by_cases hsame : before = after
  · exact hsame.symm
  · simp [edge_of_ne hsame] at h

/-- An edge leads to its value from the other one. -/
theorem eq_of_edge_eq_some {before after up : Bool} (h : edge before after = some up) :
    before = !up ∧ after = up := by
  cases before <;> cases after <;> cases up <;> simp_all [edge]

/-- The edges of a signal alternate, the first one leaving the start value. -/
theorem edges_isChain (start : Bool) (signal : List Bool) :
    (start :: edges start signal).IsChain (· ≠ ·) := by
  induction signal generalizing start with
  | nil => exact List.IsChain.singleton start
  | cons value rest ih =>
    rw [edges]
    by_cases hsame : start = value
    · subst hsame
      rw [edge_self]
      exact ih start
    · rw [edge_of_ne hsame]
      exact (ih value).cons_cons hsame

/-- A machine whose calls each report the edge of a flag reports all edges of that flag. -/
theorem flatMap_eq_edges {S I O : Type*} {step : S → I → Option (S × List O)} (flag : S → Bool)
    (report : Call S I O → List Bool) {s : S} {inputs : List I} {calls : List (Call S I O)}
    (hrun : runCalls step s inputs = some calls)
    (hreport : ∀ c ∈ calls, report c = (edge (flag c.before) (flag c.after)).toList) :
    calls.flatMap report = edges (flag s) (calls.map fun c => flag c.after) := by
  induction inputs generalizing s calls with
  | nil =>
    obtain rfl := Option.some.inj hrun
    rfl
  | cons i rest ih =>
    obtain ⟨answer, -, hrest⟩ := Option.bind_eq_some_iff.mp hrun
    obtain ⟨tail, htail, rfl⟩ := Option.map_eq_some_iff.mp hrest
    rw [List.flatMap_cons, List.map_cons, edges, hreport _ List.mem_cons_self,
      ih htail fun c hc => hreport c (List.mem_cons_of_mem _ hc)]

end NodePower
