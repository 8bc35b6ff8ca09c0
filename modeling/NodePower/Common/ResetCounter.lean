import Mathlib.Data.List.DropRight
import Mathlib.Data.List.Induction
import Mathlib.Order.Lattice

/-!
# Saturating counters with a reset

A counter advances up to a cap, restarts from zero, or keeps its value. Whatever the order
of these events, it shows the number of advances since the last restart, cut off at the
cap.
-/

namespace NodePower

/-- What an event does to a counter. -/
inductive CounterEvent where
  | advance
  | restart
  | keep
  deriving DecidableEq

/-- The effect of an event on a counter with a cap. -/
def CounterEvent.apply (cap : ℕ) (k : ℕ) : CounterEvent → ℕ
  | .advance => min (k + 1) cap
  | .restart => 0
  | .keep => k

/-- The counter after a sequence of events. -/
def countUpTo (cap : ℕ) (events : List CounterEvent) : ℕ :=
  events.foldl (CounterEvent.apply cap) 0

/-- The number of advances since the last restart, or since the start if there was none. -/
def advancesSinceRestart (events : List CounterEvent) : ℕ :=
  (events.rtakeWhile (· ≠ .restart)).count .advance

/-- The counter takes one more event by its effect. -/
theorem countUpTo_concat (cap : ℕ) (events : List CounterEvent) (event : CounterEvent) :
    countUpTo cap (events ++ [event]) = event.apply cap (countUpTo cap events) := by
  simp [countUpTo]

/-- A restart leaves no advances, and any other event counts if it is an advance. -/
theorem advancesSinceRestart_concat (events : List CounterEvent) (event : CounterEvent) :
    advancesSinceRestart (events ++ [event]) =
      match event with
      | .advance => advancesSinceRestart events + 1
      | .restart => 0
      | .keep => advancesSinceRestart events := by
  cases event with
  | advance => simp [advancesSinceRestart]
  | restart => simp [advancesSinceRestart]
  | keep => simp [advancesSinceRestart]

/-- The counter shows the advances since the last restart, cut off at the cap. -/
theorem countUpTo_eq_min (cap : ℕ) (events : List CounterEvent) :
    countUpTo cap events = min (advancesSinceRestart events) cap := by
  induction events using List.reverseRecOn with
  | nil => simp [countUpTo, advancesSinceRestart]
  | append_singleton earlier event ih =>
    rw [countUpTo_concat, advancesSinceRestart_concat, ih]
    cases event with
    | advance =>
      change min (min (advancesSinceRestart earlier) cap + 1) cap =
        min (advancesSinceRestart earlier + 1) cap
      omega
    | restart => simp [CounterEvent.apply]
    | keep => rfl

/-- The counter never exceeds its cap. -/
theorem countUpTo_le (cap : ℕ) (events : List CounterEvent) : countUpTo cap events ≤ cap := by
  rw [countUpTo_eq_min]
  exact min_le_right _ _

end NodePower
