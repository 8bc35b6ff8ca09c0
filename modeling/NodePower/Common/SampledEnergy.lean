import Mathlib.Algebra.BigOperators.Group.List.Basic
import Mathlib.Algebra.Ring.Defs
import Mathlib.Data.Nat.Cast.Basic
import Mathlib.Tactic.Ring

/-!
# The energy of a sampled power

Power samples give an energy when each is held for the time since the sample before it. If
each is held for one fixed time instead, the two energies differ by the powers weighted with
how far the spacing of their samples is from that time.
-/

namespace NodePower

variable {K : Type*} [CommRing K]

/-- The energy of samples of time and power, each held since the time before it. -/
def sampledEnergy (start : K) : List (K × K) → K
  | [] => 0
  | (time, power) :: rest => power * (time - start) + sampledEnergy time rest

/-- The energy of samples that are each held for the same time. -/
def evenEnergy (spacing : K) (samples : List (K × K)) : K :=
  (samples.map Prod.snd).sum * spacing

/-- What uneven spacing adds to the energy: each power times the time by which its sample is late. -/
def spacingError (spacing start : K) : List (K × K) → K
  | [] => 0
  | (time, power) :: rest => power * (time - start - spacing) + spacingError spacing time rest

/-- The energy of a sampled power is the even one and what uneven spacing adds. -/
theorem sampledEnergy_eq (spacing start : K) (samples : List (K × K)) :
    sampledEnergy start samples = evenEnergy spacing samples + spacingError spacing start samples := by
  induction samples generalizing start with
  | nil => simp [sampledEnergy, evenEnergy, spacingError]
  | cons sample rest ih =>
    obtain ⟨time, power⟩ := sample
    simp only [sampledEnergy, spacingError, ih time, evenEnergy, List.map_cons, List.sum_cons]
    ring

/-- Samples whose times go up by the spacing each have nothing to add. -/
theorem spacingError_of_even {spacing start : K} {samples : List (K × K)}
    (heven : (start :: samples.map Prod.fst).IsChain fun time next => next - time = spacing) :
    spacingError spacing start samples = 0 := by
  induction samples generalizing start with
  | nil => rfl
  | cons sample rest ih =>
    obtain ⟨time, power⟩ := sample
    obtain ⟨hstep, hrest⟩ := List.isChain_cons_cons.mp heven
    rw [spacingError, hstep, sub_self, mul_zero, zero_add]
    exact ih hrest

/-- The last of evenly spaced times. -/
theorem getLast?_of_even {spacing start : K} {times : List K}
    (heven : (start :: times).IsChain fun time next => next - time = spacing) :
    (start :: times).getLast? = some (start + times.length * spacing) := by
  induction times generalizing start with
  | nil => simp
  | cons time rest ih =>
    obtain ⟨hstep, hrest⟩ := List.isChain_cons_cons.mp heven
    have htime : time = start + spacing := by rw [← hstep, add_sub_cancel]
    rw [List.getLast?_cons_cons, ih hrest, htime, List.length_cons]
    push_cast
    ring_nf

end NodePower
