import Mathlib.Tactic.Common

/-!
# While loops

A loop whose body may stop the program is run with fuel, and has no result when the fuel runs
out or the body stops. A loop with an invariant that the body keeps, and with a number that
every pass makes smaller, has a result whenever there is more fuel than that number, and the
result satisfies the invariant and no longer the guard.
-/

namespace NodePower

variable {S : Type*} {guard : S → Bool} {body : S → Option S}

/-- Run the body while the guard holds. -/
def whileLoop (guard : S → Bool) (body : S → Option S) : ℕ → S → Option S
  | 0, _ => none
  | fuel + 1, s => if guard s then (body s).bind (whileLoop guard body fuel) else some s

/-- Where the guard fails, the loop ends at once. -/
theorem whileLoop_of_not_guard {s : S} (hguard : guard s = false) (fuel : ℕ) :
    whileLoop guard body (fuel + 1) s = some s := by
  rw [whileLoop, hguard, if_neg Bool.false_ne_true]

/-- Where the guard holds, one pass of the body comes first. -/
theorem whileLoop_of_guard {s t : S} (hguard : guard s = true) (hbody : body s = some t) (fuel : ℕ) :
    whileLoop guard body (fuel + 1) s = whileLoop guard body fuel t := by
  rw [whileLoop, hguard, if_pos rfl, hbody, Option.bind_some]

/-- A loop whose body keeps an invariant and makes a number smaller ends in a state with the
invariant in which the guard fails. -/
theorem whileLoop_ends (Inv : S → Prop) (variant : S → ℕ)
    (hbody : ∀ s, Inv s → guard s = true → ∃ t, body s = some t ∧ Inv t ∧ variant t < variant s)
    {fuel : ℕ} {s : S} (hinv : Inv s) (hfuel : variant s < fuel) :
    ∃ t, whileLoop guard body fuel s = some t ∧ Inv t ∧ guard t = false := by
  induction fuel generalizing s with
  | zero => exact absurd hfuel (Nat.not_lt_zero (variant s))
  | succ fuel ih =>
    cases hguard : guard s with
    | false => exact ⟨s, whileLoop_of_not_guard hguard fuel, hinv, hguard⟩
    | true =>
      obtain ⟨t, hpass, hkept, hless⟩ := hbody s hinv hguard
      rw [whileLoop_of_guard hguard hpass]
      exact ih hkept (by omega)

end NodePower
