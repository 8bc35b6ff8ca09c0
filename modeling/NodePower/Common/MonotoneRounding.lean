import Mathlib.Algebra.BigOperators.Group.List.Basic
import Mathlib.Algebra.Order.Field.Basic

/-!
# Sums and shares that are rounded at every step

A rounding to a format of numbers keeps the order and zero, and leaves the numbers of the format as they
are. Sums and quotients that are rounded at every step then still grow and shrink with what goes into them,
whatever the format is.
-/

namespace NodePower

/-- A rounding keeps the order and zero, and does not round a second time. -/
structure Rounding (K : Type*) [Zero K] [Preorder K] where
  round : K → K
  monotone : Monotone round
  round_zero : round 0 = 0
  round_round : ∀ x, round (round x) = round x

/-- Numbers that are kept as they are. -/
def Rounding.exact (K : Type*) [Zero K] [Preorder K] : Rounding K := ⟨id, monotone_id, rfl, fun _ => rfl⟩

variable {K I : Type*}

section

variable [AddMonoid K] [Preorder K] (r : Rounding K)

/-- A sum that is rounded after every addition. -/
def Rounding.sumFrom (start : K) (amounts : List K) : K :=
  amounts.foldl (fun total amount => r.round (total + amount)) start

/-- A number that is not negative is not rounded to a negative one. -/
theorem Rounding.nonneg {x : K} (hx : 0 ≤ x) : 0 ≤ r.round x := by
  calc 0 = r.round 0 := r.round_zero.symm
    _ ≤ r.round x := r.monotone hx

/-- A rounded sum of one more amount. -/
theorem Rounding.sumFrom_cons (start amount : K) (rest : List K) :
    r.sumFrom start (amount :: rest) = r.sumFrom (r.round (start + amount)) rest := rfl

/-- Without rounding the sum is the sum. -/
theorem Rounding.exact_sumFrom (start : K) (amounts : List K) :
    (Rounding.exact K).sumFrom start amounts = start + amounts.sum := by
  induction amounts generalizing start with
  | nil => exact (add_zero start).symm
  | cons amount rest ih =>
    rw [Rounding.sumFrom_cons, ih, List.sum_cons, ← add_assoc]
    rfl

/-- A rounded sum is a rounded number. -/
theorem Rounding.round_sumFrom {start : K} (hstart : r.round start = start) (amounts : List K) :
    r.round (r.sumFrom start amounts) = r.sumFrom start amounts := by
  induction amounts generalizing start with
  | nil => exact hstart
  | cons amount rest ih => exact ih (r.round_round _)

/-- To add nothing to a rounded number changes nothing. -/
theorem Rounding.round_add_zero {x : K} (hx : r.round x = x) : r.round (x + 0) = x := by
  rw [add_zero, hx]

/-- A rounded sum of nothing. -/
theorem Rounding.sumFrom_zeros {amounts : List K} (hzero : ∀ amount ∈ amounts, amount = 0) :
    r.sumFrom 0 amounts = 0 := by
  induction amounts with
  | nil => rfl
  | cons amount rest ih =>
    obtain ⟨rfl, hrest⟩ := List.forall_mem_cons.mp hzero
    rw [Rounding.sumFrom_cons, add_zero, r.round_zero, ih hrest]

variable [AddLeftMono K] [AddRightMono K]

/-- Larger amounts have a larger rounded sum. -/
theorem Rounding.sumFrom_mono {start start' : K} (hstart : start ≤ start') {items : List I}
    {amount amount' : I → K} (hamount : ∀ item ∈ items, amount item ≤ amount' item) :
    r.sumFrom start (items.map amount) ≤ r.sumFrom start' (items.map amount') := by
  induction items generalizing start start' with
  | nil => exact hstart
  | cons item rest ih =>
    obtain ⟨hitem, hrest⟩ := List.forall_mem_cons.mp hamount
    exact ih (r.monotone (add_le_add hstart hitem)) hrest

/-- A rounded sum of amounts that are not negative is not negative. -/
theorem Rounding.sumFrom_nonneg {items : List I} {amount : I → K}
    (hnonneg : ∀ item ∈ items, 0 ≤ amount item) : 0 ≤ r.sumFrom 0 (items.map amount) := by
  have hzeros : r.sumFrom 0 (items.map fun _ => 0) = 0 := by
    refine r.sumFrom_zeros fun amount hamount => ?_
    obtain ⟨-, -, rfl⟩ := List.mem_map.mp hamount
    rfl
  calc 0 = r.sumFrom 0 (items.map fun _ => 0) := hzeros.symm
    _ ≤ r.sumFrom 0 (items.map amount) := r.sumFrom_mono le_rfl hnonneg

end

section

variable [Field K] [LinearOrder K] (r : Rounding K)

/-- The share of a part beside a rest, both steps rounded; without a total it is zero. -/
def Rounding.share (rest part : K) : K :=
  let all := r.round (rest + part)
  if all = 0 then 0 else r.round (part / all)

/-- Without rounding the share is the quotient. -/
theorem Rounding.exact_share (rest part : K) :
    (Rounding.exact K).share rest part = part / (rest + part) := by
  change (if rest + part = 0 then 0 else part / (rest + part)) = part / (rest + part)
  split_ifs with hall
  · rw [hall, div_zero]
  · rfl

variable [IsStrictOrderedRing K]

/-- A part has no larger share beside a larger rest. -/
theorem Rounding.share_le {rest rest' part : K} (hpart : r.round part = part) (hnonneg : 0 ≤ part)
    (hrest : 0 ≤ rest) (hle : rest ≤ rest') : r.share rest' part ≤ r.share rest part := by
  rcases hnonneg.eq_or_lt with hzero | hpos
  · simp only [Rounding.share, ← hzero, zero_div, r.round_zero, ite_self, le_refl]
  · have hall : part ≤ r.round (rest + part) := by
      calc part = r.round part := hpart.symm
        _ ≤ r.round (rest + part) := r.monotone (le_add_of_nonneg_left hrest)
    have hgrows : r.round (rest + part) ≤ r.round (rest' + part) := by
      refine r.monotone ?_
      gcongr
    have hallPos : 0 < r.round (rest + part) := hpos.trans_le hall
    simp only [Rounding.share, hallPos.ne', (hallPos.trans_le hgrows).ne', if_false]
    refine r.monotone ?_
    gcongr

end

end NodePower
