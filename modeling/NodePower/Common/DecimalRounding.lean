import Mathlib.Algebra.Order.Floor.Ring
import Mathlib.Data.Rat.Floor
import Mathlib.Tactic.Ring
import Mathlib.Tactic.FieldSimp
import Mathlib.Tactic.Linarith
import Mathlib.Tactic.Positivity

/-!
# Rounding to a fixed number of decimals

Printing a number with a fixed number of decimals rounds its exact value to the nearest
such decimal, and a tie to the one with an even last digit. Decimals that are already
short enough are printed unchanged, and the rounding never crosses one of them.
-/

namespace NodePower

variable {K : Type*} [Field K] [LinearOrder K] [IsStrictOrderedRing K] [FloorRing K]

/-- The nearest integer, ties to the even one. -/
def roundHalfEven (x : K) : ℤ :=
  if 2 * Int.fract x < 1 ∨ (2 * Int.fract x = 1 ∧ ⌊x⌋ % 2 = 0) then ⌊x⌋ else ⌊x⌋ + 1

/-- The number denoted by `x` printed with the given number of decimals. -/
def roundDecimal (decimals : ℕ) (x : K) : K :=
  (roundHalfEven (x * 10 ^ decimals) : K) / 10 ^ decimals

/-- An integer is its own nearest integer. -/
@[simp] theorem roundHalfEven_intCast (n : ℤ) : roundHalfEven (n : K) = n := by
  simp [roundHalfEven]

omit [IsStrictOrderedRing K] in
/-- Rounding does not go below an integer lower bound. -/
theorem le_roundHalfEven {n : ℤ} {x : K} (h : (n : K) ≤ x) : n ≤ roundHalfEven x := by
  have hfloor : n ≤ ⌊x⌋ := Int.le_floor.mpr h
  unfold roundHalfEven
  split <;> omega

/-- Rounding does not go above an integer upper bound. -/
theorem roundHalfEven_le {n : ℤ} {x : K} (h : x ≤ (n : K)) : roundHalfEven x ≤ n := by
  rcases h.eq_or_lt with rfl | hlt
  · simp
  · have hfloor : ⌊x⌋ < n := Int.floor_lt.mpr hlt
    unfold roundHalfEven
    split <;> omega

/-- The nearest integer is at most one half away. -/
theorem abs_roundHalfEven_sub_le (x : K) : |(roundHalfEven x : K) - x| ≤ 1 / 2 := by
  have hfract := Int.self_sub_floor x
  have hnonneg := Int.fract_nonneg x
  have hlt := Int.fract_lt_one x
  rw [abs_le]
  unfold roundHalfEven
  split
  · rename_i hdown
    have hhalf : 2 * Int.fract x ≤ 1 := hdown.elim le_of_lt fun htie => htie.1.le
    constructor <;> linarith
  · rename_i hup
    have hhalf : 1 ≤ 2 * Int.fract x := not_lt.mp fun h => hup (Or.inl h)
    push_cast
    constructor <;> linarith

/-- The nearest multiple of a unit is at most half a unit away. -/
theorem abs_roundHalfEven_mul_sub_le {unit : K} (hunit : 0 < unit) (x : K) :
    |roundHalfEven (x / unit) * unit - x| ≤ unit / 2 := by
  have hfactor : roundHalfEven (x / unit) * unit - x = (roundHalfEven (x / unit) - x / unit) * unit := by
    rw [sub_mul, div_mul_cancel₀ _ hunit.ne']
  calc |roundHalfEven (x / unit) * unit - x| = |roundHalfEven (x / unit) - x / unit| * unit := by
        rw [hfactor, abs_mul, abs_of_pos hunit]
    _ ≤ 1 / 2 * unit := mul_le_mul_of_nonneg_right (abs_roundHalfEven_sub_le _) hunit.le
    _ = unit / 2 := by ring

/-- An integer less than one half away is the nearest one. -/
theorem roundHalfEven_eq_of_abs_sub_lt {x : K} {n : ℤ} (h : |x - n| < 1 / 2) :
    roundHalfEven x = n := by
  have hround := abs_le.mp (abs_roundHalfEven_sub_le x)
  have hnear := abs_lt.mp h
  have hlt : (roundHalfEven x : K) < n + 1 := by linarith
  have hgt : (n : K) < roundHalfEven x + 1 := by linarith
  have hlt' : roundHalfEven x < n + 1 := by exact_mod_cast hlt
  have hgt' : n < roundHalfEven x + 1 := by exact_mod_cast hgt
  omega

/-- A decimal that is short enough is printed unchanged. -/
theorem roundDecimal_of_decimal {decimals : ℕ} {x : K} {n : ℤ} (h : x * 10 ^ decimals = n) :
    roundDecimal decimals x = x := by
  have hten : (10 : K) ^ decimals ≠ 0 := by positivity
  rw [roundDecimal, h, roundHalfEven_intCast, ← h, mul_div_assoc, div_self hten, mul_one]

/-- Printing does not go below a short enough decimal. -/
theorem le_roundDecimal {decimals : ℕ} {x y : K} {n : ℤ} (hn : x * 10 ^ decimals = n) (h : x ≤ y) :
    x ≤ roundDecimal decimals y := by
  have hten : (0 : K) < 10 ^ decimals := by positivity
  have hscaled : (n : K) ≤ y * 10 ^ decimals := hn ▸ mul_le_mul_of_nonneg_right h hten.le
  rw [roundDecimal, le_div_iff₀ hten, hn]
  exact_mod_cast le_roundHalfEven hscaled

/-- Printing does not go above a short enough decimal. -/
theorem roundDecimal_le {decimals : ℕ} {x y : K} {n : ℤ} (hn : y * 10 ^ decimals = n) (h : x ≤ y) :
    roundDecimal decimals x ≤ y := by
  have hten : (0 : K) < 10 ^ decimals := by positivity
  have hscaled : x * 10 ^ decimals ≤ (n : K) := hn ▸ mul_le_mul_of_nonneg_right h hten.le
  rw [roundDecimal, div_le_iff₀ hten, hn]
  exact_mod_cast roundHalfEven_le hscaled

/-- A rational without its fraction. -/
def truncate (q : ℚ) : ℤ := if 0 ≤ q then ⌊q⌋ else ⌈q⌉

/-- An integer has no fraction. -/
@[simp] theorem truncate_intCast (n : ℤ) : truncate n = n := by
  simp [truncate]

end NodePower
