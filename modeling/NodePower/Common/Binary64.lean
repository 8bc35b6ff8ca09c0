import Mathlib.Data.Int.Log
import Mathlib.Data.Rat.Floor
import Mathlib.Algebra.Order.Field.Power
import Mathlib.RingTheory.Coprime.Lemmas
import NodePower.Common.DecimalRounding

/-!
# Binary64 numbers and the decimals that name them

A rational is rounded to the nearest binary64 number, ties to an even last bit, on the grid
of its binade and no finer than the subnormal grid. Reading a decimal rounds it and reports
a range error for a result that overflows, or that is below the smallest normal number
and not exact. Printing a number picks the shortest decimal that reads back as it.

Integers of at most 53 bits are numbers themselves. A printed number is read without a
range error exactly when it is zero or normal: a subnormal number needs far more than
seventeen digits to be named exactly.
-/

namespace NodePower

/-- The binary exponent of the last place of numbers near `q`. -/
def binary64Exponent (q : ℚ) : ℤ := max (Int.log 2 |q| - 52) (-1074)

/-- The nearest binary64 number, with an unbounded exponent above. -/
def roundBinary64 (q : ℚ) : ℚ :=
  roundHalfEven (q / 2 ^ binary64Exponent q) * 2 ^ binary64Exponent q

/-- The finite binary64 numbers. -/
def IsBinary64 (q : ℚ) : Prop := roundBinary64 q = q ∧ |q| < 2 ^ 1024

instance (q : ℚ) : Decidable (IsBinary64 q) := inferInstanceAs (Decidable (_ ∧ _))

/-- The smallest positive normal number. -/
def smallestNormal : ℚ := 2 ^ (-1022 : ℤ)

/-- The number read from a decimal, or nothing when the reader reports a range error. -/
def readDecimal (q : ℚ) : Option ℚ :=
  if 2 ^ 1024 ≤ |roundBinary64 q| ∨ (|roundBinary64 q| < smallestNormal ∧ roundBinary64 q ≠ q) then none
  else some (roundBinary64 q)

/-- The decimals next to `x` with a number of significant digits, the nearest first. -/
def decimalCandidates (digits : ℕ) (x : ℚ) : List ℚ :=
  let unit : ℚ := 10 ^ (Int.log 10 |x| + 1 - digits)
  [roundHalfEven (x / unit) * unit, ⌊x / unit⌋ * unit, ⌈x / unit⌉ * unit]

/-- The shortest decimal that reads back as `x`, searched up to seventeen digits. -/
def shortestDecimal (x : ℚ) : ℚ :=
  ((List.range 17).findSome? fun n =>
    (decimalCandidates (n + 1) x).find? fun c => roundBinary64 c = x).getD x

/-- Rounding does not make a number negative. -/
theorem roundBinary64_nonneg {q : ℚ} (h : 0 ≤ q) : 0 ≤ roundBinary64 q := by
  have htwo : (0 : ℚ) < 2 ^ binary64Exponent q := zpow_pos two_pos _
  have hrounded : (0 : ℤ) ≤ roundHalfEven (q / 2 ^ binary64Exponent q) := by
    apply le_roundHalfEven
    rw [Int.cast_zero]
    exact div_nonneg h htwo.le
  exact mul_nonneg (Int.cast_nonneg hrounded) htwo.le

/-- A number that is whole in units of its last place is not moved. -/
theorem roundBinary64_of_scaled {q : ℚ} {n : ℤ} (h : q / 2 ^ binary64Exponent q = n) :
    roundBinary64 q = q := by
  have htwo : (2 : ℚ) ^ binary64Exponent q ≠ 0 := zpow_ne_zero _ two_ne_zero
  rw [roundBinary64, h, roundHalfEven_intCast, ← h, div_mul_cancel₀ _ htwo]

/-- A mantissa below 2^53 on a grid no finer than the subnormal one is not moved. -/
theorem roundBinary64_of_lt {m e : ℤ} (hm : |m| < 2 ^ 53) (he : -1074 ≤ e) :
    roundBinary64 (m * 2 ^ e) = m * 2 ^ e := by
  rcases eq_or_ne m 0 with rfl | hne
  · simp [roundBinary64, roundHalfEven]
  have hpos : 0 < |(m : ℚ) * 2 ^ e| := by
    rw [abs_pos]
    exact mul_ne_zero (Int.cast_ne_zero.mpr hne) (zpow_ne_zero _ two_ne_zero)
  have hcast : |(m : ℚ)| < 2 ^ (53 : ℤ) := by exact_mod_cast hm
  have hlog : Int.log 2 |(m : ℚ) * 2 ^ e| < 53 + e := by
    refine (Int.lt_zpow_iff_log_lt one_lt_two hpos).mp ?_
    have htwo : (0 : ℚ) < 2 ^ e := zpow_pos two_pos e
    rw [abs_mul, abs_of_pos htwo, Nat.cast_ofNat, zpow_add₀ two_ne_zero]
    exact mul_lt_mul_of_pos_right hcast htwo
  have hle : binary64Exponent (m * 2 ^ e) ≤ e := by
    refine max_le ?_ he
    omega
  obtain ⟨k, hk⟩ := Int.le.dest hle
  apply roundBinary64_of_scaled (n := m * 2 ^ k)
  rw [div_eq_iff (zpow_ne_zero _ two_ne_zero), Int.cast_mul, Int.cast_pow, Int.cast_ofNat, mul_assoc]
  congr 1
  rw [← zpow_natCast, ← zpow_add₀ two_ne_zero, add_comm, hk]

/-- A mantissa of at most 2^53 on a grid no finer than the subnormal one is not moved. -/
theorem roundBinary64_of_le {m e : ℤ} (hm : |m| ≤ 2 ^ 53) (he : -1074 ≤ e) :
    roundBinary64 (m * 2 ^ e) = m * 2 ^ e := by
  rcases hm.lt_or_eq with hlt | heq
  · exact roundBinary64_of_lt hlt he
  obtain ⟨n, hn, rfl⟩ : ∃ n : ℤ, |n| < 2 ^ 53 ∧ m = n * 2 := by
    rcases abs_eq (by norm_num) |>.mp heq with rfl | rfl
    · exact ⟨2 ^ 52, by norm_num, by norm_num⟩
    · exact ⟨-2 ^ 52, by norm_num, by norm_num⟩
  have hshift : ((n * 2 : ℤ) : ℚ) * 2 ^ e = n * 2 ^ (e + 1) := by
    rw [zpow_add₀ two_ne_zero]
    push_cast
    ring
  rw [hshift]
  exact roundBinary64_of_lt hn (by omega)

/-- Integers of at most 53 bits are binary64 numbers. -/
theorem isBinary64_intCast {n : ℤ} (hn : |n| ≤ 2 ^ 53) : IsBinary64 n := by
  constructor
  · simpa using roundBinary64_of_le hn (e := 0) (by norm_num)
  · have hcast : |(n : ℚ)| ≤ 2 ^ 53 := by exact_mod_cast hn
    exact hcast.trans_lt (pow_lt_pow_right₀ one_lt_two (by norm_num))

/-- Rounding is idempotent. -/
theorem roundBinary64_roundBinary64 (q : ℚ) : roundBinary64 (roundBinary64 q) = roundBinary64 q := by
  have hscaled : |q / 2 ^ binary64Exponent q| ≤ ((2 ^ 53 : ℤ) : ℚ) := by
    have htwo : (0 : ℚ) < 2 ^ binary64Exponent q := zpow_pos two_pos _
    rw [abs_div, abs_of_pos htwo, div_le_iff₀ htwo]
    have hlt := Int.lt_zpow_succ_log_self one_lt_two |q|
    refine hlt.le.trans ?_
    have hle : Int.log 2 |q| - 52 ≤ binary64Exponent q := le_max_left _ _
    calc ((2 : ℕ) : ℚ) ^ (Int.log 2 |q| + 1) ≤ 2 ^ (53 + binary64Exponent q) :=
          zpow_le_zpow_right₀ one_le_two (by omega)
      _ = ((2 ^ 53 : ℤ) : ℚ) * 2 ^ binary64Exponent q := by
          rw [zpow_add₀ two_ne_zero]
          norm_num
  have hbounds := abs_le.mp hscaled
  have hm : |roundHalfEven (q / 2 ^ binary64Exponent q)| ≤ 2 ^ 53 :=
    abs_le.mpr ⟨le_roundHalfEven (by exact_mod_cast hbounds.1), roundHalfEven_le hbounds.2⟩
  exact roundBinary64_of_le hm (le_max_right _ _)

/-- Rounding within the finite range gives a binary64 number. -/
theorem isBinary64_roundBinary64 {q : ℚ} (h : |roundBinary64 q| < 2 ^ 1024) :
    IsBinary64 (roundBinary64 q) :=
  ⟨roundBinary64_roundBinary64 q, h⟩

/-- A decimal is read as itself exactly when it is a binary64 number. -/
theorem readDecimal_eq_self_iff (q : ℚ) : readDecimal q = some q ↔ IsBinary64 q := by
  constructor
  · intro h
    simp only [readDecimal] at h
    split at h
    · cases h
    · rename_i hrange
      have heq : roundBinary64 q = q := Option.some.inj h
      rw [heq] at hrange
      exact ⟨heq, not_le.mp fun hover => hrange (Or.inl hover)⟩
  · rintro ⟨hround, hfinite⟩
    simp [readDecimal, hround, hfinite]

/-- The candidates are whole in units of their last digit. -/
theorem exists_of_mem_decimalCandidates {digits : ℕ} {x c : ℚ} (h : c ∈ decimalCandidates digits x) :
    ∃ k : ℤ, c = k * 10 ^ (Int.log 10 |x| + 1 - digits) := by
  simp only [decimalCandidates, List.mem_cons, List.not_mem_nil, or_false] at h
  rcases h with rfl | rfl | rfl
  · exact ⟨_, rfl⟩
  · exact ⟨_, rfl⟩
  · exact ⟨_, rfl⟩

/-- The shortest decimal of a number reads back as it. -/
theorem roundBinary64_shortestDecimal {x : ℚ} (hx : roundBinary64 x = x) :
    roundBinary64 (shortestDecimal x) = x := by
  rw [shortestDecimal]
  cases hfind : (List.range 17).findSome? fun n =>
      (decimalCandidates (n + 1) x).find? fun c => roundBinary64 c = x with
  | none => exact hx
  | some c =>
    obtain ⟨n, -, hc⟩ := List.exists_of_findSome?_eq_some hfind
    simpa using List.find?_some hc

/-- If some candidate of at most seventeen digits reads back, the shortest decimal is one. -/
theorem shortestDecimal_mem {x c : ℚ} {n : ℕ} (hn : n < 17) (hc : c ∈ decimalCandidates (n + 1) x)
    (hread : roundBinary64 c = x) :
    ∃ digits, 0 < digits ∧ digits ≤ 17 ∧ shortestDecimal x ∈ decimalCandidates digits x := by
  rw [shortestDecimal]
  cases hfind : (List.range 17).findSome? fun n =>
      (decimalCandidates (n + 1) x).find? fun c => roundBinary64 c = x with
  | none =>
    have hnone := List.findSome?_eq_none_iff.mp hfind n (List.mem_range.mpr hn)
    exact absurd hread (by simpa using List.find?_eq_none.mp hnone c hc)
  | some d =>
    obtain ⟨m, hm, hd⟩ := List.exists_of_findSome?_eq_some hfind
    exact ⟨m + 1, Nat.succ_pos m, List.mem_range.mp hm, List.mem_of_find?_eq_some hd⟩

/-- A rational close enough to a subnormal number is rounded to it. -/
theorem roundBinary64_of_near_subnormal {m : ℤ} {c : ℚ} (hne : c ≠ 0) (hsmall : |c| < 2 ^ (-1021 : ℤ))
    (hnear : |c - m * 2 ^ (-1074 : ℤ)| < 2 ^ (-1075 : ℤ)) :
    roundBinary64 c = m * 2 ^ (-1074 : ℤ) := by
  have hlog : Int.log 2 |c| < -1021 := (Int.lt_zpow_iff_log_lt one_lt_two (abs_pos.mpr hne)).mp hsmall
  have hexponent : binary64Exponent c = -1074 := max_eq_right (by omega)
  have hunit : (0 : ℚ) < 2 ^ (-1074 : ℤ) := zpow_pos two_pos _
  have hhalf : (2 : ℚ) ^ (-1075 : ℤ) = 1 / 2 * 2 ^ (-1074 : ℤ) := by
    rw [show (-1075 : ℤ) = -1 + -1074 by norm_num, zpow_add₀ two_ne_zero]
    norm_num
  rw [roundBinary64, hexponent]
  congr 2
  apply roundHalfEven_eq_of_abs_sub_lt
  have hdiv : c / 2 ^ (-1074 : ℤ) - m = (c - m * 2 ^ (-1074 : ℤ)) / 2 ^ (-1074 : ℤ) := by
    rw [sub_div, mul_div_cancel_right₀ _ hunit.ne']
  rw [hdiv, abs_div, abs_of_pos hunit, div_lt_iff₀ hunit, ← hhalf]
  exact hnear

/-- A subnormal number is a multiple of the subnormal unit. -/
theorem exists_mantissa_of_subnormal {x : ℚ} (hround : roundBinary64 x = x) (hne : x ≠ 0)
    (hsmall : |x| < smallestNormal) : ∃ m : ℤ, m ≠ 0 ∧ x = m * 2 ^ (-1074 : ℤ) := by
  have hlog : Int.log 2 |x| < -1022 := (Int.lt_zpow_iff_log_lt one_lt_two (abs_pos.mpr hne)).mp hsmall
  have hexponent : binary64Exponent x = -1074 := max_eq_right (by omega)
  have hx : x = roundHalfEven (x / 2 ^ (-1074 : ℤ)) * 2 ^ (-1074 : ℤ) := by
    rw [← hexponent]
    exact hround.symm
  refine ⟨_, ?_, hx⟩
  intro hzero
  rw [hzero, Int.cast_zero, zero_mul] at hx
  exact hne hx

/-- The last of seventeen digits of `x` is worth at most `10^-16` of `x`. -/
theorem seventeenth_digit_le {x : ℚ} (hne : x ≠ 0) :
    (10 : ℚ) ^ (Int.log 10 |x| + 1 - 17) ≤ |x| * 10 ^ (-16 : ℤ) := by
  have hlog := Int.zpow_log_le_self (b := 10) (by norm_num) (abs_pos.mpr hne)
  rw [show Int.log 10 |x| + 1 - 17 = Int.log 10 |x| + -16 by ring, zpow_add₀ (by norm_num)]
  exact mul_le_mul_of_nonneg_right (by exact_mod_cast hlog) (by positivity)

/-- Seventeen digits name every subnormal number. -/
theorem exists_candidate_of_subnormal {x : ℚ} (hround : roundBinary64 x = x) (hne : x ≠ 0)
    (hsmall : |x| < smallestNormal) : ∃ c ∈ decimalCandidates 17 x, roundBinary64 c = x := by
  obtain ⟨m, -, hx⟩ := exists_mantissa_of_subnormal hround hne hsmall
  have hpos := abs_pos.mpr hne
  have hunit : (0 : ℚ) < 10 ^ (Int.log 10 |x| + 1 - 17) := by positivity
  have hnear := (abs_roundHalfEven_mul_sub_le hunit x).trans
    (div_le_div_of_nonneg_right (seventeenth_digit_le hne) zero_le_two)
  have hfraction : |x| * 10 ^ (-16 : ℤ) / 2 ≤ |x| * 2 ^ (-53 : ℤ) := by
    rw [mul_div_assoc]
    exact mul_le_mul_of_nonneg_left (by norm_num) hpos.le
  refine ⟨_, List.mem_cons_self, ?_⟩
  change roundBinary64 (roundHalfEven (x / 10 ^ (Int.log 10 |x| + 1 - 17)) *
    10 ^ (Int.log 10 |x| + 1 - 17)) = x
  generalize (roundHalfEven (x / 10 ^ (Int.log 10 |x| + 1 - 17)) : ℚ) *
    10 ^ (Int.log 10 |x| + 1 - 17) = c at hnear
  have hclose := hnear.trans hfraction
  have hquarter : |x| * 2 ^ (-53 : ℤ) < |x| := by
    nth_rewrite 2 [← mul_one |x|]
    exact mul_lt_mul_of_pos_left (by norm_num) hpos
  have hc : c ≠ 0 := by
    rintro rfl
    rw [zero_sub, abs_neg] at hclose
    exact absurd hclose (not_le.mpr hquarter)
  have hbound : |c| < 2 ^ (-1021 : ℤ) := by
    have htriangle := abs_sub_abs_le_abs_sub c x
    rw [show (-1021 : ℤ) = 1 + -1022 by norm_num, zpow_add₀ two_ne_zero, zpow_one]
    have hx2 : |x| < 2 ^ (-1022 : ℤ) := hsmall
    linarith
  conv_rhs => rw [hx]
  apply roundBinary64_of_near_subnormal hc hbound
  rw [← hx, show (-1075 : ℤ) = -1022 + -53 by norm_num, zpow_add₀ two_ne_zero]
  exact hclose.trans_lt (mul_lt_mul_of_pos_right hsmall (by positivity))

/-- A power of five that divides a power of ten over a power of two divides the numerator. -/
theorem five_pow_dvd {k m : ℤ} {n j : ℕ} (h : k * 2 ^ n = m * 10 ^ j) : (5 : ℤ) ^ j ∣ k := by
  have hcoprime : IsCoprime ((5 : ℤ) ^ j) (2 ^ n) :=
    IsCoprime.pow (Int.isCoprime_iff_gcd_eq_one.mpr (by decide))
  apply hcoprime.dvd_of_dvd_mul_right
  rw [h, show (10 : ℤ) = 5 * 2 by norm_num, mul_pow]
  exact Dvd.intro_left (m * 2 ^ j) (by ring)

/-- Digits that name a binary fraction exactly, with both denominators cleared. -/
theorem scaled_digits_eq {x : ℚ} {m k : ℤ} {n j : ℕ} (hx : x = m * 2 ^ (-(n : ℤ)))
    (hk : x * 10 ^ j = k) : k * 2 ^ n = m * 10 ^ j := by
  have htwo : (2 : ℚ) ^ n ≠ 0 := pow_ne_zero _ two_ne_zero
  have hrational : (k : ℚ) * 2 ^ n = m * 10 ^ j := by
    rw [← hk, hx, zpow_neg, zpow_natCast, mul_right_comm, inv_mul_cancel_right₀ htwo]
  exact_mod_cast hrational

/-- A subnormal number has no decimal of at most seventeen digits: a large power of five would
have to divide the digits. -/
theorem subnormal_ne_decimal {x : ℚ} (hround : roundBinary64 x = x) (hne : x ≠ 0)
    (hsmall : |x| < smallestNormal) {digits : ℕ} (hpos : 0 < digits) (hdigits : digits ≤ 17) (k : ℤ) :
    x ≠ k * 10 ^ (Int.log 10 |x| + 1 - digits) := by
  intro hdecimal
  obtain ⟨m, -, hx⟩ := exists_mantissa_of_subnormal hround hne hsmall
  have hxpos := abs_pos.mpr hne
  have hlog : Int.log 10 |x| < -30 := by
    have hcoarse : smallestNormal < 2 ^ (-100 : ℤ) := zpow_lt_zpow_right₀ one_lt_two (by norm_num)
    exact (Int.lt_zpow_iff_log_lt (by norm_num) hxpos).mp ((hsmall.trans hcoarse).trans (by norm_num))
  obtain ⟨j, hj⟩ : ∃ j : ℕ, Int.log 10 |x| + 1 - digits = -(j : ℤ) :=
    ⟨(digits - 1 - Int.log 10 |x|).toNat, by omega⟩
  have hten : (0 : ℚ) < 10 ^ j := by positivity
  have hk : x * 10 ^ j = k := by
    rw [hj, zpow_neg, zpow_natCast] at hdecimal
    exact (eq_mul_inv_iff_mul_eq₀ hten.ne').mp hdecimal
  have hdvd := five_pow_dvd (scaled_digits_eq (n := 1074) hx hk)
  have hkne : k ≠ 0 := by
    rintro rfl
    rw [Int.cast_zero, mul_eq_zero] at hk
    exact hk.elim hne hten.ne'
  have hlarge : (5 : ℤ) ^ j ≤ |k| :=
    Int.le_of_dvd (abs_pos.mpr hkne) ((dvd_abs _ _).mpr hdvd)
  have hfew : |k| < 10 ^ 17 := by
    have hdigit : |(k : ℚ)| < 10 ^ (17 : ℤ) := by
      rw [← hk, abs_mul, abs_of_pos hten, ← zpow_natCast]
      calc |x| * 10 ^ (j : ℤ) < 10 ^ (Int.log 10 |x| + 1) * 10 ^ (j : ℤ) :=
            mul_lt_mul_of_pos_right (Int.lt_zpow_succ_log_self (by norm_num) _) (by positivity)
        _ = 10 ^ (digits : ℤ) := by
            rw [← zpow_add₀ (by norm_num)]
            congr 1
            omega
        _ ≤ 10 ^ (17 : ℤ) := zpow_le_zpow_right₀ (by norm_num) (by exact_mod_cast hdigits)
    exact_mod_cast hdigit
  have hfive : (5 : ℤ) ^ 25 ≤ 5 ^ j := pow_le_pow_right₀ (by norm_num) (by omega)
  have hbig : (10 : ℤ) ^ 17 < 5 ^ 25 := by norm_num
  exact absurd (hfive.trans hlarge) (not_le.mpr (hfew.trans hbig))

/-- The shortest decimal of a subnormal number is not that number. -/
theorem shortestDecimal_ne_of_subnormal {x : ℚ} (hround : roundBinary64 x = x) (hne : x ≠ 0)
    (hsmall : |x| < smallestNormal) : shortestDecimal x ≠ x := by
  intro heq
  obtain ⟨c, hc, hread⟩ := exists_candidate_of_subnormal hround hne hsmall
  obtain ⟨digits, hpos, hle, hmem⟩ := shortestDecimal_mem (n := 16) (by norm_num) hc hread
  obtain ⟨k, hk⟩ := exists_of_mem_decimalCandidates hmem
  exact subnormal_ne_decimal hround hne hsmall hpos hle k (heq.symm.trans hk)

/-- A printed number is read back exactly when it is zero or normal. -/
theorem readDecimal_shortestDecimal_iff {x : ℚ} (hx : IsBinary64 x) :
    readDecimal (shortestDecimal x) = some x ↔ x = 0 ∨ smallestNormal ≤ |x| := by
  have hread := roundBinary64_shortestDecimal hx.1
  simp only [readDecimal, hread, not_le.mpr hx.2, false_or]
  constructor
  · intro h
    by_contra hsubnormal
    push Not at hsubnormal
    have hne := shortestDecimal_ne_of_subnormal hx.1 hsubnormal.1 hsubnormal.2
    rw [if_pos ⟨hsubnormal.2, hne.symm⟩] at h
    cases h
  · rintro (rfl | hnormal)
    · have hzero : shortestDecimal 0 = 0 := by decide +kernel
      simp [hzero]
    · rw [if_neg fun hrange => absurd hrange.1 (not_lt.mpr hnormal)]

end NodePower
