import Mathlib.Data.Rat.Cast.Order
import Mathlib.Data.List.TakeWhile
import Mathlib.Tactic.NormNum
import Mathlib.Tactic.Positivity

/-!
# Numerals in texts

A decimal is written as a sign, digits and a point. Any number of digits may follow the
point, so one value has many texts. Programs read the other numerals with `strtoull`, which
takes the longest numeral that a word starts with and finds its base from the first
characters.
-/

namespace NodePower

/-- The characters of a word or of a line. -/
abbrev Text := List Char

/-- A decimal as it is written: its sign, its digits with the point left out, and how many of them
follow the point. -/
structure Decimal where
  negative : Bool
  digits : ℕ
  scale : ℕ
  deriving DecidableEq

/-- What a decimal denotes. -/
def Decimal.value (d : Decimal) : ℚ :=
  (if d.negative then -1 else 1) * (d.digits / 10 ^ d.scale)

/-- The digits of a number after the zeros that fill up a width. -/
def paddedDigits (width n : ℕ) : Text := (Nat.toDigits 10 n).leftpad width '0'

/-- The point and the digits after it. -/
def fractionText (scale n : ℕ) : Text := if scale = 0 then [] else '.' :: paddedDigits scale n

/-- A decimal in its shortest text with all its fraction digits. -/
def Decimal.text (d : Decimal) : Text :=
  (if d.negative then ['-'] else []) ++ (Nat.toDigits 10 (d.digits / 10 ^ d.scale) ++
    if d.scale = 0 then [] else '.' :: paddedDigits d.scale (d.digits % 10 ^ d.scale))

/-- Digits with at most one point among them. -/
def parseMagnitude (negative : Bool) (text : Text) : Option Decimal :=
  let whole := text.takeWhile (· ≠ '.')
  let fraction := (text.dropWhile (· ≠ '.')).tail
  if whole ++ fraction ≠ [] ∧ (whole ++ fraction).all Char.isDigit then
    some ⟨negative, Nat.ofDigitChars 10 (whole ++ fraction) 0, fraction.length⟩
  else none

/-- The decimal that a text spells. -/
def parseDecimal : Text → Option Decimal
  | '-' :: text => parseMagnitude true text
  | text => parseMagnitude false text

/-- The digits of an integer. -/
def integerText : ℤ → Text
  | .ofNat n => Nat.toDigits 10 n
  | .negSucc n => '-' :: Nat.toDigits 10 (n + 1)

/-- The value of a digit in a base up to sixteen, and sixteen for any other character. -/
def digitValue (c : Char) : ℕ :=
  if c.isDigit then c.toNat - 48
  else if 'a' ≤ c ∧ c ≤ 'f' then c.toNat - 87
  else if 'A' ≤ c ∧ c ≤ 'F' then c.toNat - 55
  else 16

/-- The value of the longest numeral that a text starts with. -/
def leadingNumeral (base : ℕ) (text : Text) : ℕ :=
  ((text.map digitValue).takeWhile (· < base)).foldl (fun n digit => base * n + digit) 0

/-- `strtoull` with base 0, of a word without a sign. -/
def strtoull (text : Text) : ℕ :=
  min (2 ^ 64 - 1) (match text with
    | '0' :: 'x' :: rest | '0' :: 'X' :: rest => leadingNumeral 16 rest
    | '0' :: rest => leadingNumeral 8 rest
    | text => leadingNumeral 10 text)

/-- The conversion `%02X`. -/
def printHex02 (n : ℕ) : Text := ((Nat.toDigits 16 n).map Char.toUpper).leftpad 2 '0'

/-- A number is printed with digits. -/
theorem isDigit_of_mem_toDigits {n : ℕ} {c : Char} (hc : c ∈ Nat.toDigits 10 n) : c.isDigit :=
  Nat.isDigit_of_mem_toDigits (by norm_num) (by norm_num) hc

/-- A number is printed with one digit or more. -/
theorem exists_toDigits_eq_cons (n : ℕ) : ∃ c text, Nat.toDigits 10 n = c :: text ∧ c.isDigit := by
  cases hdigits : Nat.toDigits 10 n with
  | nil => exact absurd hdigits Nat.toDigits_ne_nil
  | cons c text => exact ⟨c, text, rfl, isDigit_of_mem_toDigits (hdigits ▸ List.mem_cons_self)⟩

/-- Zeros in front are digits too. -/
theorem isDigit_of_mem_paddedDigits {width n : ℕ} {c : Char} (hc : c ∈ paddedDigits width n) :
    c.isDigit := by
  rw [paddedDigits, List.leftpad, List.mem_append] at hc
  rcases hc with hzero | hdigit
  · rw [List.eq_of_mem_replicate hzero]
    rfl
  · exact isDigit_of_mem_toDigits hdigit

/-- Zeros in front do not change the value. -/
theorem ofDigitChars_paddedDigits (width n : ℕ) :
    Nat.ofDigitChars 10 (paddedDigits width n) 0 = n := by
  rw [paddedDigits, List.leftpad, Nat.ofDigitChars_append, Nat.ofDigitChars_replicate_zero, mul_zero,
    Nat.ofDigitChars_ten_toDigits]

/-- A number that fits fills the width exactly. -/
theorem length_paddedDigits {width n : ℕ} (hwidth : 0 < width) (hn : n < 10 ^ width) :
    (paddedDigits width n).length = width := by
  rw [paddedDigits, List.length_leftpad]
  exact max_eq_left ((Nat.length_toDigits_le_iff (by norm_num) hwidth).mpr hn)

/-- The digits of a number are not the point. -/
theorem ne_point_of_isDigit {c : Char} (hc : c.isDigit) : decide (c ≠ '.') = true := by
  rw [decide_eq_true_eq]
  intro hpoint
  rw [hpoint] at hc
  exact absurd hc (by decide)

/-- Digits without a point. -/
theorem parseMagnitude_whole (negative : Bool) {whole : Text} (hne : whole ≠ [])
    (hdigits : ∀ c ∈ whole, c.isDigit) :
    parseMagnitude negative whole = some ⟨negative, Nat.ofDigitChars 10 whole 0, 0⟩ := by
  have hpoint : ∀ c ∈ whole, decide (c ≠ '.') = true := fun c hc => ne_point_of_isDigit (hdigits c hc)
  have htake : whole.takeWhile (· ≠ '.') = whole := List.takeWhile_eq_self_iff.mpr hpoint
  have hdrop : whole.dropWhile (· ≠ '.') = [] := List.dropWhile_eq_nil_iff.mpr hpoint
  simp only [parseMagnitude, htake, hdrop, List.tail_nil, List.append_nil, List.length_nil]
  exact if_pos ⟨hne, List.all_eq_true.mpr hdigits⟩

/-- Digits around a point. -/
theorem parseMagnitude_point (negative : Bool) {whole fraction : Text} (hne : whole ++ fraction ≠ [])
    (hdigits : ∀ c ∈ whole ++ fraction, c.isDigit) :
    parseMagnitude negative (whole ++ '.' :: fraction) =
      some ⟨negative, Nat.ofDigitChars 10 (whole ++ fraction) 0, fraction.length⟩ := by
  have hpoint : ∀ c ∈ whole, decide (c ≠ '.') = true := fun c hc =>
    ne_point_of_isDigit (hdigits c (List.mem_append_left fraction hc))
  have htake : (whole ++ '.' :: fraction).takeWhile (· ≠ '.') = whole := by
    rw [List.takeWhile_append_of_pos hpoint, List.takeWhile_cons_of_neg (by simp), List.append_nil]
  have hdrop : (whole ++ '.' :: fraction).dropWhile (· ≠ '.') = '.' :: fraction := by
    rw [List.dropWhile_append_of_pos hpoint, List.dropWhile_cons_of_neg (by simp)]
  simp only [parseMagnitude, htake, hdrop, List.tail_cons]
  exact if_pos ⟨hne, List.all_eq_true.mpr hdigits⟩

/-- Digits and a fraction of the given length are read as one number. -/
theorem parseMagnitude_number (negative : Bool) {number : Text} {scale n : ℕ} (hne : number ≠ [])
    (hnumber : ∀ c ∈ number, c.isDigit) (hn : n < 10 ^ scale) :
    parseMagnitude negative (number ++ fractionText scale n) =
      some ⟨negative, 10 ^ scale * Nat.ofDigitChars 10 number 0 + n, scale⟩ := by
  by_cases hscale : scale = 0
  · subst hscale
    obtain rfl : n = 0 := Nat.lt_one_iff.mp hn
    rw [fractionText, if_pos rfl, List.append_nil, parseMagnitude_whole negative hne hnumber, pow_zero,
      one_mul, add_zero]
  · have hdigits : ∀ c ∈ number ++ paddedDigits scale n, c.isDigit := by
      intro c hc
      rw [List.mem_append] at hc
      exact hc.elim (hnumber c) isDigit_of_mem_paddedDigits
    have hlength := length_paddedDigits (Nat.pos_of_ne_zero hscale) hn
    rw [fractionText, if_neg hscale,
      parseMagnitude_point negative (List.append_ne_nil_of_left_ne_nil hne _) hdigits, hlength,
      Nat.ofDigitChars_append, Nat.ofDigitChars_eq_ofDigitChars_zero, hlength,
      ofDigitChars_paddedDigits]

/-- Digits with the point in their place are read back. -/
theorem parseMagnitude_text (negative : Bool) (digits scale : ℕ) :
    parseMagnitude negative (Decimal.text ⟨false, digits, scale⟩) =
      some ⟨negative, digits, scale⟩ := by
  have hread := parseMagnitude_number negative Nat.toDigits_ne_nil
    (fun _ hc => isDigit_of_mem_toDigits hc : ∀ c ∈ Nat.toDigits 10 (digits / 10 ^ scale), c.isDigit)
    (Nat.mod_lt digits (by positivity : 0 < 10 ^ scale))
  rw [Nat.ofDigitChars_ten_toDigits, Nat.div_add_mod] at hread
  exact hread

/-- A text without a sign. -/
theorem parseDecimal_of_isDigit {c : Char} (hc : c.isDigit) (text : Text) :
    parseDecimal (c :: text) = parseMagnitude false (c :: text) := by
  unfold parseDecimal
  split
  · rename_i heq
    obtain ⟨rfl, -⟩ := List.cons.inj heq
    exact absurd hc (by decide)
  · rfl

/-- Every decimal is read back from its text. -/
theorem parseDecimal_text (d : Decimal) : parseDecimal d.text = some d := by
  obtain ⟨negative, digits, scale⟩ := d
  cases negative with
  | true =>
    change parseMagnitude true (Decimal.text ⟨false, digits, scale⟩) = _
    exact parseMagnitude_text true digits scale
  | false =>
    have hmagnitude := parseMagnitude_text false digits scale
    obtain ⟨c, rest, hdigits, hc⟩ := exists_toDigits_eq_cons (digits / 10 ^ scale)
    simp only [Decimal.text, hdigits, Bool.false_eq_true, if_false, List.nil_append,
      List.cons_append] at hmagnitude ⊢
    rw [parseDecimal_of_isDigit hc]
    exact hmagnitude

/-- A text that spells a decimal without its sign consists of digits with at most one point. -/
theorem exists_digits_of_magnitude {negative : Bool} {text : Text} {d : Decimal}
    (h : parseMagnitude negative text = some d) :
    ∃ whole fraction, (text = whole ∧ fraction = [] ∨ text = whole ++ '.' :: fraction) ∧
      whole ++ fraction ≠ [] ∧ (∀ c ∈ whole ++ fraction, c.isDigit) ∧
      d = ⟨negative, Nat.ofDigitChars 10 (whole ++ fraction) 0, fraction.length⟩ := by
  simp only [parseMagnitude] at h
  split at h
  · rename_i hparsed
    refine ⟨_, _, ?_, hparsed.1, List.all_eq_true.mp hparsed.2, (Option.some.inj h).symm⟩
    have hsplit := List.takeWhile_append_dropWhile (p := (· ≠ '.')) (l := text)
    cases hdrop : text.dropWhile (· ≠ '.') with
    | nil =>
      rw [hdrop, List.append_nil] at hsplit
      exact Or.inl ⟨hsplit.symm, rfl⟩
    | cons point fraction =>
      -- What is left after the digits starts with the point.
      have hne : text.dropWhile (· ≠ '.') ≠ [] := hdrop ▸ List.cons_ne_nil point fraction
      have hpoint := List.head_dropWhile_not (· ≠ '.') hne
      simp only [hdrop, List.head_cons] at hpoint
      rw [hdrop, show point = '.' by simpa using hpoint] at hsplit
      exact Or.inr hsplit.symm
  · exact absurd h (by simp)

/-- The characters of a decimal without its sign. -/
theorem mem_magnitude {negative : Bool} {text : Text} {d : Decimal}
    (h : parseMagnitude negative text = some d) {c : Char} (hc : c ∈ text) :
    c.isDigit ∨ c = '.' := by
  obtain ⟨whole, fraction, htext, _, hdigits, _⟩ := exists_digits_of_magnitude h
  cases htext with
  | inl hwhole =>
    rw [hwhole.1] at hc
    exact Or.inl (hdigits c (List.mem_append_left fraction hc))
  | inr hpoint =>
    rw [hpoint, List.mem_append, List.mem_cons] at hc
    rcases hc with hwhole | rfl | hfraction
    · exact Or.inl (hdigits c (List.mem_append_left fraction hwhole))
    · exact Or.inr rfl
    · exact Or.inl (hdigits c (List.mem_append_right whole hfraction))

/-- The characters of a decimal. -/
theorem mem_decimal {text : Text} {d : Decimal} (h : parseDecimal text = some d) {c : Char}
    (hc : c ∈ text) : c.isDigit ∨ c = '.' ∨ c = '-' := by
  unfold parseDecimal at h
  split at h
  · rcases List.mem_cons.mp hc with rfl | hrest
    · exact Or.inr (Or.inr rfl)
    · exact (mem_magnitude h hrest).imp_right Or.inl
  · exact (mem_magnitude h hc).imp_right Or.inl

/-- A decimal is not the empty text. -/
theorem decimal_ne_nil {text : Text} {d : Decimal} (h : parseDecimal text = some d) : text ≠ [] := by
  intro hnil
  simp [hnil, parseDecimal, parseMagnitude] at h

/-- A printed digit has its value. -/
theorem digitValue_digitChar : ∀ digit < 16, digitValue digit.digitChar = digit := by decide

/-- A printed digit has its value in upper case too. -/
theorem digitValue_toUpper : ∀ digit < 16, digitValue digit.digitChar.toUpper = digit := by decide

/-- The digits of a numeral are below its base. -/
theorem digitValue_lt_of_mem_toDigits {base : ℕ} (hlow : 1 < base) (hhigh : base ≤ 16) (n : ℕ)
    {c : Char} (hc : c ∈ Nat.toDigits base n) : digitValue c < base := by
  induction n using Nat.strong_induction_on with
  | _ n ih =>
    by_cases hsmall : n < base
    · rw [Nat.toDigits_of_lt_base hsmall, List.mem_singleton] at hc
      rw [hc, digitValue_digitChar n (hsmall.trans_le hhigh)]
      exact hsmall
    · rw [Nat.toDigits_of_base_le hlow (not_lt.mp hsmall), List.mem_append, List.mem_singleton] at hc
      rcases hc with hc | rfl
      · exact ih (n / base) (Nat.div_lt_self (by omega) hlow) hc
      · have hlast := Nat.mod_lt n (zero_lt_one.trans hlow)
        rw [digitValue_digitChar _ (hlast.trans_le hhigh)]
        exact hlast

/-- The digits of a numeral have its value. -/
theorem foldl_toDigits {base : ℕ} (hlow : 1 < base) (hhigh : base ≤ 16) (n : ℕ) :
    ((Nat.toDigits base n).map digitValue).foldl (fun m digit => base * m + digit) 0 = n := by
  induction n using Nat.strong_induction_on with
  | _ n ih =>
    have hlast : digitValue (n % base).digitChar = n % base :=
      digitValue_digitChar _ ((Nat.mod_lt n (zero_lt_one.trans hlow)).trans_le hhigh)
    by_cases hsmall : n < base
    · rw [Nat.mod_eq_of_lt hsmall] at hlast
      rw [Nat.toDigits_of_lt_base hsmall, List.map_singleton, hlast, List.foldl_cons, List.foldl_nil,
        mul_zero, zero_add]
    · rw [Nat.toDigits_of_base_le hlow (not_lt.mp hsmall), List.map_append, List.foldl_append,
        ih (n / base) (Nat.div_lt_self (by omega) hlow), List.map_singleton, hlast]
      exact Nat.div_add_mod n base

/-- A printed numeral is read back in its base. -/
theorem leadingNumeral_toDigits {base : ℕ} (hlow : 1 < base) (hhigh : base ≤ 16) (n : ℕ) :
    leadingNumeral base (Nat.toDigits base n) = n := by
  have hdigits : ((Nat.toDigits base n).map digitValue).takeWhile (· < base) =
      (Nat.toDigits base n).map digitValue := by
    rw [List.takeWhile_eq_self_iff]
    simpa using fun c hc => digitValue_lt_of_mem_toDigits hlow hhigh n hc
  rw [leadingNumeral, hdigits, foldl_toDigits hlow hhigh]

/-- A positive number is printed without a zero in front. -/
theorem toDigits_eq_cons {n : ℕ} (hn : 0 < n) :
    ∃ digit rest, Nat.toDigits 10 n = digit.digitChar :: rest ∧ 0 < digit ∧ digit < 10 := by
  induction n using Nat.strong_induction_on with
  | _ n ih =>
    by_cases hsmall : n < 10
    · exact ⟨n, [], Nat.toDigits_of_lt_base hsmall, hn, hsmall⟩
    · obtain ⟨digit, rest, heq, hdigit⟩ := ih (n / 10) (by omega) (by omega)
      refine ⟨digit, rest ++ [(n % 10).digitChar], ?_, hdigit⟩
      rw [Nat.toDigits_of_base_le (by norm_num) (not_lt.mp hsmall), heq, List.cons_append]

/-- The base of a number printed in decimal is ten. -/
theorem strtoull_toDigits {n : ℕ} (hn : n < 2 ^ 64) : strtoull (Nat.toDigits 10 n) = n := by
  have hvalue : leadingNumeral 10 (Nat.toDigits 10 n) = n :=
    leadingNumeral_toDigits (by norm_num) (by norm_num) n
  rcases Nat.eq_zero_or_pos n with rfl | hpos
  · rfl
  · obtain ⟨digit, rest, heq, hdigit⟩ := toDigits_eq_cons hpos
    have hzero : digit.digitChar ≠ '0' := by
      intro hchar
      have hdigitValue := digitValue_digitChar digit (by omega)
      rw [hchar, show digitValue '0' = 0 from rfl] at hdigitValue
      exact hdigit.1.ne hdigitValue
    rw [heq] at hvalue ⊢
    unfold strtoull
    split
    · rename_i hcons
      exact absurd (List.cons.inj hcons).1 hzero
    · rename_i hcons
      exact absurd (List.cons.inj hcons).1 hzero
    · rename_i hcons
      exact absurd (List.cons.inj hcons).1 hzero
    · rw [hvalue]
      omega

/-- A byte is printed with two digits. -/
theorem printHex02_eq {n : ℕ} (hn : n < 256) :
    printHex02 n = [(n / 16).digitChar.toUpper, (n % 16).digitChar.toUpper] := by
  by_cases hsmall : n < 16
  · rw [printHex02, Nat.toDigits_of_lt_base hsmall, Nat.div_eq_of_lt hsmall, Nat.mod_eq_of_lt hsmall]
    rfl
  · rw [printHex02, Nat.toDigits_of_base_le (by norm_num) (not_lt.mp hsmall),
      Nat.toDigits_of_lt_base (by omega)]
    rfl

/-- Two printed bytes after `0x` are read as one number. -/
theorem strtoull_printHex02 {high low : ℕ} (hhigh : high < 256) (hlow : low < 256) :
    strtoull ('0' :: 'x' :: (printHex02 high ++ printHex02 low)) = high * 256 + low := by
  have h₁ := digitValue_toUpper (high / 16) (by omega)
  have h₂ := digitValue_toUpper (high % 16) (by omega)
  have h₃ := digitValue_toUpper (low / 16) (by omega)
  have h₄ := digitValue_toUpper (low % 16) (by omega)
  have hbelow : ∀ n < 256, n / 16 < 16 ∧ n % 16 < 16 := fun n hn => by omega
  simp only [strtoull, printHex02_eq hhigh, printHex02_eq hlow, leadingNumeral, List.cons_append,
    List.nil_append, List.map_cons, List.map_nil, h₁, h₂, h₃, h₄]
  simp [hbelow high hhigh, hbelow low hlow]
  omega

end NodePower
