import Mathlib.Data.List.Infix
import Mathlib.Data.Int.Basic
import Mathlib.Tactic.IntervalCases
import NodePower.Common.DecimalText

/-!
# The C library on lines and decimals

A buffer that holds a string is given by the characters before its first NUL, one character for
every byte. `fgets` reads one line of a stream into a buffer of given size, `strstr` looks for
a word, and `strtok` cuts a buffer at a delimiter: the characters behind it are no longer part
of the string. `atof` reads the longest decimal that a string starts with.
-/

namespace NodePower

/-- The characters that `isspace` accepts. -/
def isCSpace (c : Char) : Bool := c ∈ [' ', '\t', '\n', '\x0b', '\x0c', '\r']

/-- The string in a buffer that holds the given characters. -/
def cString (characters : Text) : Text := characters.takeWhile (· ≠ '\x00')

/-- `fgets`: the characters read into a buffer of the given size, and the rest of the stream.
There is nothing at the end of the stream. -/
def fgets (size : ℕ) (stream : Text) : Option (Text × Text) :=
  if stream = [] then none
  else
    let count := min (size - 1) ((stream.takeWhile (· ≠ '\n')).length + 1)
    some (stream.take count, stream.drop count)

/-- Whether `strstr` finds a word. -/
def strstr (text word : Text) : Bool := decide (word <:+: text)

/-- The first call of `strtok` with one delimiter: the token, if there is any, and the string that
is left in the buffer. -/
def strtok (delimiter : Char) (text : Text) : Option Text × Text :=
  let start := text.dropWhile (· = delimiter)
  if start = [] then (none, text)
  else
    let token := start.takeWhile (· ≠ delimiter)
    (some token, text.takeWhile (· = delimiter) ++ token)

/-- A sign, if there is one, and the text behind it. -/
def splitSign : Text → Bool × Text
  | '-' :: text => (true, text)
  | '+' :: text => (false, text)
  | text => (false, text)

/-- The number that a sign and digits denote. -/
def signedNumber (negative : Bool) (digits : Text) : ℤ :=
  (if negative then -1 else 1) * (Nat.ofDigitChars 10 digits 0 : ℤ)

/-- The exponent at the start of a text, which is zero if there is none. -/
def exponentPrefix : Text → ℤ
  | c :: text =>
    if c = 'e' ∨ c = 'E' then
      let (negative, unsigned) := splitSign text
      signedNumber negative (unsigned.takeWhile Char.isDigit)
    else 0
  | [] => 0

/-- The value of the longest decimal without a sign at the start of a text, which is zero if there
is none. -/
def decimalPrefix (text : Text) : ℚ :=
  let whole := text.takeWhile Char.isDigit
  let behind := text.dropWhile Char.isDigit
  let (fraction, rest) :=
    if behind.head? = some '.' then
      (behind.tail.takeWhile Char.isDigit, behind.tail.dropWhile Char.isDigit)
    else ([], behind)
  Nat.ofDigitChars 10 (whole ++ fraction) 0 / 10 ^ fraction.length * 10 ^ exponentPrefix rest

/-- The words with which infinities, the numbers that are none and hexadecimal numerals start. -/
def specialNumerals : List Text := ["inf".toList, "nan".toList, "0x".toList]

/-- `atof`. Nothing is said about the special numerals. -/
def atof (text : Text) : Option ℚ :=
  let (negative, unsigned) := splitSign (text.dropWhile isCSpace)
  if specialNumerals.any (·.isPrefixOf (unsigned.map Char.toLower)) then none
  else some ((if negative then -1 else 1) * decimalPrefix unsigned)

/-- What comes before the first occurrence of a character. -/
theorem takeWhile_until {c : Char} {before : Text} (h : c ∉ before) (after : Text) :
    (before ++ c :: after).takeWhile (· ≠ c) = before := by
  have hne : ∀ d ∈ before, decide (d ≠ c) = true := by
    intro d hd
    rw [decide_eq_true_eq]
    intro heq
    exact h (heq ▸ hd)
  rw [List.takeWhile_append_of_pos hne, List.takeWhile_cons_of_neg (by simp), List.append_nil]

/-- Without a NUL the whole buffer is the string. -/
theorem cString_of_not_mem {characters : Text} (h : '\x00' ∉ characters) :
    cString characters = characters := by
  refine List.takeWhile_eq_self_iff.mpr ?_
  intro c hc
  rw [decide_eq_true_eq]
  intro hnul
  exact h (hnul ▸ hc)

/-- A line that fits into the buffer is read with its end. -/
theorem fgets_line {size : ℕ} {line : Text} (hline : '\n' ∉ line) (hfits : line.length + 1 < size)
    (rest : Text) : fgets size (line ++ '\n' :: rest) = some (line ++ ['\n'], rest) := by
  have hcount : min (size - 1) (line.length + 1) = (line ++ ['\n']).length := by
    rw [List.length_append, List.length_singleton]
    omega
  have hstream : line ++ '\n' :: rest = (line ++ ['\n']) ++ rest := by
    rw [List.append_assoc, List.singleton_append]
  have hne : line ++ '\n' :: rest ≠ [] := List.append_ne_nil_of_right_ne_nil line (List.cons_ne_nil _ _)
  simp only [fgets, if_neg hne, takeWhile_until hline, hcount]
  rw [hstream, List.take_left, List.drop_left]

/-- What `fgets` reads is taken off the stream. -/
theorem length_of_fgets {size : ℕ} {stream characters rest : Text} (hsize : 1 < size)
    (h : fgets size stream = some (characters, rest)) : rest.length < stream.length := by
  by_cases hstream : stream = []
  · rw [fgets, if_pos hstream] at h
    exact absurd h (by simp)
  · rw [fgets, if_neg hstream] at h
    have hpos := List.length_pos_iff.mpr hstream
    rw [← (Prod.mk.inj (Option.some.inj h)).2, List.length_drop]
    omega

/-- The end of a line has no part in a word that does not contain it. -/
theorem strstr_concat {word : Text} {c : Char} (hword : word ≠ []) (hc : c ∉ word) (line : Text) :
    strstr (line ++ [c]) word = strstr line word := by
  rw [strstr, strstr, decide_eq_decide, List.infix_concat_iff, or_iff_right]
  intro hsuffix
  have hlast := hsuffix.getLast hword
  rw [List.getLast_concat] at hlast
  exact hc (hlast ▸ List.getLast_mem hword)

/-- A word is not found where one of its characters is missing. -/
theorem strstr_of_not_mem {word text : Text} {c : Char} (hword : c ∈ word) (htext : c ∉ text) :
    strstr text word = false := by
  rw [strstr, decide_eq_false_iff_not]
  intro hfound
  exact htext (hfound.mem hword)

/-- `strtok` returns the field in front of the first delimiter and leaves only this field. -/
theorem strtok_field {delimiter : Char} {field : Text} (hne : field ≠ []) (hfield : delimiter ∉ field)
    (rest : Text) : strtok delimiter (field ++ delimiter :: rest) = (some field, field) := by
  obtain ⟨c, tail, rfl⟩ := List.exists_cons_of_ne_nil hne
  have hc : ¬ decide (c = delimiter) = true := by
    rw [decide_eq_true_eq]
    intro heq
    exact hfield (heq ▸ List.mem_cons_self)
  have hdrop : (c :: tail ++ delimiter :: rest).dropWhile (· = delimiter) =
      c :: tail ++ delimiter :: rest := List.dropWhile_cons_of_neg hc
  have htake : (c :: tail ++ delimiter :: rest).takeWhile (· = delimiter) = [] :=
    List.takeWhile_cons_of_neg hc
  rw [strtok, hdrop, htake, takeWhile_until hfield]
  exact if_neg (List.cons_ne_nil c (tail ++ delimiter :: rest))

/-- Digits end where a character is none. -/
theorem takeWhile_isDigit {digits : Text} (hdigits : ∀ c ∈ digits, c.isDigit) (text : Text)
    (htext : ∀ c ∈ text.head?, c.isDigit = false) :
    (digits ++ text).takeWhile Char.isDigit = digits ∧
      (digits ++ text).dropWhile Char.isDigit = text := by
  rw [List.takeWhile_append_of_pos hdigits, List.dropWhile_append_of_pos hdigits]
  cases text with
  | nil => exact ⟨List.append_nil digits, rfl⟩
  | cons c rest =>
    have hc := ne_true_of_eq_false (htext c rfl)
    rw [List.takeWhile_cons_of_neg hc, List.dropWhile_cons_of_neg hc]
    exact ⟨List.append_nil digits, rfl⟩

/-- A decimal without a sign is read as a whole. -/
theorem decimalPrefix_magnitude {text : Text} {d : Decimal}
    (h : parseMagnitude false text = some d) : decimalPrefix text = d.value := by
  obtain ⟨whole, fraction, htext, _, hdigits, rfl⟩ := exists_digits_of_magnitude h
  have hwhole : ∀ c ∈ whole, c.isDigit := fun c hc => hdigits c (List.mem_append_left fraction hc)
  have hfraction : ∀ c ∈ fraction, c.isDigit := fun c hc =>
    hdigits c (List.mem_append_right whole hc)
  cases htext with
  | inl h =>
    obtain ⟨rfl, rfl⟩ := h
    obtain ⟨htake, hdrop⟩ := takeWhile_isDigit hwhole [] (by simp)
    rw [List.append_nil] at htake hdrop
    simp [decimalPrefix, htake, hdrop, exponentPrefix, Decimal.value]
  | inr h =>
    obtain ⟨htake, hdrop⟩ := takeWhile_isDigit hwhole ('.' :: fraction) (by simp)
    obtain ⟨hfractionTake, hfractionDrop⟩ := takeWhile_isDigit hfraction [] (by simp)
    rw [List.append_nil] at hfractionTake hfractionDrop
    rw [h]
    simp [decimalPrefix, htake, hdrop, hfractionTake, hfractionDrop, exponentPrefix, Decimal.value]

/-- A digit or a point is no blank, no letter and no sign. -/
theorem plain_of_magnitude_char {c : Char} (h : c.isDigit ∨ c = '.') :
    isCSpace c = false ∧ c.toLower.isAlpha = false ∧ c ≠ '-' ∧ c ≠ '+' := by
  rcases h with hdigit | rfl
  · rw [Char.isDigit_iff_toNat] at hdigit
    obtain ⟨hlow, hhigh⟩ := hdigit
    rw [← Char.ofNat_toNat c]
    generalize c.toNat = n at hlow hhigh
    have hlow' : 48 ≤ n := hlow
    have hhigh' : n ≤ 57 := hhigh
    interval_cases n <;> decide
  · decide

/-- No special numeral starts a text without letters. -/
theorem not_special_of_plain {text : Text} (hplain : ∀ c ∈ text, c.toLower.isAlpha = false) :
    specialNumerals.any (·.isPrefixOf (text.map Char.toLower)) = false := by
  rw [List.any_eq_false]
  intro word hword hprefixed
  have hletters : ∀ word ∈ specialNumerals, word.any Char.isAlpha = true := by decide
  obtain ⟨c, hc, halpha⟩ := List.any_eq_true.mp (hletters word hword)
  have hmem := (List.isPrefixOf_iff_prefix.mp hprefixed).subset hc
  obtain ⟨d, hd, rfl⟩ := List.mem_map.mp hmem
  exact ne_true_of_eq_false (hplain d hd) halpha

/-- `atof` reads a decimal without a sign. -/
theorem atof_magnitude {text : Text} {d : Decimal} (h : parseMagnitude false text = some d) :
    atof text = some d.value := by
  have hplain := fun c hc => plain_of_magnitude_char (mem_magnitude h (c := c) hc)
  have hspecial := not_special_of_plain fun c hc => (hplain c hc).2.1
  have hvalue := decimalPrefix_magnitude h
  cases text with
  | nil => exact absurd h (by simp [parseMagnitude])
  | cons c rest =>
    obtain ⟨hspace, _, hminus, hplus⟩ := hplain c List.mem_cons_self
    have hdrop : (c :: rest).dropWhile isCSpace = c :: rest :=
      List.dropWhile_cons_of_neg (ne_true_of_eq_false hspace)
    have hsign : splitSign (c :: rest) = (false, c :: rest) := by
      unfold splitSign
      split
      · rename_i heq
        exact absurd (List.cons.inj heq).1 hminus
      · rename_i heq
        exact absurd (List.cons.inj heq).1 hplus
      · rfl
    rw [atof, hdrop, hsign]
    simp only [hspecial, hvalue, Bool.false_eq_true, if_false, one_mul]

end NodePower
