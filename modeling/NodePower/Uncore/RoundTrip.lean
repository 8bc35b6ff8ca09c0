import Mathlib.Order.Bounds.Basic
import Mathlib.Tactic.FieldSimp
import Mathlib.Tactic.NormNum
import NodePower.Uncore.Script

/-!
# Frequencies in the uncore register

A register that the script has written holds the same ratio in both bytes, the frequency in
units of 100 MHz without its fraction. The reading tool, applied to such a value, gives the
ratio back as the largest multiple of 0.1 GHz that the frequency reaches. Nothing depends on
how many digits the text of the frequency has, so all renderings of one frequency leave the
same register.
-/

namespace NodePower.Uncore

/-- The frequencies that the script accepts, in GHz. -/
def InRange (frequency : ℚ) : Prop := 8 / 10 ≤ frequency ∧ frequency ≤ 24 / 10

/-- The multiples of 100 MHz, in GHz. -/
def tenths : Set ℚ := {frequency | ∃ k : ℤ, frequency = k / 10}

/-- A register value that stands for a frequency: both ratios are the frequency in units of 100 MHz,
and the reading tool finds the largest such multiple that is not above it. -/
structure Encodes (value : ℕ) (frequency : ℚ) : Prop where
  maxRatio : ((value % 256 : ℕ) : ℤ) = ⌊10 * frequency⌋
  minRatio : ((value / 256 : ℕ) : ℤ) = ⌊10 * frequency⌋
  ratioRange : 8 ≤ value % 256 ∧ value % 256 ≤ 24
  read : IsGreatest {multiple ∈ tenths | multiple ≤ frequency}
    (readUncoreFrequency (some (rdmsr value)))
  readExact : frequency ∈ tenths → readUncoreFrequency (some (rdmsr value)) = frequency

/-- The ratio of a frequency. -/
def ratio (frequency : ℚ) : ℕ := ⌊10 * frequency⌋.toNat

/-- The ratio of an accepted frequency loses only the fraction. -/
theorem ratio_eq_floor {frequency : ℚ} (h : InRange frequency) :
    (ratio frequency : ℤ) = ⌊10 * frequency⌋ := by
  refine Int.toNat_of_nonneg (Int.floor_nonneg.mpr ?_)
  linarith [h.1]

/-- The ratio of an accepted frequency is from 8 to 24. -/
theorem ratio_range {frequency : ℚ} (h : InRange frequency) :
    8 ≤ ratio frequency ∧ ratio frequency ≤ 24 := by
  have hlow : (8 : ℤ) ≤ ⌊10 * frequency⌋ := by
    rw [Int.le_floor]
    push_cast
    linarith [h.1]
  have hhigh : ⌊10 * frequency⌋ < (25 : ℤ) := by
    rw [Int.floor_lt]
    push_cast
    linarith [h.2]
  rw [← ratio_eq_floor h] at hlow hhigh
  omega

/-- The reading tool finds the ratio in the low byte. -/
theorem readUncoreFrequency_rdmsr (value : ℕ) :
    readUncoreFrequency (some (rdmsr value)) = ((value % 256 : ℕ) : ℚ) / 10 := by
  have hlow : value &&& 0xFF = value % 256 := Nat.and_two_pow_sub_one_eq_mod value 8
  rw [readUncoreFrequency, rdmsr, leadingNumeral_toDigits (by norm_num) (by norm_num), hlow]
  ring

/-- The largest multiple of a tenth below a number is its floor in tenths. -/
theorem isGreatest_floor_div_ten (frequency : ℚ) :
    IsGreatest {multiple ∈ tenths | multiple ≤ frequency} ((⌊10 * frequency⌋ : ℚ) / 10) := by
  constructor
  · refine ⟨⟨⌊10 * frequency⌋, rfl⟩, ?_⟩
    have hfloor := Int.floor_le (10 * frequency)
    linarith
  · intro multiple hmultiple
    obtain ⟨⟨k, rfl⟩, hle⟩ := hmultiple
    have hk : k ≤ ⌊10 * frequency⌋ := Int.le_floor.mpr (by linarith)
    have hcast : (k : ℚ) ≤ ⌊10 * frequency⌋ := by exact_mod_cast hk
    linarith

/-- The ratio of an accepted frequency, in both bytes, stands for it. -/
theorem encodes_ratio {frequency : ℚ} (h : InRange frequency) :
    Encodes (ratio frequency * 256 + ratio frequency) frequency := by
  have hrange := ratio_range h
  have hmax : (ratio frequency * 256 + ratio frequency) % 256 = ratio frequency := by omega
  have hmin : (ratio frequency * 256 + ratio frequency) / 256 = ratio frequency := by omega
  have hread : readUncoreFrequency (some (rdmsr (ratio frequency * 256 + ratio frequency))) =
      (⌊10 * frequency⌋ : ℚ) / 10 := by
    rw [readUncoreFrequency_rdmsr, hmax, ← ratio_eq_floor h, Int.cast_natCast]
  exact {
    maxRatio := by rw [hmax, ratio_eq_floor h]
    minRatio := by rw [hmin, ratio_eq_floor h]
    ratioRange := by rwa [hmax]
    read := hread ▸ isGreatest_floor_div_ten frequency
    readExact := by
      intro htenths
      obtain ⟨k, rfl⟩ := htenths
      rw [hread, mul_div_cancel₀ _ (by norm_num), Int.floor_intCast] }

/-- An accepted frequency becomes the hexadecimal digits of its ratio. -/
theorem calculateRatio_eq {tools : Calculators} (hexact : tools.Exact) {text : Text} {d : Decimal}
    (hparse : parseDecimal text = some d) (hrange : InRange d.value) :
    calculateRatio tools text = printHex02 (ratio d.value) := by
  have hlow : parseDecimal "0.8".toList = some ⟨false, 8, 1⟩ := parseDecimal_text ⟨false, 8, 1⟩
  have hhigh : parseDecimal "2.4".toList = some ⟨false, 24, 1⟩ := parseDecimal_text ⟨false, 24, 1⟩
  have hlowValue : Decimal.value ⟨false, 8, 1⟩ = 8 / 10 := by norm_num [Decimal.value]
  have hhighValue : Decimal.value ⟨false, 24, 1⟩ = 24 / 10 := by norm_num [Decimal.value]
  have htestLow := hexact.lessThan hparse hlow
  have htestHigh := hexact.greaterThan hparse hhigh
  rw [hlowValue, if_neg (not_lt.mpr hrange.1)] at htestLow
  rw [hhighValue, if_neg (not_lt.mpr hrange.2)] at htestHigh
  obtain ⟨product, hproduct, hvalue⟩ := hexact.timesTen hparse
  have htruncate : truncate product.value = (ratio d.value : ℤ) := by
    rw [hvalue, mul_comm, ratio_eq_floor hrange, truncate, if_pos]
    linarith [hrange.1]
  have hratio : ratio d.value < 2 ^ 64 := by
    have hratioRange := ratio_range hrange
    omega
  have hword : words text = [text] := words_of_parseDecimal hparse
  simp only [calculateRatio, hword, List.headD_cons, htestLow, htestHigh]
  rw [if_neg (by decide), hexact.integer hproduct, htruncate]
  change printf (words (Nat.toDigits 10 (ratio d.value))) = _
  rw [words_toDigits, printf, if_neg (List.cons_ne_nil _ _), List.flatMap_singleton,
    strtoull_toDigits hratio]

/-- The script writes the ratio of each accepted frequency to its own CPU. -/
theorem msrWrites_eq {tools : Calculators} (hexact : tools.Exact) (script : Text)
    {text0 text1 : Text} {d0 d1 : Decimal} (hparse0 : parseDecimal text0 = some d0)
    (hparse1 : parseDecimal text1 = some d1) (hrange0 : InRange d0.value)
    (hrange1 : InRange d1.value) :
    msrWrites tools script [text0, text1] =
      [⟨0, 0x620, ratio d0.value * 256 + ratio d0.value⟩,
        ⟨1, 0x620, ratio d1.value * 256 + ratio d1.value⟩] := by
  have hbyte : ∀ {frequency : ℚ}, InRange frequency → ratio frequency < 256 := fun h => by
    have hratioRange := ratio_range h
    omega
  have hvalue : ∀ {frequency : ℚ}, InRange frequency →
      strtoull (combinedHex (printHex02 (ratio frequency))) =
        ratio frequency * 256 + ratio frequency := fun h => strtoull_printHex02 (hbyte h) (hbyte h)
  simp only [msrWrites, setUncoreFreq, calculateRatio_eq hexact hparse0 hrange0,
    calculateRatio_eq hexact hparse1 hrange1, words_combinedHex (hbyte hrange0),
    words_combinedHex (hbyte hrange1), List.flatMap_cons, List.flatMap_nil, WrmsrCommand.writes,
    List.map_cons, List.map_nil, hvalue hrange0, hvalue hrange1, List.cons_append, List.nil_append]

/-- The text that a fixed number of decimals gives a number. -/
def printedDecimal (decimals : ℕ) (x : ℚ) : Decimal :=
  ⟨decide (x < 0), (roundHalfEven (x * 10 ^ decimals)).natAbs, decimals⟩

/-- A printed number denotes the number rounded to its decimals. -/
theorem value_printedDecimal (decimals : ℕ) (x : ℚ) :
    (printedDecimal decimals x).value = roundDecimal decimals x := by
  have hten : (0 : ℚ) < 10 ^ decimals := by positivity
  rw [Decimal.value, printedDecimal, roundDecimal]
  by_cases hneg : x < 0
  · have hround : roundHalfEven (x * 10 ^ decimals) ≤ 0 := by
      apply roundHalfEven_le
      rw [Int.cast_zero]
      exact (mul_neg_of_neg_of_pos hneg hten).le
    have habs : (((roundHalfEven (x * 10 ^ decimals)).natAbs : ℤ) : ℚ) =
        -(roundHalfEven (x * 10 ^ decimals) : ℚ) := by
      rw [Int.ofNat_natAbs_of_nonpos hround, Int.cast_neg]
    rw [Int.cast_natCast] at habs
    simp only [hneg, decide_true, if_true, habs]
    ring
  · have hround : 0 ≤ roundHalfEven (x * 10 ^ decimals) := by
      apply le_roundHalfEven
      rw [Int.cast_zero]
      exact mul_nonneg (not_lt.mp hneg) hten.le
    have habs : (((roundHalfEven (x * 10 ^ decimals)).natAbs : ℤ) : ℚ) =
        (roundHalfEven (x * 10 ^ decimals) : ℚ) := by
      rw [Int.natAbs_of_nonneg hround]
    rw [Int.cast_natCast] at habs
    simp only [hneg, decide_false, Bool.false_eq_true, if_false, one_mul, habs]

/-- A multiple of 0.1 GHz is commanded and read back exactly, however many decimals it is printed
with. -/
theorem msrWrites_printed {tools : Calculators} (hexact : tools.Exact) (script : Text)
    {decimals0 decimals1 : ℕ} (hdecimals0 : 0 < decimals0) (hdecimals1 : 0 < decimals1)
    {frequency0 frequency1 : ℚ} (htenths0 : frequency0 ∈ tenths) (htenths1 : frequency1 ∈ tenths)
    (hrange0 : InRange frequency0) (hrange1 : InRange frequency1) :
    (msrWrites tools script [(printedDecimal decimals0 frequency0).text,
        (printedDecimal decimals1 frequency1).text]).map
          (fun write => (write.cpu, readUncoreFrequency (some (rdmsr write.value)))) =
      [(0, frequency0), (1, frequency1)] := by
  have hprinted : ∀ {decimals : ℕ} {frequency : ℚ}, 0 < decimals → frequency ∈ tenths →
      (printedDecimal decimals frequency).value = frequency := by
    intro decimals frequency hdecimals htenths
    obtain ⟨k, rfl⟩ := htenths
    obtain ⟨n, rfl⟩ := Nat.exists_eq_add_one_of_ne_zero hdecimals.ne'
    rw [value_printedDecimal]
    apply roundDecimal_of_decimal (n := k * 10 ^ n)
    push_cast
    ring
  have hvalue0 := hprinted hdecimals0 htenths0
  have hvalue1 := hprinted hdecimals1 htenths1
  rw [msrWrites_eq hexact script (parseDecimal_text _) (parseDecimal_text _) (by rwa [hvalue0])
    (by rwa [hvalue1]), hvalue0, hvalue1]
  simp only [List.map_cons, List.map_nil, (encodes_ratio hrange0).readExact htenths0,
    (encodes_ratio hrange1).readExact htenths1]

/-- For all texts of two accepted frequencies, the script writes to each CPU a value that stands for
its frequency, and nothing else. -/
theorem setUncoreFreq_encodes (tools : Calculators) (hexact : tools.Exact)
    (script text0 text1 : Text) (d0 d1 : Decimal) (hparse0 : parseDecimal text0 = some d0)
    (hparse1 : parseDecimal text1 = some d1) (hrange0 : InRange d0.value)
    (hrange1 : InRange d1.value) :
    ∃ value0 value1, msrWrites tools script [text0, text1] =
        [⟨0, 0x620, value0⟩, ⟨1, 0x620, value1⟩] ∧
      Encodes value0 d0.value ∧ Encodes value1 d1.value :=
  ⟨_, _, msrWrites_eq hexact script hparse0 hparse1 hrange0 hrange1, encodes_ratio hrange0,
    encodes_ratio hrange1⟩

/-- Calculators that are exact on every decimal. -/
def exactCalculators : Calculators where
  bcMath program := match program.splitOn ' ' with
    | [left, [operator], right] => match parseDecimal left, parseDecimal right with
      | some x, some y =>
        if operator = '<' then if x.value < y.value then ['1'] else ['0']
        else if y.value < x.value then ['1'] else ['0']
      | _, _ => []
    | _ => []
  bc program := match program.splitOn ' ' with
    | [left, ['*'], ['1', '0']] => match parseDecimal left with
      | some x => Decimal.text ⟨x.negative, x.digits * 10, x.scale⟩
      | none => []
    | _ => []
  awkInteger line := match parseDecimal line with
    | some x => integerText (truncate x.value)
    | none => ['0']

/-- A decimal holds no space. -/
theorem space_notMem_of_parseDecimal {text : Text} {d : Decimal} (h : parseDecimal text = some d) :
    ' ' ∉ text := by
  intro hspace
  rcases mem_decimal h hspace with hdigit | heq | heq <;> exact absurd ‹_› (by decide)

/-- Two decimals around an operator are three fields. -/
theorem splitOn_operands {left right : Text} {x y : Decimal} (operator : Char)
    (hoperator : operator ≠ ' ') (hleft : parseDecimal left = some x)
    (hright : parseDecimal right = some y) :
    (left ++ [' ', operator, ' '] ++ right).splitOn ' ' = [left, [operator], right] := by
  have hmiddle : ' ' ∉ [operator] := by simpa using hoperator.symm
  have hfields : left ++ [' ', operator, ' '] ++ right =
      left ++ ' ' :: ([operator] ++ ' ' :: right) := by simp
  rw [hfields, List.splitOn_append_cons_self_of_not_mem (space_notMem_of_parseDecimal hleft),
    List.splitOn_append_cons_self_of_not_mem hmiddle,
    List.splitOn_eq_singleton (space_notMem_of_parseDecimal hright)]

/-- They are exact. -/
theorem exactCalculators_exact : exactCalculators.Exact where
  lessThan := by
    intro left right x y hleft hright
    have hfields := splitOn_operands '<' (by decide) hleft hright
    have hspelled : " < ".toList = [' ', '<', ' '] := rfl
    simp only [exactCalculators, hspelled, hfields, hleft, hright, if_true]
  greaterThan := by
    intro left right x y hleft hright
    have hfields := splitOn_operands '>' (by decide) hleft hright
    have hspelled : " > ".toList = [' ', '>', ' '] := rfl
    simp only [exactCalculators, hspelled, hfields, hleft, hright]
    rw [if_neg (by decide)]
  timesTen := by
    intro text x hparse
    have hten : parseDecimal ['1', '0'] = some ⟨false, 10, 0⟩ := parseDecimal_text ⟨false, 10, 0⟩
    have hfields := splitOn_operands '*' (by decide) hparse hten
    have hspelled : text ++ " * 10".toList = text ++ [' ', '*', ' '] ++ ['1', '0'] := by simp
    refine ⟨⟨x.negative, x.digits * 10, x.scale⟩, ?_, ?_⟩
    · rw [hspelled]
      simp only [exactCalculators, hfields, hparse]
      exact parseDecimal_text _
    · simp only [Decimal.value]
      push_cast
      ring
  integer := by
    intro text x hparse
    simp only [exactCalculators, hparse]

/-- The script and its calculators at work: 2.2 GHz with six decimals, and 0.85 GHz. -/
theorem setUncoreFreq_encodes_rendered :
    (parseDecimal "2.200000".toList = some ⟨false, 2200000, 6⟩ ∧
      parseDecimal "0.85".toList = some ⟨false, 85, 2⟩ ∧
      InRange (Decimal.value ⟨false, 2200000, 6⟩) ∧ InRange (Decimal.value ⟨false, 85, 2⟩)) ∧
    ∃ value0 value1,
      msrWrites exactCalculators "set_uncore_freq.sh".toList ["2.200000".toList, "0.85".toList] =
        [⟨0, 0x620, value0⟩, ⟨1, 0x620, value1⟩] ∧
      Encodes value0 (Decimal.value ⟨false, 2200000, 6⟩) ∧
      Encodes value1 (Decimal.value ⟨false, 85, 2⟩) := by
  have hparse0 : parseDecimal "2.200000".toList = some ⟨false, 2200000, 6⟩ :=
    parseDecimal_text ⟨false, 2200000, 6⟩
  have hparse1 : parseDecimal "0.85".toList = some ⟨false, 85, 2⟩ :=
    parseDecimal_text ⟨false, 85, 2⟩
  have hrange0 : InRange (Decimal.value ⟨false, 2200000, 6⟩) := by norm_num [InRange, Decimal.value]
  have hrange1 : InRange (Decimal.value ⟨false, 85, 2⟩) := by norm_num [InRange, Decimal.value]
  exact ⟨⟨hparse0, hparse1, hrange0, hrange1⟩, setUncoreFreq_encodes exactCalculators
    exactCalculators_exact _ _ _ _ _ hparse0 hparse1 hrange0 hrange1⟩

end NodePower.Uncore
