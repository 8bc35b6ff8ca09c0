import NodePower.Common.DecimalText
import NodePower.Common.DecimalRounding

/-!
# Setting and reading the uncore frequency

`set_uncore_freq.sh` is given one decimal for each CPU. It turns each into a ratio of
100 MHz, prints the ratio as two hexadecimal digits, and writes them twice, as the maximum
and the minimum ratio, to register `0x620`. The range test and the arithmetic are done by
`bc` and `awk`, on texts. `read_uncore_freq.py` reads register `0x621`, where the current
ratio stands in the low byte, and turns it into a frequency.
-/

namespace NodePower.Uncore

/-- The programs that the script pipes texts through: `bc -l`, `bc`, and
`awk '{printf "%d\n", $1}'`, each with the line that it prints for a line. -/
structure Calculators where
  bcMath : Text → Text
  bc : Text → Text
  awkInteger : Text → Text

/-- Decimals are compared and multiplied by ten exactly, and `%d` drops the fraction. -/
structure Calculators.Exact (tools : Calculators) : Prop where
  lessThan : ∀ {left right : Text} {x y : Decimal}, parseDecimal left = some x →
    parseDecimal right = some y →
      tools.bcMath (left ++ " < ".toList ++ right) = if x.value < y.value then ['1'] else ['0']
  greaterThan : ∀ {left right : Text} {x y : Decimal}, parseDecimal left = some x →
    parseDecimal right = some y →
      tools.bcMath (left ++ " > ".toList ++ right) = if y.value < x.value then ['1'] else ['0']
  timesTen : ∀ {text : Text} {x : Decimal}, parseDecimal text = some x →
    ∃ product, parseDecimal (tools.bc (text ++ " * 10".toList)) = some product ∧
      product.value = x.value * 10
  integer : ∀ {text : Text} {x : Decimal}, parseDecimal text = some x →
    tools.awkInteger text = integerText (truncate x.value)

/-- The characters that separate words. -/
def isBlank (c : Char) : Bool := c = ' ' || c = '\t' || c = '\n'

/-- The words of an expansion that is not quoted. -/
def words (text : Text) : List Text := (text.splitOnP isBlank).filter (· ≠ [])

/-- The arithmetic test `(( ... ))` of an answer of `bc`. -/
def holds (answer : Text) : Bool := answer ≠ [] ∧ answer ≠ ['0']

/-- `printf '%02X'` of the words it is given. -/
def printf (arguments : List Text) : Text :=
  if arguments = [] then printHex02 0 else arguments.flatMap fun word => printHex02 (strtoull word)

/-- What `calculate_ratio` prints. Its `exit 1` ends only the subshell of the command
substitution, whose status the script does not look at. -/
def calculateRatio (tools : Calculators) (argument : Text) : Text :=
  let frequencyGhz := (words argument).headD []
  if holds (tools.bcMath (frequencyGhz ++ " < ".toList ++ "0.8".toList)) ||
      holds (tools.bcMath (frequencyGhz ++ " > ".toList ++ "2.4".toList)) then
    "Error: Frequency must be between 0.8 GHz and 2.4 GHz".toList
  else
    let ratio := tools.awkInteger (tools.bc (frequencyGhz ++ " * 10".toList))
    printf (words ratio)

/-- The combined value for minimum and maximum. -/
def combinedHex (ratioHex : Text) : Text := "0x".toList ++ (ratioHex ++ ratioHex)

/-- The command `wrmsr -p cpu register` with its values. -/
structure WrmsrCommand where
  cpu : ℕ
  register : ℕ
  values : List Text
  deriving DecidableEq

/-- The lines printed for a wrong number of arguments. -/
def usage (script : Text) : List Text :=
  ["Usage: ".toList ++ script ++ " <FREQUENCY_GHz_CPU0> <FREQUENCY_GHz_CPU1>".toList,
    "Example: ".toList ++ script ++ " 2.2 1.8".toList]

/-- The script: the commands it runs, or the lines it prints before it exits with status 1. -/
def setUncoreFreq (tools : Calculators) (script : Text) (arguments : List Text) :
    Except (List Text) (List WrmsrCommand) :=
  match arguments with
  | [frequencyGhzCpu0, frequencyGhzCpu1] =>
    let ratioHexCpu0 := calculateRatio tools frequencyGhzCpu0
    let ratioHexCpu1 := calculateRatio tools frequencyGhzCpu1
    .ok [⟨0, 0x620, words (combinedHex ratioHexCpu0)⟩, ⟨1, 0x620, words (combinedHex ratioHexCpu1)⟩]
  | _ => .error (usage script)

/-- One write to a register. -/
structure MsrWrite where
  cpu : ℕ
  register : ℕ
  value : ℕ
  deriving DecidableEq

/-- `wrmsr` writes its values one after the other. -/
def WrmsrCommand.writes (command : WrmsrCommand) : List MsrWrite :=
  command.values.map fun value => ⟨command.cpu, command.register, strtoull value⟩

/-- The writes of a run of the script. -/
def msrWrites (tools : Calculators) (script : Text) (arguments : List Text) : List MsrWrite :=
  match setUncoreFreq tools script arguments with
  | .ok commands => commands.flatMap WrmsrCommand.writes
  | .error _ => []

/-- What `rdmsr` prints for a register. -/
def rdmsr (value : ℕ) : Text := Nat.toDigits 16 value

/-- `read_uncore_frequency` of what `rdmsr` printed, or of its failure. -/
def readUncoreFrequency : Option Text → ℚ
  | some msrValue =>
    let frequencyRatio := leadingNumeral 16 msrValue &&& 0xFF
    frequencyRatio * 100 / 1000
  | none => 0

/-- Digits, points and signs are one word. -/
theorem words_eq_singleton {text : Text} (hne : text ≠ []) (hchars : ∀ c ∈ text, isBlank c = false) :
    words text = [text] := by
  rw [words, List.splitOnP_eq_singleton hchars, List.filter_singleton]
  simp [hne]

/-- A digit is no blank. -/
theorem isBlank_of_isDigit {c : Char} (hc : c.isDigit) : isBlank c = false := by
  rw [Bool.eq_false_iff]
  intro hblank
  simp only [isBlank, Bool.or_eq_true, decide_eq_true_eq] at hblank
  rcases hblank with (rfl | rfl) | rfl <;> exact absurd hc (by decide)

/-- A decimal is one word. -/
theorem words_of_parseDecimal {text : Text} {d : Decimal} (h : parseDecimal text = some d) :
    words text = [text] := by
  apply words_eq_singleton (decimal_ne_nil h)
  intro c hc
  rcases mem_decimal h hc with hdigit | rfl | rfl
  · exact isBlank_of_isDigit hdigit
  · rfl
  · rfl

/-- The digits of a number are one word. -/
theorem words_toDigits (n : ℕ) : words (Nat.toDigits 10 n) = [Nat.toDigits 10 n] :=
  words_eq_singleton Nat.toDigits_ne_nil fun _ hc => isBlank_of_isDigit (isDigit_of_mem_toDigits hc)

/-- Hexadecimal digits are no blanks. -/
theorem isBlank_digitChar_toUpper : ∀ digit < 16, isBlank digit.digitChar.toUpper = false := by decide

/-- The combined value of a byte is one word. -/
theorem words_combinedHex {n : ℕ} (hn : n < 256) :
    words (combinedHex (printHex02 n)) = [combinedHex (printHex02 n)] := by
  have hmarker : ∀ c ∈ "0x".toList, isBlank c = false := by simp [isBlank]
  apply words_eq_singleton (by simp [combinedHex])
  intro c hc
  simp only [combinedHex, printHex02_eq hn, List.mem_append, List.mem_cons, List.not_mem_nil,
    or_false, or_self] at hc
  rcases hc with hc | rfl | rfl
  · exact hmarker c hc
  · exact isBlank_digitChar_toUpper _ (by omega)
  · exact isBlank_digitChar_toUpper _ (by omega)

end NodePower.Uncore
