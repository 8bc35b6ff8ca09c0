import NodePower.Uncore.RoundTrip

/-!
# The range test of the uncore script

`calculate_ratio` tests its argument and on a failure prints a message and exits. It runs in
a command substitution: the message becomes the ratio and the script goes on. So both
`wrmsr` commands run for every pair of arguments, and for two frequencies the script does as
it should exactly when both are accepted.

An argument is expanded without quotes, so its frequency is its first word.
-/

namespace NodePower.Uncore

/-- The commands that a run of the script performs. -/
def performed : Except (List Text) (List WrmsrCommand) → List WrmsrCommand
  | .ok commands => commands
  | .error _ => []

/-- The exit status of the script, 1 or that of its last command. -/
def exitStatus (wrmsr : WrmsrCommand → ℕ) : Except (List Text) (List WrmsrCommand) → ℕ
  | .ok commands => (commands.getLast?.map wrmsr).getD 0
  | .error _ => 1

/-- The word of an argument that the script takes for the frequency. -/
def frequencyWord (argument : Text) : Text := (words argument).headD []

/-- An argument gives a frequency. -/
def IsFrequency (argument : Text) : Prop := ∃ d, parseDecimal (frequencyWord argument) = some d

/-- An argument gives a frequency in the range of the script. -/
def Accepted (argument : Text) : Prop :=
  ∃ d, parseDecimal (frequencyWord argument) = some d ∧ InRange d.value

/-- An argument gives a frequency outside the range of the script. -/
def OutOfRange (argument : Text) : Prop :=
  ∃ d, parseDecimal (frequencyWord argument) = some d ∧ ¬ InRange d.value

/-- A hexadecimal digit in upper case. -/
def IsHexDigit (c : Char) : Prop := c.isDigit ∨ ('A' ≤ c ∧ c ≤ 'F')

instance (c : Char) : Decidable (IsHexDigit c) := inferInstanceAs (Decidable (_ ∨ _))

/-- A register value with the same ratio of two digits in both bytes. -/
def IsRegisterValue (value : Text) : Prop :=
  ∃ high low, IsHexDigit high ∧ IsHexDigit low ∧ value = ['0', 'x', high, low, high, low]

/-- A run changes both CPUs or none: it stops if a frequency is out of range, and it passes nothing
but register values to `wrmsr`. -/
structure AllOrNothing (tools : Calculators) (wrmsr : WrmsrCommand → ℕ) (script text0 text1 : Text) :
    Prop where
  rejected : OutOfRange text0 ∨ OutOfRange text1 →
    performed (setUncoreFreq tools script [text0, text1]) = [] ∧
      exitStatus wrmsr (setUncoreFreq tools script [text0, text1]) ≠ 0
  both : (∃ command ∈ performed (setUncoreFreq tools script [text0, text1]), command.cpu = 0) ↔
    ∃ command ∈ performed (setUncoreFreq tools script [text0, text1]), command.cpu = 1
  values : ∀ command ∈ performed (setUncoreFreq tools script [text0, text1]),
    ∃ value, command.values = [value] ∧ IsRegisterValue value

/-- The commands of a run over any two arguments. -/
theorem performed_setUncoreFreq (tools : Calculators) (script text0 text1 : Text) :
    performed (setUncoreFreq tools script [text0, text1]) =
      [⟨0, 0x620, words (combinedHex (calculateRatio tools text0))⟩,
        ⟨1, 0x620, words (combinedHex (calculateRatio tools text1))⟩] := rfl

/-- The script computes with the word that it takes for the frequency. -/
theorem calculateRatio_frequencyWord (tools : Calculators) {argument : Text} {d : Decimal}
    (hparse : parseDecimal (frequencyWord argument) = some d) :
    calculateRatio tools argument = calculateRatio tools (frequencyWord argument) := by
  have hword : (words (frequencyWord argument)).headD [] = (words argument).headD [] := by
    rw [words_of_parseDecimal hparse]
    rfl
  simp only [calculateRatio, hword]

/-- The two digits of a byte are hexadecimal. -/
theorem isHexDigit_digitChar_toUpper : ∀ digit < 16, IsHexDigit digit.digitChar.toUpper := by decide

/-- An accepted frequency becomes a register value. -/
theorem isRegisterValue_of_accepted {tools : Calculators} (hexact : tools.Exact) {text : Text}
    (haccepted : Accepted text) :
    ∃ value, words (combinedHex (calculateRatio tools text)) = [value] ∧ IsRegisterValue value := by
  obtain ⟨d, hparse, hrange⟩ := haccepted
  have hratio := ratio_range hrange
  have hbyte : ratio d.value < 256 := by omega
  refine ⟨combinedHex (printHex02 (ratio d.value)), ?_, ?_⟩
  · rw [calculateRatio_frequencyWord tools hparse, calculateRatio_eq hexact hparse hrange,
      words_combinedHex hbyte]
  · refine ⟨_, _, isHexDigit_digitChar_toUpper (ratio d.value / 16) (by omega),
      isHexDigit_digitChar_toUpper (ratio d.value % 16) (by omega), ?_⟩
    rw [printHex02_eq hbyte]
    rfl

/-- A frequency that is not accepted is out of range, and the other way round. -/
theorem outOfRange_iff_not_accepted {argument : Text} (hfrequency : IsFrequency argument) :
    OutOfRange argument ↔ ¬ Accepted argument := by
  obtain ⟨d, hparse⟩ := hfrequency
  rw [OutOfRange, Accepted, hparse]
  simp

/-- An argument that is a decimal without blanks is its own frequency. -/
theorem frequencyWord_text (d : Decimal) : parseDecimal (frequencyWord d.text) = some d := by
  have hparse := parseDecimal_text d
  rw [frequencyWord, words_of_parseDecimal hparse]
  exact hparse

end NodePower.Uncore
