import NodePower.Common.CString
import NodePower.Ups.Monitor

/-!
# Instructions per cycle from the output of perf

`collect_ipc` reads the output of `perf stat` line by line into one buffer. A line that mentions
`instructions` is cut at its first comma and gives the instructions; the test for `cycles`
then looks at what the cut has left. Counts are taken as exact numbers.
-/

namespace NodePower.Ups

/-- The word that the source looks for to find the instructions. -/
def instructionsName : Text := "instructions".toList

/-- The word that it looks for to find the cycles. -/
def cyclesName : Text := "cycles".toList

/-- The body of the loop over the lines. Converting a token that `strtok` has not found is undefined. -/
def readPerfLine (counts : PerfCounts) (characters : Text) : Option PerfCounts := do
  let line := cString characters
  let (instructions, line) ←
    if strstr line instructionsName then do
      let (token, line) := strtok ',' line
      let value ← token.bind atof
      some (value, line)
    else some (counts.instructions, line)
  let cycles ←
    if strstr line cyclesName then (strtok ',' line).1.bind atof
    else some counts.cycles
  some ⟨instructions, cycles⟩

/-- The loop over what is left of the output, with a buffer of 256 characters. -/
def readPerf (counts : PerfCounts) (stream : Text) : Option PerfCounts :=
  match _h : fgets 256 stream with
  | none => some counts
  | some (characters, rest) => (readPerfLine counts characters).bind fun counts => readPerf counts rest
termination_by stream.length
decreasing_by exact length_of_fgets (by decide) _h

/-- `collect_ipc` on the output of the pipe; there is none when it cannot be opened. -/
def collectIpcOutput : Option Text → Option ℚ
  | none => some (collectIpc none)
  | some output => (readPerf ⟨0, 0⟩ output).map fun counts => collectIpc (some counts)

/-- A line of perf's output: it fits into the buffer, and a count stands in front of its first comma
if it mentions one of the two events. -/
structure PerfLine where
  text : Text
  short : text.length < 255
  oneLine : '\n' ∉ text
  plain : '\x00' ∉ text
  counted : strstr text instructionsName = true ∨ strstr text cyclesName = true →
    ∃ field rest d, text = field ++ ',' :: rest ∧ parseMagnitude false field = some d

/-- The output that consists of the given lines. -/
def perfOutput (lines : List PerfLine) : Text := lines.flatMap fun line => line.text ++ ['\n']

/-- A line that mentions instructions. -/
def PerfLine.countsInstructions (line : PerfLine) : Bool := strstr line.text instructionsName

/-- A line that mentions cycles but not instructions. -/
def PerfLine.countsCycles (line : PerfLine) : Bool :=
  strstr line.text cyclesName && !line.countsInstructions

/-- The number in front of the first comma, and zero if there is none. -/
def PerfLine.firstField (line : PerfLine) : ℚ :=
  (parseMagnitude false (line.text.takeWhile (· ≠ ','))).elim 0 Decimal.value

/-- The first field of the last line of a kind, and a given number if there is none. -/
def lastField (kind : PerfLine → Bool) (absent : ℚ) (lines : List PerfLine) : ℚ :=
  (lines.filter kind).getLast?.elim absent PerfLine.firstField

/-- At the end of the output the loop leaves the counts as they are. -/
theorem readPerf_nil (counts : PerfCounts) : readPerf counts [] = some counts := by
  rw [readPerf]
  rfl

/-- A line that fits into the buffer goes through the body of the loop with its end. -/
theorem readPerf_line (counts : PerfCounts) (line : PerfLine) (rest : Text) :
    readPerf counts (line.text ++ ['\n'] ++ rest) =
      (readPerfLine counts (line.text ++ ['\n'])).bind fun counts => readPerf counts rest := by
  have hfits : line.text.length + 1 < 256 := Nat.succ_lt_succ line.short
  have hread := fgets_line line.oneLine hfits rest
  rw [← List.append_cons, readPerf]
  split
  · rename_i hnone
    rw [hread] at hnone
    exact absurd hnone (by simp)
  · rename_i hsome
    rw [hread] at hsome
    obtain ⟨rfl, rfl⟩ := Prod.mk.inj (Option.some.inj hsome)
    rfl

/-- The buffer holds the line and its end. -/
theorem cString_line (line : PerfLine) : cString (line.text ++ ['\n']) = line.text ++ ['\n'] := by
  refine cString_of_not_mem ?_
  rw [List.mem_append, List.mem_singleton]
  exact not_or.mpr ⟨line.plain, by decide⟩

/-- The cut at the first comma leaves the first field, which is read as the count and does not
mention cycles. -/
theorem strtok_line (line : PerfLine)
    (hcounted : strstr line.text instructionsName = true ∨
      strstr line.text cyclesName = true) :
    ∃ field, strtok ',' (line.text ++ ['\n']) = (some field, field) ∧
      atof field = some line.firstField ∧ strstr field cyclesName = false := by
  obtain ⟨field, rest, d, htext, hfield⟩ := line.counted hcounted
  have hnot : ∀ c, c.isDigit = false → c ≠ '.' → c ∉ field := by
    intro c hdigit hpoint hc
    rcases mem_magnitude hfield hc with h | h
    · exact ne_true_of_eq_false hdigit h
    · exact hpoint h
  have hcomma : ',' ∉ field := hnot ',' (by decide) (by decide)
  have hne : field ≠ [] := by
    intro hnil
    rw [hnil] at hfield
    exact absurd hfield (by simp [parseMagnitude])
  have hvalue : line.firstField = d.value := by
    rw [PerfLine.firstField, htext, takeWhile_until hcomma, hfield]
    rfl
  refine ⟨field, ?_, ?_, ?_⟩
  · rw [htext, List.append_assoc, List.cons_append]
    exact strtok_field hne hcomma (rest ++ ['\n'])
  · rw [hvalue]
    exact atof_magnitude hfield
  · exact strstr_of_not_mem (c := 'c') (by decide) (hnot 'c' (by decide) (by decide))

/-- A line sets the count of the one event that it is taken for. -/
theorem readPerfLine_line (counts : PerfCounts) (line : PerfLine) :
    readPerfLine counts (line.text ++ ['\n']) =
      some ⟨if line.countsInstructions then line.firstField else counts.instructions,
        if line.countsCycles then line.firstField else counts.cycles⟩ := by
  have hmentions : ∀ word : Text, word ≠ [] → '\n' ∉ word →
      strstr (line.text ++ ['\n']) word = strstr line.text word :=
    fun word hne hend => strstr_concat hne hend line.text
  have hinstructions := hmentions instructionsName (by decide) (by decide)
  have hcycles := hmentions cyclesName (by decide) (by decide)
  rcases Bool.eq_false_or_eq_true (strstr line.text instructionsName) with hfirst | hfirst
  · obtain ⟨field, htoken, hvalue, hcut⟩ := strtok_line line (Or.inl hfirst)
    simp [readPerfLine, cString_line, PerfLine.countsCycles, PerfLine.countsInstructions,
      hinstructions, hfirst, htoken, hvalue, hcut]
  · rcases Bool.eq_false_or_eq_true (strstr line.text cyclesName) with hsecond | hsecond
    · obtain ⟨field, htoken, hvalue, _⟩ := strtok_line line (Or.inr hsecond)
      simp [readPerfLine, cString_line, PerfLine.countsCycles, PerfLine.countsInstructions,
        hinstructions, hfirst, hcycles, hsecond, htoken, hvalue]
    · simp [readPerfLine, cString_line, PerfLine.countsCycles, PerfLine.countsInstructions,
        hinstructions, hfirst, hcycles, hsecond]

/-- With one line in front, the last line of a kind is among the others if they have one. -/
theorem lastField_cons (kind : PerfLine → Bool) (absent : ℚ) (line : PerfLine) (lines : List PerfLine) :
    lastField kind absent (line :: lines) =
      lastField kind (if kind line then line.firstField else absent) lines := by
  cases hkind : kind line with
  | false =>
    rw [lastField, lastField, List.filter_cons_of_neg (ne_true_of_eq_false hkind),
      if_neg Bool.false_ne_true]
  | true =>
    rw [lastField, lastField, List.filter_cons_of_pos hkind, List.getLast?_cons, if_pos rfl]
    cases (lines.filter kind).getLast? with
    | none => rfl
    | some last => rfl

/-- The loop leaves the first fields of the last lines of each kind. -/
theorem readPerf_perfOutput (counts : PerfCounts) (lines : List PerfLine) :
    readPerf counts (perfOutput lines) =
      some ⟨lastField PerfLine.countsInstructions counts.instructions lines,
        lastField PerfLine.countsCycles counts.cycles lines⟩ := by
  induction lines generalizing counts with
  | nil => exact readPerf_nil counts
  | cons line lines ih =>
    rw [perfOutput, List.flatMap_cons, readPerf_line, readPerfLine_line, Option.bind_some,
      ← perfOutput, ih, lastField_cons, lastField_cons]

/-- A first field is not negative. -/
theorem firstField_nonneg (line : PerfLine) : 0 ≤ line.firstField := by
  rw [PerfLine.firstField]
  cases h : parseMagnitude false (line.text.takeWhile (· ≠ ',')) with
  | none => exact le_refl 0
  | some d =>
    obtain ⟨_, _, _, _, _, rfl⟩ := exists_digits_of_magnitude h
    simp only [Option.elim_some, Decimal.value, Bool.false_eq_true, if_false, one_mul]
    positivity

/-- The last field of a kind is not negative. -/
theorem lastField_nonneg (kind : PerfLine → Bool) (lines : List PerfLine) :
    0 ≤ lastField kind 0 lines := by
  rw [lastField]
  cases (lines.filter kind).getLast? with
  | none => exact le_refl 0
  | some line => exact firstField_nonneg line

/-- The result is the quotient of the first fields of the last line that mentions instructions and
the last line that mentions cycles but not instructions, and zero without cycles. -/
theorem collectIpcOutput_perfOutput (lines : List PerfLine) :
    collectIpcOutput (some (perfOutput lines)) =
      some (if lastField PerfLine.countsCycles 0 lines = 0 then 0
        else lastField PerfLine.countsInstructions 0 lines /
          lastField PerfLine.countsCycles 0 lines) := by
  have hnonneg := lastField_nonneg PerfLine.countsCycles lines
  rw [collectIpcOutput, readPerf_perfOutput, Option.map_some, collectIpc]
  by_cases hzero : lastField PerfLine.countsCycles 0 lines = 0
  · rw [if_pos hzero, if_neg (by rw [hzero]; exact lt_irrefl 0)]
  · rw [if_neg hzero, if_pos (lt_of_le_of_ne hnonneg (Ne.symm hzero))]

/-- A line with the instructions whose metric mentions cycles. -/
def stalledLine : PerfLine where
  text := "1500,,instructions:u,1000,100.00,0.50,stalled cycles per insn".toList
  short := by decide
  oneLine := by decide
  plain := by decide
  counted _ := ⟨"1500".toList, ",instructions:u,1000,100.00,0.50,stalled cycles per insn".toList,
    ⟨false, 1500, 0⟩, by decide, by decide⟩

/-- A line with the cycles. -/
def cyclesLine : PerfLine where
  text := "2000,,cycles:u,1000,100.00,,".toList
  short := by decide
  oneLine := by decide
  plain := by decide
  counted _ := ⟨"2000".toList, ",cycles:u,1000,100.00,,".toList, ⟨false, 2000, 0⟩, by decide, by decide⟩

/-- The cycles that the metric mentions are not taken for the count, before or behind it. -/
theorem collectIpcOutput_perfOutput_stalled :
    strstr stalledLine.text cyclesName = true ∧
      collectIpcOutput (some (perfOutput [cyclesLine, stalledLine])) = some (3 / 4) ∧
      collectIpcOutput (some (perfOutput [stalledLine, cyclesLine])) = some (3 / 4) := by
  have hcycles : ∀ lines ∈ [[cyclesLine, stalledLine], [stalledLine, cyclesLine]],
      lastField PerfLine.countsCycles 0 lines = 2000 ∧
        lastField PerfLine.countsInstructions 0 lines = 1500 := by
    decide +kernel
  refine ⟨by decide, ?_, ?_⟩
  · obtain ⟨hcount, hinstructions⟩ := hcycles [cyclesLine, stalledLine] (by simp)
    rw [collectIpcOutput_perfOutput, hcount, hinstructions]
    norm_num
  · obtain ⟨hcount, hinstructions⟩ := hcycles [stalledLine, cyclesLine] (by simp)
    rw [collectIpcOutput_perfOutput, hcount, hinstructions]
    norm_num

end NodePower.Ups
