import NodePower.Common.DecimalRounding
import NodePower.Common.DecimalText

/-!
# Tables with separators

A row is written as its cells with a comma between them, and a table as its rows with the end of a line
behind each. As long as no cell contains one of the separators, the table is read back cell by cell.
-/

namespace NodePower

/-- A character that separates nothing. -/
def isPlain (c : Char) : Bool := c != ',' && c != '\n'

/-- A text without separators. -/
@[ext] structure Cell where
  text : Text
  plain : ∀ c ∈ text, isPlain c

/-- A cell with a fixed text. -/
def Cell.word (s : String) (plain : s.toList.all isPlain = true := by decide) : Cell :=
  ⟨s.toList, List.all_eq_true.mp plain⟩

/-- One text behind another. -/
def Cell.append (left right : Cell) : Cell where
  text := left.text ++ right.text
  plain c hc := (List.mem_append.mp hc).elim (left.plain c) (right.plain c)

instance : Append Cell := ⟨Cell.append⟩

/-- The text of two cells in one. -/
@[simp] theorem Cell.text_append (left right : Cell) : (left ++ right).text = left.text ++ right.text :=
  rfl

/-- A digit separates nothing. -/
theorem plain_of_isDigit {c : Char} (hc : c.isDigit) : isPlain c := by
  rw [isPlain, Bool.and_eq_true, bne_iff_ne, bne_iff_ne]
  constructor
  · rintro rfl
    exact absurd hc (by decide)
  · rintro rfl
    exact absurd hc (by decide)

/-- The digits of a number. -/
def Cell.number (n : ℕ) : Cell :=
  ⟨Nat.toDigits 10 n, fun _ hc => plain_of_isDigit (isDigit_of_mem_toDigits hc)⟩

/-- The digits of a number after zeros. -/
def Cell.padded (width n : ℕ) : Cell :=
  ⟨paddedDigits width n, fun _ hc => plain_of_isDigit (isDigit_of_mem_paddedDigits hc)⟩

/-- A number with a fixed number of decimals. -/
def fixedDecimal (decimals : ℕ) (x : ℚ) : Decimal :=
  ⟨decide (x < 0), (roundHalfEven (|x| * 10 ^ decimals)).toNat, decimals⟩

/-- The text of a number with a fixed number of decimals. -/
def Cell.fixed (decimals : ℕ) (x : ℚ) : Cell where
  text := (fixedDecimal decimals x).text
  plain c hc := by
    rcases mem_decimal (parseDecimal_text _) hc with hdigit | rfl | rfl
    · exact plain_of_isDigit hdigit
    · decide
    · decide

/-- `setw`: blanks in front up to a width. -/
def Cell.setw (width : ℕ) (cell : Cell) : Cell where
  text := cell.text.leftpad width ' '
  plain c hc := by
    rw [List.leftpad, List.mem_append] at hc
    rcases hc with hblank | hcell
    · rw [List.eq_of_mem_replicate hblank]
      decide
    · exact cell.plain c hcell

/-- A row as it is written, with the end of its line. -/
def writeRow (row : List Cell) : Text := [','].intercalate (row.map Cell.text) ++ ['\n']

/-- A table as it is written. -/
def writeTable (rows : List (List Cell)) : Text := rows.flatMap writeRow

/-- The cells of the lines that a text consists of. -/
def readTable (text : Text) : List (List Text) := (text.splitOn '\n').dropLast.map (·.splitOn ',')

/-- A row with a cell is read back from its line. -/
theorem splitOn_row {row : List Cell} (hrow : row ≠ []) :
    ([','].intercalate (row.map Cell.text)).splitOn ',' = row.map Cell.text := by
  apply List.splitOn_intercalate
  · intro text htext hcomma
    obtain ⟨cell, -, rfl⟩ := List.mem_map.mp htext
    exact absurd (cell.plain ',' hcomma) (by decide)
  · exact fun hnil => hrow (List.map_eq_nil_iff.mp hnil)

/-- A row does not end its line before its end. -/
theorem not_mem_row (row : List Cell) : '\n' ∉ [','].intercalate (row.map Cell.text) := by
  induction row with
  | nil => simp
  | cons cell rest ih =>
    have hcell : '\n' ∉ cell.text := fun hmem => absurd (cell.plain '\n' hmem) (by decide)
    cases rest with
    | nil => simpa using hcell
    | cons next rest =>
      rw [List.map_cons, List.map_cons, List.intercalate_cons_cons, ← List.map_cons]
      simp only [List.mem_append, List.mem_singleton, not_or]
      exact ⟨⟨hcell, by decide⟩, ih⟩

/-- The lines of a table, and nothing behind the last. -/
theorem splitOn_writeTable (rows : List (List Cell)) :
    (writeTable rows).splitOn '\n' = rows.map (fun row => [','].intercalate (row.map Cell.text)) ++ [[]] := by
  induction rows with
  | nil => rfl
  | cons row rest ih =>
    have hline : writeTable (row :: rest) =
        [','].intercalate (row.map Cell.text) ++ '\n' :: writeTable rest := by
      rw [writeTable, List.flatMap_cons, writeRow, List.append_assoc]
      rfl
    rw [hline, List.splitOn_append_cons_self_of_not_mem (not_mem_row row), ih]
    rfl

/-- A table whose rows have cells is read back. -/
theorem readTable_writeTable {rows : List (List Cell)} (hrows : ∀ row ∈ rows, row ≠ []) :
    readTable (writeTable rows) = rows.map fun row => row.map Cell.text := by
  rw [readTable, splitOn_writeTable, List.dropLast_concat, List.map_map]
  exact List.map_congr_left fun row hrow => splitOn_row (hrows row hrow)

/-- Different numbers have different digits. -/
theorem Cell.number_inj {a b : ℕ} (h : (Cell.number a).text = (Cell.number b).text) : a = b := by
  have hvalue := congrArg (fun digits => Nat.ofDigitChars 10 digits 0) h
  simpa only [Cell.number, Nat.ofDigitChars_ten_toDigits] using hvalue

end NodePower
