import Mathlib.Data.List.Basic
import Mathlib.Logic.Function.Basic

/-!
# Labelled tables with missing cells

A table has labelled rows and columns and a cell for every pair of labels, which may be
missing. Columns are set as a whole, and single cells where the row exists. The entries of a
table are its cells that are not missing, column by column.
-/

namespace NodePower

/-- A table of labelled rows and columns; a cell without a number is `none`. -/
structure DataFrame (Row Column Value : Type*) where
  index : List Row
  columns : List Column
  cell : Row → Column → Option Value

namespace DataFrame

variable {Row Column Value : Type*} [DecidableEq Row] [DecidableEq Column]
  (frame : DataFrame Row Column Value)

/-- Set a column as a whole; a column with a new label comes last. -/
def setColumn (column : Column) (values : Row → Option Value) : DataFrame Row Column Value where
  index := frame.index
  columns := if column ∈ frame.columns then frame.columns else frame.columns ++ [column]
  cell row other := if other = column then values row else frame.cell row other

/-- Set one cell. -/
def setCell (row : Row) (column : Column) (value : Value) : DataFrame Row Column Value where
  index := frame.index
  columns := frame.columns
  cell r c := if r = row ∧ c = column then some value else frame.cell r c

/-- Set one cell by its labels, which fails for a row that the table does not have. -/
def setAt (row : Row) (column : Column) (value : Value) : Option (DataFrame Row Column Value) :=
  if row ∈ frame.index then some (frame.setCell row column value) else none

/-- The cells that are not missing, column by column. -/
def entries : List (Row × Column × Value) :=
  frame.columns.flatMap fun column =>
    frame.index.filterMap fun row => (frame.cell row column).map fun value => (row, column, value)

/-- Set the cells of a column for the given rows in order. -/
def setRows (column : Column) (value : Row → Value) (rows : List Row) :
    Option (DataFrame Row Column Value) :=
  rows.foldlM (fun frame row => frame.setAt row column (value row)) frame

/-- Fill the missing cells of a column for the given rows in order. -/
def fillMissing (column : Column) (value : Row → Value) (rows : List Row) :
    DataFrame Row Column Value :=
  rows.foldl (fun frame row =>
    if frame.cell row column = none then frame.setCell row column (value row) else frame) frame

variable {frame}

omit [DecidableEq Row] [DecidableEq Column] in
/-- An entry is a cell of the table that is not missing. -/
theorem mem_entries {row : Row} {column : Column} {value : Value} :
    (row, column, value) ∈ frame.entries ↔
      row ∈ frame.index ∧ column ∈ frame.columns ∧ frame.cell row column = some value := by
  simp only [entries, List.mem_flatMap, List.mem_filterMap, Option.map_eq_some_iff, Prod.mk.injEq]
  constructor
  · rintro ⟨c, hc, r, hr, v, hv, rfl, rfl, rfl⟩
    exact ⟨hr, hc, hv⟩
  · rintro ⟨hrow, hcolumn, hvalue⟩
    exact ⟨column, hcolumn, row, hrow, value, hvalue, rfl, rfl, rfl⟩

/-- Setting the cells of a column by their labels succeeds exactly for rows of the table; it changes
those cells only. -/
theorem setRows_eq_some_iff {column : Column} {value : Row → Value} {rows : List Row}
    {result : DataFrame Row Column Value} :
    frame.setRows column value rows = some result ↔
      (∀ row ∈ rows, row ∈ frame.index) ∧
        result = { frame with
          cell := fun r c => if r ∈ rows ∧ c = column then some (value r) else frame.cell r c } := by
  induction rows generalizing frame with
  | nil => simp [setRows, eq_comm]
  | cons row rest ih =>
    have hstep : frame.setRows column value (row :: rest) =
        (frame.setAt row column (value row)).bind fun next => next.setRows column value rest := rfl
    by_cases hrow : row ∈ frame.index
    · rw [hstep, setAt, if_pos hrow, Option.bind_some, ih, List.forall_mem_cons, and_assoc,
        and_iff_right hrow]
      refine and_congr_right fun _ => ?_
      have hcell : (fun r c => if r ∈ rest ∧ c = column then some (value r)
          else (frame.setCell row column (value row)).cell r c) =
          fun r c => if r ∈ row :: rest ∧ c = column then some (value r) else frame.cell r c := by
        funext r c
        by_cases hr : r = row
        · subst hr
          by_cases hc : c = column
          · simp [setCell, hc]
          · simp [setCell, hc]
        · simp [setCell, hr]
      rw [hcell]
      rfl
    · rw [hstep, setAt, if_neg hrow, Option.bind_none, List.forall_mem_cons]
      simp [hrow]

/-- Set one cell if it is missing. -/
def setMissing (frame : DataFrame Row Column Value) (row : Row) (column : Column) (value : Value) :
    DataFrame Row Column Value :=
  if frame.cell row column = none then frame.setCell row column value else frame

/-- Setting one missing cell leaves the labels and all other columns as they are, and in its column no
cell gets missing and the one set is not. -/
theorem setMissing_spec (frame : DataFrame Row Column Value) (row : Row) (column : Column)
    (value : Value) :
    (frame.setMissing row column value).index = frame.index ∧
      (frame.setMissing row column value).columns = frame.columns ∧
      (∀ r c, c ≠ column → (frame.setMissing row column value).cell r c = frame.cell r c) ∧
      ∀ r, (r = row ∨ frame.cell r column ≠ none) →
        (frame.setMissing row column value).cell r column ≠ none := by
  by_cases hnone : frame.cell row column = none
  · rw [setMissing, if_pos hnone]
    refine ⟨rfl, rfl, ?_, ?_⟩
    · intro r c hc
      exact if_neg fun hboth => hc hboth.2
    · intro r hr
      by_cases hrow : r = row
      · simp [setCell, hrow]
      · simpa [setCell, hrow] using hr.resolve_left hrow
  · rw [setMissing, if_neg hnone]
    refine ⟨rfl, rfl, fun _ _ _ => rfl, ?_⟩
    intro r hr
    rcases hr with rfl | hkept
    · exact hnone
    · exact hkept

/-- Filling a column leaves the labels and all other columns as they are, and none of its cells is
missing in the filled rows. -/
theorem fillMissing_spec (frame : DataFrame Row Column Value) (column : Column)
    (value : Row → Value) (rows : List Row) :
    (frame.fillMissing column value rows).index = frame.index ∧
      (frame.fillMissing column value rows).columns = frame.columns ∧
      (∀ r c, c ≠ column → (frame.fillMissing column value rows).cell r c = frame.cell r c) ∧
      ∀ r, (r ∈ rows ∨ frame.cell r column ≠ none) →
        (frame.fillMissing column value rows).cell r column ≠ none := by
  induction rows generalizing frame with
  | nil => simp [fillMissing]
  | cons row rest ih =>
    have hstep : frame.fillMissing column value (row :: rest) =
        (frame.setMissing row column (value row)).fillMissing column value rest := rfl
    obtain ⟨hindex, hcolumns, hother, hfilled⟩ := setMissing_spec frame row column (value row)
    obtain ⟨hindex', hcolumns', hother', hfilled'⟩ := ih (frame.setMissing row column (value row))
    rw [hstep]
    refine ⟨hindex'.trans hindex, hcolumns'.trans hcolumns, ?_, ?_⟩
    · intro r c hc
      rw [hother' r c hc, hother r c hc]
    · intro r hr
      rw [List.mem_cons, or_assoc] at hr
      rcases hr with hrow | hrest | hkept
      · exact hfilled' r (Or.inr (hfilled r (Or.inl hrow)))
      · exact hfilled' r (Or.inl hrest)
      · exact hfilled' r (Or.inr (hfilled r (Or.inr hkept)))

end DataFrame

end NodePower
