import NodePower.Prediction.Leakage

/-!
# The matrix that the prediction notebook saves

When step 6 has gone through the validation applications, the matrix has a column for each of them. It
has no missing cell, and the columns of the other applications hold what they held before. No round
raises an exception if the files are complete, name no power pair that is not in the matrix, and leave
something to be sampled.
-/

namespace NodePower.Prediction

variable {Pair Name Features Value : Type*} [LinearOrder Pair] [LinearOrder Name]

/-- One round of step 6. -/
def predictRound (learners : Learners Pair Features Value) (matrix : PerformanceMatrix Pair Name Value)
    (app : NewApp Pair Name Features Value) : Option (PerformanceMatrix Pair Name Value) :=
  (constructSparse learners app matrix).bind (predictMissing learners app)

/-- The matrix after step 6, if no round raises an exception. -/
def predictColumns (learners : Learners Pair Features Value) (matrix : PerformanceMatrix Pair Name Value)
    (files : List (NewApp Pair Name Features Value)) : Option (PerformanceMatrix Pair Name Value) :=
  files.foldlM (predictRound learners) matrix

/-- A column without missing cells. -/
def CompleteColumn (matrix : PerformanceMatrix Pair Name Value) (name : Name) : Prop :=
  name ∈ matrix.columns ∧ ∀ pair ∈ matrix.index, matrix.cell pair name ≠ none

/-- A file that a round can use: it has rows, each with a performance and a power pair of the matrix, and
the sample has some of them. -/
structure CompleteFile (learners : Learners Pair Features Value) (index : List Pair)
    (app : NewApp Pair Name Features Value) : Prop where
  sample_ne_nil : learners.sample app.rows ≠ []
  sample_subset : learners.sample app.rows ⊆ app.rows
  performance_ne_none : ∀ row ∈ app.rows, row.performance ≠ none
  mem_index : ∀ row ∈ app.rows, row.powerPair ∈ index

variable {learners : Learners Pair Features Value} {app : NewApp Pair Name Features Value}
  {matrix filled : PerformanceMatrix Pair Name Value} {files : List (NewApp Pair Name Features Value)}

/-- Every round that comes to its end has trained a model. -/
theorem step6_of_predictColumns (h : predictColumns learners matrix files = some filled) :
    (step6 learners matrix files).map Prod.fst = files.map NewApp.name := by
  induction files generalizing matrix with
  | nil => rfl
  | cons app rest ih =>
    rw [predictColumns, List.foldlM_cons, Option.bind_eq_bind, Option.bind_eq_some_iff] at h
    obtain ⟨next, hround, hrest⟩ := h
    obtain ⟨sparse, hsparse, hnext⟩ := Option.bind_eq_some_iff.mp hround
    simp only [step6, hsparse, hnext, List.map_cons, ih hrest]

/-- A round keeps the power pairs and the other columns, and completes its own one. -/
theorem predictRound_spec (h : predictRound learners matrix app = some filled) :
    filled.index = matrix.index ∧ (∀ name ∈ matrix.columns, name ∈ filled.columns) ∧
      (∀ pair name, name ≠ app.name → filled.cell pair name = matrix.cell pair name) ∧
      CompleteColumn filled app.name := by
  obtain ⟨sparse, hsparse, hfilled⟩ := Option.bind_eq_some_iff.mp h
  obtain ⟨hindex, hcolumns, hother, hown⟩ := predictMissing_spec hfilled
  obtain ⟨-, -, rfl⟩ := constructSparse_eq_some_iff.mp hsparse
  have hset : ∀ name, name ∈ (matrix.setColumn app.name fun _ => none).columns ↔
      name ∈ matrix.columns ∨ name = app.name := by
    intro name
    simp only [DataFrame.setColumn]
    split
    · rename_i hmem
      exact ⟨Or.inl, fun h => h.elim id fun heq => heq ▸ hmem⟩
    · rw [List.mem_append, List.mem_singleton]
  refine ⟨hindex, fun name hname => ?_, fun pair name hname => ?_, ?_, fun pair hpair => ?_⟩
  · rw [hcolumns, hset]
    exact Or.inl hname
  · rw [hother pair name hname]
    simp [DataFrame.setColumn, hname]
  · rw [hcolumns, hset]
    exact Or.inr rfl
  · rw [hindex] at hpair
    exact hown pair hpair

/-- A complete column stays complete in a round. -/
theorem CompleteColumn.round {name : Name} (hcolumn : CompleteColumn matrix name)
    (h : predictRound learners matrix app = some filled) : CompleteColumn filled name := by
  obtain ⟨hindex, hcolumns, hother, hown⟩ := predictRound_spec h
  by_cases hname : name = app.name
  · exact hname ▸ hown
  · refine ⟨hcolumns name hcolumn.1, fun pair hpair => ?_⟩
    rw [hother pair name hname]
    exact hcolumn.2 pair (hindex ▸ hpair)

/-- Step 6 keeps the power pairs and the columns of all other applications, and the columns of its own ones
are complete. -/
theorem predictColumns_spec (h : predictColumns learners matrix files = some filled) :
    filled.index = matrix.index ∧ (∀ name ∈ matrix.columns, name ∈ filled.columns) ∧
      (∀ pair, ∀ name ∉ files.map NewApp.name, filled.cell pair name = matrix.cell pair name) ∧
      (∀ name, CompleteColumn matrix name → CompleteColumn filled name) ∧
      ∀ app ∈ files, CompleteColumn filled app.name := by
  induction files generalizing matrix with
  | nil =>
    obtain rfl : matrix = filled := Option.some.inj h
    simp
  | cons app rest ih =>
    rw [predictColumns, List.foldlM_cons, Option.bind_eq_bind, Option.bind_eq_some_iff] at h
    obtain ⟨next, hround, hrest⟩ := h
    obtain ⟨hindex, hcolumns, hother, hown⟩ := predictRound_spec hround
    obtain ⟨hindex', hcolumns', hother', hkept, hfiles⟩ := ih hrest
    refine ⟨hindex'.trans hindex, fun name hname => hcolumns' name (hcolumns name hname),
      fun pair name hname => ?_, fun name hname => hkept name (hname.round hround), fun other hmem => ?_⟩
    · rw [List.map_cons, List.mem_cons, not_or] at hname
      rw [hother' pair name hname.2, hother pair name hname.1]
    · rcases List.mem_cons.mp hmem with rfl | hmem
      · exact hkept _ hown
      · exact hfiles other hmem

omit [LinearOrder Name] in
/-- The sample of a complete file can be scored. -/
theorem CompleteFile.sample_spec (h : CompleteFile learners matrix.index app) :
    (∀ pair ∈ sampledPairs learners app, pair ∈ matrix.index) ∧
      scoreable (trueValues learners app) = true := by
  have hmem : ∀ pair, pair ∈ sampledPairs learners app ↔
      ∃ row ∈ learners.sample app.rows, row.powerPair = pair := by
    intro pair
    rw [sampledPairs, List.mem_eraseDups, List.mem_map]
  -- every sampled power pair is that of a row of the file, so the file has a performance for it
  have hfound : ∀ pair ∈ sampledPairs learners app, ∃ row ∈ app.rows,
      app.rows.find? (fun row => row.powerPair = pair) = some row := by
    intro pair hpair
    obtain ⟨row, hrow, rfl⟩ := (hmem pair).mp hpair
    cases hfind : app.rows.find? fun other => other.powerPair = row.powerPair with
    | none =>
      have hnot := List.find?_eq_none.mp hfind row (h.sample_subset hrow)
      simp at hnot
    | some found => exact ⟨found, List.mem_of_find?_eq_some hfind, rfl⟩
  obtain ⟨sampled, hsampled⟩ := List.exists_mem_of_ne_nil _ h.sample_ne_nil
  have hpair : sampled.powerPair ∈ sampledPairs learners app := (hmem _).mpr ⟨sampled, hsampled, rfl⟩
  constructor
  · intro pair hpair
    obtain ⟨row, hrow, rfl⟩ := (hmem pair).mp hpair
    exact h.mem_index row (h.sample_subset hrow)
  · rw [scoreable, Bool.and_eq_true, Bool.not_eq_true', List.isEmpty_eq_false_iff, List.all_eq_true]
    constructor
    · obtain ⟨row, -, hfind⟩ := hfound _ hpair
      exact List.ne_nil_of_mem (List.mem_filterMap.mpr ⟨_, hpair, by rw [hfind, Option.map_some]⟩)
    · intro value hvalue
      obtain ⟨pair, hpair, hvalue⟩ := List.mem_filterMap.mp hvalue
      obtain ⟨row, hrow, hfind⟩ := hfound pair hpair
      rw [hfind, Option.map_some, Option.some.injEq] at hvalue
      rw [← hvalue, Option.isSome_iff_ne_none]
      exact h.performance_ne_none row hrow

/-- A round with a complete file comes to its end. -/
theorem exists_predictRound (h : CompleteFile learners matrix.index app) :
    ∃ filled, predictRound learners matrix app = some filled := by
  obtain ⟨hsampled, hscoreable⟩ := h.sample_spec
  have hsparse := constructSparse_eq_some_iff.mpr ⟨hsampled, hscoreable, rfl⟩
  have hrows : app.rows ≠ [] := by
    intro hnil
    exact h.sample_ne_nil (List.eq_nil_of_subset_nil (hnil ▸ h.sample_subset))
  rw [predictRound, hsparse, Option.bind_some, predictMissing]
  obtain ⟨hindex, -, -, hfilled⟩ := DataFrame.fillMissing_spec
    ({ (matrix.setColumn app.name fun _ => none) with
      cell := fun pair name =>
        if pair ∈ sampledPairs learners app ∧ name = app.name then
          some (predictedValue learners app pair)
        else (matrix.setColumn app.name fun _ => none).cell pair name })
    app.name _ matrix.index
  rw [if_pos]
  · exact ⟨_, rfl⟩
  · simp only [scoreable, Bool.and_eq_true, Bool.not_eq_true', List.isEmpty_eq_false_iff,
      List.all_eq_true, List.mem_map, ne_eq, List.map_eq_nil_iff]
    refine ⟨⟨hrows, ?_⟩, hrows, ?_⟩
    · rintro value ⟨row, hrow, rfl⟩
      exact Option.isSome_iff_ne_none.mpr (h.performance_ne_none row hrow)
    · rintro value ⟨row, hrow, rfl⟩
      have hpair := h.mem_index row hrow
      rw [if_pos (hindex.symm ▸ hpair), Option.isSome_iff_ne_none]
      exact hfilled _ (Or.inl hpair)

/-- Step 6 goes through complete files. -/
theorem exists_predictColumns (h : ∀ app ∈ files, CompleteFile learners matrix.index app) :
    ∃ filled, predictColumns learners matrix files = some filled := by
  induction files generalizing matrix with
  | nil => exact ⟨matrix, rfl⟩
  | cons app rest ih =>
    rw [List.forall_mem_cons] at h
    obtain ⟨next, hround⟩ := exists_predictRound h.1
    obtain ⟨hindex, -⟩ := predictRound_spec hround
    obtain ⟨filled, hrest⟩ := ih fun other hother => hindex ▸ h.2 other hother
    refine ⟨filled, ?_⟩
    rw [predictColumns, List.foldlM_cons, Option.bind_eq_bind, hround, Option.bind_some]
    exact hrest

end NodePower.Prediction
