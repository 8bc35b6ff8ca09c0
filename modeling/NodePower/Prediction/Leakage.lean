import Mathlib.Algebra.Field.Rat
import Mathlib.Data.Prod.Lex
import Mathlib.Data.Rat.Defs
import Mathlib.Data.String.Basic
import Mathlib.Algebra.BigOperators.Group.List.Defs
import NodePower.Prediction.PerformanceMatrix

/-!
# What the predictions of one application depend on

The matrix is shared by all rounds of step 6. The first round trains on the measured entries
and its own sample; it then fills its column with predictions, and every later round takes
these as labels. A round is therefore independent of the other applications exactly when it
is the first.
-/

namespace NodePower.Prediction

variable {Pair Name Features Value : Type*} [LinearOrder Pair] [LinearOrder Name]

/-- The measured entries of the training applications. -/
def measuredTriples (appData : AppData Pair Name Value) : Set (Pair × Name × Value) :=
  {triple | ∃ app ∈ appData.apps, app.name = triple.2.1 ∧
    (triple.1, some triple.2.2) ∈ app.performance}

/-- The sampled predictions of an application. -/
def sampledTriples (learners : Learners Pair Features Value)
    (app : NewApp Pair Name Features Value) : Set (Pair × Name × Value) :=
  {triple | triple.1 ∈ sampledPairs learners app ∧ triple.2.1 = app.name ∧
    triple.2.2 = predictedValue learners app triple.1}

/-- The files of a directory of validation applications, none of which is a training application. -/
structure ValidationFiles (Features : Type*) (appData : AppData Pair Name Value) where
  files : List (NewApp Pair Name Features Value)
  names_nodup : (files.map NewApp.name).Nodup
  names_new : ∀ app ∈ files, app.name ∉ appData.apps.map TrainingApp.name

/-- The sample of an application is not empty, its power pairs were measured for the training
applications, and the file has a performance for each. -/
def Usable (learners : Learners Pair Features Value) (appData : AppData Pair Name Value)
    (app : NewApp Pair Name Features Value) : Prop :=
  (∀ pair ∈ sampledPairs learners app, pair ∈ appData.powerPairs) ∧
    scoreable (trueValues learners app) = true

/-- Over two lists of validation files, the model for an application is trained on the same entries:
the measured ones and its own sampled predictions. -/
def TrainsIndependently (learners : Learners Pair Features Value)
    (appData : AppData Pair Name Value) (app : NewApp Pair Name Features Value)
    (first second : ValidationFiles Features appData) : Prop :=
  ∃ triples triples', trainingTriples learners appData first.files app.name = some triples ∧
    trainingTriples learners appData second.files app.name = some triples' ∧
    {triple | triple ∈ triples} = {triple | triple ∈ triples'} ∧
    {triple | triple ∈ triples} = measuredTriples appData ∪ sampledTriples learners app

/-- In a list without duplicate keys, every pair is found by its key. -/
theorem lookup_eq_some_iff_mem {A B : Type*} [DecidableEq A] {pairs : List (A × B)}
    (hnodup : (pairs.map Prod.fst).Nodup) {a : A} {b : B} :
    pairs.lookup a = some b ↔ (a, b) ∈ pairs := by
  induction pairs with
  | nil => simp
  | cons pair rest ih =>
    obtain ⟨a', b'⟩ := pair
    rw [List.map_cons, List.nodup_cons] at hnodup
    rw [List.lookup_cons, List.mem_cons, Prod.mk.injEq]
    by_cases ha : a = a'
    · subst ha
      have hrest : (a, b) ∉ rest := fun hmem => hnodup.1 (List.mem_map.mpr ⟨(a, b), hmem, rfl⟩)
      simp [hrest, eq_comm]
    · simp [ha, beq_false_of_ne ha, ih hnodup.2]

/-- The matrix after the columns of some applications have been set. -/
theorem setColumns_spec (apps : List (TrainingApp Pair Name Value))
    (hnodup : (apps.map TrainingApp.name).Nodup) (matrix : PerformanceMatrix Pair Name Value)
    (hcolumns : ∀ app ∈ apps, app.name ∈ matrix.columns) :
    let result := apps.foldl (fun matrix app => matrix.setColumn app.name app.column) matrix
    result.index = matrix.index ∧ result.columns = matrix.columns ∧
      (∀ app ∈ apps, ∀ pair, result.cell pair app.name = app.column pair) ∧
      ∀ name ∉ apps.map TrainingApp.name, ∀ pair, result.cell pair name = matrix.cell pair name := by
  induction apps generalizing matrix with
  | nil => simp
  | cons app rest ih =>
    rw [List.map_cons, List.nodup_cons] at hnodup
    have hname : app.name ∈ matrix.columns := hcolumns app List.mem_cons_self
    have hkept : (matrix.setColumn app.name app.column).columns = matrix.columns := if_pos hname
    obtain ⟨hindex, hcolumns', hset, hother⟩ := ih hnodup.2
      (matrix.setColumn app.name app.column)
      (fun later hlater => hkept ▸ hcolumns later (List.mem_cons_of_mem _ hlater))
    refine ⟨hindex, hcolumns'.trans hkept, ?_, ?_⟩
    · intro other hother' pair
      rcases List.mem_cons.mp hother' with rfl | hrest
      · rw [List.foldl_cons, hother _ hnodup.1]
        exact if_pos rfl
      · exact hset other hrest pair
    · intro name hname' pair
      rw [List.map_cons, List.mem_cons, not_or] at hname'
      rw [List.foldl_cons, hother name hname'.2]
      exact if_neg hname'.1

/-- The rows of the matrix are the measured power pairs, and its columns the training applications. -/
theorem performanceMatrix_labels (appData : AppData Pair Name Value) :
    (∀ pair, pair ∈ (performanceMatrix appData).index ↔ pair ∈ appData.powerPairs) ∧
      ∀ name, name ∈ (performanceMatrix appData).columns ↔
        name ∈ appData.apps.map TrainingApp.name := by
  have hspec := setColumns_spec appData.apps appData.names_nodup
    { index := appData.powerPairs.dedup.mergeSort (· ≤ ·)
      columns := (appData.apps.map TrainingApp.name).mergeSort (· ≤ ·)
      cell := fun _ _ => none }
    (fun app happ => List.mem_mergeSort.mpr (List.mem_map_of_mem happ))
  constructor
  · intro pair
    rw [performanceMatrix, hspec.1, List.mem_mergeSort, List.mem_dedup]
  · intro name
    rw [performanceMatrix, hspec.2.1, List.mem_mergeSort]

/-- The entries of the matrix are the measured ones. -/
theorem mem_entries_performanceMatrix (appData : AppData Pair Name Value)
    (triple : Pair × Name × Value) :
    triple ∈ (performanceMatrix appData).entries ↔ triple ∈ measuredTriples appData := by
  obtain ⟨pair, name, value⟩ := triple
  obtain ⟨hindex, hcolumns⟩ := performanceMatrix_labels appData
  have hspec := setColumns_spec appData.apps appData.names_nodup
    { index := appData.powerPairs.dedup.mergeSort (· ≤ ·)
      columns := (appData.apps.map TrainingApp.name).mergeSort (· ≤ ·)
      cell := fun _ _ => none }
    (fun app happ => List.mem_mergeSort.mpr (List.mem_map_of_mem happ))
  have hcell : ∀ app ∈ appData.apps, (performanceMatrix appData).cell pair app.name = some value ↔
      (pair, some value) ∈ app.performance := by
    intro app happ
    have hcolumn : (performanceMatrix appData).cell pair app.name = app.column pair :=
      hspec.2.2.1 app happ pair
    rw [hcolumn, TrainingApp.column, Option.join_eq_some_iff, lookup_eq_some_iff_mem app.pairs_nodup]
  rw [DataFrame.mem_entries, hindex, hcolumns, measuredTriples, Set.mem_ofPred_eq]
  constructor
  · intro hentry
    obtain ⟨-, hname, hvalue⟩ := hentry
    obtain ⟨app, happ, rfl⟩ := List.mem_map.mp hname
    exact ⟨app, happ, rfl, (hcell app happ).mp hvalue⟩
  · intro hmeasured
    obtain ⟨app, happ, hname, hvalue⟩ := hmeasured
    simp only at hname
    subst hname
    refine ⟨?_, List.mem_map_of_mem happ, (hcell app happ).mpr hvalue⟩
    exact List.mem_flatMap.mpr ⟨app, happ, List.mem_map_of_mem hvalue⟩

variable {learners : Learners Pair Features Value} {app : NewApp Pair Name Features Value}
  {matrix sparse filled : PerformanceMatrix Pair Name Value}

/-- What the first half of a round leaves: a new column with the sampled predictions. -/
theorem constructSparse_eq_some_iff :
    constructSparse learners app matrix = some sparse ↔
      (∀ pair ∈ sampledPairs learners app, pair ∈ matrix.index) ∧
        scoreable (trueValues learners app) = true ∧
        sparse = { (matrix.setColumn app.name fun _ => none) with
          cell := fun pair name =>
            if pair ∈ sampledPairs learners app ∧ name = app.name then
              some (predictedValue learners app pair)
            else (matrix.setColumn app.name fun _ => none).cell pair name } := by
  rw [constructSparse]
  simp only [Option.bind_eq_bind, Option.bind_eq_some_iff, DataFrame.setRows_eq_some_iff,
    Option.ite_none_right_eq_some, Option.some.injEq]
  constructor
  · rintro ⟨result, ⟨hindex, hresult⟩, hscoreable, rfl⟩
    exact ⟨hindex, hscoreable, hresult⟩
  · rintro ⟨hindex, hscoreable, hsparse⟩
    exact ⟨sparse, ⟨hindex, hsparse⟩, hscoreable, rfl⟩

/-- What the second half of a round leaves: the same labels, the same other columns, and no missing
cell in its own. -/
theorem predictMissing_spec (hfilled : predictMissing learners app sparse = some filled) :
    filled.index = sparse.index ∧ filled.columns = sparse.columns ∧
      (∀ pair name, name ≠ app.name → filled.cell pair name = sparse.cell pair name) ∧
      ∀ pair ∈ sparse.index, filled.cell pair app.name ≠ none := by
  simp only [predictMissing, Option.ite_none_right_eq_some, Option.some.injEq] at hfilled
  obtain ⟨-, rfl⟩ := hfilled
  obtain ⟨hindex, hcolumns, hother, hpresent⟩ := DataFrame.fillMissing_spec sparse app.name
    (fun pair => learners.trainNcf sparse.index.length sparse.columns.length (trainData sparse)
      (sparse.index.idxOf pair) (sparse.columns.idxOf app.name)) sparse.index
  exact ⟨hindex, hcolumns, hother, fun pair hpair => hpresent pair (Or.inl hpair)⟩

/-- The entries of the other columns are kept by a round, up to the training and after it. -/
theorem mem_entries_round (hsparse : constructSparse learners app matrix = some sparse)
    {pair : Pair} {name : Name} {value : Value} (hname : name ≠ app.name)
    (hentry : (pair, name, value) ∈ matrix.entries) :
    (pair, name, value) ∈ sparse.entries ∧
      ∀ {filled}, predictMissing learners app sparse = some filled →
        (pair, name, value) ∈ filled.entries := by
  obtain ⟨-, -, rfl⟩ := constructSparse_eq_some_iff.mp hsparse
  obtain ⟨hpair, hcolumn, hvalue⟩ := DataFrame.mem_entries.mp hentry
  have hkept : name ∈ (matrix.setColumn app.name fun _ => none).columns := by
    simp only [DataFrame.setColumn]
    split
    · exact hcolumn
    · exact List.mem_append_left _ hcolumn
  constructor
  · refine DataFrame.mem_entries.mpr ⟨hpair, hkept, ?_⟩
    simp [DataFrame.setColumn, hname, hvalue]
  · intro filled hfilled
    obtain ⟨hindex, hcolumns, hother, -⟩ := predictMissing_spec hfilled
    rw [DataFrame.mem_entries, hindex, hcolumns, hother pair name hname]
    refine ⟨hpair, hkept, ?_⟩
    simp [DataFrame.setColumn, hname, hvalue]

/-- A round that comes to its end leaves a prediction in the matrix. -/
theorem exists_mem_entries_filled (hsparse : constructSparse learners app matrix = some sparse)
    (hfilled : predictMissing learners app sparse = some filled) :
    ∃ pair value, (pair, app.name, value) ∈ filled.entries := by
  obtain ⟨hindex, hscoreable, rfl⟩ := constructSparse_eq_some_iff.mp hsparse
  have hsampled : ∃ pair, pair ∈ sampledPairs learners app := by
    apply List.exists_mem_of_ne_nil
    intro hnil
    simp [scoreable, trueValues, hnil] at hscoreable
  obtain ⟨pair, hpair⟩ := hsampled
  have hcolumn : app.name ∈ (matrix.setColumn app.name fun _ => none).columns := by
    simp only [DataFrame.setColumn]
    split
    · assumption
    · exact List.mem_append_right _ (List.mem_singleton_self _)
  obtain ⟨hindex', hcolumns', -, hpresent⟩ := predictMissing_spec hfilled
  obtain ⟨value, hvalue⟩ := Option.ne_none_iff_exists'.mp (hpresent pair (hindex pair hpair))
  refine ⟨pair, value, DataFrame.mem_entries.mpr ?_⟩
  rw [hindex', hcolumns']
  exact ⟨hindex pair hpair, hcolumn, hvalue⟩

/-- An entry of the matrix is among those that every later model is trained on. -/
theorem mem_step6_of_mem_entries {files : List (NewApp Pair Name Features Value)} {pair : Pair}
    {name : Name} {value : Value} (hnames : name ∉ files.map NewApp.name)
    (hentry : (pair, name, value) ∈ matrix.entries) {other : Name}
    {triples : List (Pair × Name × Value)}
    (hlookup : (step6 learners matrix files).lookup other = some triples) :
    (pair, name, value) ∈ triples := by
  induction files generalizing matrix with
  | nil => simp [step6] at hlookup
  | cons file rest ih =>
    rw [List.map_cons, List.mem_cons, not_or] at hnames
    cases hsparse : constructSparse learners file matrix with
    | none => simp [step6, hsparse] at hlookup
    | some sparse =>
      obtain ⟨htrained, hlater⟩ := mem_entries_round hsparse hnames.1 hentry
      simp only [step6, hsparse, List.lookup_cons] at hlookup
      split at hlookup
      · obtain rfl := Option.some.inj hlookup
        exact htrained
      · cases hfilled : predictMissing learners file sparse with
        | none => simp [hfilled] at hlookup
        | some filled =>
          simp only [hfilled] at hlookup
          exact ih hnames.2 (hlater hfilled) hlookup

/-- The first round trains on the measured entries and its own sample, if it can be used at all. -/
theorem trainingTriples_of_first {appData : AppData Pair Name Value}
    (hnew : app.name ∉ appData.apps.map TrainingApp.name)
    (rest : List (NewApp Pair Name Features Value)) :
    (Usable learners appData app → ∃ triples,
        trainingTriples learners appData (app :: rest) app.name = some triples ∧
        {triple | triple ∈ triples} = measuredTriples appData ∪ sampledTriples learners app) ∧
      (trainingTriples learners appData (app :: rest) app.name ≠ none → Usable learners appData app) := by
  obtain ⟨hindex, hcolumns⟩ := performanceMatrix_labels appData
  constructor
  · intro husable
    have hsparse := constructSparse_eq_some_iff.mpr
      ⟨fun pair hpair => (hindex pair).mpr (husable.1 pair hpair), husable.2, rfl⟩
    refine ⟨_, by rw [trainingTriples, step6, hsparse]; exact List.lookup_cons_self, ?_⟩
    ext triple
    obtain ⟨pair, name, value⟩ := triple
    rw [Set.mem_union, ← mem_entries_performanceMatrix, Set.mem_ofPred_eq, DataFrame.mem_entries,
      DataFrame.mem_entries]
    have hcolumn := (hcolumns app.name).not.mpr hnew
    by_cases hname : name = app.name
    · subst hname
      have hsampled : pair ∈ sampledPairs learners app → pair ∈ (performanceMatrix appData).index :=
        fun hpair => (hindex pair).mpr (husable.1 pair hpair)
      simp only [DataFrame.setColumn, hcolumn, if_false, List.mem_append, List.mem_singleton, or_true,
        true_and, and_true, if_true, false_and, and_false, false_or, sampledTriples, Set.mem_ofPred_eq]
      by_cases hpair : pair ∈ sampledPairs learners app
      · simp [hpair, hsampled hpair, eq_comm]
      · simp [hpair]
    · have hother : (pair, name, value) ∉ sampledTriples learners app := fun h => hname h.2.1
      simp [DataFrame.setColumn, hcolumn, hname, hother]
  · intro htrained
    cases hsparse : constructSparse learners app (performanceMatrix appData) with
    | none => simp [trainingTriples, step6, hsparse] at htrained
    | some sparse =>
      obtain ⟨hsampled, hscoreable, -⟩ := constructSparse_eq_some_iff.mp hsparse
      exact ⟨fun pair hpair => (hindex pair).mp (hsampled pair hpair), hscoreable⟩

/-- A model that is trained after another application was evaluated is trained on a prediction for
it. -/
theorem trainingTriples_of_later {appData : AppData Pair Name Value}
    (files : ValidationFiles Features appData) (hmem : app ∈ files.files)
    (hlater : files.files.head? ≠ some app) {triples : List (Pair × Name × Value)}
    (htriples : trainingTriples learners appData files.files app.name = some triples) :
    {triple | triple ∈ triples} ≠ measuredTriples appData ∪ sampledTriples learners app := by
  obtain ⟨files, hnodup, hnew⟩ := files
  cases files with
  | nil => exact absurd hmem List.not_mem_nil
  | cons earlier rest =>
    have hrest : app ∈ rest := by
      rcases List.mem_cons.mp hmem with rfl | hrest
      · exact absurd rfl hlater
      · exact hrest
    rw [List.map_cons, List.nodup_cons] at hnodup
    have hname : app.name ≠ earlier.name := fun heq => hnodup.1 (heq ▸ List.mem_map_of_mem hrest)
    cases hsparse : constructSparse learners earlier (performanceMatrix appData) with
    | none => simp [trainingTriples, step6, hsparse] at htriples
    | some sparse =>
      simp only [trainingTriples, step6, hsparse, List.lookup_cons, beq_false_of_ne hname] at htriples
      cases hfilled : predictMissing learners earlier sparse with
      | none => simp [hfilled] at htriples
      | some filled =>
        simp only [hfilled] at htriples
        obtain ⟨pair, value, hentry⟩ := exists_mem_entries_filled hsparse hfilled
        have hleaked := mem_step6_of_mem_entries hnodup.1 hentry htriples
        intro heq
        have hallowed : (pair, earlier.name, value) ∈
            measuredTriples appData ∪ sampledTriples learners app := heq ▸ hleaked
        rcases hallowed with hmeasured | hsampled
        · obtain ⟨training, htraining, htrainingName, -⟩ := hmeasured
          exact hnew earlier List.mem_cons_self
            (List.mem_map.mpr ⟨training, htraining, htrainingName⟩)
        · exact hname hsampled.2.1.symm

/-- Each of two lists has to have the application in front. -/
theorem head_of_trainsIndependently {appData : AppData Pair Name Value}
    {files : ValidationFiles Features appData} (hmem : app ∈ files.files)
    {triples : List (Pair × Name × Value)}
    (htriples : trainingTriples learners appData files.files app.name = some triples)
    (hset : {triple | triple ∈ triples} = measuredTriples appData ∪ sampledTriples learners app) :
    files.files.head? = some app := by
  by_contra hlater
  exact trainingTriples_of_later files hmem hlater htriples hset

/-- The model for an application is trained on the same entries over two lists, the measured ones and
its own sample, exactly when both lists evaluate the application first and it can be used. -/
theorem trainsIndependently_iff_first (learners : Learners Pair Features Value)
    (appData : AppData Pair Name Value) (app : NewApp Pair Name Features Value)
    (first second : ValidationFiles Features appData) (hfirst : app ∈ first.files)
    (hsecond : app ∈ second.files) :
    TrainsIndependently learners appData app first second ↔
      first.files.head? = some app ∧ second.files.head? = some app ∧
        Usable learners appData app := by
  have hnew : app.name ∉ appData.apps.map TrainingApp.name := first.names_new app hfirst
  constructor
  · intro hindependent
    obtain ⟨triples, triples', htriples, htriples', hsame, hset⟩ := hindependent
    have hhead := head_of_trainsIndependently hfirst htriples hset
    have hhead' := head_of_trainsIndependently hsecond htriples' (hsame ▸ hset)
    refine ⟨hhead, hhead', ?_⟩
    obtain ⟨rest, hrest⟩ := List.head?_eq_some_iff.mp hhead
    apply (trainingTriples_of_first hnew rest).2
    rw [← hrest, htriples]
    exact Option.some_ne_none _
  · intro hcondition
    obtain ⟨hhead, hhead', husable⟩ := hcondition
    obtain ⟨rest, hrest⟩ := List.head?_eq_some_iff.mp hhead
    obtain ⟨rest', hrest'⟩ := List.head?_eq_some_iff.mp hhead'
    obtain ⟨triples, htriples, hset⟩ := (trainingTriples_of_first hnew rest).1 husable
    obtain ⟨triples', htriples', hset'⟩ := (trainingTriples_of_first hnew rest').1 husable
    rw [← hrest] at htriples
    rw [← hrest'] at htriples'
    exact ⟨triples, triples', htriples, htriples', hset.trans hset'.symm, hset⟩

/-- Three power pairs measured for one training application. -/
def measuredBfs : AppData (ℕ ×ₗ ℕ) String ℚ where
  apps := [{
    name := "bfs"
    performance := [(toLex (120, 150), some (637 / 1000)), (toLex (160, 200), some (8 / 10)),
      (toLex (200, 250), some 1)]
    pairs_nodup := by decide }]
  names_nodup := by decide

/-- A validation application with the same power pairs. -/
def sweptApp (name : String) : NewApp (ℕ ×ₗ ℕ) String (List ℚ) ℚ where
  name := name
  rows := [⟨toLex (120, 150), [120, 150], some (6 / 10)⟩, ⟨toLex (160, 200), [160, 200], some (8 / 10)⟩,
    ⟨toLex (200, 250), [200, 250], some 1⟩]

/-- A sample from the front, a network that adds up the features, and a model that always gives the
sum of its labels. -/
def summingLearners : Learners (ℕ ×ₗ ℕ) (List ℚ) ℚ where
  sample rows := rows.take ((rows.length + 2) / 5)
  network features := (features.map List.sum).sum
  trainNcf _ _ data _ _ := (data.map Prod.snd).sum

/-- An application evaluated alone. -/
def aloneFiles : ValidationFiles (List ℚ) measuredBfs where
  files := [sweptApp "sw4lite"]
  names_nodup := by simp
  names_new := by simp [sweptApp, measuredBfs]

/-- The same application evaluated before another one. -/
def firstFiles : ValidationFiles (List ℚ) measuredBfs where
  files := [sweptApp "sw4lite", sweptApp "Laghos"]
  names_nodup := by simp [sweptApp]
  names_new := by simp [sweptApp, measuredBfs]

/-- The same application evaluated after another one. -/
def laterFiles : ValidationFiles (List ℚ) measuredBfs where
  files := [sweptApp "Laghos", sweptApp "sw4lite"]
  names_nodup := by simp [sweptApp]
  names_new := by simp [sweptApp, measuredBfs]

/-- Evaluated alone or before another application, the model is trained on the same entries. -/
theorem trainsIndependently_iff_first_alone :
    TrainsIndependently summingLearners measuredBfs (sweptApp "sw4lite") aloneFiles firstFiles := by
  have husable : Usable summingLearners measuredBfs (sweptApp "sw4lite") := by
    constructor <;> decide
  exact (trainsIndependently_iff_first summingLearners measuredBfs (sweptApp "sw4lite") aloneFiles
    firstFiles List.mem_cons_self List.mem_cons_self).mpr ⟨rfl, rfl, husable⟩

/-- Evaluated after another application, the model is trained on predictions for that one too. -/
theorem trainsIndependently_fails_after_another :
    ¬ ∀ (learners : Learners (ℕ ×ₗ ℕ) (List ℚ) ℚ) (appData : AppData (ℕ ×ₗ ℕ) String ℚ)
      (app : NewApp (ℕ ×ₗ ℕ) String (List ℚ) ℚ) (first second : ValidationFiles (List ℚ) appData),
      app ∈ first.files → app ∈ second.files →
        TrainsIndependently learners appData app first second := by
  intro hevery
  have hmem : sweptApp "sw4lite" ∈ laterFiles.files := List.mem_cons_of_mem _ List.mem_cons_self
  have hhead : laterFiles.files.head? ≠ some (sweptApp "sw4lite") := by
    intro heq
    have hname := congrArg (Option.map NewApp.name) heq
    simp [laterFiles, sweptApp] at hname
  obtain ⟨triples, triples', -, htriples', hsame, hset⟩ := hevery summingLearners measuredBfs
    (sweptApp "sw4lite") aloneFiles laterFiles List.mem_cons_self hmem
  exact trainingTriples_of_later laterFiles hmem hhead htriples' (hsame ▸ hset)

end NodePower.Prediction
