import Mathlib.Data.List.Dedup
import Mathlib.Data.List.Sort
import Mathlib.Order.Defs.LinearOrder
import NodePower.Common.DataFrame

/-!
# The performance matrix of the prediction notebook

Step 5 of `prediction.ipynb` combines the measured performance of the training applications
in one matrix of power pairs and applications. For every validation application, step 6 adds
a column, predicts a fifth of the power pairs with the trained network, trains a model for
collaborative filtering on all entries of the matrix and fills the rest of the column with it.

The network with its scalers, the training of the second model and the random sample are not
in the notebook. A prediction is a number; a performance that is missing from a file is
`none`. A step that raises an exception ends the loop.
-/

namespace NodePower.Prediction

variable {Pair Name Features Value : Type*} [LinearOrder Pair] [LinearOrder Name]

/-- A training application. A file that has a power pair twice cannot be aligned with the matrix. -/
structure TrainingApp (Pair Name Value : Type*) where
  name : Name
  performance : List (Pair × Option Value)
  pairs_nodup : (performance.map Prod.fst).Nodup

/-- The dictionary of the training applications. -/
structure AppData (Pair Name Value : Type*) where
  apps : List (TrainingApp Pair Name Value)
  names_nodup : (apps.map TrainingApp.name).Nodup

/-- A row of a validation file. -/
structure Row (Pair Features Value : Type*) where
  powerPair : Pair
  features : Features
  performance : Option Value

/-- A validation application and its file. -/
structure NewApp (Pair Name Features Value : Type*) where
  name : Name
  rows : List (Row Pair Features Value)

/-- What the notebook takes from its libraries: the random sample of a fifth of the rows, the
prediction for the features of the rows of one power pair, and the training of the model for
collaborative filtering from the sizes of its embeddings and the labelled pairs of indices. -/
structure Learners (Pair Features Value : Type*) where
  sample : List (Row Pair Features Value) → List (Row Pair Features Value)
  network : List Features → Value
  trainNcf : ℕ → ℕ → List ((ℕ × ℕ) × Value) → ℕ → ℕ → Value

/-- The matrix of power pairs and applications. -/
abbrev PerformanceMatrix (Pair Name Value : Type*) := DataFrame Pair Name Value

/-- The power pairs of the training files. -/
def AppData.powerPairs (appData : AppData Pair Name Value) : List Pair :=
  appData.apps.flatMap fun app => app.performance.map Prod.fst

/-- The column of a training application, aligned with the power pairs. -/
def TrainingApp.column (app : TrainingApp Pair Name Value) (pair : Pair) : Option Value :=
  (app.performance.lookup pair).join

/-- Step 5: the measured performance of the training applications. -/
def performanceMatrix (appData : AppData Pair Name Value) : PerformanceMatrix Pair Name Value :=
  appData.apps.foldl (fun matrix app => matrix.setColumn app.name app.column)
    { index := appData.powerPairs.dedup.mergeSort (· ≤ ·)
      columns := (appData.apps.map TrainingApp.name).mergeSort (· ≤ ·)
      cell := fun _ _ => none }

variable (learners : Learners Pair Features Value) (app : NewApp Pair Name Features Value)

/-- The power pairs of the sampled rows. -/
def sampledPairs : List Pair := ((learners.sample app.rows).map Row.powerPair).eraseDups

/-- The prediction of the network for a power pair. -/
def predictedValue (pair : Pair) : Value :=
  learners.network ((app.rows.filter fun row => row.powerPair = pair).map Row.features)

/-- The performance that the file has for each sampled power pair. -/
def trueValues : List (Option Value) :=
  (sampledPairs learners app).filterMap fun pair =>
    (app.rows.find? fun row => row.powerPair = pair).map Row.performance

/-- The error metrics refuse an empty list and a missing number. -/
def scoreable (values : List (Option Value)) : Bool := !values.isEmpty && values.all Option.isSome

/-- The first half of step 6: a new column, and the network's predictions for the sample. -/
def constructSparse (matrix : PerformanceMatrix Pair Name Value) :
    Option (PerformanceMatrix Pair Name Value) := do
  let sparse ← (matrix.setColumn app.name fun _ => none).setRows app.name
    (predictedValue learners app) (sampledPairs learners app)
  if scoreable (trueValues learners app) then some sparse else none

/-- The indices and labels on which the second model is trained. -/
def trainData (matrix : PerformanceMatrix Pair Name Value) : List ((ℕ × ℕ) × Value) :=
  matrix.entries.map fun (pair, name, label) =>
    ((matrix.index.idxOf pair, matrix.columns.idxOf name), label)

/-- The second half of step 6: the rest of the column is filled by the model trained on the matrix,
and the column is compared with the file. -/
def predictMissing (sparse : PerformanceMatrix Pair Name Value) :
    Option (PerformanceMatrix Pair Name Value) :=
  let ncfModel := learners.trainNcf sparse.index.length sparse.columns.length (trainData sparse)
  let filled := sparse.fillMissing app.name
    (fun pair => ncfModel (sparse.index.idxOf pair) (sparse.columns.idxOf app.name)) sparse.index
  let predictedValues := app.rows.map fun row =>
    if row.powerPair ∈ filled.index then filled.cell row.powerPair app.name else none
  if scoreable (app.rows.map Row.performance) && scoreable predictedValues then some filled else none

/-- Step 6: the entries on which a model is trained for each validation application, up to the first
exception. -/
def step6 (matrix : PerformanceMatrix Pair Name Value) :
    List (NewApp Pair Name Features Value) → List (Name × List (Pair × Name × Value))
  | [] => []
  | app :: rest =>
    match constructSparse learners app matrix with
    | none => []
    | some sparse =>
      (app.name, sparse.entries) ::
        match predictMissing learners app sparse with
        | none => []
        | some filled => step6 filled rest

/-- The entries on which the model for one application is trained, if the loop gets there. -/
def trainingTriples (appData : AppData Pair Name Value)
    (files : List (NewApp Pair Name Features Value)) (name : Name) :
    Option (List (Pair × Name × Value)) :=
  (step6 learners (performanceMatrix appData) files).lookup name

end NodePower.Prediction
