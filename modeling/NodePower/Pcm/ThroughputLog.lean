import NodePower.Pcm.Controller

/-!
# The throughput log of pcm-memory

Every sample is appended to a CSV file. The first call of a run is meant to fix the start time
and the first line to be the titles of the columns. Both depend on one static flag, which is
cleared when the file has been opened for the first time: until then each call fixes the start
time anew, and every run starts with the flag set, whatever the file already holds. Runs with
the same suite, benchmark and policy write to one file, which the first of them creates.
-/

namespace NodePower

/-- One call of the recorder: its sample, whether the file can be opened, and what the clock
reads on entry and once the file is open. -/
structure RecordCall where
  sample : Sample
  opens : Bool
  entryTime : ℚ
  currentTime : ℚ

/-- The static flag and the start time of a process. -/
structure RecorderState where
  firstWrite : Bool
  startTime : ℚ

/-- A line of the file: the titles of the columns, or the numbers of a row. -/
inductive LogLine where
  | header (titles : String)
  | row (elapsedTime sysReadDRAM sysWriteDRAM totalThroughput : ℚ)
  deriving DecidableEq

/-- The titles that the source writes. -/
def headerLine : LogLine :=
  .header "Time Elapsed (s), sys_mem_r(MB/s), sys_mem_w(MB/s), total(MB/s)"

/-- The row of a call, with the time since a given start. -/
def dataRow (startTime : ℚ) (call : RecordCall) : LogLine :=
  .row (call.currentTime - startTime) call.sample.sysReadDRAM call.sample.sysWriteDRAM
    call.sample.currentThroughput

/-- `record_mem_throughput`: the state it leaves and the lines it appends. -/
def recordMemThroughput (state : RecorderState) (call : RecordCall) :
    RecorderState × List LogLine :=
  let startTime := if state.firstWrite then call.entryTime else state.startTime
  if call.opens then
    (⟨false, startTime⟩,
      (if state.firstWrite then [headerLine] else []) ++ [dataRow startTime call])
  else
    (⟨state.firstWrite, startTime⟩, [])

/-- The state in which every process starts. -/
def recorderStart : RecorderState := ⟨true, 0⟩

/-- The lines that one run appends. -/
def runLines (run : List RecordCall) : List LogLine :=
  commandsOf (totalCalls recordMemThroughput recorderStart run)

/-- The file after several runs, each of which has appended its lines. -/
def throughputLog (runs : List (List RecordCall)) : List LogLine :=
  runs.flatMap runLines

/-- The rows that a run should leave: one for every successful call, with the time since the
first call of the run. -/
def expectedRows (run : List RecordCall) : List LogLine :=
  run.head?.elim [] fun first => (run.filter RecordCall.opens).map (dataRow first.entryTime)

/-- The file that several runs should leave: one line with the titles and then only rows. -/
def expectedLog (runs : List (List RecordCall)) : List LogLine :=
  if runs.flatMap expectedRows = [] then [] else headerLine :: runs.flatMap expectedRows

/-- The runs in which the file could be opened at least once. -/
def recorded (run : List RecordCall) : Bool := run.any RecordCall.opens

/-- At most one run records anything, and the clock has not moved before it opens the file. -/
structure RecordsAtOnce (runs : List (List RecordCall)) : Prop where
  single : (runs.filter recorded).length ≤ 1
  prompt : ∀ run ∈ runs, ∀ first ∈ run.head?, ∀ opened ∈ run.find? RecordCall.opens,
    opened.entryTime = first.entryTime

/-- Once the flag is cleared, every successful call appends one row with the time since the
fixed start. -/
theorem lines_after_header (startTime : ℚ) (run : List RecordCall) :
    commandsOf (totalCalls recordMemThroughput ⟨false, startTime⟩ run) =
      (run.filter RecordCall.opens).map (dataRow startTime) := by
  induction run with
  | nil => rfl
  | cons call rest ih =>
    cases hopens : call.opens <;>
      simp [totalCalls, recordMemThroughput, commandsOf, hopens, ← ih]

/-- While the flag is set, nothing is appended before the first successful call, which then
writes the titles and fixes the start time. -/
theorem lines_from_start (startTime : ℚ) (run : List RecordCall) :
    commandsOf (totalCalls recordMemThroughput ⟨true, startTime⟩ run) =
      (run.find? RecordCall.opens).elim [] fun opened =>
        headerLine :: (run.filter RecordCall.opens).map (dataRow opened.entryTime) := by
  induction run generalizing startTime with
  | nil => rfl
  | cons call rest ih =>
    cases hopens : call.opens with
    | true =>
      have hrest := lines_after_header call.entryTime rest
      rw [commandsOf] at hrest
      simp [totalCalls, recordMemThroughput, commandsOf, hopens, hrest]
    | false =>
      have hrest := ih call.entryTime
      rw [commandsOf] at hrest
      simp [totalCalls, recordMemThroughput, commandsOf, hopens, hrest]

/-- In a run that records anything there is a first call and a first successful one, which
comes first among the successful calls. -/
theorem exists_opened {run : List RecordCall} (hrecorded : recorded run = true) :
    ∃ first opened later, run.head? = some first ∧ run.find? RecordCall.opens = some opened ∧
      run.filter RecordCall.opens = opened :: later := by
  have hsome : (run.find? RecordCall.opens).isSome = true := by
    rw [List.find?_isSome]
    exact List.any_eq_true.mp hrecorded
  obtain ⟨opened, hopened⟩ := Option.isSome_iff_exists.mp hsome
  obtain ⟨later, hlater⟩ : ∃ later, run.filter RecordCall.opens = opened :: later := by
    rw [← List.head?_filter] at hopened
    exact List.head?_eq_some_iff.mp hopened
  cases run with
  | nil => exact absurd hopened (by simp)
  | cons first rest => exact ⟨first, opened, later, rfl, hopened, hlater⟩

/-- A run that never opens the file leaves no line and should leave none. -/
theorem lines_of_unrecorded {run : List RecordCall} (hrecorded : recorded run = false) :
    runLines run = [] ∧ expectedRows run = [] := by
  have hnone : ∀ call ∈ run, ¬ call.opens = true := by
    intro call hcall hopens
    exact absurd (List.any_eq_true.mpr ⟨call, hcall, hopens⟩) (by rw [← recorded, hrecorded]; simp)
  have hfilter := List.filter_eq_nil_iff.mpr hnone
  constructor
  · rw [runLines, recorderStart, lines_from_start, List.find?_eq_none.mpr hnone]
    rfl
  · cases run with
    | nil => rfl
    | cons first rest => rw [expectedRows, hfilter]; rfl

/-- What a run that records anything leaves, and what it should leave. -/
theorem lines_of_recorded {run : List RecordCall} (hrecorded : recorded run = true) :
    ∃ first opened later, run.head? = some first ∧ run.find? RecordCall.opens = some opened ∧
      runLines run = headerLine :: (opened :: later).map (dataRow opened.entryTime) ∧
      expectedRows run = (opened :: later).map (dataRow first.entryTime) := by
  obtain ⟨first, opened, later, hfirst, hopened, hlater⟩ := exists_opened hrecorded
  refine ⟨first, opened, later, hfirst, hopened, ?_, ?_⟩
  · rw [runLines, recorderStart, lines_from_start, hopened, hlater]
    rfl
  · rw [expectedRows, hfirst, hlater]
    rfl

/-- Only the runs that record anything contribute to what is collected run by run. -/
theorem flatMap_recorded {B : Type*} (f : List RecordCall → List B)
    (hf : ∀ run, recorded run = false → f run = []) (runs : List (List RecordCall)) :
    runs.flatMap f = (runs.filter recorded).flatMap f := by
  induction runs with
  | nil => rfl
  | cons run rest ih =>
    cases hrecorded : recorded run with
    | true => rw [List.filter_cons_of_pos hrecorded, List.flatMap_cons, List.flatMap_cons, ih]
    | false =>
      rw [List.filter_cons_of_neg (ne_true_of_eq_false hrecorded), List.flatMap_cons,
        hf run hrecorded, ih, List.nil_append]

/-- No row is a line with the titles. -/
theorem count_header_rows (startTime : ℚ) (calls : List RecordCall) :
    (calls.map (dataRow startTime)).count headerLine = 0 := by
  rw [List.count_eq_zero]
  intro hmem
  obtain ⟨call, _, hcall⟩ := List.mem_map.mp hmem
  exact LogLine.noConfusion hcall

/-- The titles are written once in every run that records anything. -/
theorem count_header_log {runs : List (List RecordCall)} (hall : ∀ run ∈ runs, recorded run = true) :
    (throughputLog runs).count headerLine = runs.length := by
  induction runs with
  | nil => rfl
  | cons run rest ih =>
    obtain ⟨_, opened, later, _, _, hlines, _⟩ := lines_of_recorded (hall run List.mem_cons_self)
    have hrest := ih (fun other hother => hall other (List.mem_cons_of_mem run hother))
    rw [throughputLog] at hrest ⊢
    rw [List.flatMap_cons, List.count_append, hlines, List.count_cons_self, count_header_rows, hrest,
      List.length_cons]
    omega

/-- The titles should be written at most once. -/
theorem count_header_expected (runs : List (List RecordCall)) :
    (expectedLog runs).count headerLine ≤ 1 := by
  have hrows : (runs.flatMap expectedRows).count headerLine = 0 := by
    rw [List.count_eq_zero]
    intro hmem
    obtain ⟨run, _, hrow⟩ := List.mem_flatMap.mp hmem
    rw [expectedRows] at hrow
    cases hfirst : run.head? with
    | none => rw [hfirst] at hrow; exact absurd hrow List.not_mem_nil
    | some first =>
      rw [hfirst] at hrow
      exact absurd hrow (List.count_eq_zero.mp (count_header_rows first.entryTime _))
  rw [expectedLog]
  split
  · simp
  · rw [List.count_cons_self, hrows]

/-- Rows of the same calls agree exactly when they have been measured from the same start. -/
theorem dataRow_map_inj {opened : RecordCall} {later : List RecordCall} {start other : ℚ} :
    (opened :: later).map (dataRow start) = (opened :: later).map (dataRow other) ↔
      start = other := by
  constructor
  · intro h
    have hrow : dataRow start opened = dataRow other opened := (List.cons.inj h).1
    have helapsed := (LogLine.row.inj hrow).1
    linarith
  · intro h
    rw [h]

/-- One run that records anything leaves what it should exactly if the clock has not moved before
it opens the file. -/
theorem single_expected_iff {run : List RecordCall} (hrecorded : recorded run = true) :
    throughputLog [run] = expectedLog [run] ↔ ∀ first ∈ run.head?,
      ∀ opened ∈ run.find? RecordCall.opens, opened.entryTime = first.entryTime := by
  obtain ⟨first, opened, later, hfirst, hopened, hlines, hrows⟩ := lines_of_recorded hrecorded
  have hne : expectedRows run ≠ [] := by
    rw [hrows]
    exact List.cons_ne_nil _ _
  rw [throughputLog, expectedLog, List.flatMap_singleton, List.flatMap_singleton, if_neg hne, hlines,
    hrows, List.cons_inj_right, dataRow_map_inj, hfirst, hopened]
  simp only [Option.mem_some, forall_eq']

/-- Runs that record nothing do not bear on the condition. -/
theorem recordsAtOnce_filter (runs : List (List RecordCall)) :
    RecordsAtOnce (runs.filter recorded) ↔ RecordsAtOnce runs := by
  have hkept : ∀ run ∈ runs, ∀ opened ∈ run.find? RecordCall.opens, run ∈ runs.filter recorded := by
    intro run hrun opened hopened
    refine List.mem_filter.mpr ⟨hrun, List.any_eq_true.mpr ⟨opened, ?_, ?_⟩⟩
    · exact List.mem_of_find?_eq_some hopened
    · exact List.find?_some hopened
  constructor
  · intro h
    refine ⟨by simpa using h.single, ?_⟩
    intro run hrun first hfirst opened hopened
    exact h.prompt run (hkept run hrun opened hopened) first hfirst opened hopened
  · intro h
    refine ⟨by simpa using h.single, ?_⟩
    intro run hrun
    exact h.prompt run (List.mem_of_mem_filter hrun)

/-- Among runs that all record something the condition says when the file is as it should be. -/
theorem expected_iff_of_recorded {runs : List (List RecordCall)}
    (hall : ∀ run ∈ runs, recorded run = true) :
    throughputLog runs = expectedLog runs ↔ RecordsAtOnce runs := by
  have hlength : (runs.filter recorded).length = runs.length := by
    rw [List.filter_eq_self.mpr hall]
  cases runs with
  | nil =>
    refine iff_of_true rfl ⟨Nat.zero_le 1, ?_⟩
    intro run hrun
    exact absurd hrun List.not_mem_nil
  | cons run rest =>
    cases rest with
    | nil =>
      rw [single_expected_iff (hall run List.mem_cons_self)]
      constructor
      · intro hprompt
        refine ⟨by rw [hlength, List.length_singleton], ?_⟩
        intro other hother
        rwa [List.mem_singleton.mp hother]
      · intro h
        exact h.prompt run List.mem_cons_self
    | cons second rest =>
      refine iff_of_false ?_ ?_
      · intro h
        have hcount := count_header_expected (run :: second :: rest)
        rw [← h, count_header_log hall, List.length_cons, List.length_cons] at hcount
        omega
      · intro h
        have hsingle := h.single
        rw [hlength, List.length_cons, List.length_cons] at hsingle
        omega

/-- The file is one line with the titles followed by one row for every successful call, each
with the time since its run's first call, exactly if at most one run records anything and that
run's clock has not moved before it opens the file. -/
theorem throughputLog_expected_iff (runs : List (List RecordCall)) :
    throughputLog runs = expectedLog runs ↔ RecordsAtOnce runs := by
  have hlog : throughputLog runs = throughputLog (runs.filter recorded) :=
    flatMap_recorded runLines (fun run h => (lines_of_unrecorded h).1) runs
  have hexpected : expectedLog runs = expectedLog (runs.filter recorded) := by
    rw [expectedLog, expectedLog,
      flatMap_recorded expectedRows (fun run h => (lines_of_unrecorded h).2) runs]
  rw [hlog, hexpected, ← recordsAtOnce_filter]
  exact expected_iff_of_recorded fun run hrun => (List.mem_filter.mp hrun).2

/-- A call that finds the file closed, one second before the first that can write to it: the time
it records does not count that second. -/
theorem throughputLog_restarts :
    ¬ ∀ runs : List (List RecordCall), throughputLog runs = expectedLog runs := by
  intro hevery
  have hlog := hevery [[⟨⟨1, 1⟩, false, 0, 0⟩, ⟨⟨1, 1⟩, true, 1, 2⟩]]
  have hrow : dataRow 1 ⟨⟨1, 1⟩, true, 1, 2⟩ = dataRow 0 ⟨⟨1, 1⟩, true, 1, 2⟩ :=
    (List.cons.inj (List.cons.inj hlog).2).1
  exact absurd (LogLine.row.inj hrow).1 (by norm_num)

end NodePower
