import NodePower.Perf.EventLine

/-!
# The rows of the throughput monitor

The monitor takes a fixed number of lines for an interval of `perf`. A header line counts as
one of them, so from the first header on every round starts too early in the stream. `perf`
writes a header before its first interval. A value with a separator is read from its last
group only. The rows are those of the intervals exactly when neither occurs in an interval
that is read.
-/

namespace NodePower.Perf

/-- What `perf` writes for an interval: the texts of the header lines after their `#`, and one line
for every event that the script requests. -/
structure Interval (script : Script) where
  headers : List Text
  events : List Event
  requested : events.map Event.name = script.requested

/-- The lines of an interval. -/
def Interval.lines {script : Script} (interval : Interval script) : List Text :=
  interval.headers.map ('#' :: ·) ++ interval.events.map Event.line

/-- The standard error of `perf`. -/
def stream {script : Script} (intervals : List (Interval script)) : List Text :=
  intervals.flatMap Interval.lines

/-- A row is that of an interval: exactly its event lines have been read for it, every value has been
found in full, and the row has their sum in MB. -/
structure RowMatches {script : Script} (interval : Interval script) (read : List Text) (row : Sample ℚ) :
    Prop where
  lines : read = interval.events.map Event.line
  values : ∀ event ∈ interval.events, event.ReadInFull
  total : row.value = 1.04858 * (interval.events.map Event.value).sum

/-- Every round for which there is an interval appends the row of that interval. -/
def RowsMatch (script : Script) (elapsed : List ℚ) (intervals : List (Interval script)) : Prop :=
  ∀ k elapsedTime interval, elapsed[k]? = some elapsedTime → intervals[k]? = some interval →
    ∃ row, (monitorImcThroughput script elapsed (stream intervals))[k]? = some row ∧
      RowMatches interval (roundLines script k (stream intervals)) row

/-- An interval without a header line and without a separator in its values. -/
structure Interval.Plain {script : Script} (interval : Interval script) : Prop where
  headers : interval.headers = []
  values : ∀ event ∈ interval.events, event.Ungrouped

/-- An event line is not a header line. -/
theorem Event.line_ne_header (event : Event) (text : Text) : event.line ≠ '#' :: text := by
  intro heq
  rw [Event.line] at heq
  cases hlead : event.lead with
  | zero =>
    cases htime : event.timeText with
    | nil => exact absurd htime (by simp [Event.timeText])
    | cons c rest =>
      rw [hlead, htime, List.replicate_zero, List.nil_append, List.cons_append] at heq
      have hc : isValueChar c = true := isValueChar_of_mem_timeText (htime ▸ List.mem_cons_self)
      rw [(List.cons.inj heq).1] at hc
      exact absurd hc (by decide)
  | succ lead =>
    rw [hlead, List.replicate_succ, List.cons_append] at heq
    exact absurd (List.cons.inj heq).1 (by decide)

/-- An interval has a line for every line that a round reads. -/
theorem Interval.length_events {script : Script} (interval : Interval script) :
    interval.events.length = script.events := by
  rw [← script.length_requested, ← interval.requested, List.length_map]

/-- Lines that are there are read as they are. -/
theorem readLines_append {count : ℕ} {lines : List Text} (hlength : lines.length = count)
    (rest : List Text) : readLines count (lines ++ rest) = lines := by
  induction lines generalizing count with
  | nil => rw [← hlength, List.length_nil, readLines]
  | cons line lines ih =>
    rw [← hlength, List.length_cons, readLines, List.cons_append, List.headD_cons, List.tail_cons,
      ih rfl]

/-- The first line of a round is the next line of the stream. -/
theorem head?_readLines {count : ℕ} (hcount : 0 < count) (stderr : List Text) :
    (readLines count stderr).head? = some (stderr.headD []) := by
  cases count with
  | zero => exact absurd hcount (Nat.lt_irrefl 0)
  | succ count => rw [readLines, List.head?_cons]

/-- An interval without header lines has one line for every event. -/
theorem Interval.lines_of_headers {script : Script} {interval : Interval script}
    (hheaders : interval.headers = []) : interval.lines = interval.events.map Event.line := by
  rw [Interval.lines, hheaders, List.map_nil, List.nil_append]

/-- Behind intervals without header lines, the rounds start where the intervals do. -/
theorem drop_stream {script : Script} (k : ℕ) {intervals : List (Interval script)}
    (hheaders : ∀ interval ∈ intervals.take k, interval.headers = []) :
    (stream intervals).drop (script.events * k) = stream (intervals.drop k) := by
  induction k generalizing intervals with
  | zero => rfl
  | succ k ih =>
    cases intervals with
    | nil => exact List.drop_nil
    | cons first rest =>
      have hlines := Interval.lines_of_headers (hheaders first List.mem_cons_self)
      have hlength : first.lines.length = script.events := by
        rw [hlines, List.length_map, first.length_events]
      have hstream : stream (first :: rest) = first.lines ++ stream rest := List.flatMap_cons
      rw [hstream, Nat.mul_succ, Nat.add_comm, ← List.drop_drop, List.drop_left' hlength,
        List.drop_succ_cons]
      exact ih fun interval hinterval => hheaders interval (List.mem_cons_of_mem first hinterval)

/-- An event that is read in full is added. -/
theorem Totals.addLine_line {event : Event} (hread : event.ReadInFull) (totals : Totals) :
    totals.addLine event.line = some (totals.add event.value event.eventType) := by
  obtain ⟨text, hsearch, hfloat⟩ := hread
  rw [Totals.addLine, hsearch]
  simp only [hfloat, Option.map_some]

/-- A value is added to one of the sums. -/
theorem Totals.sum_add (totals : Totals) (value : ℚ) (eventType : EventType) :
    (totals.add value eventType).totalReads + (totals.add value eventType).totalWrites =
      totals.totalReads + totals.totalWrites + value := by
  cases eventType with
  | read => exact add_right_comm _ _ _
  | write => exact (add_assoc _ _ _).symm

/-- Events that are read in full are added. -/
theorem foldlM_addLine {events : List Event} (hread : ∀ event ∈ events, event.ReadInFull)
    (totals : Totals) :
    ∃ sums, (events.map Event.line).foldlM Totals.addLine totals = some sums ∧
      sums.totalReads + sums.totalWrites =
        totals.totalReads + totals.totalWrites + (events.map Event.value).sum := by
  induction events generalizing totals with
  | nil => exact ⟨totals, rfl, by simp⟩
  | cons event events ih =>
    obtain ⟨sums, hsums, htotal⟩ := ih (fun later hlater => hread later (List.mem_cons_of_mem event hlater))
      (totals.add event.value event.eventType)
    refine ⟨sums, ?_, ?_⟩
    · rw [List.map_cons, List.foldlM_cons, Totals.addLine_line (hread event List.mem_cons_self)]
      exact hsums
    · rw [htotal, Totals.sum_add, List.map_cons, List.sum_cons, add_assoc]

section Rounds

variable {script : Script} {intervals : List (Interval script)} {interval : Interval script} {k : ℕ}

/-- Behind intervals without header lines, a round starts with the lines of its interval. -/
theorem roundLines_stream (hinterval : intervals[k]? = some interval)
    (hheaders : ∀ before ∈ intervals.take k, before.headers = []) :
    roundLines script k (stream intervals) =
      readLines script.events (interval.lines ++ stream (intervals.drop (k + 1))) := by
  obtain ⟨hk, rfl⟩ := List.getElem?_eq_some_iff.mp hinterval
  rw [roundLines, drop_stream k hheaders, List.drop_eq_getElem_cons hk]
  rfl

/-- A round behind and at intervals without header lines reads the event lines of its interval. -/
theorem roundLines_of_headers (hinterval : intervals[k]? = some interval)
    (hbefore : ∀ before ∈ intervals.take k, before.headers = []) (hheaders : interval.headers = []) :
    roundLines script k (stream intervals) = interval.events.map Event.line := by
  have hlength : (interval.events.map Event.line).length = script.events := by
    rw [List.length_map, interval.length_events]
  rw [roundLines_stream hinterval hbefore, Interval.lines_of_headers hheaders,
    readLines_append hlength]

/-- If a round behind intervals without header lines reads the event lines of its interval, there is
no header line either. -/
theorem headers_of_roundLines (hinterval : intervals[k]? = some interval)
    (hbefore : ∀ before ∈ intervals.take k, before.headers = [])
    (hlines : roundLines script k (stream intervals) = interval.events.map Event.line) :
    interval.headers = [] := by
  cases hheaders : interval.headers with
  | nil => rfl
  | cons header headers =>
    have hfirst := head?_readLines script.events_pos
      (interval.lines ++ stream (intervals.drop (k + 1)))
    rw [← roundLines_stream hinterval hbefore, hlines, Interval.lines, hheaders] at hfirst
    cases hevents : interval.events with
    | nil =>
      rw [hevents] at hfirst
      exact absurd hfirst (by simp)
    | cons event events =>
      rw [hevents] at hfirst
      exact absurd (Option.some.inj hfirst) (event.line_ne_header header)

/-- An interval is among those up to its index. -/
theorem mem_take_succ (hinterval : intervals[k]? = some interval) : interval ∈ intervals.take (k + 1) :=
  List.mem_of_getElem? (i := k) (by rw [List.getElem?_take_of_succ, hinterval])

/-- The sums of a round, if the intervals up to its own are plain. -/
theorem exists_totals (hinterval : intervals[k]? = some interval)
    (hplain : ∀ each ∈ intervals.take (k + 1), each.Plain) :
    roundLines script k (stream intervals) = interval.events.map Event.line ∧
      ∃ sums, (roundLines script k (stream intervals)).foldlM Totals.addLine ⟨0, 0⟩ = some sums ∧
        sums.totalReads + sums.totalWrites = (interval.events.map Event.value).sum := by
  have hself : interval.Plain := hplain interval (mem_take_succ hinterval)
  have hlines : roundLines script k (stream intervals) = interval.events.map Event.line :=
    roundLines_of_headers hinterval
      (fun before hbefore => (hplain before (List.take_subset_take_left _ (Nat.le_succ k) hbefore)).headers)
      hself.headers
  refine ⟨hlines, ?_⟩
  rw [hlines]
  obtain ⟨sums, hsums, htotal⟩ := foldlM_addLine
    (fun event hevent => (hself.values event hevent).readInFull) ⟨0, 0⟩
  exact ⟨sums, hsums, by rw [htotal, add_zero, zero_add]⟩

variable {elapsed : List ℚ}

/-- If the rows are those of the intervals, no interval with a round has a header line. -/
theorem RowsMatch.headers_eq_nil (h : RowsMatch script elapsed intervals) (hk : k < elapsed.length)
    (hinterval : intervals[k]? = some interval) : interval.headers = [] := by
  induction k using Nat.strong_induction_on generalizing interval with
  | _ k ih =>
    obtain ⟨row, -, hrow⟩ := h k elapsed[k] interval (List.getElem?_eq_getElem hk) hinterval
    refine headers_of_roundLines hinterval ?_ hrow.lines
    intro before hbefore
    obtain ⟨j, hj, hget⟩ := List.mem_take_iff_getElem.mp hbefore
    exact ih j (by omega) (by omega) (hget ▸ List.getElem?_eq_getElem (by omega))

/-- If the rows are those of the intervals, every interval with a round is plain. -/
theorem RowsMatch.plain (h : RowsMatch script elapsed intervals) (hk : k < elapsed.length)
    (hinterval : intervals[k]? = some interval) : interval.Plain := by
  obtain ⟨row, -, hrow⟩ := h k elapsed[k] interval (List.getElem?_eq_getElem hk) hinterval
  refine ⟨h.headers_eq_nil hk hinterval, ?_⟩
  intro event hevent
  exact event.readInFull_iff.mp (hrow.values event hevent)

/-- If every interval with a round is plain, the rows are those of the intervals. -/
theorem rowsMatch_of_plain (hplain : ∀ each ∈ intervals.take elapsed.length, each.Plain) :
    RowsMatch script elapsed intervals := by
  intro k elapsedTime interval helapsed hinterval
  obtain ⟨hk, -⟩ := List.getElem?_eq_some_iff.mp helapsed
  obtain ⟨hlength, -⟩ := List.getElem?_eq_some_iff.mp hinterval
  have hupTo : ∀ j ≤ k, ∀ each ∈ intervals.take (j + 1), each.Plain := fun j hj each heach =>
    hplain each (List.take_subset_take_left _ (by omega) heach)
  obtain ⟨hlines, sums, hsums, htotal⟩ := exists_totals hinterval (hupTo k le_rfl)
  have hbefore : ∀ j < k,
      ((roundLines script j (stream intervals)).foldlM Totals.addLine ⟨0, 0⟩).isSome := by
    intro j hj
    have hother : intervals[j]? = some intervals[j] := List.getElem?_eq_getElem (by omega)
    obtain ⟨-, others, hothers, -⟩ := exists_totals hother (hupTo j hj.le)
    rw [hothers, Option.isSome_some]
  refine ⟨_, getElem?_monitorImcThroughput helapsed hbefore hsums, hlines, ?_, ?_⟩
  · intro event hevent
    exact ((hupTo k le_rfl interval (mem_take_succ hinterval)).values event hevent).readInFull
  · rw [Totals.totalMb, htotal, mul_comm]

end Rounds

/-- For both scripts, every number of rounds and every stream of intervals, each round appends 1.04858
times the sum of exactly the values of its interval, each read in full, exactly when no header line
comes before or between the intervals that are read and no value in them is written with a separator. -/
theorem rowsMatch_iff_plain (script : Script) (elapsed : List ℚ)
    (intervals : List (Interval script)) :
    RowsMatch script elapsed intervals ↔ ∀ interval ∈ intervals.take elapsed.length, interval.Plain := by
  constructor
  · intro hmatch interval hinterval
    obtain ⟨k, hk, hget⟩ := List.mem_take_iff_getElem.mp hinterval
    exact hmatch.plain (by omega) (hget ▸ List.getElem?_eq_getElem (by omega))
  · intro hplain
    exact rowsMatch_of_plain hplain

/-- When `perf` announces its columns before the first interval, no run with a round has the rows of
the intervals. -/
theorem not_rowsMatch_of_announced {script : Script} {elapsed : List ℚ}
    {first : Interval script} {later : List (Interval script)} (helapsed : elapsed ≠ [])
    (hheader : first.headers ≠ []) : ¬ RowsMatch script elapsed (first :: later) := by
  intro hmatch
  exact hheader (hmatch.headers_eq_nil (List.length_pos_of_ne_nil helapsed) List.getElem?_cons_zero)

/-- An interval with a value of one MiB for every event under a header line: the first round reads the
header and leaves the last event to the second round. -/
theorem rowsMatch_fails_after_header :
    ¬ ∀ (script : Script) (elapsed : List ℚ) (intervals : List (Interval script)),
      RowsMatch script elapsed intervals := by
  intro hevery
  have hmatch := hevery .readCpuMetrics [1 / 100]
    [⟨["           time             counts unit events".toList],
      Script.readCpuMetrics.requested.map fun event =>
        ⟨1, 0, 100, 2, false, event.1, event.2, 0, 0, 0, 0, []⟩, rfl⟩]
  obtain ⟨row, -, hrow⟩ := hmatch 0 _ _ rfl rfl
  have hfirst := congrArg List.head? hrow.lines
  exact Event.line_ne_header _ _ (Option.some.inj hfirst).symm

end NodePower.Perf
