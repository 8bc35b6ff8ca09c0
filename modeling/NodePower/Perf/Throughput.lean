import NodePower.Common.DecimalText
import NodePower.Common.PatternSearch

/-!
# The memory throughput monitor

`monitor_imc_throughput` starts `perf stat -I` for the `uncore_imc` events and reads its
standard error. In every round it reads as many lines as there are events, searches each line
for a value in MiB, adds the values up and appends the sum in MB with the elapsed time.
`read_cpu_metrics.py` requests 16 events and `archive/read_mem.py` requests 24.

`readline` returns an empty line after the end of the stream. `float` raises an error for a
number with two points or without a digit; that ends the monitor, and the list stays as it
is. Lines are ASCII texts without their line feed. Floats are exact rationals.
-/

namespace NodePower.Perf

/-- A measured value with the elapsed time of its round. -/
structure Sample (α : Type) where
  elapsedTime : ℚ
  value : α

/-- The two scripts with this monitor. -/
inductive Script where
  | readCpuMetrics
  | readMem
  deriving DecidableEq

/-- The lines that a script reads in a round. -/
def Script.events : Script → ℕ
  | .readCpuMetrics => 16
  | .readMem => 24

/-- The last word in the name of an event. -/
inductive EventType where
  | read
  | write
  deriving DecidableEq

/-- The number of memory controllers whose events a script requests. -/
def Script.controllers : Script → ℕ
  | .readCpuMetrics => 8
  | .readMem => 12

/-- The events `uncore_imc_0/cas_count_read/`, `uncore_imc_0/cas_count_write/` and so on in the order in
which a script requests them. -/
def Script.requested (script : Script) : List (ℕ × EventType) :=
  (List.range script.controllers).flatMap fun imc => [(imc, .read), (imc, .write)]

/-- The text of an event type. -/
def EventType.text : EventType → Text
  | .read => "read".toList
  | .write => "write".toList

/-- The class `\s`. -/
def isSpace (c : Char) : Bool :=
  c = ' ' || (9 ≤ c.toNat && c.toNat ≤ 13) || (28 ≤ c.toNat && c.toNat ≤ 31)

/-- The class `[\d\.]`. -/
def isValueChar (c : Char) : Bool := c.isDigit || c = '.'

/-- The part of the pattern after the value, `\s+MiB\s+uncore_imc_\d+/cas_count_(read|write)/`. -/
def unitPattern : Pattern Char EventType :=
  (Pattern.many1 isSpace).bind fun _ =>
  (Pattern.literal "MiB".toList).bind fun _ =>
  (Pattern.many1 isSpace).bind fun _ =>
  (Pattern.literal "uncore_imc_".toList).bind fun _ =>
  (Pattern.many1 Char.isDigit).bind fun _ =>
  (Pattern.literal "/cas_count_".toList).bind fun _ =>
  (Pattern.alternative ((Pattern.literal "read".toList).map fun _ => EventType.read)
    ((Pattern.literal "write".toList).map fun _ => EventType.write)).bind fun eventType =>
  (Pattern.literal "/".toList).map fun _ => eventType

/-- The pattern `([\d\.]+)\s+MiB\s+uncore_imc_\d+/cas_count_(read|write)/` with its two groups. -/
def eventPattern : Pattern Char (Text × EventType) :=
  (Pattern.many1 isValueChar).bind fun value => unitPattern.map fun eventType => (value, eventType)

/-- `float`, of a text of digits and points. -/
def float (text : Text) : Option ℚ := (parseDecimal text).map Decimal.value

/-- The sums of a round. -/
structure Totals where
  totalReads : ℚ
  totalWrites : ℚ

/-- The value of an event in the sum of its type. -/
def Totals.add (totals : Totals) (value : ℚ) : EventType → Totals
  | .read => { totals with totalReads := totals.totalReads + value }
  | .write => { totals with totalWrites := totals.totalWrites + value }

/-- The sums after a line, or nothing when `float` raises an error. -/
def Totals.addLine (totals : Totals) (line : Text) : Option Totals :=
  match eventPattern.search line with
  | none => some totals
  | some (text, eventType) => (float text).map fun value => totals.add value eventType

/-- The sum of both types in MB. -/
def Totals.totalMb (totals : Totals) : ℚ := (totals.totalReads + totals.totalWrites) * 1.04858

/-- The loop over the lines of a round: its sums, and the lines that are left. -/
def readEvents : ℕ → Totals → List Text → Option (Totals × List Text)
  | 0, totals, stderr => some (totals, stderr)
  | count + 1, totals, stderr =>
    (totals.addLine (stderr.headD [])).bind fun totals => readEvents count totals stderr.tail

/-- The samples that the monitor appends in its rounds, for the elapsed time of every round and the
lines that `perf` writes. -/
def monitorImcThroughput (script : Script) : List ℚ → List Text → List (Sample ℚ)
  | [], _ => []
  | elapsedTime :: later, stderr =>
    match readEvents script.events ⟨0, 0⟩ stderr with
    | none => []
    | some (totals, rest) =>
      ⟨elapsedTime, totals.totalMb⟩ :: monitorImcThroughput script later rest

/-- The lines that a number of calls of `readline` return. -/
def readLines : ℕ → List Text → List Text
  | 0, _ => []
  | count + 1, stderr => stderr.headD [] :: readLines count stderr.tail

/-- The lines that are read in the round with a given index. -/
def roundLines (script : Script) (k : ℕ) (stderr : List Text) : List Text :=
  readLines script.events (stderr.drop (script.events * k))

/-- Every script reads lines. -/
theorem Script.events_pos (script : Script) : 0 < script.events := by
  cases script <;> decide

/-- A script reads one line for every event that it requests. -/
theorem Script.length_requested (script : Script) : script.requested.length = script.events := by
  cases script <;> rfl

/-- The loop over the lines adds the lines that are read, and leaves those after them. -/
theorem readEvents_eq (count : ℕ) (totals : Totals) (stderr : List Text) :
    readEvents count totals stderr =
      ((readLines count stderr).foldlM Totals.addLine totals).map fun sums =>
        (sums, stderr.drop count) := by
  induction count generalizing totals stderr with
  | zero => rfl
  | succ count ih =>
    rw [readEvents, readLines, List.foldlM_cons]
    cases hline : totals.addLine (stderr.headD []) with
    | none => rfl
    | some sums =>
      change readEvents count sums stderr.tail = _
      rw [ih, List.drop_tail]
      rfl

/-- The lines of the later rounds are those of a monitor that starts after the first one. -/
theorem roundLines_succ (script : Script) (k : ℕ) (stderr : List Text) :
    roundLines script (k + 1) stderr = roundLines script k (stderr.drop script.events) := by
  rw [roundLines, roundLines, List.drop_drop, Nat.mul_succ, Nat.add_comm]

/-- A round without an error appends the sum of the lines read in it. -/
theorem monitorImcThroughput_cons {script : Script} {elapsedTime : ℚ} (later : List ℚ)
    {stderr : List Text} {totals : Totals}
    (hround : (roundLines script 0 stderr).foldlM Totals.addLine ⟨0, 0⟩ = some totals) :
    monitorImcThroughput script (elapsedTime :: later) stderr =
      ⟨elapsedTime, totals.totalMb⟩ ::
        monitorImcThroughput script later (stderr.drop script.events) := by
  rw [roundLines, Nat.mul_zero, List.drop_zero] at hround
  rw [monitorImcThroughput, readEvents_eq, hround, Option.map_some]

/-- If no round before has met an error, the sample of a round is the sum of the lines read in it. -/
theorem getElem?_monitorImcThroughput {script : Script} {elapsed : List ℚ} {stderr : List Text}
    {k : ℕ} {elapsedTime : ℚ} {totals : Totals} (helapsed : elapsed[k]? = some elapsedTime)
    (hbefore : ∀ j < k, ((roundLines script j stderr).foldlM Totals.addLine ⟨0, 0⟩).isSome)
    (hround : (roundLines script k stderr).foldlM Totals.addLine ⟨0, 0⟩ = some totals) :
    (monitorImcThroughput script elapsed stderr)[k]? = some ⟨elapsedTime, totals.totalMb⟩ := by
  induction k generalizing elapsed stderr with
  | zero =>
    cases elapsed with
    | nil => exact absurd helapsed (by simp)
    | cons first later =>
      obtain rfl : first = elapsedTime := by simpa using helapsed
      rw [monitorImcThroughput_cons later hround, List.getElem?_cons_zero]
  | succ k ih =>
    cases elapsed with
    | nil => exact absurd helapsed (by simp)
    | cons first later =>
      obtain ⟨sums, hsums⟩ := Option.isSome_iff_exists.mp (hbefore 0 (Nat.succ_pos k))
      rw [monitorImcThroughput_cons later hsums, List.getElem?_cons_succ]
      refine ih (by simpa using helapsed) ?_ ?_
      · intro j hj
        rw [← roundLines_succ]
        exact hbefore (j + 1) (by omega)
      · rw [← roundLines_succ]
        exact hround

end NodePower.Perf
