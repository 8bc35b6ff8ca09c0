import NodePower.Common.SampleTimes
import NodePower.Perf.Throughput
import Mathlib.Algebra.Order.Ring.Rat
import Mathlib.Data.List.Zip
import Mathlib.Tactic.Linarith

/-!
# Joining the three recordings

`write_synchronized_data` joins the samples of the three monitors by their index, up to the
length of the shortest list, and writes the elapsed time of the IPS sample. The monitors have
their own periods: two of them run `perf` for a second and then sleep, the third follows the
intervals of `perf`. So the samples of a row are as far apart as the monitors have drifted,
and the samples after the shortest list may be older than its last one.

The threads are started together, and their elapsed times are taken as times on one clock.
-/

namespace NodePower.Perf

/-- The times of a list of samples. -/
def times {α : Type} (samples : List (Sample α)) : List ℚ := samples.map Sample.elapsedTime

/-- The samples of a monitor, with periods between one and two seconds. -/
structure Recording (α : Type) where
  samples : List (Sample α)
  paced : ∀ period ∈ periods (times samples), 1 ≤ period ∧ period ≤ 2

/-- A row of the table: the time, the IPS, the throughput and the LLC misses. -/
structure SynchronizedRow where
  time : ℚ
  ips : Text
  throughput : ℚ
  llcMisses : Text

/-- The table that is written. -/
structure Table where
  header : List Text
  rows : List SynchronizedRow

/-- The samples that are joined into one row. -/
structure Joined where
  ips : Sample Text
  throughput : Sample ℚ
  llcMisses : Sample Text

/-- The row of joined samples. -/
def Joined.row (joined : Joined) : SynchronizedRow :=
  ⟨joined.ips.elapsedTime, joined.ips.value, joined.throughput.value, joined.llcMisses.value⟩

/-- The times of joined samples. -/
def Joined.times (joined : Joined) : List ℚ :=
  [joined.ips.elapsedTime, joined.throughput.elapsedTime, joined.llcMisses.elapsedTime]

/-- The length of the shortest list. -/
def minLength (ipsData : List (Sample Text)) (throughputData : List (Sample ℚ))
    (llcData : List (Sample Text)) : ℕ :=
  min (min ipsData.length throughputData.length) llcData.length

/-- The samples with the same index in the three lists, cut to the length of the shortest one. -/
def joinedSamples (ipsData : List (Sample Text)) (throughputData : List (Sample ℚ))
    (llcData : List (Sample Text)) : List Joined :=
  let n := minLength ipsData throughputData llcData
  ((ipsData.take n).zip ((throughputData.take n).zip (llcData.take n))).map fun samples =>
    ⟨samples.1, samples.2.1, samples.2.2⟩

/-- The table of the three lists. -/
def writeSynchronizedData (ipsData : List (Sample Text)) (throughputData : List (Sample ℚ))
    (llcData : List (Sample Text)) : Table :=
  ⟨["Time (s)".toList, "IPS".toList, "Memory Throughput (MB/s)".toList, "LLC Misses".toList],
    (joinedSamples ipsData throughputData llcData).map Joined.row⟩

/-- The times of the three lists. -/
def recordedTimes (ips : Recording Text) (throughput : Recording ℚ) (llcMisses : Recording Text) :
    List (List ℚ) :=
  [times ips.samples, times throughput.samples, times llcMisses.samples]

/-- The samples of every row are less than two seconds apart, and every sample without a row is later
than the last one of a shortest list. -/
structure Synchronised (ips : Recording Text) (throughput : Recording ℚ) (llcMisses : Recording Text) :
    Prop where
  simultaneous : ∀ joined ∈ joinedSamples ips.samples throughput.samples llcMisses.samples,
    ∀ time ∈ joined.times, ∀ other ∈ joined.times, |time - other| < 2
  dropped : ∀ recorded ∈ recordedTimes ips throughput llcMisses,
    ∀ time ∈ recorded.drop
      (writeSynchronizedData ips.samples throughput.samples llcMisses.samples).rows.length,
    ∀ shortest ∈ recordedTimes ips throughput llcMisses, (∀ other ∈ recordedTimes ips throughput llcMisses,
      shortest.length ≤ other.length) → ∀ last ∈ shortest.getLast?, last < time

/-- The monitors drift by less than two seconds before the shortest list ends, and at its last sample it
is not ahead of a longer list by a period of that list. -/
structure InStep (recorded : List (List ℚ)) : Prop where
  drift_lt : ∀ list ∈ recorded, ∀ other ∈ recorded, ∀ i, (∀ each ∈ recorded, i < each.length) →
    |drift list other i| < 2
  not_ahead : ∀ shortest ∈ recorded, ∀ longer ∈ recorded, ∀ i,
    (∀ each ∈ recorded, i < each.length) → shortest.length = i + 1 →
      ∀ period ∈ (periods longer)[i]?, drift shortest longer i < period

section Joining

variable {ips : Recording Text} {throughput : Recording ℚ} {llcMisses : Recording Text}

/-- The rows are as many as the samples of the shortest list. -/
theorem length_joinedSamples (ipsData : List (Sample Text)) (throughputData : List (Sample ℚ))
    (llcData : List (Sample Text)) :
    (joinedSamples ipsData throughputData llcData).length = minLength ipsData throughputData llcData := by
  simp only [joinedSamples, minLength, List.length_map, List.length_zip, List.length_take]
  omega

/-- The samples of a row have its index. -/
theorem getElem?_joinedSamples {ipsData : List (Sample Text)} {throughputData : List (Sample ℚ)}
    {llcData : List (Sample Text)} {joined : Joined} {i : ℕ} :
    (joinedSamples ipsData throughputData llcData)[i]? = some joined ↔
      ipsData[i]? = some joined.ips ∧ throughputData[i]? = some joined.throughput ∧
        llcData[i]? = some joined.llcMisses := by
  rw [joinedSamples, List.getElem?_map, Option.map_eq_some_iff]
  constructor
  · intro hzip
    obtain ⟨samples, hsamples, rfl⟩ := hzip
    simp only [List.getElem?_zip_eq_some, List.getElem?_take, Option.ite_none_right_eq_some] at hsamples
    exact ⟨hsamples.1.2, hsamples.2.1.2, hsamples.2.2.2⟩
  · intro hindex
    obtain ⟨hips, hthroughput, hllc⟩ := hindex
    have hi : i < minLength ipsData throughputData llcData := by
      rw [minLength, lt_min_iff, lt_min_iff]
      exact ⟨⟨(List.getElem?_eq_some_iff.mp hips).1, (List.getElem?_eq_some_iff.mp hthroughput).1⟩,
        (List.getElem?_eq_some_iff.mp hllc).1⟩
    refine ⟨(joined.ips, joined.throughput, joined.llcMisses), ?_, rfl⟩
    simp only [List.getElem?_zip_eq_some, List.getElem?_take_of_lt hi]
    exact ⟨hips, hthroughput, hllc⟩

/-- The times of a row are those of the three lists at its index. -/
theorem map_times_joined {joined : Joined} {i : ℕ}
    (hjoined : (joinedSamples ips.samples throughput.samples llcMisses.samples)[i]? = some joined) :
    joined.times.map some = (recordedTimes ips throughput llcMisses).map fun recorded => recorded[i]? := by
  obtain ⟨hips, hthroughput, hllc⟩ := getElem?_joinedSamples.mp hjoined
  simp only [Joined.times, recordedTimes, times, List.map_cons, List.map_nil, List.getElem?_map, hips,
    hthroughput, hllc, Option.map_some]

/-- The shortest list has as many times as there are rows. -/
theorem length_rows (ips : Recording Text) (throughput : Recording ℚ) (llcMisses : Recording Text) (i : ℕ) :
    (∀ each ∈ recordedTimes ips throughput llcMisses, i < each.length) ↔
      i < (joinedSamples ips.samples throughput.samples llcMisses.samples).length := by
  simp only [length_joinedSamples, minLength, recordedTimes, times, List.forall_mem_cons,
    List.length_map, lt_min_iff]
  simp [and_assoc]

/-- The times of a row, as times of the three lists. -/
theorem mem_times_joined {joined : Joined} {i : ℕ} {time : ℚ}
    (hjoined : (joinedSamples ips.samples throughput.samples llcMisses.samples)[i]? = some joined) :
    time ∈ joined.times ↔
      ∃ recorded ∈ recordedTimes ips throughput llcMisses, recorded[i]? = some time := by
  rw [← List.mem_map, ← map_times_joined hjoined, List.mem_map]
  constructor
  · intro htime
    exact ⟨time, htime, rfl⟩
  · intro hmap
    obtain ⟨other, hother, heq⟩ := hmap
    exact Option.some.inj heq ▸ hother

/-- All periods are at least one second. -/
theorem one_le_of_mem_periods {recorded : List ℚ}
    (hrecorded : recorded ∈ recordedTimes ips throughput llcMisses) {period : ℚ}
    (hperiod : period ∈ periods recorded) : 1 ≤ period := by
  simp only [recordedTimes, List.mem_cons, List.not_mem_nil, or_false] at hrecorded
  rcases hrecorded with rfl | rfl | rfl
  · exact (ips.paced period hperiod).1
  · exact (throughput.paced period hperiod).1
  · exact (llcMisses.paced period hperiod).1

/-- The monitors do not sample twice at the same time. -/
theorem periods_pos {recorded : List ℚ} (hrecorded : recorded ∈ recordedTimes ips throughput llcMisses) :
    ∀ period ∈ periods recorded, 0 < period :=
  fun _ hperiod => zero_lt_one.trans_le (one_le_of_mem_periods hrecorded hperiod)

/-- If rows are simultaneous, the monitors drift by less than two seconds. -/
theorem Synchronised.drift_lt (h : Synchronised ips throughput llcMisses) {list other : List ℚ}
    (hlist : list ∈ recordedTimes ips throughput llcMisses)
    (hother : other ∈ recordedTimes ips throughput llcMisses) {i : ℕ}
    (hi : ∀ each ∈ recordedTimes ips throughput llcMisses, i < each.length) :
    |drift list other i| < 2 := by
  have hget := List.getElem?_eq_getElem ((length_rows ips throughput llcMisses i).mp hi)
  have htime := List.getElem?_eq_getElem (hi list hlist)
  have hotherTime := List.getElem?_eq_getElem (hi other hother)
  rw [drift_eq htime hotherTime]
  exact h.simultaneous _ (List.mem_of_getElem? hget) _ ((mem_times_joined hget).mpr ⟨list, hlist, htime⟩) _
    ((mem_times_joined hget).mpr ⟨other, hother, hotherTime⟩)

/-- If the monitors drift by less than two seconds, rows are simultaneous. -/
theorem InStep.simultaneous (h : InStep (recordedTimes ips throughput llcMisses)) {joined : Joined}
    (hjoined : joined ∈ joinedSamples ips.samples throughput.samples llcMisses.samples) {time other : ℚ}
    (htime : time ∈ joined.times) (hother : other ∈ joined.times) : |time - other| < 2 := by
  obtain ⟨i, hget⟩ := List.mem_iff_getElem?.mp hjoined
  obtain ⟨list, hlist, hlistTime⟩ := (mem_times_joined hget).mp htime
  obtain ⟨others, hothers, hotherTime⟩ := (mem_times_joined hget).mp hother
  rw [← drift_eq hlistTime hotherTime]
  exact h.drift_lt list hlist others hothers i
    ((length_rows ips throughput llcMisses i).mpr (List.getElem?_eq_some_iff.mp hget).1)

/-- The last time of a list with a given length. -/
theorem mem_getLast? {list : List ℚ} {i : ℕ} (hlength : list.length = i + 1) (last : ℚ) :
    last ∈ list.getLast? ↔ list[i]? = some last := by
  rw [List.getLast?_eq_getElem?, hlength, Nat.add_sub_cancel, Option.mem_def]

/-- In a list without falling times, all times from an index on are after a time exactly if the one at
the index is. -/
theorem forall_mem_drop_iff {list : List ℚ} (hpos : ∀ period ∈ periods list, 0 < period) {i : ℕ}
    {earlier last : ℚ} (hearlier : list[i]? = some earlier) :
    (∀ time ∈ list.drop (i + 1), last < time) ↔
      ∀ period ∈ (periods list)[i]?, last - earlier < period := by
  constructor
  · intro hdrop period hperiod
    obtain ⟨first, next, hfirst, hnext, rfl⟩ := getElem?_periods_eq_some.mp hperiod
    obtain rfl : earlier = first := Option.some.inj (hearlier.symm.trans hfirst)
    have hmem : next ∈ list.drop (i + 1) := by
      refine List.mem_of_getElem? (i := 0) ?_
      rw [List.getElem?_drop, Nat.add_zero, hnext]
    linarith [hdrop next hmem]
  · intro hperiods time htime
    obtain ⟨j, hj⟩ := List.mem_iff_getElem?.mp htime
    rw [List.getElem?_drop] at hj
    obtain ⟨hlength, -⟩ := List.getElem?_eq_some_iff.mp hj
    have hnext : list[i + 1]? = some list[i + 1] := List.getElem?_eq_getElem (by omega)
    have hperiod := hperiods _ (getElem?_periods_eq_some.mpr ⟨earlier, _, hearlier, hnext, rfl⟩)
    have hle := le_of_periods_pos hpos (Nat.le_add_right (i + 1) j) hnext hj
    linarith

/-- There are as many rows as the shortest list has samples. -/
theorem length_rows_of_shortest {shortest : List ℚ}
    (hshortest : shortest ∈ recordedTimes ips throughput llcMisses) {i : ℕ}
    (hi : ∀ each ∈ recordedTimes ips throughput llcMisses, i < each.length)
    (hlength : shortest.length = i + 1) :
    (writeSynchronizedData ips.samples throughput.samples llcMisses.samples).rows.length = i + 1 := by
  have hlow := (length_rows ips throughput llcMisses i).mp hi
  have hhigh := mt (length_rows ips throughput llcMisses (i + 1)).mpr fun hall =>
    (hall shortest hshortest).ne hlength.symm
  rw [writeSynchronizedData, List.length_map]
  omega

/-- If the samples without a row come late, the shortest list is not ahead by a period. -/
theorem Synchronised.not_ahead (h : Synchronised ips throughput llcMisses) {shortest longer : List ℚ}
    (hshortest : shortest ∈ recordedTimes ips throughput llcMisses)
    (hlonger : longer ∈ recordedTimes ips throughput llcMisses) {i : ℕ}
    (hi : ∀ each ∈ recordedTimes ips throughput llcMisses, i < each.length)
    (hlength : shortest.length = i + 1) {period : ℚ} (hperiod : period ∈ (periods longer)[i]?) :
    drift shortest longer i < period := by
  have hlast := List.getElem?_eq_getElem (hi shortest hshortest)
  have hearlier := List.getElem?_eq_getElem (hi longer hlonger)
  rw [drift_eq hlast hearlier]
  refine (forall_mem_drop_iff (periods_pos hlonger) hearlier).mp ?_ period hperiod
  intro time htime
  rw [← length_rows_of_shortest hshortest hi hlength] at htime
  exact h.dropped longer hlonger time htime shortest hshortest
    (fun other hother => hlength ▸ hi other hother) _ ((mem_getLast? hlength _).mpr hlast)

/-- If the shortest list is not ahead by a period, the samples without a row come late. -/
theorem InStep.dropped (h : InStep (recordedTimes ips throughput llcMisses)) {recorded shortest : List ℚ}
    (hrecorded : recorded ∈ recordedTimes ips throughput llcMisses)
    (hshortest : shortest ∈ recordedTimes ips throughput llcMisses)
    (hleast : ∀ other ∈ recordedTimes ips throughput llcMisses, shortest.length ≤ other.length)
    {time last : ℚ} (hlast : last ∈ shortest.getLast?)
    (htime : time ∈ recorded.drop
      (writeSynchronizedData ips.samples throughput.samples llcMisses.samples).rows.length) :
    last < time := by
  obtain ⟨i, hlength⟩ : ∃ i, shortest.length = i + 1 := by
    refine Nat.exists_eq_succ_of_ne_zero ?_
    intro hzero
    rw [List.length_eq_zero_iff.mp hzero] at hlast
    exact absurd hlast (by simp)
  have hi : ∀ each ∈ recordedTimes ips throughput llcMisses, i < each.length := by
    intro each heach
    have hle := hleast each heach
    omega
  rw [length_rows_of_shortest hshortest hi hlength] at htime
  have hearlier := List.getElem?_eq_getElem (hi recorded hrecorded)
  refine (forall_mem_drop_iff (periods_pos hrecorded) hearlier).mpr ?_ time htime
  intro period hperiod
  rw [← drift_eq ((mem_getLast? hlength last).mp hlast) hearlier]
  exact h.not_ahead shortest hshortest recorded hrecorded i hi hlength period hperiod

/-- Monitors that follow one clock from starts less than a second apart are in step. -/
theorem inStep_of_common_clock (clock : List ℚ)
    (hclock : ∀ list ∈ recordedTimes ips throughput llcMisses, periods list <+: clock)
    (hstart : ∀ list ∈ recordedTimes ips throughput llcMisses,
      ∀ other ∈ recordedTimes ips throughput llcMisses, |list.headD 0 - other.headD 0| < 1) :
    InStep (recordedTimes ips throughput llcMisses) := by
  constructor
  · intro list hlist other hother i hi
    rw [drift_of_common_periods (hclock list hlist) (hclock other hother) (hi list hlist) (hi other hother)]
    exact (hstart list hlist other hother).trans one_lt_two
  · intro shortest hshortest longer hlonger i hi _ period hperiod
    rw [drift_of_common_periods (hclock shortest hshortest) (hclock longer hlonger) (hi shortest hshortest)
      (hi longer hlonger)]
    have hnear := (abs_lt.mp (hstart shortest hshortest longer hlonger)).2
    exact hnear.trans_le (one_le_of_mem_periods hlonger (List.mem_of_getElem? hperiod))

end Joining

/-- For all recordings of the three monitors, every row joins samples less than two seconds apart and
samples are dropped only after the last time of the shortest list, exactly when the monitors drift by
less than two seconds and at its end the shortest list is not ahead of a longer one by a period. -/
theorem synchronised_iff_inStep (ips : Recording Text) (throughput : Recording ℚ)
    (llcMisses : Recording Text) :
    Synchronised ips throughput llcMisses ↔ InStep (recordedTimes ips throughput llcMisses) := by
  constructor
  · intro h
    exact ⟨fun _ hlist _ hother _ hi => h.drift_lt hlist hother hi,
      fun _ hshortest _ hlonger _ hi hlength _ hperiod => h.not_ahead hshortest hlonger hi hlength hperiod⟩
  · intro h
    exact ⟨fun _ hjoined _ htime _ hother => h.simultaneous hjoined htime hother,
      fun _ hrecorded _ htime _ hshortest hleast _ hlast =>
        h.dropped hrecorded hshortest hleast hlast htime⟩

/-- An IPS monitor with a period of 1.1 s, a throughput monitor with one of 1 s and an LLC monitor with
one of 1.9 s: the fourth row joins samples of 3.3 s, 3 s and 5.7 s. -/
theorem synchronised_fails_after_drift :
    ¬ ∀ (ips : Recording Text) (throughput : Recording ℚ) (llcMisses : Recording Text),
      Synchronised ips throughput llcMisses := by
  intro hevery
  have h := hevery
    ⟨[⟨0, ['1']⟩, ⟨11 / 10, ['2']⟩, ⟨22 / 10, ['3']⟩, ⟨33 / 10, ['4']⟩], by decide +kernel⟩
    ⟨[⟨0, 1⟩, ⟨1, 2⟩, ⟨2, 3⟩, ⟨3, 4⟩], by decide +kernel⟩
    ⟨[⟨0, ['1']⟩, ⟨19 / 10, ['2']⟩, ⟨38 / 10, ['3']⟩, ⟨57 / 10, ['4']⟩], by decide +kernel⟩
  have hnear := h.simultaneous ⟨⟨33 / 10, ['4']⟩, ⟨3, 4⟩, ⟨57 / 10, ['4']⟩⟩
    (List.mem_of_getElem? (i := 3) rfl) (57 / 10) (by simp [Joined.times]) 3 (by simp [Joined.times])
  norm_num at hnear

end NodePower.Perf
