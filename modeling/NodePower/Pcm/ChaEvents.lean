import NodePower.Common.CallTrace
import NodePower.Pcm.Traffic

/-!
# Counting more events than there are counters

A unit of the last-level cache has four counters, and pcm-memory wants to know about more events of the
CXL memory than that. It divides each pass of the main loop into slices, programs one group of events in
each, and takes the sum of what the groups have counted, times the number of groups, for the number of
all events of the pass.

What the counters show after they have been programmed is left open here: each slice is counted from a
reading that was taken behind the programming, so nothing depends on it.
-/

namespace NodePower

/-- `UNC_PMON_CTL_EVENT(0x35)` with the two masks of an event. -/
def chaEvent (umask umaskExt : UInt64) : UInt64 :=
  (0x35 : UInt64) + (umask <<< (8 : UInt64)) + (umaskExt <<< (32 : UInt64))

/-- `eventGroups` of the two processors for which a collector is built. -/
def eventGroups : CPUModel → List (List UInt64)
  | .spr =>
    [[chaEvent 0x01 0x10C80B82, chaEvent 0x01 0x10C80782, chaEvent 0x01 0x10C81782,
        chaEvent 0x01 0x10C88782],
      [chaEvent 0x01 0x10CCC782, chaEvent 0x01 0x10C89782, chaEvent 0x01 0x10CCD782,
        chaEvent 0x01 0x10CCCF82]]
  | .emr =>
    [[chaEvent 0x01 0x20C80682, chaEvent 0x01 0x20C81682, chaEvent 0x01 0x20C88682],
      [chaEvent 0x01 0x20CCC682, chaEvent 0x01 0x20C89682, chaEvent 0x01 0x20CCD682,
        chaEvent 0x40 0x20E87E82],
      [chaEvent 0x40 0x20E80682, chaEvent 0x40 0x20E80E82, chaEvent 0x40 0x20E81682,
        chaEvent 0x40 0x20E82682]]
  | _ => []

/-- A machine with a collector: its sockets, the number of units on each die of a socket, and its
processor, which has groups of events. -/
structure ChaMachine where
  numSockets : ℕ
  dieSizes : ℕ → List ℕ
  cpuModel : CPUModel
  supported : cpuModel = .spr ∨ cpuModel = .emr

/-- The number of groups. -/
def ChaMachine.groupCount (m : ChaMachine) : ℕ := (eventGroups m.cpuModel).length

/-- The events of a group. -/
def ChaMachine.group (m : ChaMachine) (group : ℕ) : List UInt64 := (eventGroups m.cpuModel).getD group []

/-- The number of units of a socket. -/
def ChaMachine.units (m : ChaMachine) (skt : ℕ) : ℕ := (m.dieSizes skt).sum

/-- The counters of the units of one socket, die by die. -/
abbrev DieCounters := List (List (Fin maxCounters → UInt64))

/-- `getUncoreCounter`: the units are numbered through all dies. -/
def getUncoreCounter (counter : Fin maxCounters) : ℕ → DieCounters → DieCounters → UInt64
  | unit, before :: befores, after :: afters =>
    if unit < after.length then
      after.getD unit (fun _ => 0) counter - before.getD unit (fun _ => 0) counter
    else getUncoreCounter counter (unit - after.length) befores afters
  | _, _, _ => 0

/-- The counters of all units, by socket and number, and the events that they count. -/
structure ChaHardware where
  counters : ℕ → ℕ → Fin maxCounters → UInt64
  events : Fin 4 → UInt64

/-- How often an event occurs in a unit of a socket. -/
abbrev Occurrences := ℕ → ℕ → UInt64 → ℕ

/-- A slice: the four counters of every unit count their events. -/
def ChaHardware.count (hw : ChaHardware) (occurrences : Occurrences) : ChaHardware where
  counters skt unit counter :=
    hw.counters skt unit counter +
      if h : counter.val < 4 then UInt64.ofNat (occurrences skt unit (hw.events ⟨counter, h⟩)) else 0
  events := hw.events

/-- The counters of numbered units, die by die. -/
def dieCounters (counters : ℕ → Fin maxCounters → UInt64) : ℕ → List ℕ → DieCounters
  | _, [] => []
  | first, size :: rest =>
    (List.range' first size).map counters :: dieCounters counters (first + size) rest

/-- `readState`, of the counters of the units. -/
def readState (m : ChaMachine) (hw : ChaHardware) (skt : ℕ) : DieCounters :=
  dieCounters (hw.counters skt) 0 (m.dieSizes skt)

/-- The events that a group programs. -/
def groupEvents (m : ChaMachine) (group : ℕ) (i : Fin 4) : UInt64 := (m.group group).getD i 0

/-- `programGroup`, with what the counters show when they are read behind it. -/
def programGroup (m : ChaMachine) (group : ℕ) (left : ℕ → ℕ → Fin maxCounters → UInt64) :
    ChaHardware :=
  ⟨left, groupEvents m group⟩

/-- The variables of `CHAEventCollector`. -/
structure CHAEventCollector where
  midStates : ℕ → ℕ → DieCounters
  curGroup : ℕ
  totalCount : UInt64

section

variable (m : ChaMachine)

/-- `extractCHATotalCount`: the units are those of the first socket, on every socket. -/
def extractCHATotalCount (curGroup : ℕ) (before after : ℕ → DieCounters) : UInt64 :=
  (List.range m.numSockets).foldl (fun result i =>
    (List.range (m.units 0)).foldl (fun result cbo =>
      ((List.finRange maxCounters).take (min 4 (m.group curGroup).length)).foldl (fun result ctr =>
        result + getUncoreCounter ctr cbo (before i) (after i)) result) result) 0

/-- What happens in the slices of a pass, and what the counters show when they are read behind the
programming of each group; that of the first group comes last. -/
structure PassEvents where
  occurrences : ℕ → Occurrences
  left : ℕ → ℕ → ℕ → Fin maxCounters → UInt64

/-- One pass of the loop in `multiplexEvents`. -/
def multiplexGroup (beforeState : ℕ → DieCounters) (e : PassEvents)
    (s : CHAEventCollector × ChaHardware) (curGroup : ℕ) : CHAEventCollector × ChaHardware :=
  let counted := s.2.count (e.occurrences curGroup)
  let midStates := Function.update s.1.midStates curGroup (readState m counted)
  let start := if 0 < curGroup then midStates (curGroup - 1) else beforeState
  let totalCount := s.1.totalCount + extractCHATotalCount m curGroup start (midStates curGroup)
  let programmed := programGroup m (curGroup + 1) (e.left (curGroup + 1))
  (⟨Function.update midStates curGroup (readState m programmed), curGroup, totalCount⟩, programmed)

/-- `multiplexEvents`. -/
def multiplexEvents (beforeState : ℕ → DieCounters) (e : PassEvents)
    (s : CHAEventCollector × ChaHardware) : CHAEventCollector × ChaHardware :=
  let looped := (List.range (m.groupCount - 1)).foldl (multiplexGroup m beforeState e) s
  ({ looped.1 with curGroup := m.groupCount - 1 },
    looped.2.count (e.occurrences (m.groupCount - 1)))

/-- `getTotalCount`. -/
def CHAEventCollector.getTotalCount (c : CHAEventCollector) (afterState : ℕ → DieCounters) : UInt64 :=
  UInt64.ofNat m.groupCount *
    (c.totalCount + extractCHATotalCount m c.curGroup (c.midStates (m.groupCount - 2)) afterState)

/-- The collector, the hardware, and the state that a pass starts from. -/
structure ChaLoop where
  collector : CHAEventCollector
  hardware : ChaHardware
  beforeState : ℕ → DieCounters

/-- The part of a pass of the main loop that counts these events. -/
def chaPass (s : ChaLoop) (e : PassEvents) : ChaLoop × List UInt64 :=
  let multiplexed := multiplexEvents m s.beforeState e (s.collector, s.hardware)
  let count := multiplexed.1.getTotalCount m (readState m multiplexed.2)
  let programmed := programGroup m 0 (e.left 0)
  (⟨{ multiplexed.1 with totalCount := 0 }, programmed, readState m programmed⟩, [count])

/-- Before the loop the first group is programmed and the counters are read. -/
def chaStart (collector : CHAEventCollector) (left : ℕ → ℕ → Fin maxCounters → UInt64) : ChaLoop :=
  ⟨{ collector with totalCount := 0 }, programGroup m 0 left, readState m (programGroup m 0 left)⟩

/-- How often the events of a group occur in a slice, in the units that are looked at. -/
def groupOccurrences (group : ℕ) (occurrences : Occurrences) : ℕ :=
  ((List.range m.numSockets).map fun skt =>
    ((List.range (m.units 0)).map fun unit =>
      if unit < m.units skt then (((m.group group).take 4).map (occurrences skt unit)).sum else 0).sum).sum

end

section

variable {m : ChaMachine}

/-- There are two groups at least. -/
theorem ChaMachine.one_lt_groupCount (m : ChaMachine) : 1 < m.groupCount := by
  unfold ChaMachine.groupCount
  rcases m.supported with hspr | hemr
  · rw [hspr]
    decide
  · rw [hemr]
    decide

/-- A sum of 64 bits is the sum of what is added, modulo its size. -/
theorem foldl_add_ofNat {I : Type*} {step : UInt64 → I → UInt64} {amount : I → ℕ} {items : List I}
    (hstep : ∀ item ∈ items, ∀ result, step result item = result + UInt64.ofNat (amount item))
    (result : UInt64) :
    items.foldl step result = result + UInt64.ofNat ((items.map amount).sum) := by
  induction items generalizing result with
  | nil => simp
  | cons item rest ih =>
    rw [List.foldl_cons, ih (fun i hi => hstep i (List.mem_cons_of_mem _ hi)),
      hstep item List.mem_cons_self, List.map_cons, List.sum_cons, UInt64.ofNat_add, UInt64.add_assoc]

/-- The units of all dies are found by their number, and no others. -/
theorem getUncoreCounter_dieCounters (counter : Fin maxCounters)
    (before after : ℕ → Fin maxCounters → UInt64) (first unit : ℕ) (sizes : List ℕ) :
    getUncoreCounter counter unit (dieCounters before first sizes) (dieCounters after first sizes) =
      if unit < sizes.sum then after (first + unit) counter - before (first + unit) counter else 0 := by
  induction sizes generalizing first unit with
  | nil => simp [dieCounters, getUncoreCounter]
  | cons size rest ih =>
    have hsum : (size :: rest).sum = size + rest.sum := List.sum_cons
    simp only [dieCounters, getUncoreCounter, List.length_map, List.length_range']
    by_cases hdie : unit < size
    · rw [if_pos hdie, if_pos (by omega)]
      simp [hdie]
    · have hunit : first + size + (unit - size) = first + unit := by omega
      have hrest : unit - size < rest.sum ↔ unit < (size :: rest).sum := by omega
      rw [if_neg hdie, ih, hunit]
      simp only [hrest]

/-- The counters of a group count its events, in the order of the group. -/
theorem map_groupEvents (group : ℕ) (amount : UInt64 → ℕ) :
    ((List.finRange maxCounters).take (min 4 (m.group group).length)).map (fun ctr : Fin maxCounters =>
        if h : ctr.val < 4 then amount (groupEvents m group ⟨ctr, h⟩) else 0) =
      ((m.group group).take 4).map amount := by
  apply List.ext_getElem
  · simp [maxCounters]
  · intro i hi hj
    simp only [List.length_map, List.length_take] at hi hj
    have hfour : i < 4 := by omega
    have hlength : i < (m.group group).length := by omega
    simp [hfour, groupEvents, hlength]

/-- What a unit has counted in a slice, and nothing for a number without a unit. -/
theorem getUncoreCounter_slice (hw : ChaHardware) (occurrences : Occurrences) (skt unit : ℕ)
    (counter : Fin maxCounters) :
    getUncoreCounter counter unit (readState m hw skt) (readState m (hw.count occurrences) skt) =
      UInt64.ofNat (if unit < m.units skt then
        if h : counter.val < 4 then occurrences skt unit (hw.events ⟨counter, h⟩) else 0 else 0) := by
  rw [readState, readState, getUncoreCounter_dieCounters, zero_add, ChaMachine.units]
  by_cases hunit : unit < (m.dieSizes skt).sum
  · rw [if_pos hunit, if_pos hunit, ChaHardware.count]
    split_ifs with hcounter
    · simp only [hcounter, dif_pos]
      rw [UInt64.add_comm, UInt64.add_sub_cancel]
    · simp only [hcounter, dif_neg, not_false_eq_true]
      rw [UInt64.add_comm, UInt64.add_sub_cancel]
      rfl
  · rw [if_neg hunit, if_neg hunit]
    rfl

/-- A slice is counted from the reading before it, whatever that shows. -/
theorem extractCHATotalCount_slice (group : ℕ) {hw : ChaHardware} (hevents : hw.events = groupEvents m group)
    (occurrences : Occurrences) :
    extractCHATotalCount m group (readState m hw) (readState m (hw.count occurrences)) =
      UInt64.ofNat (groupOccurrences m group occurrences) := by
  have hcounters : ∀ skt, ∀ unit ∈ List.range (m.units 0), ∀ result,
      ((List.finRange maxCounters).take (min 4 (m.group group).length)).foldl (fun result ctr =>
        result + getUncoreCounter ctr unit (readState m hw skt) (readState m (hw.count occurrences) skt))
        result =
      result + UInt64.ofNat (if unit < m.units skt then
        (((m.group group).take 4).map (occurrences skt unit)).sum else 0) := by
    intro skt unit _ result
    rw [foldl_add_ofNat (fun ctr _ result => by rw [getUncoreCounter_slice])]
    congr 2
    split_ifs with hunit
    · rw [hevents, map_groupEvents]
    · simp
  have hunits : ∀ skt ∈ List.range m.numSockets, ∀ result, (List.range (m.units 0)).foldl (fun result unit =>
      ((List.finRange maxCounters).take (min 4 (m.group group).length)).foldl (fun result ctr =>
        result + getUncoreCounter ctr unit (readState m hw skt) (readState m (hw.count occurrences) skt))
        result) result =
      result + UInt64.ofNat ((List.range (m.units 0)).map fun unit =>
        if unit < m.units skt then (((m.group group).take 4).map (occurrences skt unit)).sum else 0).sum :=
    fun skt _ result => foldl_add_ofNat (hcounters skt) result
  rw [extractCHATotalCount, foldl_add_ofNat hunits, UInt64.zero_add]
  rfl

/-- The reading that the next slice is counted from. -/
def latestReading (beforeState : ℕ → DieCounters) (c : CHAEventCollector) : ℕ → ℕ → DieCounters
  | 0 => beforeState
  | k + 1 => c.midStates k

/-- A step of the loop over the groups counts its slice and prepares the next one. -/
theorem multiplexGroup_spec (beforeState : ℕ → DieCounters) (e : PassEvents)
    {s : CHAEventCollector × ChaHardware} {group : ℕ} (hevents : s.2.events = groupEvents m group)
    (hlatest : latestReading beforeState s.1 group = readState m s.2) :
    (multiplexGroup m beforeState e s group).1.totalCount =
        s.1.totalCount + UInt64.ofNat (groupOccurrences m group (e.occurrences group)) ∧
      (multiplexGroup m beforeState e s group).2.events = groupEvents m (group + 1) ∧
      latestReading beforeState (multiplexGroup m beforeState e s group).1 (group + 1) =
        readState m (multiplexGroup m beforeState e s group).2 := by
  refine ⟨?_, rfl, ?_⟩
  · have hstart : (if 0 < group then
        Function.update s.1.midStates group (readState m (s.2.count (e.occurrences group))) (group - 1)
        else beforeState) = readState m s.2 := by
      cases group with
      | zero => exact hlatest
      | succ k =>
        rw [if_pos (Nat.succ_pos k), Nat.add_sub_cancel, Function.update_of_ne (by omega)]
        exact hlatest
    rw [multiplexGroup, ← extractCHATotalCount_slice group hevents, ← hstart]
    simp only [Function.update_self]
  · exact Function.update_self _ _ _

/-- After the loop over the first groups their slices have been counted. -/
theorem multiplexLoop_spec (beforeState : ℕ → DieCounters) (e : PassEvents)
    {s : CHAEventCollector × ChaHardware} (hnone : s.1.totalCount = 0)
    (hevents : s.2.events = groupEvents m 0) (hbefore : beforeState = readState m s.2) (k : ℕ) :
    ((List.range k).foldl (multiplexGroup m beforeState e) s).1.totalCount =
        UInt64.ofNat ((List.range k).map fun group =>
          groupOccurrences m group (e.occurrences group)).sum ∧
      ((List.range k).foldl (multiplexGroup m beforeState e) s).2.events = groupEvents m k ∧
      latestReading beforeState ((List.range k).foldl (multiplexGroup m beforeState e) s).1 k =
        readState m ((List.range k).foldl (multiplexGroup m beforeState e) s).2 := by
  induction k with
  | zero => exact ⟨hnone, hevents, hbefore⟩
  | succ k ih =>
    obtain ⟨htotal, hprogrammed, hlatest⟩ := ih
    obtain ⟨hnext, hrest⟩ := multiplexGroup_spec beforeState e hprogrammed hlatest
    rw [List.range_succ, List.foldl_append, List.map_append, List.sum_append, List.foldl_cons,
      List.foldl_nil]
    refine ⟨?_, hrest⟩
    rw [hnext, htotal, ← UInt64.ofNat_add, List.map_singleton, List.sum_singleton]

/-- What every pass starts from: nothing is counted yet, the first group is programmed, and the state has
been read behind that. -/
def Ready (m : ChaMachine) (s : ChaLoop) : Prop :=
  s.collector.totalCount = 0 ∧ s.hardware.events = groupEvents m 0 ∧
    s.beforeState = readState m s.hardware

/-- The occurrences of the events of each group in its own slice of a pass. -/
def slicedOccurrences (m : ChaMachine) (e : PassEvents) : ℕ :=
  ((List.range m.groupCount).map fun group => groupOccurrences m group (e.occurrences group)).sum

/-- A pass counts each group in its own slice, and leaves everything ready for the next pass. -/
theorem chaPass_spec {s : ChaLoop} (hready : Ready m s) (e : PassEvents) :
    (chaPass m s e).2 = [UInt64.ofNat (m.groupCount * slicedOccurrences m e)] ∧
      Ready m (chaPass m s e).1 := by
  refine ⟨?_, rfl, rfl, rfl⟩
  obtain ⟨k, hk⟩ : ∃ k, m.groupCount = k + 2 :=
    ⟨m.groupCount - 2, by have := m.one_lt_groupCount; omega⟩
  obtain ⟨hnone, hfirst, hbefore⟩ := hready
  obtain ⟨htotal, hevents, hlatest⟩ :=
    multiplexLoop_spec (s := (s.collector, s.hardware)) s.beforeState e hnone hfirst hbefore (k + 1)
  have hlast := extractCHATotalCount_slice (k + 1) hevents (e.occurrences (k + 1))
  rw [← hlatest] at hlast
  simp only [chaPass, multiplexEvents, CHAEventCollector.getTotalCount, hk, Nat.add_sub_cancel,
    show k + 2 - 1 = k + 1 from rfl]
  rw [htotal]
  simp only [latestReading] at hlast
  rw [hlast, ← UInt64.ofNat_add, ← UInt64.ofNat_mul, slicedOccurrences, hk, List.range_succ (n := k + 1),
    List.map_append, List.sum_append, List.map_singleton, List.sum_singleton]

/-- If the slices are alike, each group occurs in the whole pass as often as in its slice times their
number. -/
theorem slicedOccurrences_of_even {e : PassEvents}
    (heven : ∀ slice < m.groupCount, e.occurrences slice = e.occurrences 0) :
    m.groupCount * slicedOccurrences m e =
      ((List.range m.groupCount).map fun slice =>
        ((List.range m.groupCount).map fun group =>
          groupOccurrences m group (e.occurrences slice)).sum).sum := by
  have hslices : (List.range m.groupCount).map (fun slice =>
      ((List.range m.groupCount).map fun group =>
        groupOccurrences m group (e.occurrences slice)).sum) =
      (List.range m.groupCount).map fun _ => slicedOccurrences m e := by
    refine List.map_congr_left ?_
    intro slice hslice
    rw [slicedOccurrences]
    congr 1
    refine List.map_congr_left ?_
    intro group hgroup
    rw [heven slice (List.mem_range.mp hslice), heven group (List.mem_range.mp hgroup)]
  rw [hslices, List.map_const', List.sum_replicate, List.length_range, smul_eq_mul]

/-- In every pass of every run the number that is handed on is the number of groups times what the groups
count, each in its own slice of that pass, modulo `2 ^ 64`. If the events occur as often in one slice as in
the other, this is how often all of them occur in the pass. -/
theorem chaRun_count (collector : CHAEventCollector) (left : ℕ → ℕ → Fin maxCounters → UInt64)
    (passes : List PassEvents) :
    ∀ c ∈ totalCalls (chaPass m) (chaStart m collector left) passes,
      c.output = [UInt64.ofNat (m.groupCount * slicedOccurrences m c.input)] ∧
        ((∀ slice < m.groupCount, c.input.occurrences slice = c.input.occurrences 0) →
          c.output = [UInt64.ofNat ((List.range m.groupCount).map fun slice =>
            ((List.range m.groupCount).map fun group =>
              groupOccurrences m group (c.input.occurrences slice)).sum).sum]) := by
  have hstart : Ready m (chaStart m collector left) := ⟨rfl, rfl, rfl⟩
  refine @runCalls_guarded _ _ _ _ _ (fun _ _ => True) _ (Ready m) hstart ?_ _ _
    (runCalls_total _ _ passes) fun _ _ => trivial
  intro s e next output hready _ hpass
  obtain ⟨rfl, rfl⟩ := Prod.mk.inj (Option.some.inj hpass)
  obtain ⟨hcount, hnext⟩ := chaPass_spec hready e
  refine ⟨hnext, hcount, ?_⟩
  intro heven
  rw [← slicedOccurrences_of_even heven]
  exact hcount

end

/-- One socket with two units. -/
def twoUnits : ChaMachine := ⟨1, fun _ => [2], .spr, Or.inl rfl⟩

/-- A pass in which every event occurs once in every unit and slice. -/
def everyOnce : PassEvents := ⟨fun _ _ _ _ => 1, fun _ _ _ _ => 0⟩

/-- Eight events in two units and two slices. -/
theorem chaRun_count_twoUnits :
    (chaPass twoUnits (chaStart twoUnits ⟨fun _ _ => [], 0, 0⟩ fun _ _ _ => 0) everyOnce).2 = [32] := by
  have hcount := (@chaRun_count twoUnits ⟨fun _ _ => [], 0, 0⟩ (fun _ _ _ => 0) [everyOnce] _
    List.mem_cons_self).1
  exact hcount.trans (by decide)

end NodePower
