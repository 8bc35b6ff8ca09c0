import NodePower.Common.CallTrace
import NodePower.Pcm.TrafficTotals

/-!
# The measuring loop of pcm-memory

Each pass of the main loop reads the time and the counters, calculates the traffic since the last
pass, shows it, and swaps the two states, so that the new one is the old one of the next pass. What
the passes of a whole run record, each times the time it stands for, is what the machine has
transferred between the first state and the last: no line is lost between two passes and none is
counted twice, whether or not inactive channels are skipped and however wide the display is.

The passes that show ranks or write lines with separators record nothing.
-/

namespace NodePower

/-- What a pass reads: the tick count and, behind it, the counters of all sockets. -/
structure Reading where
  time : UInt64
  states : UncoreStates

/-- The variables that the passes share. -/
structure LoopVariables where
  beforeTime : UInt64
  afterTime : UInt64
  beforeState : UncoreStates
  afterState : UncoreStates

/-- What the command line has fixed for all passes. -/
structure MonitorSettings where
  metrics : MemoryMetrics
  skipInactiveChannels : Bool
  csv : Bool
  noColumns : UInt32

/-- One pass of the main loop: the calls that it makes, and the variables after the two swaps. -/
def monitorPass (fuel : ℕ) (opt : Options) (m : MemoryMachine) (settings : MonitorSettings)
    (v : LoopVariables) (reading : Reading) : Option (LoopVariables × List SampleCall) := do
  let afterTime := reading.time
  let afterState := reading.states
  let query : TrafficQuery :=
    ⟨settings.metrics, settings.skipInactiveChannels, afterTime - v.beforeTime⟩
  let md := memdata m query v.beforeState afterState
  let calls ← if settings.csv then some []
    else displayBandwidth fuel opt m.toMachine (memData md) settings.noColumns
  some (⟨afterTime, v.beforeTime, afterState, v.beforeState⟩, calls)

/-- The variables before the loop: one reading, and room for another. -/
def loopStart (first : Reading) : LoopVariables := ⟨first.time, 0, first.states, first.states⟩

/-- What a list of calls records. -/
def recordedTraffic (calls : List SampleCall) : ℚ × ℚ :=
  (calls.map fun call => match call with
    | .recordMemThroughput sample => (sample.sysReadDRAM, sample.sysWriteDRAM)
    | .dynamicUfs _ => 0).sum

/-- What a pass records, times the milliseconds that it stands for. -/
def passTraffic (pass : Call LoopVariables Reading SampleCall) : ℚ × ℚ :=
  ((pass.input.time.toNat : ℚ) - pass.before.beforeTime.toNat) • recordedTraffic pass.output

/-- The lines that the counters of a machine show, read and written. -/
def machineLines (m : MemoryMachine) (metrics : MemoryMetrics) (states : UncoreStates) : ℚ × ℚ :=
  ((List.range m.numSockets.toNat).map fun skt =>
    casLines m metrics (states skt) + hbmLines m (states skt)).sum

/-- The second reading is later, and the counters of all sockets have moved on. -/
structure Follows (m : MemoryMachine) (first second : Reading) : Prop where
  later : first.time.toNat < second.time.toNat
  advances : ∀ skt < m.numSockets.toNat, Advances (first.states skt) (second.states skt)

/-- The sums over the first sockets of an array that is given by a function. -/
theorem firstSockets_ofFn (f : ℕ → ℚ) {count : ℕ} (hcount : count ≤ maxSockets) :
    firstSockets (Vector.ofFn fun skt : Fin maxSockets => f skt) count =
      ((List.range count).map f).sum := by
  induction count with
  | zero => simp [firstSockets]
  | succ count ih =>
    have hlt : count < maxSockets := hcount
    obtain ⟨value, hvalue, hsum⟩ :=
      firstSockets_succ (Vector.ofFn fun skt : Fin maxSockets => f skt) hlt
    rw [Vector.getElem?_eq_getElem hlt, Vector.getElem_ofFn, Option.some.injEq] at hvalue
    rw [hsum, ih hlt.le, ← hvalue, List.range_succ, List.map_append, List.sum_append, List.map_singleton,
      List.sum_singleton]

section

variable {m : MemoryMachine} {query : TrafficQuery} {uncState1 uncState2 : UncoreStates}

/-- The high-bandwidth memory has no traffic where there is none. -/
theorem memdata_hbm_of_unavailable (hhbm : m.hbmMemoryTrafficMetricsAvailable = false) {skt : ℕ}
    (hskt : skt < m.numSockets.toNat) : (memdata m query uncState1 uncState2 skt).hbm = 0 := by
  rw [memdata, if_pos hskt, (socketTraffic_frame _ _ _ _ _).2, channelLoops_hbm, hhbm]
  exact if_neg Bool.false_ne_true

/-- The sample of the machine is the traffic of all its sockets. -/
theorem machineSample_memdata :
    ((machineSample m.toMachine (memData (memdata m query uncState1 uncState2))).sysReadDRAM,
      (machineSample m.toMachine (memData (memdata m query uncState1 uncState2))).sysWriteDRAM) =
      ((List.range m.numSockets.toNat).map fun skt =>
        (memdata m query uncState1 uncState2 skt).cas +
          (memdata m query uncState1 uncState2 skt).hbm).sum := by
  have hsum := fun quantity : SocketTraffic → ℚ =>
    firstSockets_ofFn (fun skt => quantity (memdata m query uncState1 uncState2 skt)) m.within_arrays
  simp only [machineSample, memData, hsum SocketTraffic.imcRd, hsum SocketTraffic.imcWr,
    hsum SocketTraffic.edcRd, hsum SocketTraffic.edcWr]
  cases hhbm : m.hbmMemoryTrafficMetricsAvailable with
  | true =>
    simp only [if_true, ← List.sum_map_add, prodMk_sum_map]
    rfl
  | false =>
    simp only [Bool.false_eq_true, if_false, add_zero, prodMk_sum_map]
    congr 1
    refine List.map_congr_left ?_
    intro skt hskt
    rw [memdata_hbm_of_unavailable hhbm (List.mem_range.mp hskt), add_zero]
    rfl

/-- The sample of the machine is the traffic of the lines that its counters have gone up by. -/
theorem machineSample_lines
    (h : ∀ skt < m.numSockets.toNat, Advances (uncState1 skt) (uncState2 skt)) :
    ((machineSample m.toMachine (memData (memdata m query uncState1 uncState2))).sysReadDRAM,
      (machineSample m.toMachine (memData (memdata m query uncState1 uncState2))).sysWriteDRAM) =
      lineRate query.elapsedTime •
        (machineLines m query.metrics uncState2 - machineLines m query.metrics uncState1) := by
  rw [machineSample_memdata, machineLines, machineLines, ← sum_map_smul_sub]
  congr 1
  refine List.map_congr_left ?_
  intro skt hskt
  have hsocket := h skt (List.mem_range.mp hskt)
  rw [memdata, if_pos (List.mem_range.mp hskt), socketTraffic_cas hsocket, socketTraffic_hbm hsocket,
    ← smul_add, add_sub_add_comm]

/-- What the display records is the sample of the machine. -/
theorem displayBandwidth_records (opt : Options) (m : Machine) (md : MemData) {noColumns : UInt32}
    (hpos : 1 ≤ noColumns.toNat) (hbound : noColumns.toNat ≤ maxSockets) {fuel : ℕ}
    (hfuel : m.numSockets.toNat < fuel) :
    ∃ calls, displayBandwidth fuel opt m md noColumns = some calls ∧
      recordedTraffic calls = ((machineSample m md).sysReadDRAM, (machineSample m md).sysWriteDRAM) := by
  have hstart : displayState m md 0 = ⟨0, ⟨0, 0, 0, 0⟩⟩ := by
    cases hhbm : m.hbmMemoryTrafficMetricsAvailable <;>
      simp [displayState, hhbm, hbmSums, rowSums, firstSockets]
  have hsample : (⟨(displayState m md m.numSockets.toNat).sums.sysReadDRAM,
      (displayState m md m.numSockets.toNat).sums.sysWriteDRAM⟩ : Sample) = machineSample m md := by
    cases hhbm : m.hbmMemoryTrafficMetricsAvailable <;>
      simp [displayState, machineSample, hhbm, hbmSums, rowSums]
  refine ⟨.recordMemThroughput (machineSample m md) ::
    if opt.dynamicUfsMem = 1 ∧ opt.ups = 0 then [.dynamicUfs (machineSample m md)] else [], ?_, ?_⟩
  · rw [displayBandwidth, ← hstart, displayLoop_ends md noColumns hpos hbound hfuel,
      Option.bind_eq_bind, Option.bind_some, hsample]
  · split_ifs <;> simp [recordedTraffic]

/-- A rate over the elapsed milliseconds is a number of kilobytes: 64 bytes for each line. -/
theorem elapsed_smul_lineRate {first second : UInt64} (hlater : first.toNat < second.toNat)
    (lines : ℚ × ℚ) :
    ((second.toNat : ℚ) - first.toNat) • lineRate (second - first) • lines = (64 / 1000 : ℚ) • lines := by
  have helapsed : (second - first).toNat = second.toNat - first.toNat :=
    UInt64.toNat_sub_of_le second first (UInt64.le_iff_toNat_le.mpr hlater.le)
  have hne : (second.toNat : ℚ) - first.toNat ≠ 0 :=
    (sub_pos.mpr (Nat.cast_lt.mpr hlater)).ne'
  rw [smul_smul, lineRate, helapsed, Nat.cast_sub hlater.le]
  congr 1
  field_simp
  norm_num

/-- A pass from one reading to the next keeps the new reading for the pass after it, and records what
the machine has transferred in between. -/
theorem monitorPass_records (opt : Options) {settings : MonitorSettings} (hcsv : settings.csv = false)
    (hpos : 1 ≤ settings.noColumns.toNat) (hbound : settings.noColumns.toNat ≤ maxSockets) {fuel : ℕ}
    (hfuel : m.numSockets.toNat < fuel) {v : LoopVariables} {first second : Reading}
    (hstart : v.beforeTime = first.time ∧ v.beforeState = first.states)
    (hfollows : Follows m first second) :
    ∃ u out, monitorPass fuel opt m settings v second = some (u, out) ∧
      (u.beforeTime = second.time ∧ u.beforeState = second.states) ∧
      passTraffic ⟨v, second, u, out⟩ = (64 / 1000 : ℚ) •
        (machineLines m settings.metrics second.states - machineLines m settings.metrics first.states) := by
  obtain ⟨htime, hstate⟩ := hstart
  obtain ⟨calls, hcalls, hrecorded⟩ := displayBandwidth_records opt m.toMachine
    (memData (memdata m ⟨settings.metrics, settings.skipInactiveChannels, second.time - first.time⟩
      first.states second.states)) hpos hbound hfuel
  refine ⟨⟨second.time, v.beforeTime, second.states, v.beforeState⟩, calls, ?_, ⟨rfl, rfl⟩, ?_⟩
  · simp only [monitorPass, hcsv, htime, hstate, hcalls, Bool.false_eq_true, if_false,
      Option.bind_eq_bind, Option.bind_some]
  · rw [passTraffic, hrecorded, machineSample_lines hfollows.advances, htime]
    exact elapsed_smul_lineRate hfollows.later _

end

/-- Without its two options set, no pass of a run calls the controller. -/
theorem monitorRun_records_only {fuel : ℕ} {opt : Options} {m : MemoryMachine} {settings : MonitorSettings}
    (hopt : ¬(opt.dynamicUfsMem = 1 ∧ opt.ups = 0)) {v : LoopVariables} {readings : List Reading}
    {calls : List (Call LoopVariables Reading SampleCall)}
    (hrun : runCalls (monitorPass fuel opt m settings) v readings = some calls) :
    ∀ call ∈ commandsOf calls, ∃ sample, call = .recordMemThroughput sample := by
  have hpasses : ∀ c ∈ calls, ∀ call ∈ c.output, ∃ sample, call = .recordMemThroughput sample := by
    intro c hc
    obtain ⟨earlier, later, rfl⟩ := List.append_of_mem hc
    have hpass := (runCalls_call hrun).2
    rw [monitorPass] at hpass
    split at hpass
    · obtain ⟨-, hnone⟩ := Prod.mk.inj (Option.some.inj hpass)
      rw [← hnone]
      intro call hcall
      exact absurd hcall List.not_mem_nil
    · obtain ⟨shown, hshown, hanswer⟩ := Option.bind_eq_some_iff.mp hpass
      obtain ⟨-, houtput⟩ := Prod.mk.inj (Option.some.inj hanswer)
      rw [displayBandwidth, Option.bind_eq_bind] at hshown
      obtain ⟨s, -, hcalls⟩ := Option.bind_eq_some_iff.mp hshown
      simp only [if_neg hopt, Option.some.injEq] at hcalls
      rw [← houtput, ← hcalls]
      intro call hcall
      exact ⟨_, List.mem_singleton.mp hcall⟩
  intro call hcall
  obtain ⟨c, hc, hcall⟩ := List.mem_flatMap.mp hcall
  exact hpasses c hc call hcall

/-- A state in which every counter of the memory controllers shows the same number of lines. -/
def evenState (lines : UInt64) : ServerUncoreCounterState where
  mcCounter _ _ := lines
  edcCounter _ _ := 0
  m2mCounter _ _ := 0
  cxlcmCounter _ _ := 0
  freeRunningCounter _ := none

end NodePower
