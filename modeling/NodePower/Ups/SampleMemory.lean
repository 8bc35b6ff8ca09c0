import NodePower.Common.MemoryBlock
import NodePower.Ups.Monitor

/-!
# The memory of the UPS samples

`monitor_dram_power_and_ipc` allocates its sample buffer once, for a million samples, but
leaves the loop only after ten million. Up to the first million the memory holds exactly the
samples of the run, and the next one is stored behind its end.
-/

namespace NodePower.Ups

/-- The number of samples that memory is allocated for. -/
def allocatedSamples : ℕ := 1000000

/-- The size of a sample, three numbers of type `double`. -/
def sizeofPowerIpcData : ℕ := 24

/-- The buffer of the loop, and whether the loop was left because it is full. -/
structure SampleMemory where
  data : Block PowerIpcData
  count : ℕ
  left : Bool

/-- The guarded store of one round. -/
def storeSample (m : SampleMemory) (sample : PowerIpcData) : Except Stop SampleMemory :=
  if m.left then .ok m
  else if m.count < bufferSize then do
    let data ← m.data.store m.count sample
    return { m with data, count := m.count + 1 }
  else .ok { m with left := true }

/-- The samples written to the CSV file after a run. -/
def writtenSamples (allocator : Allocator) (energyFiles : List (Option ℕ))
    (readings : List Reading) : Except Stop (List PowerIpcData) :=
  if allocator.provides (allocatedSamples * sizeofPowerIpcData) then do
    let m ← (measureAll (readDramEnergy energyFiles) readings).foldlM storeSample
      ⟨.allocate allocatedSamples, 0, false⟩
    m.data.readUpTo m.count
  else .error .allocationFailed

/-- Every reading gives one sample. -/
theorem length_measureAll (initialEnergy : ℚ) (readings : List Reading) :
    (measureAll initialEnergy readings).length = readings.length := by
  induction readings generalizing initialEnergy with
  | nil => rfl
  | cons reading rest ih => simp [measureAll, ih]

/-- As long as the loop goes on, a round stores its sample at the count. -/
theorem storeSample_eq {m : SampleMemory} (hleft : m.left = false) (hguard : m.count < bufferSize)
    (sample : PowerIpcData) :
    storeSample m sample = (m.data.store m.count sample).bind fun data =>
      .ok { m with data, count := m.count + 1 } := by
  rw [storeSample, if_neg (by simp [hleft]), if_pos hguard]
  rfl

/-- As long as the memory has room the rounds fill it in order, and without room a round stores
outside. -/
theorem foldlM_storeSample {m : SampleMemory} {earlier : List PowerIpcData}
    (hholds : m.data.Holds earlier) (hcount : m.count = earlier.length) (hleft : m.left = false)
    (hsize : m.data.cells.length = allocatedSamples) (samples : List PowerIpcData) :
    (earlier.length + samples.length ≤ allocatedSamples →
        ∃ last, samples.foldlM storeSample m = .ok last ∧ last.data.Holds (earlier ++ samples) ∧
          last.count = (earlier ++ samples).length) ∧
      (allocatedSamples < earlier.length + samples.length →
        samples.foldlM storeSample m = .error .outOfBounds) := by
  have hfits := hholds.length_le
  induction samples generalizing m earlier with
  | nil =>
    refine ⟨fun _ => ⟨m, rfl, by rwa [List.append_nil], by rwa [List.append_nil]⟩, fun hbeyond => ?_⟩
    rw [List.length_nil] at hbeyond
    omega
  | cons sample rest ih =>
    have hguard : m.count < bufferSize := by
      rw [bufferSize]
      rw [allocatedSamples] at hsize
      omega
    rw [List.foldlM_cons, storeSample_eq hleft hguard, List.length_cons]
    by_cases hroom : earlier.length < m.data.cells.length
    · obtain ⟨data, hdata, hnext, hlength⟩ := hholds.store hroom sample
      have hrest := ih (m := { m with data, count := m.count + 1 }) hnext
        (by rw [hcount, List.length_append, List.length_singleton]) hleft (hlength.trans hsize)
        hnext.length_le
      rw [List.length_append, List.length_singleton, List.append_assoc, List.singleton_append,
        Nat.add_assoc, Nat.add_comm 1] at hrest
      rw [← hcount] at hdata
      rw [hdata]
      exact hrest
    · have hfull := Block.store_eq_error (not_lt.mp hroom) sample
      rw [← hcount] at hfull
      rw [hfull]
      refine ⟨fun hwithin => ?_, fun _ => rfl⟩
      omega

/-- A run over at most a million readings writes its samples; over more readings it stores outside
its memory. -/
theorem writtenSamples_eq {allocator : Allocator}
    (hprovides : allocator.provides (allocatedSamples * sizeofPowerIpcData) = true)
    (energyFiles : List (Option ℕ)) (readings : List Reading) :
    writtenSamples allocator energyFiles readings =
      if readings.length ≤ allocatedSamples then .ok (measureAll (readDramEnergy energyFiles) readings)
      else .error .outOfBounds := by
  obtain ⟨hwithin, hbeyond⟩ := foldlM_storeSample
    (m := ⟨.allocate allocatedSamples, 0, false⟩) (Block.holds_allocate allocatedSamples) rfl rfl
    (Block.length_allocate allocatedSamples) (measureAll (readDramEnergy energyFiles) readings)
  rw [List.length_nil, Nat.zero_add, length_measureAll] at hwithin hbeyond
  rw [writtenSamples, if_pos hprovides]
  split
  · rename_i hlength
    obtain ⟨last, hlast, hholds, hcount⟩ := hwithin hlength
    rw [List.nil_append] at hholds hcount
    rw [hlast]
    change last.data.readUpTo last.count = _
    rw [hholds.readUpTo hcount.le, hcount, List.take_length]
  · rename_i hlength
    rw [hbeyond (not_le.mp hlength)]
    rfl

end NodePower.Ups
