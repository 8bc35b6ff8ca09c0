import NodePower.Common.MemoryBlock
import NodePower.Soc.Monitor

/-!
# The memory of the CPU samples

`monitor_cpu_util` starts with a buffer for a hundred thousand samples and doubles it when it
is full. No object is so large that doubling it overflows a `size_t`, so until the allocator
refuses more memory every sample is stored behind the earlier ones.
-/

namespace NodePower.Soc

/-- The number of elements that the buffer starts with. -/
def initialCapacity : ℕ := 100000

/-- The size of a sample, two numbers of type `double`. -/
def sizeofCpuSample : ℕ := 16

/-- The buffer of the loop; its capacity is a `size_t`. -/
structure SampleMemory where
  data : Block CpuSample
  capacity : ℕ
  count : ℕ

/-- The growth of the buffer before a store. -/
def makeRoom (allocator : Allocator) (m : SampleMemory) : Except Stop SampleMemory :=
  if m.count = m.capacity then
    let capacity := m.capacity * 2 % 2 ^ 64
    let size := capacity * sizeofCpuSample % 2 ^ 64
    if allocator.provides size then
      .ok { m with data := m.data.reallocate (size / sizeofCpuSample), capacity }
    else .error .allocationFailed
  else .ok m

/-- The store of one round. -/
def storeSample (allocator : Allocator) (m : SampleMemory) (sample : CpuSample) :
    Except Stop SampleMemory := do
  let m ← makeRoom allocator m
  let data ← m.data.store m.count sample
  return { m with data, count := m.count + 1 }

/-- The samples written to the CSV file after a run. -/
def writtenSamples (allocator : Allocator) (dualCap : Int32) (readings : List Reading) :
    Except Stop (List CpuSample) :=
  if allocator.provides (initialCapacity * sizeofCpuSample) then do
    let m ← (cpuSamples (monitorRun dualCap readings)).foldlM (storeSample allocator)
      ⟨.allocate initialCapacity, initialCapacity, 0⟩
    m.data.readUpTo m.count
  else .error .allocationFailed

/-- The buffer holds the samples so far, its elements are as many as its capacity says, and no
object is larger than that. -/
structure SampleMemory.Sound (m : SampleMemory) (samples : List CpuSample) : Prop where
  holds : m.data.Holds samples
  count_eq : m.count = samples.length
  length_eq : m.data.cells.length = m.capacity
  capacity_pos : 0 < m.capacity
  capacity_lt : m.capacity * sizeofCpuSample < 2 ^ 63

variable (allocator : Allocator) {m : SampleMemory} {samples : List CpuSample}

/-- A full buffer is doubled, since no size gets as large as a `size_t`. -/
theorem makeRoom_of_full (hcapacity : m.capacity * sizeofCpuSample < 2 ^ 63)
    (hfull : m.count = m.capacity) :
    makeRoom allocator m =
      if allocator.provides (m.capacity * 2 * sizeofCpuSample) = true then
        .ok { m with data := m.data.reallocate (m.capacity * 2), capacity := m.capacity * 2 }
      else .error .allocationFailed := by
  have hdoubled : m.capacity * 2 % 2 ^ 64 = m.capacity * 2 := by
    rw [sizeofCpuSample] at hcapacity
    omega
  have hsize : m.capacity * 2 * sizeofCpuSample % 2 ^ 64 = m.capacity * 2 * sizeofCpuSample := by
    rw [sizeofCpuSample] at hcapacity ⊢
    omega
  have hlength : m.capacity * 2 * sizeofCpuSample / sizeofCpuSample = m.capacity * 2 :=
    Nat.mul_div_cancel _ (by decide)
  simp only [makeRoom, if_pos hfull, hdoubled, hsize, hlength]

/-- Unless memory is refused, there is room for one more sample. -/
theorem makeRoom_spec (h : m.Sound samples) :
    makeRoom allocator m = .error .allocationFailed ∨
      ∃ next, makeRoom allocator m = .ok next ∧ next.Sound samples ∧
        samples.length < next.data.cells.length := by
  have hpos := h.capacity_pos
  by_cases hfull : m.count = m.capacity
  · rw [makeRoom_of_full allocator h.capacity_lt hfull]
    by_cases hprovides : allocator.provides (m.capacity * 2 * sizeofCpuSample) = true
    · have hlarger : m.data.cells.length ≤ m.capacity * 2 := by
        rw [h.length_eq]
        omega
      refine Or.inr ⟨_, if_pos hprovides, ?_, ?_⟩
      · exact {
          holds := h.holds.reallocate hlarger
          count_eq := h.count_eq
          length_eq := Block.length_reallocate hlarger
          capacity_pos := Nat.mul_pos hpos two_pos
          capacity_lt := allocator.provides_lt _ hprovides }
      · rw [Block.length_reallocate hlarger, ← h.count_eq]
        omega
    · exact Or.inl (if_neg hprovides)
  · refine Or.inr ⟨m, if_neg hfull, h, ?_⟩
    have hroom := h.holds.length_le
    rw [h.length_eq] at hroom ⊢
    rw [h.count_eq] at hfull
    omega

/-- Unless memory is refused, a round stores its sample behind the earlier ones. -/
theorem storeSample_spec (h : m.Sound samples) (sample : CpuSample) :
    storeSample allocator m sample = .error .allocationFailed ∨
      ∃ next, storeSample allocator m sample = .ok next ∧ next.Sound (samples ++ [sample]) := by
  rw [storeSample]
  rcases makeRoom_spec allocator h with hrefused | ⟨roomy, hroomy, hsound, hroom⟩
  · exact Or.inl (by rw [hrefused]; rfl)
  · obtain ⟨data, hdata, hholds, hlength⟩ := hsound.holds.store hroom sample
    refine Or.inr ⟨{ roomy with data, count := roomy.count + 1 }, ?_, ?_⟩
    · rw [hroomy, ← hsound.count_eq] at *
      change (roomy.data.store roomy.count sample).bind _ = _
      rw [hdata]
      rfl
    · exact {
        holds := hholds
        count_eq := by rw [hsound.count_eq, List.length_append, List.length_singleton]
        length_eq := hlength.trans hsound.length_eq
        capacity_pos := hsound.capacity_pos
        capacity_lt := hsound.capacity_lt }

/-- Unless memory is refused, the rounds store all their samples in order. -/
theorem foldlM_storeSample (h : m.Sound samples) (later : List CpuSample) :
    later.foldlM (storeSample allocator) m = .error .allocationFailed ∨
      ∃ last, later.foldlM (storeSample allocator) m = .ok last ∧ last.Sound (samples ++ later) := by
  induction later generalizing m samples with
  | nil => exact Or.inr ⟨m, rfl, by rwa [List.append_nil]⟩
  | cons sample rest ih =>
    rw [List.foldlM_cons]
    rcases storeSample_spec allocator h sample with hrefused | ⟨next, hnext, hsound⟩
    · exact Or.inl (by rw [hrefused]; rfl)
    · have hrest := ih hsound
      rw [List.append_assoc, List.singleton_append] at hrest
      rw [hnext]
      exact hrest

/-- Unless memory is refused, a run of any length writes its samples. -/
theorem writtenSamples_eq (allocator : Allocator) (dualCap : Int32) (readings : List Reading) :
    writtenSamples allocator dualCap readings = .error .allocationFailed ∨
      writtenSamples allocator dualCap readings =
        .ok (cpuSamples (monitorRun dualCap readings)) := by
  by_cases hprovides : allocator.provides (initialCapacity * sizeofCpuSample) = true
  · have hstart : (⟨.allocate initialCapacity, initialCapacity, 0⟩ : SampleMemory).Sound [] := {
      holds := Block.holds_allocate initialCapacity
      count_eq := rfl
      length_eq := Block.length_allocate initialCapacity
      capacity_pos := by norm_num [initialCapacity]
      capacity_lt := allocator.provides_lt _ hprovides }
    rw [writtenSamples, if_pos hprovides]
    rcases foldlM_storeSample allocator hstart
      (cpuSamples (monitorRun dualCap readings)) with hrefused | ⟨last, hlast, hsound⟩
    · exact Or.inl (by rw [hrefused]; rfl)
    · rw [List.nil_append] at hsound
      refine Or.inr ?_
      rw [hlast]
      change last.data.readUpTo last.count = _
      rw [hsound.holds.readUpTo hsound.count_eq.le, hsound.count_eq, List.take_length]
  · exact Or.inl (if_neg hprovides)

end NodePower.Soc
