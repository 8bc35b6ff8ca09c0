import NodePower.Soc.SampleMemory
import NodePower.Ups.SampleMemory

/-!
# The sample buffers of the two native monitors

Both monitors store one sample in every round and write all of them at the end of the run.
The SoC monitor makes room before it stores; the UPS monitor checks the number of samples
against a bound that its memory does not have.
-/

namespace NodePower

variable {A : Type*}

/-- The samples of a run are stored inside the memory and written in order, unless memory is refused
at some point; a monitor may stop early when a capacity is reached. -/
def SamplesKept (capacity : Option ℕ) (samples : List A) (written : Except Stop (List A)) : Prop :=
  written = .error .allocationFailed ∨
    ∃ stored, written = .ok stored ∧ stored <+: samples ∧
      (stored = samples ∨ ∃ full, capacity = some full ∧ full ≤ stored.length)

/-- Both monitors keep the samples of their runs. -/
def MonitorsKeepSamples (allocator : Allocator) (upsEnergyFiles : List (Option ℕ))
    (upsReadings : List Ups.Reading) (dualCap : Int32) (socReadings : List Soc.Reading) : Prop :=
  SamplesKept (some Ups.allocatedSamples)
      (Ups.measureAll (Ups.readDramEnergy upsEnergyFiles) upsReadings)
      (Ups.writtenSamples allocator upsEnergyFiles upsReadings) ∧
    SamplesKept none (Soc.cpuSamples (Soc.monitorRun dualCap socReadings))
      (Soc.writtenSamples allocator dualCap socReadings)

/-- The SoC monitor keeps the samples of every run. -/
theorem samplesKept_soc (allocator : Allocator) (dualCap : Int32) (readings : List Soc.Reading) :
    SamplesKept none (Soc.cpuSamples (Soc.monitorRun dualCap readings))
      (Soc.writtenSamples allocator dualCap readings) := by
  rcases Soc.writtenSamples_eq allocator dualCap readings with hrefused | hwritten
  · exact Or.inl hrefused
  · exact Or.inr ⟨_, hwritten, List.prefix_refl _, Or.inl rfl⟩

/-- A run of the UPS monitor that gets its memory keeps its samples exactly up to a million rounds. -/
theorem samplesKept_ups_iff {allocator : Allocator}
    (hprovides : allocator.provides (Ups.allocatedSamples * Ups.sizeofPowerIpcData) = true)
    (energyFiles : List (Option ℕ)) (readings : List Ups.Reading) :
    SamplesKept (some Ups.allocatedSamples)
        (Ups.measureAll (Ups.readDramEnergy energyFiles) readings)
        (Ups.writtenSamples allocator energyFiles readings) ↔
      readings.length ≤ Ups.allocatedSamples := by
  rw [Ups.writtenSamples_eq hprovides]
  constructor
  · intro hkept
    by_contra hbeyond
    rw [if_neg hbeyond] at hkept
    rcases hkept with hrefused | ⟨stored, hstored, -⟩
    · cases hrefused
    · cases hstored
  · intro hwithin
    rw [if_pos hwithin]
    exact Or.inr ⟨_, rfl, List.prefix_refl _, Or.inl rfl⟩

/-- For runs of any length, both monitors keep their samples exactly when the UPS monitor gets no
memory at all or makes at most a million rounds. -/
theorem monitorsKeepSamples_iff (allocator : Allocator) (upsEnergyFiles : List (Option ℕ))
    (upsReadings : List Ups.Reading) (dualCap : Int32) (socReadings : List Soc.Reading) :
    MonitorsKeepSamples allocator upsEnergyFiles upsReadings dualCap socReadings ↔
      (allocator.provides (Ups.allocatedSamples * Ups.sizeofPowerIpcData) = true →
        upsReadings.length ≤ Ups.allocatedSamples) := by
  rw [MonitorsKeepSamples, and_iff_left (samplesKept_soc allocator dualCap socReadings)]
  by_cases hprovides :
      allocator.provides (Ups.allocatedSamples * Ups.sizeofPowerIpcData) = true
  · rw [samplesKept_ups_iff hprovides, forall_prop_of_true hprovides]
  · refine iff_of_true (Or.inl ?_) fun h => absurd h hprovides
    rw [Ups.writtenSamples, if_neg hprovides]

/-- An allocator that provides a gibibyte at a time. -/
def gibibyteAllocator : Allocator where
  provides size := size ≤ 2 ^ 30
  provides_lt := by
    intro size h
    exact (of_decide_eq_true h).trans_lt (by norm_num)

/-- The first sample after a million is stored behind the memory of the UPS monitor. -/
theorem monitorsKeepSamples_fails_after_a_million :
    ¬ ∀ (allocator : Allocator) (upsEnergyFiles : List (Option ℕ)) (upsReadings : List Ups.Reading)
      (dualCap : Int32) (socReadings : List Soc.Reading),
      MonitorsKeepSamples allocator upsEnergyFiles upsReadings dualCap socReadings := by
  intro hevery
  have hkept := (hevery gibibyteAllocator [some 0] (List.replicate 1000001 ⟨0, [some 0], none⟩) 1 []).1
  have hprovides :
      gibibyteAllocator.provides (Ups.allocatedSamples * Ups.sizeofPowerIpcData) = true := by
    norm_num [gibibyteAllocator, Ups.allocatedSamples, Ups.sizeofPowerIpcData]
  rw [samplesKept_ups_iff hprovides, List.length_replicate, Ups.allocatedSamples] at hkept
  norm_num at hkept

end NodePower
