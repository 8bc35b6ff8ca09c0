import NodePower.Ups.Monitor
import NodePower.Common.WrappingCounter
import Mathlib.Algebra.BigOperators.Fin
import Mathlib.Algebra.BigOperators.Field

/-!
# Counter wraparound in the UPS loop

Each energy file shows a cumulative energy modulo the range of its counter. The loop
subtracts successive sums of readings as they are, so a round in which a counter starts a
new lap loses one range: it stores a smaller power than was drawn, and passes it to the
controller. The run is the one of counters that never wrap exactly when, among the rounds
whose samples are stored, no counter starts a new lap.
-/

namespace NodePower.Ups

variable {n : ℕ}

/-- One round with the true cumulative energy of each socket in microjoules. -/
structure EnergyRound (n : ℕ) where
  elapsedTime : ℚ
  energy : Fin n → ℕ
  perf : Option PerfCounts

/-- The true energies of a run: those before the loop and those of each round, never falling and by
less than one range apart. -/
structure Consumption (bank : CounterBank (Fin n)) where
  first : Fin n → ℕ
  rounds : List (EnergyRound n)
  advances : List.IsChain bank.Advances (first :: rounds.map EnergyRound.energy)

/-- The energy files when every read succeeds. -/
def readFiles (microjoules : Fin n → ℕ) : List (Option ℕ) := List.ofFn fun i => some (microjoules i)

/-- The reading of a round whose files show a function of the true energies. -/
def EnergyRound.reading (shows : (Fin n → ℕ) → Fin n → ℕ) (round : EnergyRound n) : Reading where
  elapsedTime := round.elapsedTime
  energyFiles := readFiles (shows round.energy)
  perf := round.perf

variable {bank : CounterBank (Fin n)}

/-- The run of the loop over files that show a function of the true energies. -/
def Consumption.run (c : Consumption bank) (shows : (Fin n → ℕ) → Fin n → ℕ) (dualCap : Int32) :
    List MonitorCall :=
  monitorRun dualCap (readFiles (shows c.first)) (c.rounds.map (EnergyRound.reading shows))

/-- The state after that run. -/
def Consumption.stateAfter (c : Consumption bank) (shows : (Fin n → ℕ) → Fin n → ℕ)
    (dualCap : Int32) : MonitorState :=
  monitorAfter dualCap (readFiles (shows c.first)) (c.rounds.map (EnergyRound.reading shows))

/-- The run over wrapping counters stores the samples, issues the commands and ends in the globals of
the run over counters that never wrap, and stores no negative power. -/
structure WrapInvisible (dualCap : Int32) (c : Consumption bank) : Prop where
  data_eq : (c.stateAfter bank.shown dualCap).data = (c.stateAfter id dualCap).data
  commands_eq : commandsOf (c.run bank.shown dualCap) = commandsOf (c.run id dualCap)
  globals_eq : (c.stateAfter bank.shown dualCap).globals = (c.stateAfter id dualCap).globals
  dramPower_nonneg : ∀ d ∈ (c.stateAfter bank.shown dualCap).data, 0 ≤ d.dramPower

/-- No counter starts a new lap up to the last round whose sample is stored. -/
def Consumption.NoWrap (c : Consumption bank) : Prop :=
  List.IsChain (bank.SameLap Finset.univ)
    (c.first :: (c.rounds.take bufferSize).map EnergyRound.energy)

/-- The energy sum over files that are all read. -/
theorem foldl_addEnergyFile (totalEnergy : ℚ) (microjoules : List ℕ) :
    (microjoules.map some).foldl addEnergyFile totalEnergy =
      totalEnergy + (microjoules.map fun m : ℕ => (m : ℚ) / 1000000).sum := by
  induction microjoules generalizing totalEnergy with
  | nil => simp
  | cons m rest ih =>
    rw [List.map_cons, List.foldl_cons, ih, addEnergyFile, List.map_cons, List.sum_cons, add_assoc]

/-- When every read succeeds the energy sum is the one over the sockets. -/
theorem readDramEnergy_readFiles (microjoules : Fin n → ℕ) :
    readDramEnergy (readFiles microjoules) = (∑ i, (microjoules i : ℚ)) / 1000000 := by
  have hfiles : readFiles microjoules = (List.ofFn microjoules).map some := by
    rw [readFiles, List.map_ofFn]
    rfl
  rw [readDramEnergy, hfiles, foldl_addEnergyFile, zero_add, List.map_ofFn, List.sum_ofFn,
    Finset.sum_div]
  rfl

/-- A round stores the power of counters that never wrap exactly when no counter starts a new lap. -/
theorem dramPower_eq_iff {before : Fin n → ℕ} {round : EnergyRound n}
    (hadvances : bank.Advances before round.energy) :
    measure (readDramEnergy (readFiles (bank.shown before))) (round.reading bank.shown) =
        measure (readDramEnergy (readFiles before)) (round.reading id) ↔
      bank.SameLap Finset.univ before round.energy := by
  rw [← CounterBank.sum_shown_sub_eq_iff (K := ℚ) fun i _ => (hadvances i).1]
  simp only [measure, EnergyRound.reading, id_eq, readDramEnergy_readFiles, PowerIpcData.mk.injEq,
    true_and, and_true, ← sub_div]
  rw [div_left_inj' (by norm_num), div_left_inj' (by norm_num)]

/-- The samples are those of counters that never wrap exactly when no counter starts a new lap. -/
theorem measureAll_eq_iff {before : Fin n → ℕ} {rounds : List (EnergyRound n)}
    (hadvances : List.IsChain bank.Advances (before :: rounds.map EnergyRound.energy)) :
    measureAll (readDramEnergy (readFiles (bank.shown before)))
          (rounds.map (EnergyRound.reading bank.shown)) =
        measureAll (readDramEnergy (readFiles before)) (rounds.map (EnergyRound.reading id)) ↔
      List.IsChain (bank.SameLap Finset.univ) (before :: rounds.map EnergyRound.energy) := by
  induction rounds generalizing before with
  | nil => simp [measureAll]
  | cons round rest ih =>
    simp only [List.map_cons, List.isChain_cons_cons] at hadvances ⊢
    rw [← dramPower_eq_iff hadvances.1, ← ih hadvances.2]
    simp only [measureAll, List.cons.injEq]
    rfl

/-- Counters that never wrap give no negative power. -/
theorem measureAll_nonneg {before : Fin n → ℕ} {rounds : List (EnergyRound n)}
    (hadvances : List.IsChain bank.Advances (before :: rounds.map EnergyRound.energy)) :
    ∀ d ∈ measureAll (readDramEnergy (readFiles before)) (rounds.map (EnergyRound.reading id)),
      0 ≤ d.dramPower := by
  induction rounds generalizing before with
  | nil => simp [measureAll]
  | cons round rest ih =>
    simp only [List.map_cons, List.isChain_cons_cons] at hadvances
    simp only [List.map_cons, measureAll, List.forall_mem_cons]
    refine ⟨?_, ih hadvances.2⟩
    have hle : ∑ i, (before i : ℚ) ≤ ∑ i, (round.energy i : ℚ) :=
      Finset.sum_le_sum fun i _ => by exact_mod_cast (hadvances.1 i).1
    simp only [measure, EnergyRound.reading, id_eq, readDramEnergy_readFiles]
    apply div_nonneg _ (by norm_num)
    linarith

/-- The samples that fit into the buffer. -/
def Consumption.stored (c : Consumption bank) (shows : (Fin n → ℕ) → Fin n → ℕ) :
    List PowerIpcData :=
  measureAll (readDramEnergy (readFiles (shows c.first)))
    ((c.rounds.take bufferSize).map (EnergyRound.reading shows))

/-- The loop stores these samples and runs the controller on them. -/
theorem Consumption.run_eq (c : Consumption bank) (shows : (Fin n → ℕ) → Fin n → ℕ)
    (dualCap : Int32) :
    (c.stateAfter shows dualCap).data = c.stored shows ∧
      (c.stateAfter shows dualCap).globals =
        upsAfter dualCap ((c.stored shows).map PowerIpcData.sample) ∧
      commandsOf (c.run shows dualCap) =
        commandsOf (upsRun dualCap ((c.stored shows).map PowerIpcData.sample)) := by
  have hrun := monitor_runs_ups dualCap (m := monitorStart (readFiles (shows c.first))) rfl
    (c.rounds.map (EnergyRound.reading shows))
  simp only [monitorStart, List.length_nil, Nat.sub_zero, List.nil_append, ← List.map_take] at hrun
  exact hrun

/-- The reads up to the last stored sample advance like all others. -/
theorem Consumption.advances_stored (c : Consumption bank) :
    List.IsChain bank.Advances (c.first :: (c.rounds.take bufferSize).map EnergyRound.energy) := by
  have hprefix := (List.take_prefix bufferSize c.rounds).map EnergyRound.energy
  exact List.IsChain.prefix c.advances ((List.prefix_cons_inj _).mpr hprefix)

/-- The stored samples are those of counters that never wrap exactly when no counter starts a new
lap. -/
theorem Consumption.stored_eq_iff (c : Consumption bank) :
    c.stored bank.shown = c.stored id ↔ c.NoWrap :=
  measureAll_eq_iff c.advances_stored

/-- Counters that never wrap store no negative power. -/
theorem Consumption.stored_nonneg (c : Consumption bank) :
    ∀ d ∈ c.stored id, 0 ≤ d.dramPower :=
  measureAll_nonneg c.advances_stored

/-- The run over wrapping counters is the one over counters that never wrap exactly when no counter
starts a new lap up to the last stored sample. -/
theorem wrapInvisible_iff_noWrap (dualCap : Int32) (c : Consumption bank) :
    WrapInvisible dualCap c ↔ c.NoWrap := by
  obtain ⟨hdata, hglobals, hcommands⟩ := c.run_eq bank.shown dualCap
  obtain ⟨hdata', hglobals', hcommands'⟩ := c.run_eq id dualCap
  rw [← c.stored_eq_iff]
  constructor
  · intro h
    rw [← hdata, ← hdata', h.data_eq]
  · intro heq
    constructor
    · rw [hdata, hdata', heq]
    · rw [hcommands, hcommands', heq]
    · rw [hglobals, hglobals', heq]
    · rw [hdata, heq]
      exact c.stored_nonneg

/-- One counter with a range of one joule. -/
def oneJouleBank : CounterBank (Fin 1) := ⟨fun _ => 1000000, fun _ => by norm_num⟩

/-- An energy from 0.9 J to 1.1 J passes the end of that range. -/
theorem oneJouleBank_advances : oneJouleBank.Advances (fun _ => 900000) (fun _ => 1100000) := by
  intro i
  change 900000 ≤ 1100000 ∧ 1100000 < 900000 + 1000000
  norm_num

/-- One round with that energy. -/
def wrappingConsumption : Consumption oneJouleBank where
  first := fun _ => 900000
  rounds := [⟨0, fun _ => 1100000, some ⟨1, 1⟩⟩]
  advances := List.isChain_pair.mpr oneJouleBank_advances

/-- A wrap within the first round stores a power of -4 W. -/
theorem wrapInvisible_fails_at_wrap :
    ¬ ∀ (n : ℕ) (bank : CounterBank (Fin n)) (dualCap : Int32) (c : Consumption bank),
      WrapInvisible dualCap c := by
  intro hevery
  have hnonneg := (hevery 1 oneJouleBank 0 wrappingConsumption).dramPower_nonneg
  rw [(wrappingConsumption.run_eq oneJouleBank.shown 0).1, Consumption.stored,
    List.take_of_length_le (by norm_num [wrappingConsumption, bufferSize])] at hnonneg
  have hpower := hnonneg _ List.mem_cons_self
  norm_num [measure, EnergyRound.reading, readDramEnergy_readFiles, CounterBank.shown, oneJouleBank,
    wrappingConsumption] at hpower

end NodePower.Ups
