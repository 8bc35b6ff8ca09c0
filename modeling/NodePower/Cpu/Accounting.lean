import NodePower.Cpu.PowerMonitor
import NodePower.Common.WrappingCounter

/-!
# Energy accounting over wrapping counters and failed reads

The total of a domain telescopes to the difference of the last and the first reading, so
failed reads in between cancel but a lap of a counter is lost for good. A row is the
difference of two neighbouring readings: it is negative when the files that fail at its end
hide more than the other files have gained.
-/

namespace NodePower.Cpu

/-- One round with the true cumulative energies in microjoules and the files that cannot be read. -/
structure EnergyRound where
  elapsedTime : ℚ
  energy : EnergyKey → ℕ
  fails : EnergyKey → Bool

/-- The true energies of a run: those before the loop and those of each round, never falling and by
less than one range apart. The last read succeeds, as does the first. -/
structure Consumption (bank : CounterBank EnergyKey) where
  first : EnergyKey → ℕ
  rounds : List EnergyRound
  advances : List.IsChain bank.Advances (first :: rounds.map EnergyRound.energy)
  last_reads : ∀ round ∈ rounds.getLast?, ∀ key, round.fails key = false

variable {bank : CounterBank EnergyKey}

/-- The files before the loop. -/
def Consumption.firstFiles (c : Consumption bank) (key : EnergyKey) : Option ℕ :=
  some (bank.shown c.first key)

/-- The files of a round. -/
def EnergyRound.files (bank : CounterBank EnergyKey) (round : EnergyRound) (key : EnergyKey) :
    Option ℕ :=
  if round.fails key then none else some (bank.shown round.energy key)

/-- The readings of the rounds. -/
def Consumption.readings (c : Consumption bank) : List Reading :=
  c.rounds.map fun round => ⟨round.elapsedTime, round.files bank⟩

/-- The true energies at the last read. -/
def Consumption.last (c : Consumption bank) : EnergyKey → ℕ :=
  (c.rounds.map EnergyRound.energy).getLastD c.first

/-- The state in which the monitor ends. -/
def Consumption.monitored (c : Consumption bank) (energyFiles : Finset EnergyKey) : MonitorState :=
  monitorLoop energyFiles c.firstFiles c.readings

/-- The totals are the energies consumed between the first and the last read, and no row is
negative. -/
structure AccountingHolds (energyFiles : Finset EnergyKey) (c : Consumption bank) : Prop where
  total_eq : ∀ domain, (c.monitored energyFiles).totalEnergy domain =
    (∑ key ∈ energyFiles with key.domain = domain, (c.last key : ℚ) -
      ∑ key ∈ energyFiles with key.domain = domain, (c.first key : ℚ)) / 1000000
  power_nonneg : ∀ domain, ∀ row ∈ (c.monitored energyFiles).powerData, 0 ≤ row.power domain

/-- What the files of a domain that fail at the end of an interval showed at its start. -/
def hidden (energyFiles : Finset EnergyKey) (domain : Domain) (before after : EnergyKey → Option ℕ) :
    ℚ :=
  ∑ key ∈ energyFiles with key.domain = domain ∧ after key = none, (readEnergy (before key) : ℚ)

/-- What the other files of the domain show more at its end. -/
def gained (energyFiles : Finset EnergyKey) (domain : Domain) (before after : EnergyKey → Option ℕ) :
    ℚ :=
  ∑ key ∈ energyFiles with key.domain = domain ∧ after key ≠ none,
    ((readEnergy (after key) : ℚ) - readEnergy (before key))

/-- In each domain the files that fail at the end of an interval hide no more than the others gain. -/
def LossCovered (energyFiles : Finset EnergyKey) (before after : EnergyKey → Option ℕ) : Prop :=
  ∀ domain, hidden energyFiles domain before after ≤ gained energyFiles domain before after

/-- No counter starts a new lap between the first and the last read, and in every interval the loss
of failed reads is covered. -/
structure Undisturbed (energyFiles : Finset EnergyKey) (c : Consumption bank) : Prop where
  no_wrap : bank.SameLap energyFiles c.first c.last
  losses_covered : List.IsChain (LossCovered energyFiles)
    (c.firstFiles :: c.rounds.map (EnergyRound.files bank))

/-- Counts that advance round by round do not fall over a run. -/
theorem le_getLastD {before : EnergyKey → ℕ} {counts : List (EnergyKey → ℕ)}
    (hadvances : List.IsChain bank.Advances (before :: counts)) (key : EnergyKey) :
    before key ≤ counts.getLastD before key := by
  induction counts generalizing before with
  | nil => exact le_rfl
  | cons after rest ih =>
    rw [List.isChain_cons_cons] at hadvances
    rw [List.getLastD_cons]
    exact (hadvances.1 key).1.trans (ih hadvances.2)

variable (energyFiles : Finset EnergyKey)

/-- The total of a domain telescopes to the last reading. -/
theorem totalEnergy_foldl (m : MonitorState) (readings : List Reading) (domain : Domain) :
    (readings.foldl (monitorRound energyFiles) m).totalEnergy domain =
      m.totalEnergy domain + domainEnergy energyFiles domain m.initialValues
        (readings.foldl (monitorRound energyFiles) m).initialValues := by
  induction readings generalizing m with
  | nil => simp [domainEnergy]
  | cons reading rest ih =>
    rw [List.foldl_cons, ih, totalEnergy_monitorRound]
    simp only [domainEnergy_eq, monitorRound]
    ring

/-- The values that the loop keeps are those of the last reading. -/
theorem initialValues_foldl (m : MonitorState) (readings : List Reading) :
    (readings.foldl (monitorRound energyFiles) m).initialValues =
      (readings.map fun reading key => readEnergy (reading.files key)).getLastD m.initialValues := by
  induction readings generalizing m with
  | nil => rfl
  | cons reading rest ih =>
    rw [List.foldl_cons, ih, List.map_cons, List.getLastD_cons]
    rfl

/-- The energy of an interval is what is gained less what is hidden. -/
theorem domainEnergy_eq_gained_sub_hidden (domain : Domain) (before after : EnergyKey → Option ℕ) :
    domainEnergy energyFiles domain (fun key => readEnergy (before key))
        (fun key => readEnergy (after key)) =
      (gained energyFiles domain before after - hidden energyFiles domain before after) / 1000000 := by
  rw [domainEnergy, ← Finset.sum_div, gained, hidden, ← Finset.filter_filter, ← Finset.filter_filter,
    ← Finset.sum_filter_add_sum_filter_not (Finset.filter (fun key => key.domain = domain) energyFiles)
      (fun key => after key = none), sub_eq_add_neg, ← Finset.sum_neg_distrib, add_comm]
  congr 2
  apply Finset.sum_congr rfl
  intro key hkey
  rw [(Finset.mem_filter.mp hkey).2]
  simp [readEnergy]

/-- A row has no negative power exactly when the loss of its interval is covered. -/
theorem power_nonneg_iff (domain : Domain) (before after : EnergyKey → Option ℕ) :
    0 ≤ domainEnergy energyFiles domain (fun key => readEnergy (before key))
        (fun key => readEnergy (after key)) / interval ↔
      hidden energyFiles domain before after ≤ gained energyFiles domain before after := by
  rw [domainEnergy_eq_gained_sub_hidden, le_div_iff₀ (by norm_num [interval]), zero_mul,
    le_div_iff₀ (by norm_num), zero_mul, sub_nonneg]

/-- No row has a negative power exactly when the losses of all intervals are covered. -/
theorem rowsFrom_nonneg_iff (before : EnergyKey → Option ℕ) (readings : List Reading) :
    (∀ domain, ∀ row ∈ rowsFrom energyFiles (fun key => readEnergy (before key)) readings,
        0 ≤ row.power domain) ↔
      List.IsChain (LossCovered energyFiles) (before :: readings.map Reading.files) := by
  induction readings generalizing before with
  | nil => simp [rowsFrom]
  | cons reading rest ih =>
    rw [List.map_cons, List.isChain_cons_cons, ← ih]
    simp only [rowsFrom, List.forall_mem_cons, forall_and]
    refine and_congr ?_ Iff.rfl
    refine forall_congr' fun domain => ?_
    rw [← power_nonneg_iff]
    cases domain <;> rfl

/-- The loop ends with what the counters show of the true energies at the last read. -/
theorem initialValues_monitored (c : Consumption bank) :
    (c.monitored energyFiles).initialValues = bank.shown c.last := by
  rw [Consumption.monitored, monitorLoop, initialValues_foldl, Consumption.readings, List.map_map,
    Consumption.last]
  rcases List.eq_nil_or_concat c.rounds with hnil | ⟨earlier, round, hrounds⟩
  · rw [hnil]
    rfl
  · have hreads := c.last_reads round (by rw [hrounds, List.concat_eq_append, List.getLast?_concat]; rfl)
    rw [hrounds, List.concat_eq_append, List.map_append, List.map_append, List.map_singleton,
      List.map_singleton, List.getLastD_concat, List.getLastD_concat]
    funext key
    simp [EnergyRound.files, hreads key, readEnergy]

/-- A total is the energy consumed exactly when no counter of the domain starts a new lap. -/
theorem totalEnergy_eq_iff (c : Consumption bank) (domain : Domain) :
    (c.monitored energyFiles).totalEnergy domain =
        (∑ key ∈ energyFiles with key.domain = domain, (c.last key : ℚ) -
          ∑ key ∈ energyFiles with key.domain = domain, (c.first key : ℚ)) / 1000000 ↔
      bank.SameLap {key ∈ energyFiles | key.domain = domain} c.first c.last := by
  have hzero : (monitorStart c.firstFiles).totalEnergy domain = 0 := by cases domain <;> rfl
  have hlast := initialValues_monitored energyFiles c
  rw [Consumption.monitored, monitorLoop] at hlast ⊢
  rw [totalEnergy_foldl, hzero, zero_add, domainEnergy_eq, hlast, div_left_inj' (by norm_num)]
  exact CounterBank.sum_shown_sub_eq_iff fun key _ => le_getLastD c.advances key

/-- Energy accounting holds exactly when no counter starts a new lap between the first and the last
read and the losses of failed reads are covered. -/
theorem accountingHolds_iff_undisturbed (c : Consumption bank) :
    AccountingHolds energyFiles c ↔ Undisturbed energyFiles c := by
  have hwrap : (∀ domain, bank.SameLap {key ∈ energyFiles | key.domain = domain} c.first c.last) ↔
      bank.SameLap energyFiles c.first c.last := by
    constructor
    · intro h key hkey
      exact h key.domain key (Finset.mem_filter.mpr ⟨hkey, rfl⟩)
    · intro h domain key hkey
      exact h key (Finset.mem_filter.mp hkey).1
  have hrows : (c.monitored energyFiles).powerData =
      rowsFrom energyFiles (fun key => readEnergy (c.firstFiles key)) c.readings :=
    powerData_foldl energyFiles (monitorStart c.firstFiles) c.readings
  have hfiles : c.readings.map Reading.files = c.rounds.map (EnergyRound.files bank) := by
    rw [Consumption.readings, List.map_map]
    rfl
  have hnonneg := rowsFrom_nonneg_iff energyFiles c.firstFiles c.readings
  rw [← hrows, hfiles] at hnonneg
  constructor
  · intro h
    exact ⟨hwrap.mp fun domain => (totalEnergy_eq_iff energyFiles c domain).mp (h.total_eq domain),
      hnonneg.mp h.power_nonneg⟩
  · intro h
    exact ⟨fun domain => (totalEnergy_eq_iff energyFiles c domain).mpr (hwrap.mpr h.no_wrap domain),
      hnonneg.mpr h.losses_covered⟩

/-- Counters with a range of 0.1 J. -/
def smallBank : CounterBank EnergyKey := ⟨fun _ => 100000, fun _ => by norm_num⟩

/-- A consumption from 0.09 J to 0.11 J passes the end of that range. -/
theorem smallBank_advances : smallBank.Advances (fun _ => 90000) (fun _ => 110000) := by
  intro key
  change 90000 ≤ 110000 ∧ 110000 < 90000 + 100000
  norm_num

/-- One round with that consumption. -/
def wrappingConsumption : Consumption smallBank where
  first := fun _ => 90000
  rounds := [⟨1 / 2, fun _ => 110000, fun _ => false⟩]
  advances := List.isChain_pair.mpr smallBank_advances
  last_reads := by simp

/-- A wrap leaves a row with a negative power. -/
theorem accountingHolds_fails_at_wrap :
    ¬ ∀ (energyFiles : Finset EnergyKey) (bank : CounterBank EnergyKey) (c : Consumption bank),
      AccountingHolds energyFiles c := by
  intro hevery
  have htotal := (hevery {.cpuSocket 0} smallBank wrappingConsumption).total_eq .cpu
  rw [totalEnergy_eq_iff] at htotal
  have hlap := htotal (.cpuSocket 0) (by decide)
  norm_num [smallBank, wrappingConsumption, Consumption.last] at hlap

end NodePower.Cpu
