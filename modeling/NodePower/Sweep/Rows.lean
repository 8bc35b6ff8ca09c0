import NodePower.Sweep.Processes

/-!
# Whose energies a result row carries

The driver reads the first data row of each temporary file. That row is its own monitor's
when the monitor found no file and has finished by the time of the read. While this is so,
every result row carries the energies of its own configuration and execution. A monitor
that is late once leaves its row to a later execution, which then reads it as its own.
-/

namespace NodePower.Sweep

/-- A row with the energies that the monitors of a run measured. -/
def OutputLine.CarriesEnergiesOf (measured : Monitor → Run → TmpRow) (run : Run) : OutputLine → Prop
  | .row written => written.cpuE = (measured .cpu run).energy ∧
      written.gpuE = (measured .gpu run).energy
  | .header => True

instance (measured : Monitor → Run → TmpRow) (run : Run) :
    ∀ line : OutputLine, Decidable (line.CarriesEnergiesOf measured run)
  | .row _ => inferInstanceAs (Decidable (_ ∧ _))
  | .header => inferInstanceAs (Decidable True)

/-- Every row that the driver writes holds what the monitors of the same run measured. -/
def CarriesOwnEnergies (measured : Monitor → Run → TmpRow) (c : Call State Event OutputLine) : Prop :=
  ∀ line ∈ c.output, line.CarriesEnergiesOf measured c.before.run

instance (measured : Monitor → Run → TmpRow) :
    DecidablePred (CarriesOwnEnergies measured) := fun c =>
  inferInstanceAs (Decidable (∀ line ∈ c.output, line.CarriesEnergiesOf measured c.before.run))

/-- The driver finds no file that its own monitor has still to append to. -/
def ReadsInTime (s : State) : Phase → Prop
  | .benchmarkEnded _ _ => (.cpu, s.run) ∈ s.pending → s.tmp .cpu = none
  | .cpuRead _ _ _ => (.gpu, s.run) ∈ s.pending → s.tmp .gpu = none
  | _ => True

instance (s : State) : DecidablePred (ReadsInTime s)
  | .benchmarkEnded _ _ | .cpuRead _ _ _ => inferInstanceAs (Decidable (_ → _))
  | .stopped | .starting | .waiting | .gpuRead _ _ _ _ | .cpuRemoved _ _ _ _ | .gpuRemoved _ _ _ _ =>
    inferInstanceAs (Decidable True)

/-- The order that nothing in the code enforces: while the driver is in a run, the monitors of this
run find no file, and the driver reads after them. -/
def Timely (s : State) : Event → Prop
  | .append monitor run => s.phase ≠ .stopped → run = s.run → s.tmp monitor = none
  | .driver => ReadsInTime s s.phase
  | .restart _ | .benchmarkEnds _ => True

instance (s : State) : DecidablePred (Timely s)
  | .append _ _ => inferInstanceAs (Decidable (_ → _ → _))
  | .driver => inferInstanceAs (Decidable (ReadsInTime s s.phase))
  | .restart _ | .benchmarkEnds _ => inferInstanceAs (Decidable True)

/-- The row of the driver's own monitor is still to come, or first in its file. -/
def OwnRowComing (measured : Monitor → Run → TmpRow) (s : State) (monitor : Monitor) : Prop :=
  (monitor, s.run) ∈ s.pending ∨ ∃ rest, s.tmp monitor = some (measured monitor s.run :: rest)

/-- What the driver has read belongs to its own run, and what it has still to read will. -/
def ReadsOwn (measured : Monitor → Run → TmpRow) (s : State) : Prop :=
  match s.phase with
  | .stopped | .starting => True
  | .waiting | .benchmarkEnded _ _ => ∀ monitor, OwnRowComing measured s monitor
  | .cpuRead _ _ tmpCpuDf =>
    tmpCpuDf.head? = some (measured .cpu s.run) ∧ OwnRowComing measured s .gpu
  | .gpuRead _ _ tmpCpuDf tmpGpuDf =>
    tmpCpuDf.head? = some (measured .cpu s.run) ∧ tmpGpuDf.head? = some (measured .gpu s.run)
  | .cpuRemoved _ _ cpuE gpuE | .gpuRemoved _ _ cpuE gpuE =>
    cpuE = (measured .cpu s.run).energy ∧ gpuE = (measured .gpu s.run).energy

variable {measured : Monitor → Run → TmpRow}

/-- A row appended in time keeps the driver's own rows first. -/
theorem ownRowComing_appendRow {s : State} {monitor other : Monitor} {run : Run}
    (htimely : run = s.run → s.tmp monitor = none) (h : OwnRowComing measured s other) :
    OwnRowComing measured (s.appendRow monitor run (measured monitor run)) other := by
  have hpending : (other, s.run) ≠ (monitor, run) → (other, s.run) ∈ s.pending →
      (other, s.run) ∈ s.pending.erase (monitor, run) := fun hne hmem =>
    (List.mem_erase_of_ne hne).mpr hmem
  by_cases hother : other = monitor
  · subst hother
    by_cases hrun : run = s.run
    · refine Or.inr ⟨[], ?_⟩
      simp [State.appendRow, State.setTmp, State.run, htimely hrun, hrun]
    · rcases h with hmem | ⟨rest, hfirst⟩
      · exact Or.inl (hpending (by simpa using Ne.symm hrun) hmem)
      · refine Or.inr ⟨rest ++ [measured other run], ?_⟩
        simp only [State.run] at hfirst
        simp [State.appendRow, State.setTmp, State.run, hfirst]
  · rcases h with hmem | ⟨rest, hfirst⟩
    · exact Or.inl (hpending (by simp [hother]) hmem)
    · refine Or.inr ⟨rest, ?_⟩
      simpa [State.appendRow, State.setTmp, State.run, Function.update_of_ne hother] using hfirst

/-- An own row that is not still to come is the first one read. -/
theorem head_of_ownRowComing {s : State} {monitor : Monitor} {rows : List TmpRow}
    (h : OwnRowComing measured s monitor)
    (htimely : (monitor, s.run) ∈ s.pending → s.tmp monitor = none) (hrows : s.tmp monitor = some rows) :
    rows.head? = some (measured monitor s.run) := by
  rcases h with hmem | ⟨rest, hfirst⟩
  · rw [htimely hmem] at hrows
    exact absurd hrows (by simp)
  · rw [hfirst, Option.some.injEq] at hrows
    rw [← hrows, List.head?_cons]

/-- Starting a configuration announces the rows of its monitors. -/
theorem ownRowComing_launch (s : State) (monitor : Monitor) :
    OwnRowComing measured { s with
      phase := .waiting, pending := s.pending ++ [(.cpu, s.run), (.gpu, s.run)] } monitor := by
  left
  cases monitor with
  | cpu => simp [State.run]
  | gpu => simp [State.run]

/-- A step without lines carries nothing. -/
theorem carriesOwnEnergies_nil (s t : State) (event : Event) :
    CarriesOwnEnergies measured ⟨s, event, t, []⟩ := by
  simp [CarriesOwnEnergies]

/-- An action of the driver in time reads its own rows, and writes what it has read. -/
theorem readsOwn_driverMove {s t : State} {out : List OutputLine} (h : ReadsOwn measured s)
    (htimely : ReadsInTime s s.phase) (hmove : DriverMove s t out) :
    ReadsOwn measured t ∧ CarriesOwnEnergies measured ⟨s, .driver, t, out⟩ := by
  unfold ReadsOwn at h
  cases hmove with
  | stop => exact ⟨trivial, carriesOwnEnergies_nil _ _ _⟩
  | launch hphase => exact ⟨ownRowComing_launch s, carriesOwnEnergies_nil _ _ _⟩
  | readCpu hphase hfile =>
    rw [hphase] at h htimely
    have hhead := head_of_ownRowComing (h .cpu) htimely hfile
    exact ⟨⟨hhead, h .gpu⟩, carriesOwnEnergies_nil _ _ _⟩
  | readGpu hphase hfile =>
    rw [hphase] at h htimely
    have hhead := head_of_ownRowComing h.2 htimely hfile
    exact ⟨⟨h.1, hhead⟩, carriesOwnEnergies_nil _ _ _⟩
  | removeCpu hphase hcpu hgpu =>
    rw [hphase] at h
    obtain rfl := Option.some.inj (hcpu.symm.trans h.1)
    obtain rfl := Option.some.inj (hgpu.symm.trans h.2)
    exact ⟨⟨rfl, rfl⟩, carriesOwnEnergies_nil _ _ _⟩
  | removeGpu hphase =>
    rw [hphase] at h
    exact ⟨h, carriesOwnEnergies_nil _ _ _⟩
  | write hphase hconfigs =>
    rw [hphase] at h
    refine ⟨trivial, ?_⟩
    intro line hline
    rw [List.mem_append, List.mem_singleton] at hline
    rcases hline with hheader | rfl
    · split at hheader
      · exact absurd hheader List.not_mem_nil
      · rw [List.mem_singleton.mp hheader]
        trivial
    · exact h

/-- A row appended in time leaves the driver reading its own rows. -/
theorem readsOwn_appendRow {s : State} {monitor : Monitor} {run : Run} (h : ReadsOwn measured s)
    (htimely : s.phase ≠ .stopped → run = s.run → s.tmp monitor = none) :
    ReadsOwn measured (s.appendRow monitor run (measured monitor run)) := by
  unfold ReadsOwn at h ⊢
  have hsamePhase : (s.appendRow monitor run (measured monitor run)).phase = s.phase := rfl
  rw [hsamePhase]
  cases hphase : s.phase with
  | waiting =>
    rw [hphase] at h
    exact fun other => ownRowComing_appendRow (htimely (by simp [hphase])) (h other)
  | benchmarkEnded runtime fileExists =>
    rw [hphase] at h
    exact fun other => ownRowComing_appendRow (htimely (by simp [hphase])) (h other)
  | cpuRead runtime fileExists tmpCpuDf =>
    rw [hphase] at h
    exact ⟨h.1, ownRowComing_appendRow (htimely (by simp [hphase])) h.2⟩
  | _ =>
    rw [hphase] at h
    exact h

/-- A step in time keeps reading its own rows and writes only such rows. -/
theorem readsOwn_step {s t : State} {event : Event} {out : List OutputLine}
    (h : ReadsOwn measured s) (htimely : Timely s event)
    (hstep : step measured s event = some (t, out)) :
    ReadsOwn measured t ∧ CarriesOwnEnergies measured ⟨s, event, t, out⟩ := by
  cases event with
  | restart configs =>
    simp only [step, Option.ite_none_right_eq_some, Option.some.injEq, Prod.mk.injEq] at hstep
    obtain ⟨-, rfl, rfl⟩ := hstep
    exact ⟨trivial, carriesOwnEnergies_nil _ _ _⟩
  | benchmarkEnds runtime =>
    simp only [step, Option.ite_none_right_eq_some, Option.some.injEq, Prod.mk.injEq] at hstep
    obtain ⟨hwaiting, rfl, rfl⟩ := hstep
    unfold ReadsOwn at h
    rw [hwaiting] at h
    exact ⟨h, carriesOwnEnergies_nil _ _ _⟩
  | append monitor run =>
    simp only [step, Option.ite_none_right_eq_some, Option.some.injEq, Prod.mk.injEq] at hstep
    obtain ⟨-, rfl, rfl⟩ := hstep
    exact ⟨readsOwn_appendRow h htimely, carriesOwnEnergies_nil _ _ _⟩
  | driver => exact readsOwn_driverMove h htimely (driverMove_of_driverStep hstep)

/-- In every run of the system whose steps are all in time, every row carries its own energies. -/
theorem rows_carry_own_energies (measured : Monitor → Run → TmpRow) (events : List Event)
    (calls : List (Call State Event OutputLine))
    (hrun : runCalls (step measured) initialState events = some calls)
    (htimely : ∀ c ∈ calls, Timely c.before c.input) :
    ∀ c ∈ calls, CarriesOwnEnergies measured c := by
  have hinit : ReadsOwn measured initialState := trivial
  exact runCalls_guarded (ReadsOwn measured) hinit
    (fun _ _ _ _ hreads htimes hstep => readsOwn_step hreads htimes hstep) hrun htimely

/-- Energies that tell the executions apart. -/
def energyOfExecution (_ : Monitor) (run : Run) : TmpRow := ⟨run.execution, []⟩

/-- One execution in which the driver waits long enough. -/
def patientRun : List Event :=
  [.restart [⟨105, 2100⟩], .driver, .benchmarkEnds 1, .append .cpu ⟨1, 0⟩, .append .gpu ⟨1, 0⟩,
    .driver, .driver, .driver, .driver, .driver, .driver]

/-- One execution whose monitors are late, and its repetition. -/
def lateRun : List Event :=
  [.restart [⟨105, 2100⟩], .driver, .benchmarkEnds 1, .driver, .append .cpu ⟨1, 0⟩,
    .append .gpu ⟨1, 0⟩, .restart [⟨105, 2100⟩], .driver, .benchmarkEnds 1, .append .cpu ⟨2, 0⟩,
    .append .gpu ⟨2, 0⟩, .driver, .driver, .driver, .driver, .driver]

/-- A run in time exists, and it writes one row. -/
theorem rows_carry_own_energies_patient :
    ∃ calls, runCalls (step energyOfExecution) initialState patientRun = some calls ∧
      (∀ c ∈ calls, Timely c.before c.input) ∧
      commandsOf calls = [.header, .row ⟨105, 2100, 1, 1, 1⟩] ∧
      ∀ c ∈ calls, CarriesOwnEnergies energyOfExecution c := by
  have hsome : (runCalls (step energyOfExecution) initialState patientRun).isSome := by decide
  obtain ⟨calls, hcalls⟩ := Option.isSome_iff_exists.mp hsome
  have hall : ((runCalls (step energyOfExecution) initialState patientRun).all fun calls =>
      calls.all fun c => decide (Timely c.before c.input)) = true := by decide
  have hlines : (runCalls (step energyOfExecution) initialState patientRun).map commandsOf =
      some [.header, .row ⟨105, 2100, 1, 1, 1⟩] := by decide
  rw [hcalls] at hall hlines
  have htimely : ∀ c ∈ calls, Timely c.before c.input := by simpa using hall
  exact ⟨calls, hcalls, htimely, Option.some.inj hlines,
    rows_carry_own_energies energyOfExecution patientRun calls hcalls htimely⟩

/-- After an abort the next execution reads the rows of the aborted one. -/
theorem rows_carry_own_energies_fails_after_abort :
    ¬ ∀ (measured : Monitor → Run → TmpRow) (events : List Event)
      (calls : List (Call State Event OutputLine)),
      runCalls (step measured) initialState events = some calls →
        ∀ c ∈ calls, CarriesOwnEnergies measured c := by
  intro hevery
  have hlate : ((runCalls (step energyOfExecution) initialState lateRun).any fun calls =>
      calls.all fun c => decide (CarriesOwnEnergies energyOfExecution c)) = false := by decide
  have hsome : (runCalls (step energyOfExecution) initialState lateRun).isSome := by decide
  obtain ⟨calls, hcalls⟩ := Option.isSome_iff_exists.mp hsome
  exact not_forall_calls_of_any (CarriesOwnEnergies energyOfExecution) hlate
    ⟨calls, hcalls, hevery energyOfExecution lateRun calls hcalls⟩

end NodePower.Sweep
