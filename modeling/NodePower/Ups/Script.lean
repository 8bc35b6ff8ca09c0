import NodePower.Common.Accumulators
import NodePower.Ups.Controller

/-!
# The controller as a script

`ups.py` is the controller of `ups.c` in another form: it starts from references of zero instead of
taking the first sample for them, goes to the lowest frequency at once where the other one steps down,
and moves its reference of the instructions per cycle at other times. What both do with the DRAM power
alone is the same, and is stated here for itself: a reference is kept as long as the power stays within
five percent of it, and is moved up when the power rises. As long as the power does not fall by more
than that, both controllers keep this reference and react to the same samples.

The script gets the instructions per cycle from `perf`, or nothing where no cycles were counted. Its
data is written to the output at the end, if the script gets there.
-/

namespace NodePower

/-- What the power does, seen from a reference. -/
inductive PowerChange where
  | steady
  | rise
  | fall
  deriving DecidableEq

/-- A change of more than five percent of the reference. -/
def powerChange (setpoint power : ℚ) : PowerChange :=
  if |power - setpoint| ≤ setpoint * (5 / 100) then .steady
  else if setpoint * (5 / 100) < power - setpoint then .rise
  else .fall

/-- The reference after a sample of the power that does not fall. -/
def nextSetpoint (setpoint power : ℚ) : ℚ :=
  if powerChange setpoint power = .rise then power else setpoint

/-- The reference after samples of the power. -/
def setpointAfter (setpoint : ℚ) (powers : List ℚ) : ℚ := powers.foldl nextSetpoint setpoint

/-- No sample falls below its reference by more than five percent. -/
def NoFall : ℚ → List ℚ → Prop
  | _, [] => True
  | setpoint, power :: rest =>
    powerChange setpoint power ≠ .fall ∧ NoFall (nextSetpoint setpoint power) rest

/-- The highest of the samples and a start value. -/
def highest (start : ℚ) (powers : List ℚ) : ℚ := powers.foldl max start

/-- The reference stays under the highest power, and within five percent of it. -/
theorem setpointAfter_bounds {setpoint top : ℚ} (hlow : setpoint ≤ top)
    (hhigh : top ≤ setpoint * (105 / 100)) (hpos : 0 ≤ setpoint) {powers : List ℚ}
    (hfall : NoFall setpoint powers) :
    setpointAfter setpoint powers ≤ highest top powers ∧
      highest top powers ≤ setpointAfter setpoint powers * (105 / 100) := by
  induction powers generalizing setpoint top with
  | nil => exact ⟨hlow, hhigh⟩
  | cons power rest ih =>
    obtain ⟨hchange, hrest⟩ := hfall
    rw [setpointAfter, highest, List.foldl_cons, List.foldl_cons]
    by_cases hsteady : |power - setpoint| ≤ setpoint * (5 / 100)
    · have hnext : nextSetpoint setpoint power = setpoint := by
        simp [nextSetpoint, powerChange, hsteady]
      rw [hnext] at hrest ⊢
      have hbound := (abs_le.mp hsteady).2
      exact ih (hlow.trans (le_max_left _ _)) (max_le hhigh (by linarith)) hpos hrest
    · by_cases hrise : setpoint * (5 / 100) < power - setpoint
      · have hnext : nextSetpoint setpoint power = power := by
          simp [nextSetpoint, powerChange, hsteady, hrise]
        rw [hnext] at hrest ⊢
        have hpower : 0 ≤ power := by linarith
        exact ih (le_max_right _ _) (max_le (by linarith) (by linarith)) hpower hrest
      · simp [powerChange, hsteady, hrise] at hchange

end NodePower

namespace NodePower.UpsScript

/-- The globals of the script. -/
structure Globals where
  setpointDramPower : ℚ
  preIpc : ℚ

/-- The initial values of the globals. -/
def initialGlobals : Globals := ⟨0, 0⟩

/-- The command with the arguments `0.8 0.8`. -/
def lowCommand : UncoreCommand := ⟨8 / 10, 8 / 10⟩

/-- The command with the arguments `2.4 0.8`. -/
def highCommand : UncoreCommand := ⟨24 / 10, 8 / 10⟩

/-- One call of the controller. -/
def ups (g : Globals) (sample : Ups.Sample) : Globals × List UncoreCommand :=
  let deltaDramPower := sample.dramPower - g.setpointDramPower
  let deltaIpc := sample.ipc - g.preIpc
  if |deltaDramPower| ≤ g.setpointDramPower * (5 / 100) then
    ({ g with preIpc := sample.ipc }, [lowCommand])
  else if g.setpointDramPower * (5 / 100) < deltaDramPower then
    ({ g with setpointDramPower := sample.dramPower }, [highCommand])
  else if deltaDramPower < -g.setpointDramPower * (5 / 100) then
    if g.preIpc * (5 / 100) ≤ deltaIpc then
      (⟨sample.dramPower, sample.ipc⟩, [highCommand])
    else if deltaIpc < -g.preIpc * (5 / 100) then ({ g with preIpc := sample.ipc }, [highCommand])
    else (g, [])
  else (g, [])

/-- The reaction of the script to a power that does not fall. -/
theorem ups_of_not_fall {g : Globals} {sample : Ups.Sample}
    (hfall : powerChange g.setpointDramPower sample.dramPower ≠ .fall) :
    (ups g sample).1.setpointDramPower = nextSetpoint g.setpointDramPower sample.dramPower ∧
      (ups g sample).2 =
        if powerChange g.setpointDramPower sample.dramPower = .rise then [highCommand]
        else [lowCommand] := by
  unfold powerChange at hfall
  simp only [ups, nextSetpoint, powerChange]
  split_ifs with hsteady hrise <;> simp_all

/-- A run of the controller. -/
def scriptRun (samples : List Ups.Sample) : List (Call Globals Ups.Sample UncoreCommand) :=
  totalCalls ups initialGlobals samples

/-- What the other controller does while the power is steady: one step down, which it commands for both
sockets, or nothing at the floor. -/
def StepsTowardsFloor (before after : Ups.Globals) (output : List UncoreCommand) : Prop :=
  if 12 / 10 < before.currentUf then
    after.currentUf = before.currentUf - Ups.step ∧
      output = [Ups.printedCommand (before.currentUf - Ups.step) (before.currentUf - Ups.step)]
  else after.currentUf = before.currentUf ∧ output = []

/-- The reaction of the other controller to a power that does not fall, behind its first call. -/
theorem ups_c_of_not_fall (dualCap : Int32) {g : Ups.Globals} {sample : Ups.Sample} (hinit : g.init = false)
    (hfall : powerChange g.setpointDramPower sample.dramPower ≠ .fall) :
    (Ups.ups dualCap g sample).1.init = false ∧
      (Ups.ups dualCap g sample).1.setpointDramPower =
        nextSetpoint g.setpointDramPower sample.dramPower ∧
      if powerChange g.setpointDramPower sample.dramPower = .rise then
        (Ups.ups dualCap g sample).2 = [Ups.literalCommand dualCap]
      else StepsTowardsFloor g (Ups.ups dualCap g sample).1 (Ups.ups dualCap g sample).2 := by
  unfold powerChange at hfall
  simp only [Ups.ups, nextSetpoint, powerChange, StepsTowardsFloor, hinit, Bool.false_eq_true, if_false]
  split_ifs with hsteady hmin hrise <;> simp_all

/-- Two calls behind the first ones: both go to the highest frequency, or the script goes to the lowest one
and the other controller a step towards it. -/
structure SameReaction (dualCap : Int32) (c : Ups.UpsCall) (p : Call Globals Ups.Sample UncoreCommand) :
    Prop where
  input : c.input = p.input
  setpoint : c.after.setpointDramPower = p.after.setpointDramPower
  reaction : c.output = [Ups.literalCommand dualCap] ∧ p.output = [highCommand] ∨
    StepsTowardsFloor c.before c.after c.output ∧ p.output = [lowCommand]

/-- The first two calls: both take the power for their reference, and the script alone commands something. -/
structure FirstReaction (first : Ups.Sample) (c : Ups.UpsCall) (p : Call Globals Ups.Sample UncoreCommand) :
    Prop where
  input : c.input = first ∧ p.input = first
  setpoint : c.after.setpointDramPower = first.dramPower ∧ p.after.setpointDramPower = first.dramPower
  silent : c.output = []
  command : p.output = if 0 < first.dramPower then [highCommand] else [lowCommand]

/-- From the same reference on, both controllers follow a power that does not fall. -/
theorem runs_agree (dualCap : Int32) {g : Ups.Globals} {h : Globals} (hinit : g.init = false)
    (hsame : g.setpointDramPower = h.setpointDramPower) {samples : List Ups.Sample}
    (hfall : NoFall g.setpointDramPower (samples.map Ups.Sample.dramPower)) :
    List.Forall₂ (SameReaction dualCap) (totalCalls (Ups.ups dualCap) g samples)
        (totalCalls ups h samples) ∧
      (stateAfter ups h samples).setpointDramPower =
        setpointAfter g.setpointDramPower (samples.map Ups.Sample.dramPower) := by
  induction samples generalizing g h with
  | nil => exact ⟨.nil, hsame.symm⟩
  | cons sample rest ih =>
    obtain ⟨hchange, hrest⟩ := hfall
    obtain ⟨hlater, hsetpoint, hreaction⟩ := ups_c_of_not_fall dualCap hinit hchange
    have hscript := ups_of_not_fall (hsame ▸ hchange)
    rw [← hsame] at hscript
    rw [← hsetpoint] at hrest
    obtain ⟨hcalls, hfinal⟩ := ih hlater (hsetpoint.trans hscript.1.symm) hrest
    refine ⟨.cons ⟨rfl, hsetpoint.trans hscript.1.symm, ?_⟩ hcalls, ?_⟩
    · by_cases hrise : powerChange g.setpointDramPower sample.dramPower = .rise
      · rw [if_pos hrise] at hreaction
        exact Or.inl ⟨hreaction, hscript.2.trans (if_pos hrise)⟩
      · rw [if_neg hrise] at hreaction
        exact Or.inr ⟨hreaction, hscript.2.trans (if_neg hrise)⟩
    · rw [stateAfter_cons, hfinal, hsetpoint]
      rfl

/-- The first sample becomes the reference of the script too, which commands something. -/
theorem ups_first {sample : Ups.Sample} (hpower : 0 ≤ sample.dramPower) :
    (ups initialGlobals sample).1.setpointDramPower = sample.dramPower ∧
      (ups initialGlobals sample).2 = if 0 < sample.dramPower then [highCommand] else [lowCommand] := by
  rcases hpower.eq_or_lt with hzero | hpos
  · simp [ups, initialGlobals, ← hzero]
  · have hsteady : ¬|sample.dramPower| ≤ 0 := by
      rw [abs_nonpos_iff]
      exact hpos.ne'
    simp [ups, initialGlobals, hsteady, hpos]

/-- As long as the DRAM power does not fall by more than five percent of the reference, `ups.c` and
`ups.py` keep the same reference and, behind the first sample, react to the same samples; the reference is
within five percent under the highest power so far. -/
theorem controllers_agree (dualCap : Int32) {first : Ups.Sample} {rest : List Ups.Sample}
    (hfirst : 0 ≤ first.dramPower) (hfall : NoFall first.dramPower (rest.map Ups.Sample.dramPower)) :
    (∃ c p later laterScript, Ups.upsRun dualCap (first :: rest) = c :: later ∧
        scriptRun (first :: rest) = p :: laterScript ∧ FirstReaction first c p ∧
        List.Forall₂ (SameReaction dualCap) later laterScript) ∧
      (stateAfter ups initialGlobals (first :: rest)).setpointDramPower ≤
        highest first.dramPower (rest.map Ups.Sample.dramPower) ∧
      highest first.dramPower (rest.map Ups.Sample.dramPower) ≤
        (stateAfter ups initialGlobals (first :: rest)).setpointDramPower * (105 / 100) := by
  obtain ⟨hsetpoint, hcommand⟩ := ups_first hfirst
  obtain ⟨hcalls, hfinal⟩ := runs_agree dualCap (g := (Ups.ups dualCap Ups.initialGlobals first).1)
    (h := (ups initialGlobals first).1) rfl hsetpoint.symm hfall
  refine ⟨⟨_, _, _, _, rfl, rfl, ⟨⟨rfl, rfl⟩, ⟨rfl, hsetpoint⟩, rfl, hcommand⟩, hcalls⟩, ?_⟩
  rw [stateAfter_cons, hfinal]
  exact setpointAfter_bounds le_rfl (by linarith) hfirst hfall

/-- A power that stays and then rises. -/
theorem controllers_agree_rising :
    (∃ c p later laterScript, Ups.upsRun 1 [⟨100, 1⟩, ⟨104, 1⟩, ⟨120, 2⟩] = c :: later ∧
        scriptRun [⟨100, 1⟩, ⟨104, 1⟩, ⟨120, 2⟩] = p :: laterScript ∧ FirstReaction ⟨100, 1⟩ c p ∧
        List.Forall₂ (SameReaction 1) later laterScript) ∧
      (stateAfter ups initialGlobals [⟨100, 1⟩, ⟨104, 1⟩, ⟨120, 2⟩]).setpointDramPower ≤ 120 := by
  have hsteady : powerChange 100 104 = .steady := if_pos (by norm_num [abs_le])
  have hrise : powerChange 100 120 = .rise := by norm_num [powerChange]
  have hnext : nextSetpoint 100 104 = 100 := by
    rw [nextSetpoint, hsteady]
    rfl
  have hfall : NoFall 100 [104, 120] := by
    refine ⟨?_, ?_, trivial⟩
    · rw [hsteady]
      decide
    · rw [hnext, hrise]
      decide
  obtain ⟨hcalls, hlow, -⟩ :=
    @controllers_agree 1 ⟨100, 1⟩ [⟨104, 1⟩, ⟨120, 2⟩] (by norm_num) hfall
  have htop : highest 100 [104, 120] = 120 := by norm_num [highest]
  exact ⟨hcalls, hlow.trans htop.le⟩

/-- What an iteration of the monitoring loop reads: the time, the energy files of the sockets, and the
numbers of instructions and cycles that `perf` has counted. A file that cannot be read shows nothing, and
so does a call of `perf` that fails. -/
structure Reading where
  time : ℚ
  dramFiles : List (Option ℕ)
  perf : Option (ℕ × ℕ)

/-- `read_dram_energy`, in joules. -/
def readDramEnergy (dramFiles : List (Option ℕ)) : ℚ := (dramFiles.filterMap id).sum / 1000000

/-- `collect_ipc` on the two counts that perf prints. A count that is `<not counted>` or not printed at all,
where the parsing raises, is no reading, as is a process that fails. -/
def collectIpc (perf : Option (ℕ × ℕ)) : Option ℚ := do
  let (instructions, cycles) ← perf
  if 0 < cycles then some (instructions / cycles) else none

/-- A row of the collected data. -/
structure Row where
  time : ℚ
  dramPower : ℚ
  ipc : Option ℚ

/-- The variables of the monitoring loop and the globals of the controller. -/
structure MonitorState where
  globals : Globals
  initialEnergy : ℚ
  powerIpcData : List Row

/-- One iteration of the loop in `monitor_dram_power_and_ipc`. The controller computes with the
instructions per cycle, and raises an exception where there are none. -/
def monitorPass (startTime : ℚ) (s : MonitorState) (r : Reading) :
    Option (MonitorState × List UncoreCommand) := do
  let finalEnergy := readDramEnergy r.dramFiles
  let dramPower := (finalEnergy - s.initialEnergy) / (4 / 10)
  let row : Row := ⟨roundDecimal 2 (r.time - startTime), dramPower, collectIpc r.perf⟩
  let ipc ← collectIpc r.perf
  let (globals, commands) := ups s.globals ⟨dramPower, ipc⟩
  some (⟨globals, finalEnergy, s.powerIpcData ++ [row]⟩, commands)

/-- The data that is written to the output, if the loop ends without an exception. -/
def outputCsv (startTime : ℚ) (s : MonitorState) (readings : List Reading) : Option (List Row) :=
  (runCalls (monitorPass startTime) s readings).map fun calls => (finalState s calls).powerIpcData

/-- The energy that was read last. -/
def lastEnergy (initialEnergy : ℚ) (readings : List Reading) : ℚ :=
  (readings.map fun r => readDramEnergy r.dramFiles).getLastD initialEnergy

/-- The data of the first reading is kept in front of that of the others. -/
theorem outputCsv_cons (startTime : ℚ) (s : MonitorState) (r : Reading) (rest : List Reading) :
    outputCsv startTime s (r :: rest) =
      (monitorPass startTime s r).bind fun answer => outputCsv startTime answer.1 rest := by
  simp only [outputCsv, runCalls, Option.map_bind]
  congr 1
  funext answer
  rw [Function.comp_apply, Option.map_map]
  rfl

/-- Without instructions per cycle in one iteration nothing is written; else every iteration has its row,
and the powers of the rows, each over four tenths of a second, add up to the energy of the whole run. -/
theorem outputCsv_spec (startTime : ℚ) (s : MonitorState) (readings : List Reading) :
    (outputCsv startTime s readings = none ↔ ∃ r ∈ readings, collectIpc r.perf = none) ∧
      ∀ data, outputCsv startTime s readings = some data → ∃ rows, data = s.powerIpcData ++ rows ∧
        rows.map Row.time = readings.map (fun r => roundDecimal 2 (r.time - startTime)) ∧
        rows.map Row.ipc = readings.map (fun r => collectIpc r.perf) ∧
        (rows.map fun row => row.dramPower * (4 / 10)).sum =
          lastEnergy s.initialEnergy readings - s.initialEnergy := by
  induction readings generalizing s with
  | nil =>
    refine ⟨by simp [outputCsv, runCalls], ?_⟩
    intro data hdata
    exact ⟨[], by simpa [outputCsv, runCalls, finalState] using hdata.symm, rfl, rfl, by simp [lastEnergy]⟩
  | cons r rest ih =>
    rw [outputCsv_cons]
    cases hipc : collectIpc r.perf with
    | none =>
      have hraises : monitorPass startTime s r = none := by simp [monitorPass, hipc]
      rw [hraises]
      exact ⟨by simp [hipc], fun data hdata => absurd hdata (by simp)⟩
    | some ipc =>
      obtain ⟨next, hpass, henergy, hrows⟩ : ∃ next, monitorPass startTime s r = some next ∧
          next.1.initialEnergy = readDramEnergy r.dramFiles ∧
          next.1.powerIpcData = s.powerIpcData ++ [⟨roundDecimal 2 (r.time - startTime),
            (readDramEnergy r.dramFiles - s.initialEnergy) / (4 / 10), some ipc⟩] := by
        simp [monitorPass, hipc]
      obtain ⟨hnone, hsome⟩ := ih next.1
      rw [hpass, Option.bind_some]
      constructor
      · rw [hnone, List.exists_mem_cons_iff, hipc]
        simp
      · intro data hdata
        obtain ⟨rows, rfl, htimes, hipcs, hsum⟩ := hsome data hdata
        refine ⟨⟨roundDecimal 2 (r.time - startTime),
          (readDramEnergy r.dramFiles - s.initialEnergy) / (4 / 10), some ipc⟩ :: rows, ?_, ?_, ?_, ?_⟩
        · rw [hrows, List.append_assoc, List.singleton_append]
        · rw [List.map_cons, List.map_cons, htimes]
        · rw [List.map_cons, List.map_cons, hipcs, hipc]
        · rw [List.map_cons, List.sum_cons, hsum, henergy, lastEnergy, lastEnergy, List.map_cons,
            List.getLastD_cons, div_mul_cancel₀ _ (by norm_num)]
          ring

end NodePower.UpsScript
