import NodePower.Ups.Monitor

/-!
# Failed readings in the UPS loop

A failed reading reaches `ups` as an ordinary number: the energy sum without the file, and
-1 or 0 instructions per cycle. The controller ignores it only by accident, when the number
happens to lie in the band that holds, or in the steady band at the floor. A partial energy
sum becomes the start of the next interval, so the next power is right only if the partial
sum happens to be the last complete one.
-/

namespace NodePower.Ups

/-- Some energy file cannot be opened or read. -/
def Reading.EnergyFails (reading : Reading) : Prop := none ∈ reading.energyFiles

/-- The pipe cannot be opened, or `perf` reports no cycles. -/
def Reading.IpcFails (reading : Reading) : Prop := ∀ counts ∈ reading.perf, counts.cycles ≤ 0

/-- Some reading of the round fails. -/
def Reading.Fails (reading : Reading) : Prop := reading.EnergyFails ∨ reading.IpcFails

/-- The energy readings before a round, the one before the loop included; that one succeeds. -/
def energyReadings (first : List ℕ) (earlier : List MonitorCall) : List (List (Option ℕ)) :=
  first.map some :: earlier.map fun c => c.input.energyFiles

/-- The energy sum of the reading before a round. -/
def previousSum (first : List ℕ) (earlier : List MonitorCall) : ℚ :=
  readDramEnergy ((energyReadings first earlier).getLastD [])

/-- The energy sum of the last reading before a round in which no file failed. -/
def lastCompleteSum (first : List ℕ) (earlier : List MonitorCall) : ℚ :=
  readDramEnergy (((energyReadings first earlier).filter fun files => none ∉ files).getLastD [])

/-- The loop goes on and calls `ups`. -/
def MonitorState.CallsUps (m : MonitorState) : Prop := m.left = false ∧ m.data.length < bufferSize

/-- A failed reading commands nothing and leaves the controller as it is, and a complete energy
reading gives the power since the last complete one. -/
structure NotSteered (first : List ℕ) (earlier : List MonitorCall) (c : MonitorCall) : Prop where
  inert : c.input.Fails → c.output = [] ∧ c.after.globals = c.before.globals
  merged : c.before.left = false → ¬ c.input.EnergyFails →
    (measure c.before.initialEnergy c.input).dramPower =
      (readDramEnergy c.input.energyFiles - lastCompleteSum first earlier) / (2 / 10)

/-- A failed reading falls into the band that holds, or into the steady band at the floor, and a
complete energy reading comes after one whose sum is that of the last complete one. -/
structure FailsHarmlessly (first : List ℕ) (earlier : List MonitorCall) (c : MonitorCall) : Prop where
  ignored : c.input.Fails → c.before.CallsUps →
    let branch := branchOf c.before.globals (measure c.before.initialEnergy c.input).sample
    branch = .hold ∨ (branch = .steady ∧ c.before.globals.currentUf ≤ 12 / 10)
  same_sum : c.before.left = false → ¬ c.input.EnergyFails →
    previousSum first earlier = lastCompleteSum first earlier

/-- A call of the controller does nothing exactly when it holds, or is steady at the floor. -/
theorem ups_inert_iff (dualCap : Int32) (g : Globals) (sample : Sample) :
    (ups dualCap g sample).2 = [] ∧ (ups dualCap g sample).1 = g ↔
      branchOf g sample = .hold ∨ (branchOf g sample = .steady ∧ g.currentUf ≤ 12 / 10) := by
  rw [ups_eq_react]
  cases hbranch : branchOf g sample with
  | initial =>
    have hinit : g.init = true := by
      by_contra hinit
      unfold branchOf at hbranch
      rw [if_neg hinit] at hbranch
      split_ifs at hbranch
    simp only [react, reduceCtorEq, false_and, or_self, iff_false]
    intro hinert
    rw [← hinert.2] at hinit
    cases hinit
  | steady =>
    by_cases habove : 12 / 10 < g.currentUf
    · simp [react, habove]
    · simp [react, habove, not_lt.mp habove]
  | powerRise => simp [react]
  | powerDropIpcRise => simp [react]
  | powerDropIpcDrop => simp [react]
  | hold => simp [react]

/-- After a round the previous reading is the one of that round. -/
theorem previousSum_concat (first : List ℕ) (earlier : List MonitorCall) (c : MonitorCall) :
    previousSum first (earlier ++ [c]) = readDramEnergy c.input.energyFiles := by
  rw [previousSum, energyReadings, List.map_append, List.map_singleton, ← List.cons_append,
    List.getLastD_concat]

/-- As long as the loop goes on, the energy it subtracts is the sum of the previous reading. -/
theorem initialEnergy_concat {dualCap : Int32} {first : List ℕ} {calls : List MonitorCall}
    {c : MonitorCall} (hstep : monitorRound dualCap c.before c.input = (c.after, c.output))
    (hafter : c.after.left = false) :
    c.after.initialEnergy = previousSum first (calls ++ [c]) := by
  rw [previousSum_concat]
  cases hleft : c.before.left with
  | true =>
    rw [monitorRound, if_pos hleft] at hstep
    rw [← (Prod.mk.inj hstep).1, hleft] at hafter
    cases hafter
  | false =>
    by_cases hroom : c.before.data.length < bufferSize
    · rw [monitorRound_of_room dualCap hleft hroom] at hstep
      rw [← (Prod.mk.inj hstep).1]
    · simp [monitorRound, hleft, hroom] at hstep
      rw [← hstep.1] at hafter
      cases hafter

/-- A round is not steered by a failed reading exactly when the reading fails harmlessly. -/
theorem notSteered_iff_failsHarmlessly {dualCap : Int32} {first : List ℕ}
    {calls : List MonitorCall} {c : MonitorCall}
    (hstep : monitorRound dualCap c.before c.input = (c.after, c.output))
    (henergy : c.before.left = false → c.before.initialEnergy = previousSum first calls) :
    NotSteered first calls c ↔ FailsHarmlessly first calls c := by
  have hinert : c.output = [] ∧ c.after.globals = c.before.globals ↔
      (c.before.CallsUps →
        let branch := branchOf c.before.globals (measure c.before.initialEnergy c.input).sample
        branch = .hold ∨ (branch = .steady ∧ c.before.globals.currentUf ≤ 12 / 10)) := by
    by_cases hcalls : c.before.CallsUps
    · rw [monitorRound_of_room dualCap hcalls.1 hcalls.2] at hstep
      obtain ⟨hafter, houtput⟩ := Prod.mk.inj hstep
      rw [← houtput, ← hafter, ups_inert_iff, forall_prop_of_true hcalls]
    · have hroom : c.before.left = true ∨ ¬ c.before.data.length < bufferSize := by
        by_contra hnot
        rw [not_or, not_not, Bool.not_eq_true] at hnot
        exact hcalls hnot
      obtain ⟨-, hglobals, hsilent⟩ := monitorRound_of_no_room dualCap hroom c.input
      rw [hstep] at hglobals hsilent
      exact iff_of_true ⟨hsilent, hglobals⟩ fun h => absurd h hcalls
  have hmerged : c.before.left = false →
      ((measure c.before.initialEnergy c.input).dramPower =
          (readDramEnergy c.input.energyFiles - lastCompleteSum first calls) / (2 / 10) ↔
        previousSum first calls = lastCompleteSum first calls) := by
    intro hleft
    rw [measure, henergy hleft, div_left_inj' (by norm_num), sub_right_inj]
  constructor
  · intro h
    exact ⟨fun hfails => hinert.mp (h.inert hfails),
      fun hleft hread => (hmerged hleft).mp (h.merged hleft hread)⟩
  · intro h
    exact ⟨fun hfails => hinert.mpr (h.ignored hfails),
      fun hleft hread => (hmerged hleft).mpr (h.same_sum hleft hread)⟩

/-- In a run no round is steered by a failed reading exactly when all failures are harmless. -/
theorem failures_notSteered_iff (dualCap : Int32) (first : List ℕ) (readings : List Reading) :
    EveryCall (NotSteered first) (monitorRun dualCap (first.map some) readings) ↔
      EveryCall (FailsHarmlessly first) (monitorRun dualCap (first.map some) readings) := by
  refine (totalCalls_final_induction (fun calls m =>
    (m.left = false → m.initialEnergy = previousSum first calls) ∧
      (EveryCall (NotSteered first) calls ↔ EveryCall (FailsHarmlessly first) calls))
    ⟨fun _ => rfl, by simp [everyCall_nil]⟩ ?_ readings).2
  intro calls c hinvariant hstep
  obtain ⟨henergy, hcalls⟩ := hinvariant
  refine ⟨initialEnergy_concat hstep, ?_⟩
  rw [everyCall_concat, everyCall_concat, hcalls, notSteered_iff_failsHarmlessly hstep henergy]

/-- After one healthy round of 10 W, a round whose only energy file fails and whose IPC has risen
passes -10 W to the controller, which resets the frequency. -/
theorem failures_steer_on_energy_failure :
    ¬ ∀ (dualCap : Int32) (first : List ℕ) (readings : List Reading),
      EveryCall (NotSteered first) (monitorRun dualCap (first.map some) readings) := by
  intro hevery
  have hsteered := (hevery 0 [0] [⟨0, [some 2000000], some ⟨1, 1⟩⟩, ⟨1, [none], some ⟨2, 1⟩⟩] 1
    (by decide)).inert (Or.inl List.mem_cons_self)
  norm_num [monitorRun, totalCalls, monitorRound, monitorStart, measure, readDramEnergy,
    addEnergyFile, collectIpc, PowerIpcData.sample, ups, initialGlobals, bufferSize] at hsteered

end NodePower.Ups
