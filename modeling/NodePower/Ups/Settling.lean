import NodePower.Ups.ClosedForm

/-!
# UPS on a workload that has stopped changing

A sample that is repeated either becomes the reference of its own power, and is then steady
until the frequency reaches the floor, or it stays more than five percent below the power
reference for good: the branch that loses IPC moves only the IPC reference, and the branch
inside the IPC band moves none. In these two cases the frequency rests where that branch
leaves it.
-/

namespace NodePower.Ups

/-- Both measurements are positive. -/
structure Sample.Positive (sample : Sample) : Prop where
  dramPower_pos : 0 < sample.dramPower
  ipc_pos : 0 < sample.ipc

/-- Twelve or more repetitions of a sample after a run bring the frequency to the floor. -/
def Settles (dualCap : Int32) (samples : List Sample) (sample : Sample) : Prop :=
  ∀ n, 12 ≤ n → (upsAfter dualCap (samples ++ List.replicate n sample)).currentUf = 12 / 10

/-- The frequency at which the controller rests when a sample is repeated. -/
def restingFrequency (g : Globals) (sample : Sample) : ℚ :=
  match branchOf g sample with
  | .powerDropIpcDrop => 22 / 10
  | .hold => g.currentUf
  | _ => 12 / 10

/-- The frequency lies on the ladder in every reachable state. -/
theorem frequencyOnLadder_upsAfter (dualCap : Int32) (samples : List Sample) :
    FrequencyOnLadder (upsAfter dualCap samples) := by
  have haccepts : ∀ sample ∈ samples, True := fun _ _ => trivial
  exact stateAfter_invariant FrequencyOnLadder ⟨0, Nat.zero_le _, frequencyAt_zero.symm⟩
    (fun _ sample hg _ => hg.ups dualCap sample) haccepts

/-- A sample at the power reference is steady. -/
theorem branchOf_at_reference {g : Globals} {sample : Sample} (hinit : g.init = false)
    (hreference : g.setpointDramPower = sample.dramPower) (hpositive : 0 < sample.dramPower) :
    branchOf g sample = .steady := by
  have hband : |sample.dramPower - sample.dramPower| ≤ 5 / 100 * sample.dramPower := by
    rw [sub_self, abs_zero]
    positivity
  rw [branchOf, hinit, hreference, if_neg Bool.false_ne_true, if_pos hband]

/-- Only the first call takes the initial branch. -/
theorem init_of_branch {g : Globals} {sample : Sample} (hbranch : branchOf g sample ≠ .initial) :
    g.init = false := by
  cases hinit : g.init with
  | false => rfl
  | true => exact absurd (by rw [branchOf, if_pos hinit]) hbranch

/-- A sample that lost IPC is held once its own IPC is the reference. -/
theorem branchOf_after_ipcDrop {g : Globals} {sample : Sample} (hpositive : 0 < sample.ipc)
    (hbranch : branchOf g sample = .powerDropIpcDrop) (uf : ℚ) :
    branchOf { g with preIpc := sample.ipc, currentUf := uf } sample = .hold := by
  have hipcRise : ¬ 5 / 100 * sample.ipc ≤ sample.ipc - sample.ipc := by linarith
  have hipcDrop : ¬ sample.ipc - sample.ipc < -(5 / 100 * sample.ipc) := by linarith
  unfold branchOf at hbranch ⊢
  split at hbranch
  · cases hbranch
  rename_i hinit
  split at hbranch
  · cases hbranch
  rename_i hsteady
  split at hbranch
  · cases hbranch
  rename_i hrise
  rw [if_neg hinit, if_neg hsteady, if_neg hrise, if_neg hipcRise, if_neg hipcDrop]

/-- Repeating a steady sample walks down the ladder to the floor. -/
theorem steady_frequency (dualCap : Int32) {sample : Sample} (n : ℕ) {g : Globals} {k : ℕ}
    (hk : k ≤ stepsToFloor) (hfrequency : g.currentUf = frequencyAt k)
    (hbranch : branchOf g sample = .steady) :
    (stateAfter (ups dualCap) g (List.replicate n sample)).currentUf =
      frequencyAt (min (k + n) stepsToFloor) := by
  induction n generalizing g k with
  | zero => rw [List.replicate_zero, stateAfter_nil, hfrequency, Nat.add_zero, min_eq_left hk]
  | succ n ih =>
    have hnext := ups_frequency dualCap sample hk hfrequency
    have hbranch' : branchOf (ups dualCap g sample).1 sample = .steady := by
      rw [ups_eq_react, hbranch, react]
      split
      · exact hbranch
      · exact hbranch
    rw [hbranch] at hnext
    rw [List.replicate_succ, stateAfter_cons, ih (min_le_right _ _) hnext hbranch']
    congr 1
    omega

/-- Repeating a held sample changes nothing. -/
theorem hold_frequency (dualCap : Int32) {sample : Sample} (n : ℕ) {g : Globals}
    (hbranch : branchOf g sample = .hold) :
    stateAfter (ups dualCap) g (List.replicate n sample) = g := by
  induction n with
  | zero => rfl
  | succ n ih =>
    have hstep : ups dualCap g sample = (g, []) := by rw [ups_eq_react, hbranch, react]
    rw [List.replicate_succ, stateAfter_cons, hstep, ih]

/-- Eleven or more repetitions of a sample at the power reference end at the floor. -/
theorem reference_frequency (dualCap : Int32) {sample : Sample} {n : ℕ} (hn : 11 ≤ n) {g : Globals}
    (hladder : FrequencyOnLadder g) (hinit : g.init = false)
    (hreference : g.setpointDramPower = sample.dramPower) (hpositive : 0 < sample.dramPower) :
    (stateAfter (ups dualCap) g (List.replicate n sample)).currentUf = 12 / 10 := by
  obtain ⟨k, hk, hfrequency⟩ := hladder
  rw [steady_frequency dualCap n hk hfrequency (branchOf_at_reference hinit hreference hpositive)]
  rw [← frequencyAt_floor]
  congr 1
  simp only [stepsToFloor] at hk ⊢
  omega

/-- Twelve or more repetitions of a positive sample bring the controller to rest. -/
theorem repeated_frequency (dualCap : Int32) {sample : Sample} (hpositive : sample.Positive) {n : ℕ}
    (hn : 12 ≤ n) {g : Globals} (hladder : FrequencyOnLadder g) :
    (stateAfter (ups dualCap) g (List.replicate n sample)).currentUf = restingFrequency g sample := by
  obtain ⟨n, rfl⟩ : ∃ m, n = m + 1 := ⟨n - 1, by omega⟩
  have hn' : 11 ≤ n := by omega
  have hladder' := hladder.ups dualCap sample
  rw [List.replicate_succ, stateAfter_cons]
  rw [ups_eq_react] at hladder' ⊢
  unfold restingFrequency
  cases hbranch : branchOf g sample with
  | initial =>
    rw [hbranch] at hladder'
    exact reference_frequency dualCap hn' hladder' rfl rfl hpositive.dramPower_pos
  | steady =>
    obtain ⟨k, hk, hfrequency⟩ := hladder
    have hwalk := steady_frequency dualCap (n + 1) hk hfrequency hbranch
    rw [List.replicate_succ, stateAfter_cons, ups_eq_react, hbranch] at hwalk
    rw [hwalk, ← frequencyAt_floor]
    congr 1
    simp only [stepsToFloor] at hk ⊢
    omega
  | powerRise =>
    rw [hbranch] at hladder'
    have hinit : g.init = false := init_of_branch (hbranch.trans_ne (by decide))
    exact reference_frequency dualCap hn' hladder' hinit rfl hpositive.dramPower_pos
  | powerDropIpcRise =>
    rw [hbranch] at hladder'
    have hinit : g.init = false := init_of_branch (hbranch.trans_ne (by decide))
    exact reference_frequency dualCap hn' hladder' hinit rfl hpositive.dramPower_pos
  | powerDropIpcDrop =>
    rw [react, hold_frequency dualCap n (branchOf_after_ipcDrop hpositive.ipc_pos hbranch _)]
  | hold => rw [react, hold_frequency dualCap n hbranch]

/-- Repeating a positive sample after a run brings the controller to rest. -/
theorem upsAfter_replicate (dualCap : Int32) (samples : List Sample) {sample : Sample}
    (hpositive : sample.Positive) {n : ℕ} (hn : 12 ≤ n) :
    (upsAfter dualCap (samples ++ List.replicate n sample)).currentUf =
      restingFrequency (upsAfter dualCap samples) sample := by
  rw [upsAfter, stateAfter_append]
  exact repeated_frequency dualCap hpositive hn (frequencyOnLadder_upsAfter dualCap samples)

/-- The controller settles on a repeated positive sample exactly when the sample does not lose both
power and IPC against the references, and is held only at the floor. -/
theorem settles_iff (dualCap : Int32) {samples : List Sample} {sample : Sample}
    (hpositive : sample.Positive) :
    Settles dualCap samples sample ↔
      branchOf (upsAfter dualCap samples) sample ≠ .powerDropIpcDrop ∧
        (branchOf (upsAfter dualCap samples) sample = .hold →
          (upsAfter dualCap samples).currentUf = 12 / 10) := by
  have hsettles : Settles dualCap samples sample ↔
      restingFrequency (upsAfter dualCap samples) sample = 12 / 10 := by
    constructor
    · intro h
      rw [← upsAfter_replicate dualCap samples hpositive le_rfl]
      exact h 12 le_rfl
    · intro h n hn
      rw [upsAfter_replicate dualCap samples hpositive hn, h]
  rw [hsettles, restingFrequency]
  cases branchOf (upsAfter dualCap samples) sample with
  | powerDropIpcDrop => norm_num
  | hold => simp
  | initial => simp
  | steady => simp
  | powerRise => simp
  | powerDropIpcRise => simp

/-- A first sample that is repeated settles. -/
theorem settles_iff_from_start : Settles 0 [] ⟨10, 1⟩ := by
  refine (settles_iff 0 ⟨by norm_num, by norm_num⟩).mpr ⟨?_, ?_⟩
  · decide
  · intro hhold
    cases hhold

/-- After a sample of 10 W at one instruction per cycle, 5 W at half of that keep the frequency at
the maximum. -/
theorem settles_fails_on_ipc_drop :
    ¬ ∀ (dualCap : Int32) (samples : List Sample) (sample : Sample),
      (∀ s ∈ samples, s.Positive) → sample.Positive → Settles dualCap samples sample := by
  intro hevery
  have hreference : Sample.Positive ⟨10, 1⟩ := ⟨by norm_num, by norm_num⟩
  have hpositive : Sample.Positive ⟨5, 1 / 2⟩ := ⟨by norm_num, by norm_num⟩
  have hsettles := hevery 0 [⟨10, 1⟩] ⟨5, 1 / 2⟩ (by simpa using hreference) hpositive 12 le_rfl
  have hbranch : branchOf (upsAfter 0 [⟨10, 1⟩]) ⟨5, 1 / 2⟩ = .powerDropIpcDrop := by
    norm_num [branchOf, upsAfter, ups, initialGlobals, abs_le]
  rw [upsAfter_replicate 0 _ hpositive le_rfl, restingFrequency, hbranch] at hsettles
  norm_num at hsettles

end NodePower.Ups
