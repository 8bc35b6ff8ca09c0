import Mathlib.Data.List.Range
import NodePower.Pcm.Runs

/-!
# The incremental controller against the whole sample history

The specification keeps every sample `s 1, s 2, …` and computes the expectation, the flip
indicators and the change window from the sequence itself. The controller keeps two short
windows and one flag; along every run they are what the specification computes.

The specification is independent of the commands and of every option but the window length
and the two slope thresholds.
-/

namespace NodePower

namespace HistorySpec

variable (history : ℕ) (incTs decTs : ℚ) (initial : Bool) (s : ℕ → ℚ)

/-- The increase of the throughput per sample period over the last `history` samples. -/
def rise (n : ℕ) : ℚ := (s n - s (n - history + 1)) / (history - 1)

/-- The expectation after `n` samples. -/
def expectation : ℕ → Bool
  | 0 => initial
  | n + 1 =>
    if n + 1 < history then expectation n
    else if expectation n = false ∧ incTs < rise history s (n + 1) then true
    else if expectation n = true ∧ rise history s (n + 1) < -decTs then false
    else expectation n

/-- Whether the expectation changed with sample `n`. -/
def flipIndicator (n : ℕ) : ℕ :=
  if expectation history incTs decTs initial s n = expectation history incTs decTs initial s (n - 1)
  then 0 else 1

/-- The indicators of the last ten decisions, the first decision being at sample `history`. -/
def changeWindow (n : ℕ) : List ℕ :=
  ((List.range' history (n + 1 - history)).map
    (flipIndicator history incTs decTs initial s)).rtake 10

/-- The last `history` samples. -/
def throughputHistory (n : ℕ) : List ℚ := ((List.range' 1 n).map s).rtake history

/-- Everything the controller keeps about the samples is as specified. -/
structure Matches (n : ℕ) (g : Globals) : Prop where
  throughputHistory_eq : g.throughputHistory = throughputHistory history s n
  expectation_eq : g.expectCurrentMaxUncore = expectation history incTs decTs initial s n
  window_eq : g.uncoreChangeWindow = changeWindow history incTs decTs initial s n

variable {history incTs decTs initial s}

/-- The specified history grows by one sample. -/
theorem throughputHistory_succ (hpos : 0 < history) (n : ℕ) :
    throughputHistory history s (n + 1) =
      slide history (throughputHistory history s n) (s (n + 1)) := by
  rw [throughputHistory, throughputHistory, slide_rtake hpos, List.range'_1_concat, List.map_append,
    Nat.add_comm 1 n]
  rfl

/-- The specified history is as long as the samples allow. -/
theorem length_throughputHistory (n : ℕ) :
    (throughputHistory history s n).length = min history n := by
  simp [throughputHistory, length_rtake]

/-- Positions in the specified history. -/
theorem getD_throughputHistory {n i : ℕ} (hfull : history ≤ n) (hi : i < history) :
    (throughputHistory history s n).getD i 0 = s (n - history + 1 + i) := by
  have hlength : i < (throughputHistory history s n).length := by
    rw [length_throughputHistory]
    omega
  rw [List.getD_eq_getElem _ _ hlength]
  simp only [throughputHistory, List.rtake, List.getElem_drop, List.getElem_map,
    List.getElem_range', List.length_map, List.length_range']
  congr 1
  omega

/-- The specified window is unchanged while the history is being filled. -/
theorem changeWindow_of_filling {n : ℕ} (h : n < history) :
    changeWindow history incTs decTs initial s n = [] := by
  simp [changeWindow, Nat.sub_eq_zero_of_le (by omega : n + 1 ≤ history)]

/-- Each decision slides its flip indicator into the specified window. -/
theorem changeWindow_succ {n : ℕ} (h : history ≤ n + 1) :
    changeWindow history incTs decTs initial s (n + 1) =
      slide windowSize (changeWindow history incTs decTs initial s n)
        (flipIndicator history incTs decTs initial s (n + 1)) := by
  have hcount : n + 1 + 1 - history = (n + 1 - history) + 1 := by omega
  have hlast : history + (n + 1 - history) = n + 1 := by omega
  rw [changeWindow, changeWindow, windowSize, slide_rtake (by omega), hcount, List.range'_1_concat,
    List.map_append, hlast]
  rfl

/-- While the history is being filled, the specified expectation stays. -/
theorem expectation_of_filling {n : ℕ} (h : n + 1 < history) :
    expectation history incTs decTs initial s (n + 1) = expectation history incTs decTs initial s n := by
  rw [expectation, if_pos h]

/-- The decision that the specification takes at sample `n + 1`. -/
def decision (history : ℕ) (incTs decTs : ℚ) (initial : Bool) (s : ℕ → ℚ) (n : ℕ) : Decision :=
  if expectation history incTs decTs initial s n = false ∧ incTs < rise history s (n + 1) then .increase
  else if expectation history incTs decTs initial s n = true ∧ rise history s (n + 1) < -decTs then .decrease
  else .stay

/-- With a full history, the specified expectation follows the specified decision. -/
theorem expectation_of_deciding {n : ℕ} (h : history ≤ n + 1) :
    expectation history incTs decTs initial s (n + 1) =
      (decision history incTs decTs initial s n).govern (expectation history incTs decTs initial s n) := by
  rw [expectation, if_neg (by omega), decision]
  split_ifs <;> rfl

/-- The specified flip indicator is that of the specified decision. -/
theorem flipIndicator_of_deciding {n : ℕ} (h : history ≤ n + 1) :
    flipIndicator history incTs decTs initial s (n + 1) =
      (decision history incTs decTs initial s n).flip := by
  rw [flipIndicator, expectation_of_deciding h, Nat.add_sub_cancel, decision]
  by_cases hincrease : expectation history incTs decTs initial s n = false ∧ incTs < rise history s (n + 1)
  · rw [if_pos hincrease, hincrease.1]
    rfl
  · rw [if_neg hincrease]
    by_cases hdecrease : expectation history incTs decTs initial s n = true ∧ rise history s (n + 1) < -decTs
    · rw [if_pos hdecrease, hdecrease.1]
      rfl
    · rw [if_neg hdecrease]
      exact if_pos rfl

variable {opt : Options} {c : ControllerCall}

/-- The window length as the natural number that the specification is about. -/
theorem sizeT_history (hopt : 2 ≤ opt.history.toInt) : sizeT opt.history = opt.history.toInt.toNat := by
  have hsize := sizeT_eq hopt
  omega

/-- A call finds the history full from the sample number `history` on. -/
theorem deciding_iff (hopt : 2 ≤ opt.history.toInt) {n : ℕ}
    (h : Matches opt.history.toInt.toNat opt.incTs opt.decTs initial s n c.before.globals)
    (hs : s (n + 1) = c.input.currentThroughput) :
    (observed opt c).throughputHistory = throughputHistory opt.history.toInt.toNat s (n + 1) ∧
      (Deciding opt c ↔ opt.history.toInt.toNat ≤ n + 1) := by
  have hhistory : (observed opt c).throughputHistory =
      throughputHistory opt.history.toInt.toNat s (n + 1) := by
    rw [throughputHistory_succ (by omega), ← h.throughputHistory_eq, hs, ← sizeT_history hopt]
    rfl
  refine ⟨hhistory, ?_⟩
  rw [Deciding, decides]
  change (observed opt c).throughputHistory.length = sizeT opt.history ↔ _
  rw [hhistory, length_throughputHistory, sizeT_history hopt]
  omega

/-- A deciding call takes the specified decision. -/
theorem throughputDecision_eq_decision (hopt : 2 ≤ opt.history.toInt) {n : ℕ}
    (h : Matches opt.history.toInt.toNat opt.incTs opt.decTs initial s n c.before.globals)
    (hs : s (n + 1) = c.input.currentThroughput) (hdeciding : Deciding opt c) :
    throughputDecision opt (observed opt c) =
      decision opt.history.toInt.toNat opt.incTs opt.decTs initial s n := by
  obtain ⟨hhistory, hiff⟩ := deciding_iff hopt h hs
  have hfull := hiff.mp hdeciding
  have hexpect : (observed opt c).expectCurrentMaxUncore =
      expectation opt.history.toInt.toNat opt.incTs opt.decTs initial s n := h.expectation_eq
  obtain ⟨slope, hslope, htenth⟩ := derivative_eq hopt hdeciding
  have hrise : slope / 10 = rise opt.history.toInt.toNat s (n + 1) := by
    have hlength : (observe opt c.before.globals c.input).throughputHistory.length =
        opt.history.toInt.toNat := hdeciding.trans (sizeT_history hopt)
    have hcast : ((opt.history.toInt.toNat : ℕ) : ℚ) = (opt.history.toInt : ℚ) := by
      exact_mod_cast Int.toNat_of_nonneg (by omega)
    have hobserved : (observe opt c.before.globals c.input).throughputHistory =
        throughputHistory opt.history.toInt.toNat s (n + 1) := hhistory
    have hlast : n + 1 - opt.history.toInt.toNat + 1 + (opt.history.toInt.toNat - 1) = n + 1 := by omega
    rw [htenth, hlength, hobserved, getD_throughputHistory hfull (by omega),
      getD_throughputHistory hfull (by omega), hlast, Nat.add_zero, rise, hcast]
    push_cast
    rfl
  rw [observed, throughputDecision_eq hslope, hrise, decision, ← hexpect]
  rfl

/-- Each call of the controller keeps it as specified. -/
theorem Matches.step (hopt : 2 ≤ opt.history.toInt) {n : ℕ}
    (h : Matches opt.history.toInt.toNat opt.incTs opt.decTs initial s n c.before.globals)
    (hs : s (n + 1) = c.input.currentThroughput) (hanswered : Answered opt c) :
    Matches opt.history.toInt.toNat opt.incTs opt.decTs initial s (n + 1) c.after.globals := by
  obtain ⟨hhistory, hiff⟩ := deciding_iff hopt h hs
  have hrecorded := hanswered.recorded.1.trans hhistory
  by_cases hdeciding : Deciding opt c
  · have hfull := hiff.mp hdeciding
    have hdecision := throughputDecision_eq_decision hopt h hs hdeciding
    have hglobals := (hanswered.globals_of_deciding hdeciding).1
    refine ⟨hrecorded, ?_, ?_⟩
    · rw [hglobals, shiftPower_globals, expectation_of_deciding hfull, ← hdecision, ← h.expectation_eq]
      rfl
    · rw [hglobals, shiftPower_globals, changeWindow_succ hfull, flipIndicator_of_deciding hfull,
        ← hdecision, ← h.window_eq]
      rfl
  · have hfilling : ¬ opt.history.toInt.toNat ≤ n + 1 := fun hfull => hdeciding (hiff.mpr hfull)
    have hglobals := (hanswered.globals_of_filling hdeciding).1
    refine ⟨hrecorded, ?_, ?_⟩
    · rw [hglobals, expectation_of_filling (by omega), ← h.expectation_eq]
      rfl
    · have hwindow := h.window_eq
      rw [changeWindow_of_filling (by omega)] at hwindow
      rw [hglobals, changeWindow_of_filling (by omega), ← hwindow]
      rfl

/-- A controller that starts with empty windows is as specified before the first sample. -/
theorem matches_zero (hpos : 0 < history) {g : Globals} (hhistory : g.throughputHistory = [])
    (hwindow : g.uncoreChangeWindow = []) :
    Matches history incTs decTs g.expectCurrentMaxUncore s 0 g :=
  ⟨hhistory.trans (by simp [throughputHistory]), rfl,
    hwindow.trans (changeWindow_of_filling hpos).symm⟩

/-- Along a run, the controller is as specified for every sequence that agrees with the samples. -/
theorem matches_finalState (hopt : 2 ≤ opt.history.toInt) {sys : System}
    (hhistory : sys.globals.throughputHistory = []) (hwindow : sys.globals.uncoreChangeWindow = [])
    {samples : List Sample} (hsamples : NonnegSamples samples) {calls : List ControllerCall}
    (hrun : controllerRunFrom opt sys samples = some calls) :
    ∀ s : ℕ → ℚ,
      (∀ k (hk : k < calls.length), s (k + 1) = calls[k].input.currentThroughput) →
      Matches opt.history.toInt.toNat opt.incTs opt.decTs sys.globals.expectCurrentMaxUncore s
        calls.length (finalState sys calls).globals := by
  have hnonneg : sys.NonnegHistory := nonnegHistory_of_nil hhistory
  refine controllerRunFrom_induction hopt
    (fun calls t => ∀ s : ℕ → ℚ,
      (∀ k (hk : k < calls.length), s (k + 1) = calls[k].input.currentThroughput) →
      Matches opt.history.toInt.toNat opt.incTs opt.decTs sys.globals.expectCurrentMaxUncore s
        calls.length t.globals) ?_ ?_ hnonneg hsamples hrun
  · intro s _
    exact matches_zero (by omega) hhistory hwindow
  · intro calls c hcalls hanswered s hs
    have hbefore : Matches opt.history.toInt.toNat opt.incTs opt.decTs
        sys.globals.expectCurrentMaxUncore s calls.length c.before.globals := by
      apply hcalls s
      intro k hk
      have hk' : k < (calls ++ [c]).length := by
        rw [List.length_append]
        omega
      rw [hs k hk', List.getElem_append_left hk]
    have hlast : s (calls.length + 1) = c.input.currentThroughput := by
      rw [hs calls.length (by simp)]
      simp
    rw [List.length_append, List.length_singleton]
    exact hbefore.step hopt hlast hanswered

end HistorySpec

/-- The incremental controller computes what the whole sample history specifies.

From any flags and any learned bound, with both windows empty, the run over nonnegative samples
is never stuck. After call `n` the history holds the last samples, the expectation has flipped
exactly where the rise per period crossed a threshold, and the change window holds the
indicators of the last ten decisions. While the history is being filled nothing is commanded. -/
theorem dynamicUfs_refines_history_spec (opt : Options) (hopt : 2 ≤ opt.history.toInt)
    (sys : System) (hhistory : sys.globals.throughputHistory = [])
    (hwindow : sys.globals.uncoreChangeWindow = []) (samples : List Sample)
    (hsamples : NonnegSamples samples) :
    ∃ calls, controllerRunFrom opt sys samples = some calls ∧ calls.length = samples.length ∧
      ∀ n (hn : n < calls.length),
        HistorySpec.Matches opt.history.toInt.toNat opt.incTs opt.decTs
            sys.globals.expectCurrentMaxUncore
            (fun k => (samples.map Sample.currentThroughput).getD (k - 1) 0) (n + 1)
            calls[n].after.globals ∧
          (n + 1 < opt.history.toInt.toNat → calls[n].output = []) := by
  have hnonneg : sys.NonnegHistory := nonnegHistory_of_nil hhistory
  obtain ⟨calls, hrun⟩ := controllerRunFrom_exists hopt hnonneg hsamples
  have hinputs : calls.map Call.input = samples := runCalls_inputs hrun
  have hlength : calls.length = samples.length := by rw [← hinputs, List.length_map]
  refine ⟨calls, hrun, hlength, ?_⟩
  intro n hn
  let s := fun k => (samples.map Sample.currentThroughput).getD (k - 1) 0
  have hs : ∀ k (hk : k < calls.length), s (k + 1) = calls[k].input.currentThroughput := by
    intro k hk
    change (samples.map Sample.currentThroughput).getD k 0 = _
    rw [← hinputs, List.map_map, List.getD_eq_getElem _ _ (by rwa [List.length_map]),
      List.getElem_map]
    rfl
  obtain ⟨htake, hbefore, hanswered⟩ := controllerRunFrom_call hopt hnonneg hsamples hrun hn
  have hsamplesTake : NonnegSamples (samples.take n) := fun sample h =>
    hsamples sample (List.mem_of_mem_take h)
  have hmatches := HistorySpec.matches_finalState hopt hhistory hwindow hsamplesTake htake s (by
    intro k hk
    rw [List.length_take] at hk
    rw [hs k (by omega), List.getElem_take])
  rw [← hbefore, List.length_take, Nat.min_eq_left hn.le] at hmatches
  refine ⟨hmatches.step hopt (hs n hn) hanswered, ?_⟩
  intro hfilling
  have hnot : ¬ Deciding opt calls[n] := by
    rw [(HistorySpec.deciding_iff hopt hmatches (hs n hn)).2]
    omega
  exact (hanswered.globals_of_filling hnot).2

/-- Two samples with a window of two: the second one is the first decision. -/
theorem dynamicUfs_refines_history_spec_first_decision :
    ∃ calls : List ControllerCall, controllerRun { defaultOptions with history := 2 }
        [⟨1, 0⟩, ⟨3, 1⟩] = some calls ∧ calls.length = 2 ∧ ∀ n (hn : n < calls.length),
      HistorySpec.Matches 2 0 0
          (mainThrowsStart { defaultOptions with history := 2 }).globals.expectCurrentMaxUncore
          (fun k => ([⟨1, 0⟩, ⟨3, 1⟩].map Sample.currentThroughput).getD (k - 1) 0) (n + 1)
          calls[n].after.globals ∧ (n + 1 < 2 → calls[n].output = []) :=
  dynamicUfs_refines_history_spec { defaultOptions with history := 2 } (by decide)
    (mainThrowsStart { defaultOptions with history := 2 }) rfl rfl [⟨1, 0⟩, ⟨3, 1⟩] (by decide +kernel)

end NodePower
