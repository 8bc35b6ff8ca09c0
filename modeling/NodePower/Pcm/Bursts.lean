import NodePower.Pcm.Actuation

/-!
# The end of a burst

The comments of the source hand control to the burst logic at `burst_up` and back to the
throughput logic at `burst_low`. The variable that would remember who is in control is local
to a call, and nothing brings the level back to the expectation when control returns.

Both effects are characterised exactly. The level departs from the expectation outside a
burst precisely in calls that decide nothing while the two already differ, and control that
was yielded is taken back early precisely in calls that decide a decrease between the two
thresholds.
-/

namespace NodePower

/-- After a deciding call without a burst the level is the expected one, and socket 0 is at the
upper bound exactly when the maximum is expected. -/
def Synchronised (opt : Options) (c : ControllerCall) : Prop :=
  Deciding opt c → findsBurst opt c.before.globals = false →
    c.after.globals.highUncore = c.after.globals.expectCurrentMaxUncore ∧
      (c.after.hardware.cpu0 = uncoreUpperBound ↔ c.after.globals.expectCurrentMaxUncore = true)

/-- A call without a burst that decides nothing while the level is high and the maximum is not
expected. -/
def IdlesOutOfStep (opt : Options) (c : ControllerCall) : Prop :=
  Deciding opt c ∧ findsBurst opt c.before.globals = false ∧
    throughputDecision opt (observed opt c) = .stay ∧
    c.before.globals.highUncore = true ∧ c.before.globals.expectCurrentMaxUncore = false

instance (opt : Options) (c : ControllerCall) : Decidable (Synchronised opt c) :=
  inferInstanceAs (Decidable (_ → _ → _ ∧ _))

instance (opt : Options) (c : ControllerCall) : Decidable (IdlesOutOfStep opt c) :=
  inferInstanceAs (Decidable (_ ∧ _))

/-- Every run over nonnegative samples is synchronised outside bursts. -/
def SynchronisedOutsideBursts (opt : Options) : Prop :=
  ∀ samples, NonnegSamples samples →
    ∃ calls, controllerRun opt samples = some calls ∧ ∀ c ∈ calls, Synchronised opt c

variable {opt : Options} {c : ControllerCall}

/-- A regular state that is never beyond the upper bound, whose flag tells the truth, and whose
expected maximum is commanded. -/
structure InStep (opt : Options) (sys : System) : Prop where
  regular : Regular opt sys
  truth : TellsTruth sys
  cpu0_le : sys.hardware.cpu0 ≤ uncoreUpperBound
  covered : sys.globals.mode.Covered

/-- A call never takes socket 0 beyond the upper bound. -/
theorem Answered.cpu0_le (hregular : Regular opt c.before) (h : Answered opt c)
    (hle : c.before.hardware.cpu0 ≤ uncoreUpperBound) :
    c.after.hardware.cpu0 ≤ uncoreUpperBound := by
  cases h.outcome hregular with
  | kept _ hcpu0 => exact hcpu0.trans_le hle
  | raised _ hcpu0 => exact hcpu0.le
  | lowered _ hcpu0 => exact hcpu0.trans_le (h.bound_lt hregular).2.le

/-- A call keeps an expected maximum commanded. -/
theorem Answered.covered (h : Answered opt c) (hcovered : c.before.globals.mode.Covered) :
    c.after.globals.mode.Covered := by
  by_cases hdeciding : Deciding opt c
  · rw [h.mode_eq hdeciding]
    exact Mode.covered_supervise _ _ hcovered
  · rw [h.mode_of_filling hdeciding]
    exact hcovered

/-- Calls keep the controller in step. -/
theorem InStep.step (hopt : 2 ≤ opt.history.toInt) (h : InStep opt c.before)
    (hanswered : Answered opt c) : InStep opt c.after where
  regular := h.regular.step hopt hanswered
  truth := hanswered.tellsTruth h.regular h.truth
  cpu0_le := hanswered.cpu0_le h.regular h.cpu0_le
  covered := hanswered.covered h.covered

/-- The controller starts in step when both sockets start below 2 GHz. -/
theorem mainThrowsStart_inStep (h0 : opt.uncore0 < 2) (h1 : opt.uncore1 < 2) :
    InStep opt (mainThrowsStart opt) := by
  have hprint : stdToString opt.uncore0 ≤ 2 :=
    roundDecimal_le (n := 2000000) (by norm_num) h0.le
  have hlt : stdToString opt.uncore0 < uncoreUpperBound :=
    hprint.trans_lt (by norm_num [uncoreUpperBound])
  exact ⟨mainThrowsStart_regular opt, (mainThrowsStart_tellsTruth opt).mpr hlt, hlt.le,
    fun hexpect => by
      simp [mainThrowsStart, Globals.mode, not_le.mpr h0, not_le.mpr h1] at hexpect⟩

/-- In step, a call loses the synchronisation outside bursts exactly when it idles out of step. -/
theorem InStep.synchronised_iff (hopt : 2 ≤ opt.history.toInt) (h : InStep opt c.before)
    (hanswered : Answered opt c) : Synchronised opt c ↔ ¬ IdlesOutOfStep opt c := by
  by_cases hdeciding : Deciding opt c
  · cases hburst : findsBurst opt c.before.globals with
    | true => simp [Synchronised, IdlesOutOfStep, hburst]
    | false =>
      have hafter := h.step hopt hanswered
      have hmode := hanswered.mode_eq hdeciding
      rw [hburst] at hmode
      have hiff := Mode.high_eq_expectation_iff (throughputDecision opt (observed opt c)) h.covered
      rw [← hmode] at hiff
      have hcpu : c.after.hardware.cpu0 = uncoreUpperBound ↔ c.after.globals.highUncore = true :=
        ⟨fun heq => hafter.truth.mpr heq.ge, fun hhigh => hafter.cpu0_le.antisymm (hafter.truth.mp hhigh)⟩
      simp only [Synchronised, IdlesOutOfStep, hdeciding, hburst, true_and, forall_const, hcpu]
      refine Iff.trans ⟨And.left, fun heq => ⟨heq, ?_⟩⟩ hiff
      rw [heq]
  · simp [Synchronised, IdlesOutOfStep, hdeciding]

/-- Outside bursts the level follows the expectation in every call of a run exactly when no call
idles out of step: from the end of a burst that left the maximum unexpected, until the next
change of the expectation, the uncore stays high. -/
theorem synchronised_iff_no_idle_out_of_step (opt : Options) (hopt : 2 ≤ opt.history.toInt)
    (h0 : opt.uncore0 < 2) (h1 : opt.uncore1 < 2) (samples : List Sample)
    (hsamples : NonnegSamples samples) :
    ∃ calls, controllerRun opt samples = some calls ∧
      ((∀ c ∈ calls, Synchronised opt c) ↔ ∀ c ∈ calls, ¬ IdlesOutOfStep opt c) := by
  obtain ⟨calls, hrun⟩ := controllerRunFrom_exists hopt (mainThrowsStart_nonneg opt) hsamples
  have hcalls := controllerRunFrom_invariant hopt (InStep opt) (mainThrowsStart_inStep h0 h1)
    (fun c hc hanswered => hc.step hopt hanswered) (mainThrowsStart_nonneg opt) hsamples hrun
  refine ⟨calls, hrun, forall₂_congr fun c hc => ?_⟩
  obtain ⟨hbefore, hanswered, -⟩ := hcalls c hc
  exact hbefore.synchronised_iff hopt hanswered

/-- A rise of the throughput takes the level up with the expectation. -/
theorem synchronised_iff_no_idle_out_of_step_rise :
    ∃ earlier c, controllerRun { defaultOptions with history := 2 } [⟨0, 0⟩, ⟨100, 0⟩] =
        some (earlier ++ [c]) ∧
      Deciding { defaultOptions with history := 2 } c ∧ c.after.globals.highUncore = true ∧
      ∀ d ∈ earlier ++ [c], Synchronised { defaultOptions with history := 2 } d := by
  obtain ⟨earlier, c, hlast, hdeciding, hhigh⟩ := exists_last_of_any
    (controllerRun { defaultOptions with history := 2 } [⟨0, 0⟩, ⟨100, 0⟩])
    (fun c => Deciding { defaultOptions with history := 2 } c ∧ c.after.globals.highUncore = true)
    (by decide +kernel)
  obtain ⟨calls, hrun, hiff⟩ := synchronised_iff_no_idle_out_of_step
    { defaultOptions with history := 2 } (by decide +kernel) (by decide +kernel) (by decide +kernel)
    [⟨0, 0⟩, ⟨100, 0⟩] (by decide +kernel)
  obtain rfl := Option.some.inj (hlast.symm.trans hrun)
  refine ⟨earlier, c, hlast, hdeciding, hhigh, hiff.mpr ?_⟩
  exact of_all_calls
    (fun calls => ∀ d ∈ calls, ¬ IdlesOutOfStep { defaultOptions with history := 2 } d)
    (by decide +kernel) hlast

/-- Ten changes of the expectation make a burst; in the quiet phase that follows, the call that
ends the burst finds the level high and the maximum not expected, and leaves both so. -/
theorem synchronised_fails_after_burst :
    ¬ SynchronisedOutsideBursts { defaultOptions with history := 2 } := by
  intro h
  exact not_forall_calls_of_any _ (by decide +kernel)
    (h ((List.range 11).map (fun i => ⟨if i % 2 = 0 then 0 else 100, 0⟩) ++
      List.replicate 8 ⟨0, 0⟩) (by decide +kernel))

/-- When call `j` is made, control has been yielded to the burst logic and not been returned: an
earlier call found a burst, and no call since then, this one included, found a quiet window. -/
def Yielded (opt : Options) (calls : List ControllerCall) (j : ℕ) : Prop :=
  ∃ (i : ℕ) (hi : i < calls.length), i < j ∧ findsBurst opt calls[i].before.globals = true ∧
    ∀ k (hk : k < calls.length), i < k → k ≤ j → findsQuiet opt calls[k].before.globals = false

/-- No call lowers the uncore while control is yielded. -/
def BurstHysteresis (opt : Options) (calls : List ControllerCall) : Prop :=
  ∀ j (hj : j < calls.length), Yielded opt calls j →
    lowerCommand (observed opt calls[j]) ∉ calls[j].output

/-- Every run over nonnegative samples has the hysteresis. -/
def AlwaysBurstHysteresis (opt : Options) : Prop :=
  ∀ samples, NonnegSamples samples →
    ∃ calls, controllerRun opt samples = some calls ∧ BurstHysteresis opt calls

/-- A decrease is decided in a call that finds neither a burst nor a quiet window, between the
two thresholds, while control is yielded. -/
def DecreaseWhileYielded (opt : Options) (calls : List ControllerCall) (j : ℕ)
    (hj : j < calls.length) : Prop :=
  Yielded opt calls j ∧ findsBurst opt calls[j].before.globals = false ∧
    throughputDecision opt (observed opt calls[j]) = .decrease

/-- A burst since which no call lowered the uncore has left the level high and the change window
filled. -/
def HoldsSinceBurst (opt : Options) (calls : List ControllerCall) (sys : System) : Prop :=
  ∀ i (hi : i < calls.length), findsBurst opt calls[i].before.globals = true →
    (∀ k (hk : k < calls.length), i < k → lowerCommand (observed opt calls[k]) ∉ calls[k].output) →
    sys.globals.highUncore = true ∧ sys.globals.uncoreChangeWindow ≠ []

/-- A deciding call leaves an entry in the change window. -/
theorem Answered.window_ne_nil (h : Answered opt c) (hdeciding : Deciding opt c) :
    c.after.globals.uncoreChangeWindow ≠ [] := by
  rw [(h.globals_of_deciding hdeciding).1, shiftPower_globals]
  change slide windowSize _ _ ≠ []
  rw [slide, dropOldest, ← List.length_pos_iff]
  split
  · rename_i hlong
    rw [List.length_tail]
    exact Nat.sub_pos_of_lt (lt_of_le_of_lt (by decide) hlong)
  · simp

/-- A call keeps what holds since a burst. -/
theorem HoldsSinceBurst.step (hopt : 2 ≤ opt.history.toInt) {calls : List ControllerCall}
    (hregular : Regular opt c.before) (h : HoldsSinceBurst opt calls c.before)
    (hanswered : Answered opt c) : HoldsSinceBurst opt (calls ++ [c]) c.after := by
  intro i hi hburst hkept
  by_cases hbefore : i < calls.length
  · rw [List.getElem_append_left hbefore] at hburst
    obtain ⟨hhigh, hwindow⟩ := h i hbefore hburst fun k hk hik => by
      have hkeptAt := hkept k (by rw [List.length_append]; omega) hik
      rwa [List.getElem_append_left hk] at hkeptAt
    have hdeciding := hregular.deciding_of_window hopt hwindow
    refine ⟨?_, hanswered.window_ne_nil hdeciding⟩
    have hlast := hkept calls.length (by simp) hbefore
    simp only [List.getElem_concat_length, hanswered.lowers_iff hregular] at hlast
    cases hafter : c.after.globals.highUncore with
    | true => rfl
    | false => exact absurd (by rw [hhigh, hafter]; rfl) hlast
  · obtain rfl : i = calls.length := by
      rw [List.length_append, List.length_singleton] at hi
      omega
    rw [List.getElem_concat_length rfl] at hburst
    have hdeciding := hregular.deciding_of_burst hopt hburst
    have hmode := congrArg Mode.high (hanswered.mode_eq hdeciding)
    exact ⟨by simpa [Globals.mode, Mode.supervise, hburst] using hmode, hanswered.window_ne_nil hdeciding⟩

/-- While control is yielded the uncore is never lowered along a run exactly when no call between
the thresholds decides a decrease: `burst_status` does not survive the call that set it. -/
theorem burstHysteresis_iff (opt : Options) (hopt : 2 ≤ opt.history.toInt) (samples : List Sample)
    (hsamples : NonnegSamples samples) :
    ∃ calls, controllerRun opt samples = some calls ∧
      (BurstHysteresis opt calls ↔
        ∀ j (hj : j < calls.length), ¬ DecreaseWhileYielded opt calls j hj) := by
  obtain ⟨calls, hrun, hcalls⟩ := controllerRun_regular hopt hsamples
  refine ⟨calls, hrun, ?_, ?_⟩
  · rintro hhysteresis j hj ⟨hyielded, hburst, hdecision⟩
    obtain ⟨htake, hbefore, -⟩ :=
      controllerRunFrom_call hopt (mainThrowsStart_nonneg opt) hsamples hrun hj
    have hholds := controllerRunFrom_induction hopt
      (fun calls sys => Regular opt sys ∧ HoldsSinceBurst opt calls sys)
      ⟨mainThrowsStart_regular opt, fun i hi => absurd hi (by simp)⟩
      (fun earlier d hd hanswered => ⟨hd.1.step hopt hanswered, hd.2.step hopt hd.1 hanswered⟩)
      (mainThrowsStart_nonneg opt) (fun sample h => hsamples sample (List.mem_of_mem_take h)) htake
    rw [← hbefore] at hholds
    obtain ⟨i, hi, hij, hfound, hquiet⟩ := hyielded
    have hlength : (calls.take j).length = j := by
      rw [List.length_take]
      omega
    obtain ⟨hhigh, hwindow⟩ := hholds.2 i (by omega) (by rwa [List.getElem_take]) fun k hk hik => by
      rw [List.getElem_take]
      have hk' : k < j := by omega
      exact hhysteresis k (by omega) ⟨i, hi, hik, hfound, fun l hl hil hlk => hquiet l hl hil (by omega)⟩
    obtain ⟨hregular, hanswered, -⟩ := hcalls calls[j] (List.getElem_mem hj)
    have hdeciding := hregular.deciding_of_window hopt hwindow
    apply hhysteresis j hj ⟨i, hi, hij, hfound, hquiet⟩
    rw [hanswered.lowers_iff hregular, hanswered.edge_lower_iff]
    exact ⟨hdeciding, hburst, hdecision, hhigh⟩
  · intro hnone j hj hyielded hlower
    obtain ⟨hregular, hanswered, -⟩ := hcalls calls[j] (List.getElem_mem hj)
    rw [hanswered.lowers_iff hregular, hanswered.edge_lower_iff] at hlower
    exact hnone j hj ⟨hyielded, hlower.2.1, hlower.2.2.1⟩

/-- A burst and seven calls without a change. -/
def steadySamples : List Sample :=
  (List.range 12).map (fun i => ⟨if i % 2 = 0 then 0 else 100, 0⟩) ++ List.replicate 7 ⟨100, 0⟩

/-- As long as no decrease is decided behind a burst, the uncore stays high. -/
theorem burstHysteresis_iff_steady :
    ∃ calls, controllerRun { defaultOptions with history := 2 } steadySamples = some calls ∧
      (∃ j, Yielded { defaultOptions with history := 2 } calls j) ∧
      BurstHysteresis { defaultOptions with history := 2 } calls := by
  obtain ⟨calls, hrun, hiff⟩ := burstHysteresis_iff { defaultOptions with history := 2 } (by decide)
    steadySamples (by decide +kernel)
  have hstays := of_all_calls (fun calls => calls.Pairwise fun b c =>
    findsBurst { defaultOptions with history := 2 } b.before.globals = true →
      findsBurst { defaultOptions with history := 2 } c.before.globals = false →
      throughputDecision { defaultOptions with history := 2 }
        (observed { defaultOptions with history := 2 } c) ≠ .decrease) (by decide +kernel) hrun
  refine ⟨calls, hrun, ?_, hiff.mpr ?_⟩
  · obtain rfl : calls = (controllerRun { defaultOptions with history := 2 } steadySamples).get
        (by decide +kernel) := (Option.eq_some_iff_get_eq.mp hrun).2.symm
    exact ⟨18, 11, by decide +kernel, by decide, by decide +kernel, by decide +kernel⟩
  · rintro j hj ⟨⟨i, hi, hij, hfound, -⟩, hburst, hdecrease⟩
    exact List.pairwise_iff_getElem.mp hstays i j hi hj hij hfound hburst hdecrease

/-- A burst, seven calls without a change, and a fall of the throughput. -/
def lingeringSamples : List Sample := steadySamples ++ [⟨0, 0⟩]

/-- The last call finds the average 0.3, between 0.2 and 0.4, and lowers the uncore. -/
theorem burstHysteresis_fails_between_thresholds :
    ¬ AlwaysBurstHysteresis { defaultOptions with history := 2 } := by
  intro h
  obtain ⟨calls, hrun, hhysteresis⟩ := h lingeringSamples (by decide +kernel)
  obtain rfl : calls = (controllerRun { defaultOptions with history := 2 } lingeringSamples).get
      (by decide +kernel) := (Option.eq_some_iff_get_eq.mp hrun).2.symm
  exact hhysteresis 19 (by decide +kernel)
    ⟨11, by decide +kernel, by decide, by decide +kernel, by decide +kernel⟩ (by decide +kernel)

end NodePower
