import NodePower.Pcm.StepSpec

/-!
# Safety of the throughput window

The option `--history` is used as the bound of the window, as the size at which decisions
start, as an index and, less one, as a divisor. Nothing restricts it. From two on every call
is safe. With one, the default, the interval is zero; with zero the window is always empty
when decisions are due; a negative value becomes a size that the window never reaches, so it
grows with every sample.
-/

namespace NodePower

/-- The call goes on to the derivative: the history is full and its average is not negative. -/
def controlsThroughput (opt : Options) (g : Globals) (sample : Sample) : Prop :=
  decides opt g sample ∧
    quotientLt (average (observe opt g sample).throughputHistory) 0 = false

/-- What one call may do with its window: read inside its bounds, divide by what is not zero, and
leave it no longer than the option says. -/
structure SafeCall (opt : Options) (g : Globals) (sample : Sample) : Prop where
  averageSize : decides opt g sample → (observe opt g sample).throughputHistory.length ≠ 0
  changeSize : controlsThroughput opt g sample → windowSize ≤ g.uncoreChangeWindow.length →
    g.uncoreChangeWindow.length ≠ 0
  newestIndex : controlsThroughput opt g sample →
    vectorAt (observe opt g sample).throughputHistory (opt.history.toInt - 1) ≠ none
  oldestIndex : controlsThroughput opt g sample →
    vectorAt (observe opt g sample).throughputHistory 0 ≠ none
  interval : controlsThroughput opt g sample → timeInterval opt ≠ 0
  length_le : ((observe opt g sample).throughputHistory.length : ℤ) ≤ max opt.history.toInt 1

/-- Every call of a run is answered and safe. -/
def RunSafe (opt : Options) (samples : List Sample) : Prop :=
  ∃ calls, controllerRun opt samples = some calls ∧
    ∀ c ∈ calls, SafeCall opt c.before.globals c.input

/-- A window length of at least two; or one, as long as every throughput is negative; or a negative
one for a single sample; and anything without samples. -/
def WindowUsable (opt : Options) (samples : List Sample) : Prop :=
  2 ≤ opt.history.toInt ∨ samples = [] ∨
    (opt.history.toInt = 1 ∧ ∀ sample ∈ samples, sample.currentThroughput < 0) ∨
    (opt.history.toInt < 0 ∧ samples.length ≤ 1)

variable {opt : Options} {g next : Globals} {sample : Sample} {commands : List Command}

/-- The burst check keeps the history. -/
theorem checkBurst_throughputHistory (opt : Options) (burstStatus : Bool) (g : Globals) :
    (checkBurst opt burstStatus g).2.1.throughputHistory = g.throughputHistory := by
  unfold checkBurst
  split_ifs <;> rfl

/-- The decision keeps the history. -/
theorem memDecision_throughputHistory (opt : Options) (burstStatus : Bool) (slope : Option ℚ)
    (g : Globals) :
    (memDecision opt burstStatus slope g).1.throughputHistory = g.throughputHistory := by
  unfold memDecision
  split_ifs
  · dsimp only
    split_ifs <;> rfl
  · dsimp only
    split_ifs <;> rfl
  · rfl

/-- The power shift keeps the history. -/
theorem shiftPower_throughputHistory (opt : Options) (g : Globals) :
    (shiftPower opt g).1.throughputHistory = g.throughputHistory := by
  unfold shiftPower
  split_ifs <;> rfl

/-- Burst check and decision keep the history, if they are answered. -/
theorem throughputControl_throughputHistory
    (h : throughputControl opt g = some (next, commands)) :
    next.throughputHistory = g.throughputHistory := by
  simp only [throughputControl, Option.bind_eq_bind, Option.bind_eq_some_iff, Option.pure_def,
    Option.some.injEq, Prod.mk.injEq] at h
  obtain ⟨slope, -, rfl, -⟩ := h
  rw [← checkBurst_throughputHistory opt false g]
  exact memDecision_throughputHistory opt _ slope _

/-- Whatever a call decides, it leaves the history with its sample recorded. -/
theorem dynamicUfs_throughputHistory (h : dynamicUfs opt g sample = some (next, commands)) :
    next.throughputHistory = (observe opt g sample).throughputHistory := by
  simp only [dynamicUfs] at h
  split at h
  · split at h
    · obtain ⟨rfl, -⟩ := Prod.mk.inj (Option.some.inj h)
      exact shiftPower_throughputHistory opt _
    · obtain ⟨⟨controlled, uncoreCommands⟩, hcontrolled, hshifted⟩ := Option.bind_eq_some_iff.mp h
      obtain ⟨rfl, -⟩ := Prod.mk.inj (Option.some.inj hshifted)
      rw [shiftPower_throughputHistory]
      exact throughputControl_throughputHistory hcontrolled
  · obtain ⟨rfl, -⟩ := Prod.mk.inj (Option.some.inj h)
    rfl

/-- A call whose two reads are inside the bounds is answered. -/
theorem exists_dynamicUfs_eq_some
    (hnewest : controlsThroughput opt g sample →
      vectorAt (observe opt g sample).throughputHistory (opt.history.toInt - 1) ≠ none)
    (holdest : controlsThroughput opt g sample →
      vectorAt (observe opt g sample).throughputHistory 0 ≠ none) :
    ∃ answer, dynamicUfs opt g sample = some answer := by
  by_cases hdecides : decides opt g sample
  · have hlength : (observe opt g sample).throughputHistory.length = sizeT opt.history := hdecides
    cases haverage : quotientLt (average (observe opt g sample).throughputHistory) 0 with
    | true =>
      simp only [observe] at hlength haverage
      simp only [dynamicUfs, hlength, if_true, haverage]
      exact ⟨_, rfl⟩
    | false =>
      obtain ⟨newest, hnewest⟩ := Option.ne_none_iff_exists'.mp (hnewest ⟨hdecides, haverage⟩)
      obtain ⟨oldest, holdest⟩ := Option.ne_none_iff_exists'.mp (holdest ⟨hdecides, haverage⟩)
      have hslope : derivative opt (observe opt g sample).throughputHistory =
          some (divide (newest - oldest) (timeInterval opt)) := by
        rw [derivative, hnewest, holdest]
        rfl
      have hcontrol := throughputControl_eq hslope
      simp only [observe] at hlength haverage hcontrol
      simp only [dynamicUfs, hlength, if_true, haverage, Bool.false_eq_true, if_false, hcontrol]
      exact ⟨_, rfl⟩
  · have hlength : ¬ (observe opt g sample).throughputHistory.length = sizeT opt.history := hdecides
    simp only [observe] at hlength
    simp only [dynamicUfs, hlength, if_false]
    exact ⟨_, rfl⟩

/-- A safe call is answered. -/
theorem SafeCall.exists_answer (h : SafeCall opt g sample) :
    ∃ answer, dynamicUfs opt g sample = some answer :=
  exists_dynamicUfs_eq_some h.newestIndex h.oldestIndex

/-- A call leaves the history that recording its sample gives. -/
theorem System.step_throughputHistory {sys after : System} {out : List Command}
    (h : System.step opt sys sample = some (after, out)) :
    after.globals.throughputHistory = (observe opt sys.globals sample).throughputHistory := by
  obtain ⟨⟨globals, commands⟩, hanswer, heq⟩ := Option.map_eq_some_iff.mp h
  obtain ⟨rfl, -⟩ := Prod.mk.inj heq
  exact dynamicUfs_throughputHistory hanswer

/-- If a property of the history makes every call safe and is kept by recording a sample, then every
run over such samples is safe. -/
theorem runSafe_of_invariant {Accepts : Sample → Prop} (Inv : List ℚ → Prop) (hinit : Inv [])
    (hsafe : ∀ g sample, Inv g.throughputHistory → Accepts sample → SafeCall opt g sample)
    (hkeeps : ∀ g sample, Inv g.throughputHistory → Accepts sample →
      Inv (observe opt g sample).throughputHistory)
    {samples : List Sample} (haccepts : ∀ sample ∈ samples, Accepts sample) :
    RunSafe opt samples := by
  have hstep : ∀ (sys : System) (sample : Sample) (after : System) (out : List Command),
      Inv sys.globals.throughputHistory → Accepts sample →
      System.step opt sys sample = some (after, out) → Inv after.globals.throughputHistory := by
    intro sys sample after out hsys hsample h
    rw [System.step_throughputHistory h]
    exact hkeeps _ _ hsys hsample
  obtain ⟨calls, hcalls⟩ : ∃ calls,
      runCalls (System.step opt) (mainThrowsStart opt) samples = some calls := runCalls_progress
    (fun sys => Inv sys.globals.throughputHistory) hinit
    (fun sys sample hsys hsample => by
      obtain ⟨answer, hanswer⟩ := (hsafe sys.globals sample hsys hsample).exists_answer
      exact ⟨_, by rw [System.step, hanswer, Option.map_some]⟩)
    hstep haccepts
  refine ⟨calls, hcalls, fun c hc => ?_⟩
  obtain ⟨hbefore, haccepted, -⟩ := runCalls_invariant
    (fun sys : System => Inv sys.globals.throughputHistory) hinit hstep haccepts hcalls hc
  exact hsafe _ _ hbefore haccepted

/-- Sliding a sample in keeps a window within its capacity. -/
theorem length_slide_le {A : Type*} {capacity : ℕ} {window : List A}
    (h : window.length ≤ capacity) (entry : A) :
    (slide capacity window entry).length ≤ capacity := by
  rw [slide, dropOldest]
  split
  · rw [List.length_tail, List.length_append, List.length_singleton]
    omega
  · omega

/-- With a window length of at least two every run is safe. -/
theorem runSafe_of_two_le (hopt : 2 ≤ opt.history.toInt) (samples : List Sample) :
    RunSafe opt samples := by
  have hsize := sizeT_eq hopt
  have haccepts : ∀ sample ∈ samples, True := fun _ _ => trivial
  have hkeeps : ∀ (g : Globals) (sample : Sample), g.throughputHistory.length ≤ sizeT opt.history →
      (observe opt g sample).throughputHistory.length ≤ sizeT opt.history :=
    fun g sample h => length_slide_le h sample.currentThroughput
  refine runSafe_of_invariant (fun history => history.length ≤ sizeT opt.history) (Nat.zero_le _)
    ?_ (fun g sample h _ => hkeeps g sample h) haccepts
  intro g sample hinv _
  have hlength := hkeeps g sample hinv
  exact {
    averageSize := by
      intro hdecides
      have hfull : (observe opt g sample).throughputHistory.length = sizeT opt.history := hdecides
      omega
    changeSize := by
      intro _ hwindow
      rw [windowSize] at hwindow
      omega
    newestIndex := by
      intro hcontrols
      have hfull : (observe opt g sample).throughputHistory.length = sizeT opt.history := hcontrols.1
      have hindex : opt.history.toInt - 1 = ((sizeT opt.history - 1 : ℕ) : ℤ) := by omega
      rw [hindex, vectorAt_eq_some (by omega)]
      exact Option.some_ne_none _
    oldestIndex := by
      intro hcontrols
      have hfull : (observe opt g sample).throughputHistory.length = sizeT opt.history := hcontrols.1
      have hread : vectorAt (observe opt g sample).throughputHistory (0 : ℕ) = some _ :=
        vectorAt_eq_some (by omega)
      rw [Nat.cast_zero] at hread
      rw [hread]
      exact Option.some_ne_none _
    interval := by
      intro _
      have hpos : (0 : ℚ) < (opt.history.toInt - 1 : ℤ) := by exact_mod_cast (by omega)
      exact mul_ne_zero (by norm_num) hpos.ne'
    length_le := by omega }

/-- A single sample in the window, and one is its length: the interval of a derivative is zero. -/
theorem timeInterval_of_one (hopt : opt.history.toInt = 1) : timeInterval opt = 0 := by
  rw [timeInterval, hopt]
  norm_num

/-- The size of a window of length one. -/
theorem sizeT_of_one {n : Int32} (hn : n.toInt = 1) : sizeT n = 1 := by
  rw [sizeT, hn]
  rfl

/-- In a window of length one every call finds its own sample only. -/
theorem observe_of_one (hopt : opt.history.toInt = 1)
    (hlength : g.throughputHistory.length ≤ 1) :
    (observe opt g sample).throughputHistory = [sample.currentThroughput] := by
  simp only [observe, recordThroughput, sizeT_of_one hopt, slide, dropOldest]
  cases hhistory : g.throughputHistory with
  | nil => rfl
  | cons oldest rest =>
    rw [hhistory, List.length_cons] at hlength
    rw [List.length_eq_zero_iff.mp (by omega : rest.length = 0)]
    rfl

/-- With a window length of one, a call goes on to the derivative exactly for a sample that is not
negative. -/
theorem controlsThroughput_of_one (hopt : opt.history.toInt = 1)
    (hlength : g.throughputHistory.length ≤ 1) :
    decides opt g sample ∧ (controlsThroughput opt g sample ↔ 0 ≤ sample.currentThroughput) := by
  have hdecides : decides opt g sample := by
    rw [decides, observe_of_one hopt hlength, sizeT_of_one hopt]
    rfl
  refine ⟨hdecides, ?_⟩
  rw [controlsThroughput, and_iff_right hdecides, observe_of_one hopt hlength]
  simp [average, divide, quotientLt]

/-- With a window length of one, a call is safe exactly for a negative sample. -/
theorem safeCall_of_one (hopt : opt.history.toInt = 1)
    (hlength : g.throughputHistory.length ≤ 1) :
    SafeCall opt g sample ↔ sample.currentThroughput < 0 := by
  have hcontrols : controlsThroughput opt g sample ↔ 0 ≤ sample.currentThroughput :=
    (controlsThroughput_of_one hopt hlength).2
  constructor
  · intro hsafe
    by_contra hnonneg
    exact hsafe.interval (hcontrols.mpr (not_lt.mp hnonneg)) (timeInterval_of_one hopt)
  · intro hnegative
    have hnot : ¬ controlsThroughput opt g sample := hcontrols.not.mpr (not_le.mpr hnegative)
    exact {
      averageSize := fun _ => by rw [observe_of_one hopt hlength]; exact one_ne_zero
      changeSize := fun h => absurd h hnot
      newestIndex := fun h => absurd h hnot
      oldestIndex := fun h => absurd h hnot
      interval := fun h => absurd h hnot
      length_le := by rw [observe_of_one hopt hlength, hopt]; exact le_rfl }

/-- With a window length of one, a run is safe exactly when all its samples are negative. -/
theorem runSafe_of_one (hopt : opt.history.toInt = 1) (samples : List Sample) :
    RunSafe opt samples ↔ ∀ sample ∈ samples, sample.currentThroughput < 0 := by
  have hkeeps : ∀ (g : Globals) (sample : Sample), g.throughputHistory.length ≤ 1 →
      (observe opt g sample).throughputHistory.length ≤ 1 := by
    intro g sample h
    rw [observe_of_one hopt h]
    exact le_rfl
  constructor
  · intro hsafe
    obtain ⟨calls, hcalls, hall⟩ := hsafe
    have haccepts : ∀ sample ∈ samples, True := fun _ _ => trivial
    have hshort : ∀ c ∈ calls, c.before.globals.throughputHistory.length ≤ 1 := by
      intro c hc
      refine (runCalls_invariant (fun sys : System => sys.globals.throughputHistory.length ≤ 1)
        (Nat.zero_le _) ?_ haccepts hcalls hc).1
      intro sys sample after out hsys _ h
      rw [System.step_throughputHistory h]
      exact hkeeps _ _ hsys
    rw [← runCalls_inputs hcalls, List.forall_mem_map]
    intro c hc
    exact (safeCall_of_one hopt (hshort c hc)).mp (hall c hc)
  · intro hnegative
    exact runSafe_of_invariant (fun history => history.length ≤ 1) (Nat.zero_le _)
      (fun g sample h hsample => (safeCall_of_one hopt h).mpr hsample)
      (fun g sample h _ => hkeeps g sample h) hnegative

/-- With a window length of zero no run with a sample is safe: the window is empty when its average
is taken. -/
theorem not_runSafe_of_zero (hopt : opt.history.toInt = 0) {samples : List Sample}
    (hsamples : samples ≠ []) : ¬ RunSafe opt samples := by
  intro hsafe
  obtain ⟨sample, rest, rfl⟩ := List.exists_cons_of_ne_nil hsamples
  obtain ⟨calls, hcalls, hall⟩ := hsafe
  obtain ⟨answer, -, hrest⟩ := Option.bind_eq_some_iff.mp hcalls
  obtain ⟨tail, -, rfl⟩ := Option.map_eq_some_iff.mp hrest
  have hfirst := hall _ List.mem_cons_self
  have hsize : sizeT opt.history = 0 := by
    rw [sizeT, hopt]
    rfl
  have hempty : (observe opt (mainThrowsStart opt).globals sample).throughputHistory = [] := by
    simp [observe, recordThroughput, mainThrowsStart, initialGlobals, slide, dropOldest, hsize]
  have hdecides : decides opt (mainThrowsStart opt).globals sample := by
    rw [decides, hempty, hsize]
    rfl
  exact hfirst.averageSize hdecides (congrArg List.length hempty)

/-- A negative window length is a size of more than two entries. -/
theorem two_lt_sizeT_of_neg {n : Int32} (hn : n.toInt < 0) : 2 < sizeT n := by
  have hmin := n.le_toInt
  have hsize : n.toInt % 2 ^ 64 = n.toInt + 2 ^ 64 := by omega
  rw [sizeT, hsize]
  omega

/-- Below its size the window only grows, and no decision is due. -/
theorem observe_of_short (h : g.throughputHistory.length + 1 < sizeT opt.history) :
    (observe opt g sample).throughputHistory = g.throughputHistory ++ [sample.currentThroughput] ∧
      ¬ decides opt g sample := by
  have hlength : (g.throughputHistory ++ [sample.currentThroughput]).length < sizeT opt.history := by
    rwa [List.length_append, List.length_singleton]
  have hgrows : (observe opt g sample).throughputHistory =
      g.throughputHistory ++ [sample.currentThroughput] := if_neg hlength.le.not_gt
  refine ⟨hgrows, ?_⟩
  rw [decides, hgrows]
  exact hlength.ne

/-- A call that only records its sample as the first one is safe. -/
theorem safeCall_of_short (h : g.throughputHistory.length + 1 < sizeT opt.history)
    (hempty : g.throughputHistory = []) : SafeCall opt g sample := by
  obtain ⟨hhistory, hnot⟩ : (observe opt g sample).throughputHistory =
      g.throughputHistory ++ [sample.currentThroughput] ∧ ¬ decides opt g sample := observe_of_short h
  exact {
    averageSize := fun h => absurd h hnot
    changeSize := fun h => absurd h.1 hnot
    newestIndex := fun h => absurd h.1 hnot
    oldestIndex := fun h => absurd h.1 hnot
    interval := fun h => absurd h.1 hnot
    length_le := by
      rw [hhistory, hempty]
      exact le_max_right _ _ }

/-- A run of at most one sample is safe if its first call is. -/
theorem runSafe_of_first {samples : List Sample}
    (hsafe : ∀ sample, SafeCall opt (mainThrowsStart opt).globals sample) (hshort : samples.length ≤ 1) :
    RunSafe opt samples := by
  rcases samples with _ | ⟨sample, _ | ⟨second, rest⟩⟩
  · exact ⟨[], rfl, fun c hc => absurd hc List.not_mem_nil⟩
  · obtain ⟨answer, hanswer⟩ := (hsafe sample).exists_answer
    refine ⟨_, by
      rw [controllerRun, controllerRunFrom, runCalls, System.step, hanswer]
      rfl, ?_⟩
    intro c hc
    rw [List.mem_singleton.mp hc]
    exact hsafe sample
  · exact absurd hshort (by simp)

/-- With a negative window length, a run is safe exactly up to its first sample. -/
theorem runSafe_of_neg (hopt : opt.history.toInt < 0) (samples : List Sample) :
    RunSafe opt samples ↔ samples.length ≤ 1 := by
  have hsize := two_lt_sizeT_of_neg hopt
  have hstart : (mainThrowsStart opt).globals.throughputHistory.length + 1 < sizeT opt.history := by
    change 0 + 1 < _
    omega
  constructor
  · intro hsafe
    by_contra hlong
    obtain ⟨calls, hcalls, hall⟩ := hsafe
    rcases samples with _ | ⟨first, _ | ⟨second, rest⟩⟩
    · exact hlong (Nat.zero_le 1)
    · exact hlong le_rfl
    · obtain ⟨⟨sys, out⟩, hfirst, hrest⟩ := Option.bind_eq_some_iff.mp hcalls
      obtain ⟨tail, htail, rfl⟩ := Option.map_eq_some_iff.mp hrest
      obtain ⟨answer, -, hrest'⟩ := Option.bind_eq_some_iff.mp htail
      obtain ⟨tail', -, rfl⟩ := Option.map_eq_some_iff.mp hrest'
      have hhistory : sys.globals.throughputHistory = [first.currentThroughput] :=
        (System.step_throughputHistory hfirst).trans (observe_of_short hstart).1
      have hgrown : (observe opt sys.globals second).throughputHistory =
          sys.globals.throughputHistory ++ [second.currentThroughput] :=
        (observe_of_short (by rw [hhistory]; exact hsize)).1
      have hlength := (hall _ (List.mem_cons_of_mem _ List.mem_cons_self)).length_le
      simp only [hgrown, hhistory] at hlength
      rw [max_eq_right (by omega)] at hlength
      norm_num at hlength
  · intro hshort
    refine runSafe_of_first ?_ hshort
    exact fun sample => safeCall_of_short hstart rfl

/-- A run is safe exactly when its window length can be used for its samples. -/
theorem runSafe_iff_windowUsable (opt : Options) (samples : List Sample) :
    RunSafe opt samples ↔ WindowUsable opt samples := by
  rcases eq_or_ne samples [] with rfl | hsamples
  · exact ⟨fun _ => Or.inr (Or.inl rfl),
      fun _ => ⟨[], rfl, fun c hc => absurd hc List.not_mem_nil⟩⟩
  rw [WindowUsable, or_iff_right (a := samples = []) hsamples]
  have hcases : opt.history.toInt < 0 ∨ opt.history.toInt = 0 ∨ opt.history.toInt = 1 ∨
      2 ≤ opt.history.toInt := by omega
  rcases hcases with hneg | hzero | hone | htwo
  · rw [runSafe_of_neg hneg]
    omega
  · have hunsafe := not_runSafe_of_zero hzero hsamples
    constructor
    · intro hsafe
      exact absurd hsafe hunsafe
    · intro husable
      omega
  · rw [runSafe_of_one hone]
    constructor
    · intro hnegative
      exact Or.inr (Or.inl ⟨hone, hnegative⟩)
    · intro husable
      rcases husable with h | ⟨-, hnegative⟩ | h
      · omega
      · exact hnegative
      · omega
  · exact ⟨fun _ => Or.inl htwo, fun _ => runSafe_of_two_le htwo samples⟩

/-- With the default window length, the derivative of the first sample is divided by zero. -/
theorem runSafe_fails_by_default :
    ¬ ∀ (opt : Options) (samples : List Sample), RunSafe opt samples := by
  intro hevery
  have hone : defaultOptions.history.toInt = 1 := by decide
  have hsafe := (runSafe_of_one hone [⟨100, 50⟩]).mp
    (hevery defaultOptions [⟨100, 50⟩])
  have hnegative := hsafe ⟨100, 50⟩ (List.mem_singleton_self _)
  norm_num [Sample.currentThroughput] at hnegative

end NodePower
