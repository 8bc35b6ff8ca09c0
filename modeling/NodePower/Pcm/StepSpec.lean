import Mathlib.Algebra.Order.BigOperators.Group.List
import Mathlib.Data.List.GetD
import NodePower.Pcm.Controller
import NodePower.Pcm.Supervisor

/-!
# What one call of the controller does

With a window length of at least two and nonnegative samples, a call never reads outside
the history and never takes the branch for a negative average. It then is the recording of
its sample, and once the history is full a supervised step of the two flags, with the
commands that belong to the edge of the level, followed by the power shift.

Everything later that is proved about runs rests on this one description of a call.
-/

namespace NodePower

/-- The state in which a call takes its decisions: its sample has been recorded. -/
def observe (opt : Options) (g : Globals) (sample : Sample) : Globals :=
  recordThroughput opt g sample.currentThroughput

/-- The history is full once the sample of the call has been recorded. -/
def decides (opt : Options) (g : Globals) (sample : Sample) : Prop :=
  (observe opt g sample).throughputHistory.length = sizeT opt.history

instance (opt : Options) (g : Globals) (sample : Sample) : Decidable (decides opt g sample) :=
  inferInstanceAs (Decidable (_ = _))

/-- The two flags as the supervisor sees them. -/
def Globals.mode (g : Globals) : Mode := ⟨g.expectCurrentMaxUncore, g.highUncore⟩

/-- The branch that the throughput logic takes on a recorded state. -/
def throughputDecision (opt : Options) (g : Globals) : Decision :=
  match derivative opt g.throughputHistory with
  | none => .stay
  | some slope =>
    if memIncrease opt g slope then .increase
    else if memDecrease opt g slope then .decrease
    else .stay

/-- The flags after a deciding call. -/
def supervisedMode (opt : Options) (g : Globals) : Mode :=
  g.mode.supervise (findsBurst opt g) (throughputDecision opt g)

/-- The state after burst check and decision. -/
def supervised (opt : Options) (g : Globals) : Globals :=
  { g with
    expectCurrentMaxUncore := (supervisedMode opt g).expectation
    highUncore := (supervisedMode opt g).high
    uncoreChangeWindow := slide windowSize g.uncoreChangeWindow (throughputDecision opt g).flip }

/-- The uncore command that belongs to a change of the level. -/
def levelCommands (opt : Options) (g : Globals) : Option Bool → List Command
  | none => []
  | some true => [raiseCommand opt g]
  | some false => [lowerCommand g]

/-- The uncore commands of a deciding call. -/
def supervisedCommands (opt : Options) (g : Globals) : List Command :=
  levelCommands opt g (edge g.highUncore (supervisedMode opt g).high)

/-- One call as a supervised step. -/
def answer (opt : Options) (g : Globals) (sample : Sample) : Globals × List Command :=
  let observed := observe opt g sample
  if decides opt g sample then
    let shifted := shiftPower opt (supervised opt observed)
    (shifted.1, supervisedCommands opt observed ++ shifted.2)
  else (observed, [])

/-- Writing the present value of the level changes nothing. -/
theorem withHighUncore_self {g : Globals} {high : Bool} (h : g.highUncore = high) :
    { g with highUncore := high } = g := by
  subst h
  rfl

/-- The burst check reports the burst and forces the level high in one. -/
theorem checkBurst_eq (opt : Options) (g : Globals) :
    checkBurst opt false g =
      (findsBurst opt g, { g with highUncore := findsBurst opt g || g.highUncore },
        levelCommands opt g (edge g.highUncore (findsBurst opt g || g.highUncore))) := by
  cases hburst : findsBurst opt g with
  | false => simp [checkBurst, hburst, levelCommands]
  | true =>
    cases hhigh : g.highUncore with
    | false => simp [checkBurst, hburst, hhigh, levelCommands, edge]
    | true => simp [checkBurst, hburst, hhigh, levelCommands, withHighUncore_self hhigh]

/-- The decision governs the expectation, and outside a burst also the level. -/
theorem memDecision_eq {opt : Options} {g : Globals} {slope : Option ℚ} (burstStatus : Bool)
    (hslope : derivative opt g.throughputHistory = some slope) :
    memDecision opt burstStatus slope g =
      let high := bif burstStatus then g.highUncore else (throughputDecision opt g).govern g.highUncore
      ({ g with
          expectCurrentMaxUncore := (throughputDecision opt g).govern g.expectCurrentMaxUncore
          highUncore := high
          uncoreChangeWindow := g.uncoreChangeWindow ++ [(throughputDecision opt g).flip] },
        levelCommands opt g (edge g.highUncore high)) := by
  simp only [throughputDecision, hslope, memDecision]
  by_cases hincrease : memIncrease opt g slope = true
  · cases burstStatus <;> cases hhigh : g.highUncore <;>
      simp [hincrease, Decision.govern, Decision.flip, levelCommands, edge, raiseCommand]
  · by_cases hdecrease : memDecrease opt g slope = true
    · cases burstStatus <;> cases hhigh : g.highUncore <;>
        simp [hincrease, hdecrease, Decision.govern, Decision.flip, levelCommands, edge,
          lowerCommand]
    · cases burstStatus <;>
        simp [hincrease, hdecrease, Decision.govern, Decision.flip, levelCommands]

/-- Burst check and decision together are one supervised step, and their commands are those of
the edge of the level. -/
theorem throughputControl_eq {opt : Options} {g : Globals} {slope : Option ℚ}
    (hslope : derivative opt g.throughputHistory = some slope) :
    throughputControl opt g = some (supervised opt g, supervisedCommands opt g) := by
  have hdecision : throughputDecision opt { g with highUncore := findsBurst opt g || g.highUncore } =
      throughputDecision opt g := rfl
  simp only [throughputControl, checkBurst_eq, hslope, Option.bind_eq_bind, Option.bind_some,
    memDecision_eq (g := { g with highUncore := findsBurst opt g || g.highUncore }) _ hslope, hdecision]
  cases hburst : findsBurst opt g with
  | false =>
    simp [supervised, supervisedCommands, supervisedMode, Mode.supervise, Globals.mode, hburst,
      slide, levelCommands]
  | true =>
    simp [supervised, supervisedCommands, supervisedMode, Mode.supervise, Globals.mode, hburst,
      slide, levelCommands]

/-- An index inside its bounds is read. -/
theorem vectorAt_eq_some {xs : List ℚ} {n : ℕ} (h : n < xs.length) :
    vectorAt xs (n : ℤ) = some xs[n] := by
  rw [vectorAt, if_neg (by omega), Int.toNat_natCast, List.getElem?_eq_getElem h]

/-- A window length of at least two is converted to `size_t` unchanged. -/
theorem sizeT_eq {n : Int32} (h : 2 ≤ n.toInt) : (sizeT n : ℤ) = n.toInt := by
  have hmax := n.toInt_lt
  rw [sizeT, Int.toNat_of_nonneg (Int.emod_nonneg _ (by norm_num))]
  exact Int.emod_eq_of_lt (by omega) (by omega)

/-- A full history of at least two samples has a slope, and a tenth of it is the increase of the
throughput per sample period. -/
theorem derivative_eq {opt : Options} {hist : List ℚ} (hopt : 2 ≤ opt.history.toInt)
    (hfull : hist.length = sizeT opt.history) :
    ∃ slope : ℚ, derivative opt hist = some (some slope) ∧
      slope / 10 = (hist.getD (hist.length - 1) 0 - hist.getD 0 0) / (opt.history.toInt - 1 : ℤ) := by
  have hsize := sizeT_eq hopt
  have hfirst : 0 < hist.length := by omega
  have hlast : hist.length - 1 < hist.length := by omega
  have hindex : opt.history.toInt - 1 = ((hist.length - 1 : ℕ) : ℤ) := by omega
  have hpos : (0 : ℚ) < (opt.history.toInt - 1 : ℤ) := by exact_mod_cast (by omega)
  have hinterval : timeInterval opt ≠ 0 := mul_ne_zero (by norm_num) hpos.ne'
  have hnewest : vectorAt hist (opt.history.toInt - 1) = some (hist.getD (hist.length - 1) 0) := by
    rw [hindex, vectorAt_eq_some hlast, List.getD_eq_getElem _ _ hlast]
  have holdest : vectorAt hist 0 = some (hist.getD 0 0) := by
    rw [List.getD_eq_getElem _ _ hfirst]
    exact vectorAt_eq_some (n := 0) hfirst
  refine ⟨(hist.getD (hist.length - 1) 0 - hist.getD 0 0) / timeInterval opt, ?_, ?_⟩
  · simp only [derivative, hnewest, holdest, Option.bind_eq_bind, Option.bind_some, divide,
      if_neg hinterval]
    rfl
  · rw [timeInterval]
    field_simp

/-- With a slope at hand, the decision compares a tenth of it with the two thresholds. -/
theorem throughputDecision_eq {opt : Options} {g : Globals} {slope : ℚ}
    (hslope : derivative opt g.throughputHistory = some (some slope)) :
    throughputDecision opt g =
      if g.expectCurrentMaxUncore = false ∧ opt.incTs < slope / 10 then .increase
      else if g.expectCurrentMaxUncore = true ∧ slope / 10 < -opt.decTs then .decrease
      else .stay := by
  simp only [throughputDecision, hslope, memIncrease, memDecrease, quotientGt, quotientLt,
    Option.map_some, Option.any_some, Bool.and_eq_true, Bool.not_eq_true', decide_eq_true_eq,
    and_comm]

/-- The average of nonnegative numbers is not below zero. -/
theorem quotientLt_average_zero {xs : List ℚ} (h : ∀ x ∈ xs, 0 ≤ x) :
    quotientLt (average xs) 0 = false := by
  rw [average, divide]
  split
  · rfl
  · have hsum : 0 ≤ xs.sum / xs.length := div_nonneg (List.sum_nonneg h) (Nat.cast_nonneg _)
    simp [quotientLt, hsum]

/-- Recording a nonnegative sample keeps the history nonnegative. -/
theorem observe_nonneg (opt : Options) {g : Globals} {sample : Sample}
    (hnonneg : ∀ x ∈ g.throughputHistory, 0 ≤ x) (hsample : 0 ≤ sample.currentThroughput) :
    ∀ x ∈ (observe opt g sample).throughputHistory, 0 ≤ x := by
  intro x hx
  rcases mem_slide hx with hold | rfl
  · exact hnonneg x hold
  · exact hsample

/-- With nonnegative samples and a window of at least two, every call is answered, and its answer
is that of the supervised step. -/
theorem dynamicUfs_eq_answer {opt : Options} {g : Globals} {sample : Sample}
    (hopt : 2 ≤ opt.history.toInt) (hnonneg : ∀ x ∈ g.throughputHistory, 0 ≤ x)
    (hsample : 0 ≤ sample.currentThroughput) :
    dynamicUfs opt g sample = some (answer opt g sample) := by
  by_cases hdecides : decides opt g sample
  · obtain ⟨slope, hslope, -⟩ := derivative_eq hopt hdecides
    have havg := quotientLt_average_zero (observe_nonneg opt hnonneg hsample)
    have hlength : (observe opt g sample).throughputHistory.length = sizeT opt.history := hdecides
    simp only [observe] at havg hlength hslope
    simp only [dynamicUfs, answer, if_pos hdecides, observe, hlength, havg, if_true,
      Bool.false_eq_true, if_false, throughputControl_eq hslope, Option.bind_eq_bind, Option.bind_some]
    rfl
  · have hlength : ¬ (observe opt g sample).throughputHistory.length = sizeT opt.history := hdecides
    simp only [observe] at hlength
    simp only [dynamicUfs, answer, if_neg hdecides, observe, hlength, if_false]
    rfl

end NodePower
