import Mathlib.Data.List.Induction
import Mathlib.Data.List.Infix

/-!
# Traces of partial reactive machines

A machine answers one input with a next state and the commands it issued, or has no
answer when the program it stands for would leave defined behaviour. Running it over a
list of inputs keeps every call, with the state on both sides, so that properties of
whole runs speak about the calls themselves.

The induction rule extends a trace at its end. Invariants, progress and statements about
an initial segment of a run are consequences of that rule and of splitting a trace.
-/

namespace NodePower

variable {S I O : Type*}

/-- One answered call: the states around it, its input, and the commands it issued. -/
structure Call (S I O : Type*) where
  before : S
  input : I
  after : S
  output : List O

/-- Run a machine over its inputs in order, keeping every call. -/
def runCalls (step : S → I → Option (S × List O)) : S → List I → Option (List (Call S I O))
  | _, [] => some []
  | s, i :: rest =>
    (step s i).bind fun answer =>
      (runCalls step answer.1 rest).map (List.cons ⟨s, i, answer.1, answer.2⟩)

/-- The state in which a trace that started in `s` ends. -/
def finalState (s : S) : List (Call S I O) → S
  | [] => s
  | c :: rest => finalState c.after rest

/-- All commands of a trace in the order of issue. -/
def commandsOf (calls : List (Call S I O)) : List O :=
  calls.flatMap Call.output

/-- Appending a call moves the final state to the state after it. -/
@[simp] theorem finalState_concat (s : S) (calls : List (Call S I O)) (c : Call S I O) :
    finalState s (calls ++ [c]) = c.after := by
  induction calls generalizing s with
  | nil => rfl
  | cons d rest ih => exact ih d.after

/-- The commands of a longer trace are those of its two parts in order. -/
@[simp] theorem commandsOf_append (left right : List (Call S I O)) :
    commandsOf (left ++ right) = commandsOf left ++ commandsOf right :=
  List.flatMap_append

/-- A one-call trace issues exactly the commands of that call. -/
@[simp] theorem commandsOf_singleton (c : Call S I O) : commandsOf [c] = c.output := by
  simp [commandsOf]

variable {step : S → I → Option (S × List O)}

/-- Running over one input list after another runs the second from where the first ended. -/
theorem runCalls_append (s : S) (first second : List I) :
    runCalls step s (first ++ second) =
      (runCalls step s first).bind fun calls =>
        (runCalls step (finalState s calls) second).map (calls ++ ·) := by
  induction first generalizing s with
  | nil => simp [runCalls, finalState]
  | cons i rest ih =>
    simp only [List.cons_append, runCalls]
    cases hstep : step s i with
    | none => rfl
    | some answer =>
      simp only [Option.bind_some, ih, Option.bind_map, Option.map_bind]
      congr 1
      funext calls
      simp [finalState, Function.comp_def]

/-- A run over one more input is a run over the earlier ones followed by one answered call. -/
theorem runCalls_concat_eq_some {s : S} {inputs : List I} {i : I} {calls : List (Call S I O)}
    (h : runCalls step s (inputs ++ [i]) = some calls) :
    ∃ earlier answer, runCalls step s inputs = some earlier ∧
      step (finalState s earlier) i = some answer ∧
      calls = earlier ++ [⟨finalState s earlier, i, answer.1, answer.2⟩] := by
  rw [runCalls_append, Option.bind_eq_some_iff] at h
  obtain ⟨earlier, hearlier, h⟩ := h
  obtain ⟨last, hlast, rfl⟩ := Option.map_eq_some_iff.mp h
  obtain ⟨answer, hanswer, hlast⟩ := Option.bind_eq_some_iff.mp hlast
  simp only [runCalls, Option.map_some, Option.some.injEq] at hlast
  subst hlast
  exact ⟨earlier, answer, hearlier, hanswer, rfl⟩

/-- One more answered input extends a run. -/
theorem runCalls_concat {s : S} {inputs : List I} {calls : List (Call S I O)}
    (hrun : runCalls step s inputs = some calls) {i : I} {next : S} {out : List O}
    (hstep : step (finalState s calls) i = some (next, out)) :
    runCalls step s (inputs ++ [i]) = some (calls ++ [⟨finalState s calls, i, next, out⟩]) := by
  rw [runCalls_append, hrun, Option.bind_some]
  simp [runCalls, hstep]

/-- Induction along a run, one answered call at a time and with the trace so far in view. -/
theorem runCalls_induction {s : S} {Accepts : I → Prop} (motive : List (Call S I O) → S → Prop)
    (start : motive [] s)
    (extend : ∀ calls t i u out, motive calls t → Accepts i → step t i = some (u, out) →
      motive (calls ++ [⟨t, i, u, out⟩]) u)
    {inputs : List I} (haccepts : ∀ i ∈ inputs, Accepts i)
    {calls : List (Call S I O)} (hrun : runCalls step s inputs = some calls) :
    motive calls (finalState s calls) := by
  induction inputs using List.reverseRecOn generalizing calls with
  | nil =>
    simp only [runCalls, Option.some.injEq] at hrun
    subst hrun
    exact start
  | append_singleton rest i ih =>
    obtain ⟨earlier, answer, hearlier, hanswer, rfl⟩ := runCalls_concat_eq_some hrun
    have hi : Accepts i := haccepts i (by simp)
    have hprevious := ih (fun j hj => haccepts j (by simp [hj])) hearlier
    simpa using extend earlier _ i _ _ hprevious hi hanswer

/-- The calls of a run answer exactly the given inputs, in order. -/
theorem runCalls_inputs {s : S} {inputs : List I} {calls : List (Call S I O)}
    (hrun : runCalls step s inputs = some calls) : calls.map Call.input = inputs := by
  induction inputs using List.reverseRecOn generalizing calls with
  | nil =>
    simp only [runCalls, Option.some.injEq] at hrun
    subst hrun
    rfl
  | append_singleton rest i ih =>
    obtain ⟨earlier, answer, hearlier, -, rfl⟩ := runCalls_concat_eq_some hrun
    simp [ih hearlier]

/-- A machine that answers every accepted input in every invariant state never gets stuck. -/
theorem runCalls_progress {s : S} {Accepts : I → Prop} (Inv : S → Prop) (hinit : Inv s)
    (hanswers : ∀ t i, Inv t → Accepts i → ∃ answer, step t i = some answer)
    (hkeeps : ∀ t i u out, Inv t → Accepts i → step t i = some (u, out) → Inv u)
    {inputs : List I} (haccepts : ∀ i ∈ inputs, Accepts i) :
    ∃ calls, runCalls step s inputs = some calls := by
  induction inputs generalizing s with
  | nil => exact ⟨[], rfl⟩
  | cons i rest ih =>
    have hi : Accepts i := haccepts i (by simp)
    obtain ⟨⟨u, out⟩, hstep⟩ := hanswers s i hinit hi
    obtain ⟨calls, hcalls⟩ := ih (hkeeps s i u out hinit hi hstep)
      fun j hj => haccepts j (by simp [hj])
    exact ⟨⟨s, i, u, out⟩ :: calls, by simp [runCalls, hstep, hcalls]⟩

/-- A trace splits at any position into the run that leads there and the run from there on. -/
theorem runCalls_split {s : S} {inputs : List I} {first second : List (Call S I O)}
    (hrun : runCalls step s inputs = some (first ++ second)) :
    runCalls step s (first.map Call.input) = some first ∧
      runCalls step (finalState s first) (second.map Call.input) = some second := by
  induction first generalizing s inputs with
  | nil =>
    refine ⟨rfl, ?_⟩
    have hinputs := runCalls_inputs hrun
    simp only [List.nil_append] at hinputs hrun
    rw [hinputs]
    exact hrun
  | cons c rest ih =>
    cases inputs with
    | nil => simp [runCalls] at hrun
    | cons i inputs =>
      obtain ⟨answer, hanswer, hrest⟩ := Option.bind_eq_some_iff.mp hrun
      obtain ⟨tail, htail, heq⟩ := Option.map_eq_some_iff.mp hrest
      simp only [List.cons_append, List.cons.injEq] at heq
      obtain ⟨rfl, rfl⟩ := heq
      obtain ⟨hfirst, hsecond⟩ := ih htail
      exact ⟨by simp [runCalls, hanswer, hfirst], hsecond⟩

/-- A call of a run starts where the calls before it ended and is answered by the machine. -/
theorem runCalls_call {s : S} {inputs : List I} {earlier later : List (Call S I O)}
    {c : Call S I O} (hrun : runCalls step s inputs = some (earlier ++ c :: later)) :
    c.before = finalState s earlier ∧ step c.before c.input = some (c.after, c.output) := by
  obtain ⟨answer, hanswer, hrest⟩ := Option.bind_eq_some_iff.mp (runCalls_split hrun).2
  obtain ⟨tail, -, heq⟩ := Option.map_eq_some_iff.mp hrest
  obtain ⟨hcall, -⟩ := List.cons.inj heq
  rw [← hcall]
  exact ⟨rfl, hanswer⟩

/-- The run up to a call is a run over the inputs up to there, and the call starts where it ended. -/
theorem runCalls_take {s : S} {inputs : List I} {calls : List (Call S I O)}
    (hrun : runCalls step s inputs = some calls) {n : ℕ} (hn : n < calls.length) :
    runCalls step s (inputs.take n) = some (calls.take n) ∧
      calls[n].before = finalState s (calls.take n) ∧
      step calls[n].before calls[n].input = some (calls[n].after, calls[n].output) := by
  have hsplit : calls = calls.take n ++ calls[n] :: calls.drop (n + 1) := by
    rw [List.getElem_cons_drop, List.take_append_drop]
  have hinputs : inputs.take n = (calls.take n).map Call.input := by
    rw [← runCalls_inputs hrun, List.map_take]
  rw [hsplit] at hrun
  exact ⟨hinputs ▸ (runCalls_split hrun).1, runCalls_call hrun⟩

/-- An invariant of accepted calls holds on both sides of every call of a run. -/
theorem runCalls_invariant {s : S} {Accepts : I → Prop} (Inv : S → Prop) (hinit : Inv s)
    (hkeeps : ∀ t i u out, Inv t → Accepts i → step t i = some (u, out) → Inv u)
    {inputs : List I} (haccepts : ∀ i ∈ inputs, Accepts i)
    {calls : List (Call S I O)} (hrun : runCalls step s inputs = some calls)
    {c : Call S I O} (hc : c ∈ calls) : Inv c.before ∧ Accepts c.input ∧ Inv c.after := by
  obtain ⟨earlier, later, rfl⟩ := List.append_of_mem hc
  have hinputs := runCalls_inputs hrun
  have haccepted : ∀ d ∈ earlier ++ c :: later, Accepts d.input := fun d hd =>
    haccepts _ (hinputs ▸ List.mem_map_of_mem hd)
  obtain ⟨hbefore, hstep⟩ := runCalls_call hrun
  have hinv : Inv (finalState s earlier) := by
    refine runCalls_induction (fun _ t => Inv t) hinit
      (fun _ t i u out ht hi hstep => hkeeps t i u out ht hi hstep) ?_ (runCalls_split hrun).1
    intro i hi
    obtain ⟨d, hd, rfl⟩ := List.mem_map.mp hi
    exact haccepted d (by simp [hd])
  rw [← hbefore] at hinv
  have hinput := haccepted c (by simp)
  exact ⟨hinv, hinput, hkeeps _ _ _ _ hinv hinput hstep⟩

/-- In a run whose calls all meet a condition on what they start from, a property of every call
follows from an invariant that such calls keep. -/
theorem runCalls_guarded {s : S} {Guard : S → I → Prop} {P : Call S I O → Prop} (Inv : S → Prop)
    (hinit : Inv s)
    (hkeeps : ∀ t i u out, Inv t → Guard t i → step t i = some (u, out) → Inv u ∧ P ⟨t, i, u, out⟩)
    {inputs : List I} {calls : List (Call S I O)} (hrun : runCalls step s inputs = some calls)
    (hguard : ∀ c ∈ calls, Guard c.before c.input) : ∀ c ∈ calls, P c := by
  induction inputs generalizing s calls with
  | nil =>
    obtain rfl := Option.some.inj hrun
    intro c hc
    exact absurd hc List.not_mem_nil
  | cons i rest ih =>
    obtain ⟨⟨u, out⟩, hstep, hrest⟩ := Option.bind_eq_some_iff.mp hrun
    obtain ⟨tail, htail, rfl⟩ := Option.map_eq_some_iff.mp hrest
    obtain ⟨hinv, hfirst⟩ := hkeeps s i u out hinit (hguard _ List.mem_cons_self) hstep
    intro c hc
    rcases List.mem_cons.mp hc with rfl | hc
    · exact hfirst
    · exact ih hinv htail (fun d hd => hguard d (List.mem_cons_of_mem _ hd)) c hc

/-- Run a machine that answers every input. -/
def totalCalls (answer : S → I → S × List O) : S → List I → List (Call S I O)
  | _, [] => []
  | s, i :: rest => ⟨s, i, (answer s i).1, (answer s i).2⟩ :: totalCalls answer (answer s i).1 rest

/-- A machine that answers every input has a run over all inputs. -/
theorem runCalls_total (answer : S → I → S × List O) (s : S) (inputs : List I) :
    runCalls (fun t i => some (answer t i)) s inputs = some (totalCalls answer s inputs) := by
  induction inputs generalizing s with
  | nil => rfl
  | cons i rest ih => simp [runCalls, totalCalls, ih]

/-- A total run has one call for each input. -/
theorem length_totalCalls (answer : S → I → S × List O) (s : S) (inputs : List I) :
    (totalCalls answer s inputs).length = inputs.length := by
  have hinputs := congrArg List.length (runCalls_inputs (runCalls_total answer s inputs))
  rwa [List.length_map] at hinputs

/-- What holds at the start and is kept by every further call holds at every call of a total run,
of the calls up to there and the state after them. -/
theorem totalCalls_induction {answer : S → I → S × List O} {s : S}
    (motive : List (Call S I O) → S → Prop) (start : motive [] s)
    (extend : ∀ calls (c : Call S I O), motive calls c.before →
      answer c.before c.input = (c.after, c.output) → motive (calls ++ [c]) c.after)
    (inputs : List I) {n : ℕ} (hn : n < (totalCalls answer s inputs).length) :
    answer (totalCalls answer s inputs)[n].before (totalCalls answer s inputs)[n].input =
        ((totalCalls answer s inputs)[n].after, (totalCalls answer s inputs)[n].output) ∧
      motive ((totalCalls answer s inputs).take (n + 1)) (totalCalls answer s inputs)[n].after := by
  obtain ⟨htake, hbefore, hstep⟩ := runCalls_take (runCalls_total answer s inputs) hn
  have hanswer := Option.some.inj hstep
  have haccepts : ∀ i ∈ inputs.take n, True := fun _ _ => trivial
  have hearlier := runCalls_induction motive start
    (fun calls t i u out hcalls _ h => extend calls ⟨t, i, u, out⟩ hcalls (Option.some.inj h))
    haccepts htake
  rw [← hbefore] at hearlier
  refine ⟨hanswer, ?_⟩
  rw [List.take_succ_eq_append_getElem hn]
  exact extend _ _ hearlier hanswer

/-- The state in which a machine that answers every input ends. -/
def stateAfter (answer : S → I → S × List O) (s : S) (inputs : List I) : S :=
  finalState s (totalCalls answer s inputs)

/-- Without inputs the machine stays where it is. -/
@[simp] theorem stateAfter_nil (answer : S → I → S × List O) (s : S) :
    stateAfter answer s [] = s := rfl

/-- The first input moves the machine, and the rest is answered from there. -/
@[simp] theorem stateAfter_cons (answer : S → I → S × List O) (s : S) (i : I) (rest : List I) :
    stateAfter answer s (i :: rest) = stateAfter answer (answer s i).1 rest := rfl

/-- Answering two input lists in a row ends where the second one ends. -/
theorem stateAfter_append (answer : S → I → S × List O) (s : S) (first second : List I) :
    stateAfter answer s (first ++ second) = stateAfter answer (stateAfter answer s first) second := by
  induction first generalizing s with
  | nil => rfl
  | cons i rest ih => exact ih (answer s i).1

/-- One more input adds one call to a total run. -/
theorem totalCalls_concat (answer : S → I → S × List O) (s : S) (inputs : List I) (i : I) :
    totalCalls answer s (inputs ++ [i]) = totalCalls answer s inputs ++
      [⟨stateAfter answer s inputs, i, (answer (stateAfter answer s inputs) i).1,
        (answer (stateAfter answer s inputs) i).2⟩] := by
  induction inputs generalizing s with
  | nil => rfl
  | cons j rest ih => simp [totalCalls, ih]

/-- What holds at the start and is kept by every further call holds at the end of a total run, of
all its calls and the state it ends in. -/
theorem totalCalls_final_induction {answer : S → I → S × List O} {s : S}
    (motive : List (Call S I O) → S → Prop) (start : motive [] s)
    (extend : ∀ calls (c : Call S I O), motive calls c.before →
      answer c.before c.input = (c.after, c.output) → motive (calls ++ [c]) c.after)
    (inputs : List I) : motive (totalCalls answer s inputs) (stateAfter answer s inputs) := by
  have haccepts : ∀ i ∈ inputs, True := fun _ _ => trivial
  exact runCalls_induction motive start
    (fun calls t i u out hcalls _ h => extend calls ⟨t, i, u, out⟩ hcalls (Option.some.inj h))
    haccepts (runCalls_total answer s inputs)

/-- An invariant that every accepted input keeps holds at the end of a total run. -/
theorem stateAfter_invariant {answer : S → I → S × List O} {s : S} {Accepts : I → Prop}
    (Inv : S → Prop) (hinit : Inv s) (hkeeps : ∀ t i, Inv t → Accepts i → Inv (answer t i).1)
    {inputs : List I} (haccepts : ∀ i ∈ inputs, Accepts i) : Inv (stateAfter answer s inputs) := by
  refine runCalls_induction (fun _ t => Inv t) hinit ?_ haccepts (runCalls_total answer s inputs)
  intro _ t i u out ht hi hstep
  have hu : (answer t i).1 = u := congrArg Prod.fst (Option.some.inj hstep)
  rw [← hu]
  exact hkeeps t i ht hi

/-- Every call of a trace has a property together with the calls before it. -/
def EveryCall (P : List (Call S I O) → Call S I O → Prop) (calls : List (Call S I O)) : Prop :=
  ∀ n (hn : n < calls.length), P (calls.take n) calls[n]

/-- An empty trace has no call to check. -/
theorem everyCall_nil (P : List (Call S I O) → Call S I O → Prop) : EveryCall P [] := by
  intro n hn
  simp at hn

/-- A longer trace has the property when the shorter one has it and the last call does. -/
theorem everyCall_concat {P : List (Call S I O) → Call S I O → Prop} {calls : List (Call S I O)}
    {c : Call S I O} : EveryCall P (calls ++ [c]) ↔ EveryCall P calls ∧ P calls c := by
  constructor
  · intro h
    refine ⟨fun n hn => ?_, ?_⟩
    · have hearlier := h n (by simp; omega)
      rwa [List.take_append_of_le_length hn.le, List.getElem_append_left hn] at hearlier
    · simpa using h calls.length (by simp)
  · rintro ⟨hearlier, hlast⟩ n hn
    rcases Nat.lt_succ_iff_lt_or_eq.mp (by simpa using hn) with hlt | rfl
    · rw [List.take_append_of_le_length hlt.le, List.getElem_append_left hlt]
      exact hearlier n hlt
    · simpa using hlast

/-- A run in which the property is evaluated to fail for some call does not satisfy it. -/
theorem not_forall_calls_of_any {run : Option (List (Call S I O))} (P : Call S I O → Prop)
    [DecidablePred P] (h : (run.any fun calls => calls.all fun c => decide (P c)) = false) :
    ¬ ∃ calls, run = some calls ∧ ∀ c ∈ calls, P c := by
  rintro ⟨calls, rfl, hall⟩
  have htrue : (calls.all fun c => decide (P c)) = true := by
    simpa using hall
  rw [Option.any_some, htrue] at h
  cases h

/-- A run whose calls are evaluated to have a property has calls with it. -/
theorem of_all_calls {run : Option (List (Call S I O))} (P : List (Call S I O) → Prop)
    [DecidablePred P] (h : (run.all fun calls => decide (P calls)) = true)
    {calls : List (Call S I O)} (hrun : run = some calls) : P calls := by
  subst hrun
  simpa using h

/-- A run whose last call is evaluated to have a property ends with such a call. -/
theorem exists_last_of_any (run : Option (List (Call S I O))) (P : Call S I O → Prop)
    [DecidablePred P]
    (h : (run.any fun calls => calls.getLast?.any fun c => decide (P c)) = true) :
    ∃ earlier c, run = some (earlier ++ [c]) ∧ P c := by
  obtain ⟨calls, hrun, hlast⟩ := (Option.any_eq_true _ _).mp h
  obtain ⟨c, hc, hP⟩ := (Option.any_eq_true _ _).mp hlast
  obtain ⟨earlier, rfl⟩ := List.getLast?_eq_some_iff.mp hc
  exact ⟨earlier, c, hrun, of_decide_eq_true hP⟩

end NodePower
