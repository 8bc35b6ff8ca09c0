import Mathlib.Logic.Function.Basic
import NodePower.Common.CallTrace

/-!
# Programs that share a device

Several programs run side by side. A step of a program answers an input with its next state and the
writes it issues, and the program then waits until all of them have been carried out. The writes of
different programs come to the device one by one, in any order that keeps the order of each program.

The rules say what no order can change: every program computes as if it ran alone, and its writes come to
the device in its own order, each one once. A condition on writes that all programs keep holds of everything
that comes to the device, and a translation of the writes that the programs and the device respect carries
over to all runs.
-/

namespace NodePower

universe u

variable {ι : Type u} {State Input : ι → Type u} {Write Device : Type u}

/-- A step for each program, and what a write does to the device. -/
structure Programs (State Input : ι → Type u) (Write Device : Type u) where
  step : (i : ι) → State i → Input i → Option (State i × List Write)
  perform : Device → Write → Device

/-- Where the programs are, what they have still to write, and the device. -/
structure Shared (State : ι → Type u) (Write Device : Type u) where
  states : (i : ι) → State i
  pending : ι → List Write
  device : Device

/-- What can happen next: a step of a program on an input, or the next write of a program. -/
inductive SharedEvent (Input : ι → Type u) where
  | act (i : ι) (input : Input i)
  | write (i : ι)

variable [DecidableEq ι]

/-- One event, with the write that comes to the device, if any. A program that still has to write does not
step. -/
def Programs.next (programs : Programs State Input Write Device) (s : Shared State Write Device) :
    SharedEvent Input → Option (Shared State Write Device × List (ι × Write))
  | .act i input =>
    if (s.pending i).isEmpty then
      (programs.step i (s.states i) input).map fun answer =>
        ({ s with
            states := Function.update s.states i answer.1
            pending := Function.update s.pending i answer.2 }, [])
    else none
  | .write i => match s.pending i with
    | [] => none
    | write :: rest =>
      some ({ s with
        pending := Function.update s.pending i rest
        device := programs.perform s.device write }, [(i, write)])

/-- The input of an event, if it is a step of this program. -/
def SharedEvent.inputOf (i : ι) : SharedEvent Input → Option (Input i)
  | .act j input => if h : j = i then some (h ▸ input) else none
  | .write _ => none

/-- The inputs of one program, in their order. -/
def inputsOf (i : ι) (events : List (SharedEvent Input)) : List (Input i) :=
  events.filterMap (SharedEvent.inputOf i)

/-- The writes of one program, in their order. -/
def writesOf (i : ι) (writes : List (ι × Write)) : List Write :=
  writes.filterMap fun entry => if entry.1 = i then some entry.2 else none

/-- The two things that an event can do. -/
inductive SharedMove (programs : Programs State Input Write Device) (s : Shared State Write Device) :
    SharedEvent Input → Shared State Write Device → List (ι × Write) → Prop where
  | act {i : ι} {input : Input i} {next : State i} {writes : List Write} (waits : s.pending i = [])
    (step_eq : programs.step i (s.states i) input = some (next, writes)) :
    SharedMove programs s (.act i input)
      { s with
        states := Function.update s.states i next
        pending := Function.update s.pending i writes } []
  | write {i : ι} {write : Write} {rest : List Write} (pending_eq : s.pending i = write :: rest) :
    SharedMove programs s (.write i)
      { s with
        pending := Function.update s.pending i rest
        device := programs.perform s.device write } [(i, write)]

variable {programs : Programs State Input Write Device} {s t : Shared State Write Device}

/-- An event that happens is one of the two. -/
theorem Programs.next_eq_some_iff {event : SharedEvent Input} {out : List (ι × Write)} :
    programs.next s event = some (t, out) ↔ SharedMove programs s event t out := by
  constructor
  · intro h
    cases event with
    | act i input =>
      rw [Programs.next] at h
      split at h
      · rename_i hwaits
        obtain ⟨⟨next, writes⟩, hstep, hresult⟩ := Option.map_eq_some_iff.mp h
        obtain ⟨rfl, rfl⟩ := Prod.mk.inj hresult
        exact .act (List.isEmpty_iff.mp hwaits) hstep
      · exact absurd h (Option.some_ne_none _).symm
    | write i =>
      rw [Programs.next] at h
      split at h
      · exact absurd h (Option.some_ne_none _).symm
      · rename_i write rest hpending
        obtain ⟨rfl, rfl⟩ := Prod.mk.inj (Option.some.inj h)
        exact .write hpending
  · intro h
    cases h with
    | act hwaits hstep => simp [Programs.next, hwaits, hstep]
    | write hpending => simp [Programs.next, hpending]

/-- The next write of a program. -/
theorem Programs.next_write {i : ι} {write : Write} {rest : List Write}
    (hpending : s.pending i = write :: rest) :
    programs.next s (.write i) = some (⟨s.states, Function.update s.pending i rest,
      programs.perform s.device write⟩, [(i, write)]) :=
  Programs.next_eq_some_iff.mpr (.write hpending)

/-- A step of a program that has nothing to write. -/
theorem Programs.next_act {i : ι} {input : Input i} {next : State i} {writes : List Write}
    (hwaits : s.pending i = []) (hstep : programs.step i (s.states i) input = some (next, writes)) :
    programs.next s (.act i input) = some (⟨Function.update s.states i next,
      Function.update s.pending i writes, s.device⟩, []) :=
  Programs.next_eq_some_iff.mpr (.act hwaits hstep)

/-- The device holds what the writes that came to it have made of it. -/
theorem Programs.device_eq {events : List (SharedEvent Input)}
    {calls : List (Call (Shared State Write Device) (SharedEvent Input) (ι × Write))}
    (hrun : runCalls programs.next s events = some calls) :
    (finalState s calls).device =
      ((commandsOf calls).map Prod.snd).foldl programs.perform s.device := by
  have haccepts : ∀ event ∈ events, True := fun _ _ => trivial
  refine runCalls_induction (fun calls (t : Shared State Write Device) =>
    t.device = ((commandsOf calls).map Prod.snd).foldl programs.perform s.device) rfl ?_ haccepts hrun
  intro calls t event u out ht _ hnext
  rw [commandsOf_append, commandsOf_singleton, List.map_append, List.foldl_append, ← ht]
  cases Programs.next_eq_some_iff.mp hnext with
  | act _ _ => rfl
  | write _ => rfl

/-- The inputs of a longer list of events. -/
theorem inputsOf_append (i : ι) (first second : List (SharedEvent Input)) :
    inputsOf i (first ++ second) = inputsOf i first ++ inputsOf i second :=
  List.filterMap_append

/-- A step of the program itself. -/
theorem inputsOf_act_self (i : ι) (input : Input i) : inputsOf i [.act i input] = [input] := by
  simp [inputsOf, SharedEvent.inputOf]

/-- A step of another program. -/
theorem inputsOf_act_of_ne {i j : ι} (h : j ≠ i) (input : Input j) : inputsOf i [.act j input] = [] := by
  simp [inputsOf, SharedEvent.inputOf, h]

/-- The writes of a longer list. -/
theorem writesOf_append (i : ι) (first second : List (ι × Write)) :
    writesOf i (first ++ second) = writesOf i first ++ writesOf i second :=
  List.filterMap_append

/-- A write of the program itself. -/
theorem writesOf_self (i : ι) (write : Write) : writesOf i [(i, write)] = [write] := by
  simp [writesOf]

/-- A write of another program. -/
theorem writesOf_of_ne {i j : ι} (h : j ≠ i) (write : Write) : writesOf i [(j, write)] = [] := by
  simp [writesOf, h]

/-- When all writes are those of one program, they are its writes. -/
theorem writesOf_eq_map {i : ι} {writes : List (ι × Write)} (h : ∀ entry ∈ writes, entry.1 = i) :
    writesOf i writes = writes.map Prod.snd := by
  induction writes with
  | nil => rfl
  | cons entry rest ih =>
    rw [List.forall_mem_cons] at h
    rw [writesOf, List.filterMap_cons, if_pos h.1, List.map_cons]
    exact congrArg (entry.2 :: ·) (ih h.2)

/-- What the projection says of a program: it has run alone on its own inputs, and what it has issued is what
has come to the device, in order, and what it still has to write. -/
structure Projects (programs : Programs State Input Write Device) (s : Shared State Write Device) (i : ι)
    (events : List (SharedEvent Input)) (performed : List (ι × Write)) (t : Shared State Write Device)
    (own : List (Call (State i) (Input i) Write)) : Prop where
  run_eq : runCalls (programs.step i) (s.states i) (inputsOf i events) = some own
  state_eq : t.states i = finalState (s.states i) own
  writes_eq : s.pending i ++ commandsOf own = writesOf i performed ++ t.pending i

/-- One event more. -/
theorem Projects.concat {i : ι} {events : List (SharedEvent Input)} {performed out : List (ι × Write)}
    {own : List (Call (State i) (Input i) Write)} {event : SharedEvent Input}
    {after : Shared State Write Device} (h : Projects programs s i events performed t own)
    (hmove : SharedMove programs t event after out) :
    ∃ more, Projects programs s i (events ++ [event]) (performed ++ out) after more := by
  cases hmove with
  | @act j input next writes hwaits hstep =>
    by_cases hji : j = i
    · subst hji
      rw [h.state_eq] at hstep
      refine ⟨own ++ [⟨finalState (s.states j) own, input, next, writes⟩], ?_, ?_, ?_⟩
      · rw [inputsOf_append, inputsOf_act_self]
        exact runCalls_concat h.run_eq hstep
      · rw [finalState_concat]
        exact Function.update_self _ _ _
      · have hwrites := h.writes_eq
        rw [hwaits, List.append_nil] at hwrites
        rw [commandsOf_append, commandsOf_singleton, ← List.append_assoc, hwrites, List.append_nil]
        dsimp only
        rw [Function.update_self]
    · refine ⟨own, ?_, ?_, ?_⟩
      · rw [inputsOf_append, inputsOf_act_of_ne hji, List.append_nil]
        exact h.run_eq
      · exact (Function.update_of_ne (Ne.symm hji) _ _).trans h.state_eq
      · rw [h.writes_eq, List.append_nil]
        exact congrArg _ (Function.update_of_ne (Ne.symm hji) _ _).symm
  | @write j write rest hpending =>
    have hinputs : inputsOf i (events ++ [SharedEvent.write j]) = inputsOf i events := by
      rw [inputsOf_append]
      exact List.append_nil _
    refine ⟨own, hinputs ▸ h.run_eq, h.state_eq, ?_⟩
    rw [h.writes_eq, writesOf_append, List.append_assoc]
    by_cases hji : j = i
    · subst hji
      rw [hpending, writesOf_self]
      dsimp only
      rw [Function.update_self]
      rfl
    · rw [writesOf_of_ne hji, List.nil_append]
      dsimp only
      rw [Function.update_of_ne (Ne.symm hji)]

/-- Whatever the other programs do, a program computes as if it ran alone, and of its writes none is lost,
doubled or overtaken by a later one. -/
theorem Programs.projects (i : ι) {events : List (SharedEvent Input)}
    {calls : List (Call (Shared State Write Device) (SharedEvent Input) (ι × Write))}
    (hrun : runCalls programs.next s events = some calls) :
    ∃ own, Projects programs s i events (commandsOf calls) (finalState s calls) own := by
  have haccepts : ∀ event ∈ events, True := fun _ _ => trivial
  rw [← runCalls_inputs hrun]
  refine runCalls_induction (fun calls t =>
    ∃ own, Projects programs s i (calls.map Call.input) (commandsOf calls) t own) ?_ ?_ haccepts hrun
  · exact ⟨[], rfl, rfl, by simp [commandsOf, writesOf]⟩
  · intro calls t event after out ht _ hnext
    obtain ⟨own, hown⟩ := ht
    rw [List.map_append, commandsOf_append, commandsOf_singleton]
    exact hown.concat (Programs.next_eq_some_iff.mp hnext)

section

variable {Inv : (i : ι) → State i → Prop} {Safe : Write → Prop}

/-- Every program keeps its invariant, and issues safe writes while it holds. -/
def Programs.Keeps (programs : Programs State Input Write Device) (Inv : (i : ι) → State i → Prop)
    (Safe : Write → Prop) : Prop :=
  ∀ i state input next writes, Inv i state → programs.step i state input = some (next, writes) →
    Inv i next ∧ ∀ write ∈ writes, Safe write

/-- All invariants hold, and what is still to be written is safe. -/
structure Shared.Good (s : Shared State Write Device) (Inv : (i : ι) → State i → Prop)
    (Safe : Write → Prop) : Prop where
  inv : ∀ i, Inv i (s.states i)
  safe : ∀ i, ∀ write ∈ s.pending i, Safe write

/-- An event keeps this and brings only safe writes to the device. -/
theorem Shared.Good.next (h : s.Good Inv Safe) (hkeeps : programs.Keeps Inv Safe)
    {event : SharedEvent Input} {out : List (ι × Write)} (hmove : SharedMove programs s event t out) :
    t.Good Inv Safe ∧ ∀ entry ∈ out, Safe entry.2 := by
  cases hmove with
  | @act i input next writes hwaits hstep =>
    obtain ⟨hinv, hsafe⟩ := hkeeps i _ input next writes (h.inv i) hstep
    refine ⟨⟨fun j => ?_, fun j => ?_⟩, fun _ hentry => absurd hentry List.not_mem_nil⟩
    · by_cases hji : j = i
      · subst hji
        simpa using hinv
      · simpa [hji] using h.inv j
    · by_cases hji : j = i
      · subst hji
        simpa using hsafe
      · simpa [hji] using h.safe j
  | @write i write rest hpending =>
    have hsafe := h.safe i
    rw [hpending, List.forall_mem_cons] at hsafe
    refine ⟨⟨h.inv, fun j => ?_⟩, ?_⟩
    · by_cases hji : j = i
      · subst hji
        simpa using hsafe.2
      · simpa [hji] using h.safe j
    · rw [List.forall_mem_singleton]
      exact hsafe.1

end

section

variable {Write' Device' : Type u} {concrete : Programs State Input Write' Device'}
  {Inv : (i : ι) → State i → Prop} {Safe : Write → Prop} {encode : Write → Write'}
  {Related : Device → Device' → Prop}

/-- The concrete programs issue the translated writes, and the devices stay related. -/
structure Programs.Translates (programs : Programs State Input Write Device)
    (concrete : Programs State Input Write' Device') (Inv : (i : ι) → State i → Prop) (Safe : Write → Prop)
    (encode : Write → Write') (Related : Device → Device' → Prop) : Prop where
  keeps : programs.Keeps Inv Safe
  step : ∀ i state input next writes, Inv i state → concrete.step i state input = some (next, writes) →
    ∃ issued, programs.step i state input = some (next, issued) ∧ writes = issued.map encode
  perform : ∀ device device' write, Safe write → Related device device' →
    Related (programs.perform device write) (concrete.perform device' (encode write))

/-- The two systems are in corresponding states. -/
structure Corresponds (Inv : (i : ι) → State i → Prop) (Safe : Write → Prop) (encode : Write → Write')
    (Related : Device → Device' → Prop) (s : Shared State Write Device) (s' : Shared State Write' Device') :
    Prop where
  states_eq : s'.states = s.states
  pending_eq : ∀ i, s'.pending i = (s.pending i).map encode
  good : s.Good Inv Safe
  related : Related s.device s'.device

/-- An event of the concrete system is one of the abstract system. -/
theorem Corresponds.next {s' t' : Shared State Write' Device'}
    (htranslates : programs.Translates concrete Inv Safe encode Related)
    (h : Corresponds Inv Safe encode Related s s') {event : SharedEvent Input} {out' : List (ι × Write')}
    (hmove : SharedMove concrete s' event t' out') :
    ∃ t out, SharedMove programs s event t out ∧ Corresponds Inv Safe encode Related t t' ∧
      out' = out.map fun entry => (entry.1, encode entry.2) := by
  obtain ⟨hstates, hpending, hgood, hrelated⟩ := h
  cases hmove with
  | @act i input next writes hwaits hstep =>
    rw [hstates] at hstep
    obtain ⟨issued, hissued, rfl⟩ := htranslates.step i _ input next writes (hgood.inv i) hstep
    have hidle : s.pending i = [] := by
      rw [hpending i] at hwaits
      exact List.map_eq_nil_iff.mp hwaits
    have hact : SharedMove programs s (.act i input) _ _ := .act hidle hissued
    refine ⟨_, _, hact, ⟨?_, fun j => ?_, (hgood.next htranslates.keeps hact).1, hrelated⟩, rfl⟩
    · rw [hstates]
    · by_cases hji : j = i
      · subst hji
        simp
      · simpa [hji] using hpending j
  | @write i write' rest' hpending' =>
    rw [hpending i] at hpending'
    obtain ⟨write, rest, hwrite, rfl, rfl⟩ := List.map_eq_cons_iff.mp hpending'
    have hsafe := hgood.safe i write (hwrite ▸ List.mem_cons_self)
    have hact : SharedMove programs s (.write i) _ _ := .write hwrite
    refine ⟨_, _, hact, ⟨hstates, fun j => ?_, (hgood.next htranslates.keeps hact).1,
      htranslates.perform _ _ _ hsafe hrelated⟩, rfl⟩
    by_cases hji : j = i
    · subst hji
      simp
    · simpa [hji] using hpending j

/-- A run of the concrete system is a run of the abstract system on the same events. -/
theorem Corresponds.run {s' : Shared State Write' Device'}
    (htranslates : programs.Translates concrete Inv Safe encode Related)
    (h : Corresponds Inv Safe encode Related s s') {events : List (SharedEvent Input)}
    {calls' : List (Call (Shared State Write' Device') (SharedEvent Input) (ι × Write'))}
    (hrun : runCalls concrete.next s' events = some calls') :
    ∃ calls, runCalls programs.next s events = some calls ∧
      Corresponds Inv Safe encode Related (finalState s calls) (finalState s' calls') ∧
      commandsOf calls' = (commandsOf calls).map fun entry => (entry.1, encode entry.2) := by
  have haccepts : ∀ event ∈ events, True := fun _ _ => trivial
  rw [← runCalls_inputs hrun]
  refine runCalls_induction (fun calls' t' => ∃ calls,
    runCalls programs.next s (calls'.map Call.input) = some calls ∧
      Corresponds Inv Safe encode Related (finalState s calls) t' ∧
      commandsOf calls' = (commandsOf calls).map fun entry => (entry.1, encode entry.2))
    ⟨[], rfl, h, rfl⟩ ?_ haccepts hrun
  intro calls' t' event after' out' hearlier _ hnext
  obtain ⟨calls, hcalls, hcorresponds, houtput⟩ := hearlier
  obtain ⟨after, out, hmove, hafter, rfl⟩ :=
    hcorresponds.next htranslates (Programs.next_eq_some_iff.mp hnext)
  refine ⟨calls ++ [⟨finalState s calls, event, after, out⟩], ?_, ?_, ?_⟩
  · rw [List.map_append]
    exact runCalls_concat hcalls (Programs.next_eq_some_iff.mpr hmove)
  · rw [finalState_concat]
    exact hafter
  · rw [commandsOf_append, commandsOf_append, houtput, commandsOf_singleton, commandsOf_singleton,
      List.map_append]

end

end NodePower
