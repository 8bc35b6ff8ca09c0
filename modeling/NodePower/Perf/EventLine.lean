import Mathlib.Tactic.FieldSimp
import NodePower.Perf.Throughput

/-!
# The event lines of `perf stat`

A line holds the time of the interval, the value, its unit and the name of the event. `perf`
groups the digits of a value by thousands when the locale has a separator. The pattern of the
monitor does not know the separator: of a grouped value it finds the last group only.
-/

namespace NodePower.Perf

/-- A number with a comma before every group of three digits. -/
def groupedDigits (n : ℕ) : Text :=
  if n < 1000 then Nat.toDigits 10 n
  else groupedDigits (n / 1000) ++ ',' :: paddedDigits 3 (n % 1000)

/-- What an event line tells, and how it is written: its time, its value as digits of which some follow
the point, whether the digits are grouped, the event, the blanks between them and what follows the
name of the event. -/
structure Event where
  seconds : ℕ
  nanoseconds : ℕ
  digits : ℕ
  scale : ℕ
  grouped : Bool
  imc : ℕ
  eventType : EventType
  lead : ℕ
  valueGap : ℕ
  unitGap : ℕ
  nameGap : ℕ
  trailer : Text

/-- The event that a line is about. -/
def Event.name (event : Event) : ℕ × EventType := (event.imc, event.eventType)

/-- The value in MiB. -/
def Event.value (event : Event) : ℚ := event.digits / 10 ^ event.scale

/-- The digits of the value before the point, as a number. -/
def Event.whole (event : Event) : ℕ := event.digits / 10 ^ event.scale

/-- The digits of the value before the point, as they are written. -/
def Event.wholeText (event : Event) : Text :=
  if event.grouped then groupedDigits event.whole else Nat.toDigits 10 event.whole

/-- The fraction of the value as it is written. -/
def Event.fraction (event : Event) : Text :=
  fractionText event.scale (event.digits % 10 ^ event.scale)

/-- One blank or more. -/
def blanks (extra : ℕ) : Text := List.replicate (extra + 1) ' '

/-- The time of an interval as it is written. -/
def Event.timeText (event : Event) : Text :=
  Nat.toDigits 10 event.seconds ++ '.' :: paddedDigits 9 event.nanoseconds

/-- The line after the value. -/
def Event.unitText (event : Event) : Text :=
  blanks event.unitGap ++ ("MiB".toList ++ (blanks event.nameGap ++ ("uncore_imc_".toList ++
    (Nat.toDigits 10 event.imc ++ ("/cas_count_".toList ++ (event.eventType.text ++
      ("/".toList ++ event.trailer)))))))

/-- The line of an event. -/
def Event.line (event : Event) : Text :=
  List.replicate event.lead ' ' ++ (event.timeText ++ (blanks event.valueGap ++
    (event.wholeText ++ (event.fraction ++ event.unitText))))

/-- The value is written without a separator. -/
def Event.Ungrouped (event : Event) : Prop := event.grouped = true → event.whole < 1000

/-- The monitor finds the value and the type of an event in its line. -/
def Event.ReadInFull (event : Event) : Prop :=
  ∃ text, eventPattern.search event.line = some (text, event.eventType) ∧
    float text = some event.value

/-- The characters of blanks. -/
theorem mem_blanks {extra : ℕ} {c : Char} (hc : c ∈ blanks extra) : c = ' ' :=
  List.eq_of_mem_replicate hc

/-- A digit may be part of a value. -/
theorem isValueChar_of_isDigit {c : Char} (hc : c.isDigit) : isValueChar c = true := by
  rw [isValueChar, hc, Bool.true_or]

/-- The characters of a value come after the blanks. -/
theorem toNat_of_isValueChar {c : Char} (hc : isValueChar c = true) : 46 ≤ c.toNat := by
  rw [isValueChar, Bool.or_eq_true_iff] at hc
  rcases hc with hdigit | hpoint
  · rw [Char.isDigit, Bool.and_eq_true_iff] at hdigit
    have hlow : '0'.val ≤ c.val := of_decide_eq_true hdigit.1
    exact le_trans (by decide : 46 ≤ '0'.toNat) (UInt32.le_iff_toNat_le.mp hlow)
  · rw [of_decide_eq_true hpoint]
    decide

/-- A character of a value is not a blank. -/
theorem isSpace_of_isValueChar {c : Char} (hc : isValueChar c = true) : isSpace c = false := by
  have hlarge := toNat_of_isValueChar hc
  have hne : c ≠ ' ' := by
    intro hblank
    rw [hblank] at hlarge
    exact absurd hlarge (by decide)
  have hcontrol : ¬ c.toNat ≤ 13 := by omega
  have hseparator : ¬ c.toNat ≤ 31 := by omega
  simp [isSpace, hne, hcontrol, hseparator]

/-- A character that is not a blank cannot follow the value. -/
theorem unitPattern_of_head {text : Text} (hhead : ∀ c ∈ text.head?, isSpace c = false) :
    unitPattern text = [] :=
  Pattern.bind_of_nil _ (Pattern.many1_of_head hhead)

/-- The unit cannot start with a blank. -/
theorem literal_of_isSpace {a c : Char} (ha : isSpace a = false) (hc : isSpace c = true)
    (word text : Text) : Pattern.literal (a :: word) (c :: text) = [] := by
  refine Pattern.literal_cons_of_ne ?_ word text
  intro heq
  rw [heq, hc] at ha
  exact absurd ha (by simp)

/-- Blanks are followed by a word that does not start with one. -/
theorem many1_blanks {α : Type} {next : Text → Pattern Char α} (extra : ℕ) {rest : Text}
    (hrest : ∀ c ∈ rest.head?, isSpace c = false)
    (hnext : ∀ value c text, isSpace c = true → next value (c :: text) = []) :
    (Pattern.many1 isSpace).bind next (blanks extra ++ rest) = next (blanks extra) rest :=
  Pattern.many1_bind (by simp [blanks, List.replicate_succ]) (fun c hc => by rw [mem_blanks hc]; rfl)
    hrest hnext

/-- After blanks there is the unit or no match. -/
theorem unitPattern_of_other {extra : ℕ} {c : Char} {text : Text} (hspace : isSpace c = false)
    (hother : c ≠ 'M') : unitPattern (blanks extra ++ c :: text) = [] := by
  rw [unitPattern, many1_blanks extra (by simpa using hspace)]
  · exact Pattern.bind_of_nil _ (Pattern.literal_cons_of_ne (Ne.symm hother) _ text)
  · intro _ d rest hd
    exact Pattern.bind_of_nil _ (literal_of_isSpace (by decide) hd _ rest)

/-- The type of an event is recognised. -/
theorem alternative_text (eventType : EventType) (rest : Text) :
    Pattern.alternative ((Pattern.literal "read".toList).map fun _ => EventType.read)
      ((Pattern.literal "write".toList).map fun _ => EventType.write) (eventType.text ++ rest) =
        [(eventType, rest)] := by
  cases eventType with
  | read =>
    have hread := Pattern.literal_append "read".toList rest
    have hwrite : Pattern.literal "write".toList ("read".toList ++ rest) = [] :=
      Pattern.literal_cons_of_ne (by decide) _ _
    change Pattern.alternative _ _ ("read".toList ++ rest) = _
    rw [Pattern.alternative, Pattern.map, Pattern.map, hread, hwrite]
    rfl
  | write =>
    have hread : Pattern.literal "read".toList ("write".toList ++ rest) = [] :=
      Pattern.literal_cons_of_ne (by decide) _ _
    have hwrite := Pattern.literal_append "write".toList rest
    change Pattern.alternative _ _ ("write".toList ++ rest) = _
    rw [Pattern.alternative, Pattern.map, Pattern.map, hread, hwrite]
    rfl

/-- The text after a value has the unit and the type of the event. -/
theorem unitPattern_unitText (event : Event) :
    unitPattern event.unitText = [(event.eventType, event.trailer)] := by
  rw [unitPattern, Event.unitText, many1_blanks event.unitGap]
  · rw [Pattern.bind_of_singleton _ (Pattern.literal_append _ _), many1_blanks event.nameGap]
    · rw [Pattern.bind_of_singleton _ (Pattern.literal_append _ _),
        Pattern.many1_bind Nat.toDigits_ne_nil (fun c hc => isDigit_of_mem_toDigits hc)]
      · rw [Pattern.bind_of_singleton _ (Pattern.literal_append _ _),
          Pattern.bind_of_singleton _ (alternative_text event.eventType _), Pattern.map,
          Pattern.literal_append, List.map_singleton]
      · exact Pattern.forall_head?_cons rfl
      · intro _ c text hc
        refine Pattern.bind_of_nil _ (Pattern.literal_cons_of_ne ?_ _ text)
        intro heq
        rw [← heq] at hc
        exact absurd hc (by decide)
    · exact Pattern.forall_head?_cons rfl
    · intro _ c text hc
      exact Pattern.bind_of_nil _ (literal_of_isSpace (by decide) hc _ text)
  · exact Pattern.forall_head?_cons rfl
  · intro _ c text hc
    exact Pattern.bind_of_nil _ (literal_of_isSpace (by decide) hc _ text)

/-- A number in front of the unit is the value, whatever the number of its digits. -/
theorem eventPattern_run {run rest : Text} (hne : run ≠ [])
    (hrun : ∀ c ∈ run, isValueChar c = true) (hrest : ∀ c ∈ rest.head?, isValueChar c = false) :
    eventPattern (run ++ rest) = (unitPattern rest).map fun m => ((run, m.1), m.2) := by
  rw [eventPattern, Pattern.many1_bind hne hrun hrest]
  · rfl
  · intro _ c text hc
    rw [Pattern.map, unitPattern_of_head, List.map_nil]
    exact Pattern.forall_head?_cons (isSpace_of_isValueChar hc)

/-- No value starts with a character outside the class. -/
theorem eventPattern_of_head {c : Char} {text : Text} (hc : isValueChar c = false) :
    eventPattern (c :: text) = [] :=
  Pattern.bind_of_nil _ (Pattern.many1_of_head (Pattern.forall_head?_cons hc))

/-- Blanks are passed over. -/
theorem search_replicate (n : ℕ) (text : Text) :
    eventPattern.search (List.replicate n ' ' ++ text) = eventPattern.search text := by
  refine Pattern.search_append ?_
  intro c rest hsuffix
  have hc : c = ' ' := List.eq_of_mem_replicate (hsuffix.subset List.mem_cons_self)
  rw [hc]
  exact eventPattern_of_head (by decide)

/-- A number without the unit is passed over. -/
theorem search_run {run rest : Text} (hrun : ∀ c ∈ run, isValueChar c = true)
    (hrest : ∀ c ∈ rest.head?, isValueChar c = false) (hunit : unitPattern rest = []) :
    eventPattern.search (run ++ rest) = eventPattern.search rest := by
  refine Pattern.search_append ?_
  intro c tail hsuffix
  rw [eventPattern_run (List.cons_ne_nil c tail) (fun d hd => hrun d (hsuffix.subset hd)) hrest,
    hunit, List.map_nil]

/-- The characters of a printed number may be part of a value. -/
theorem isValueChar_of_mem_toDigits {n : ℕ} {c : Char} (hc : c ∈ Nat.toDigits 10 n) :
    isValueChar c = true :=
  isValueChar_of_isDigit (isDigit_of_mem_toDigits hc)

/-- The characters of a filled up number may be part of a value. -/
theorem isValueChar_of_mem_paddedDigits {width n : ℕ} {c : Char} (hc : c ∈ paddedDigits width n) :
    isValueChar c = true :=
  isValueChar_of_isDigit (isDigit_of_mem_paddedDigits hc)

/-- The characters of a fraction may be part of a value. -/
theorem isValueChar_of_mem_fractionText {scale n : ℕ} {c : Char} (hc : c ∈ fractionText scale n) :
    isValueChar c = true := by
  rw [fractionText] at hc
  split at hc
  · exact absurd hc List.not_mem_nil
  · rcases List.mem_cons.mp hc with rfl | hdigit
    · rfl
    · exact isValueChar_of_mem_paddedDigits hdigit

/-- The characters of a time may be part of a value. -/
theorem isValueChar_of_mem_timeText {event : Event} {c : Char} (hc : c ∈ event.timeText) :
    isValueChar c = true := by
  rw [Event.timeText, List.mem_append, List.mem_cons] at hc
  rcases hc with hseconds | rfl | hnanoseconds
  · exact isValueChar_of_mem_toDigits hseconds
  · rfl
  · exact isValueChar_of_mem_paddedDigits hnanoseconds

/-- A number without a separator behind it is followed by no unit. -/
theorem unitPattern_comma (text : Text) : unitPattern (',' :: text) = [] :=
  unitPattern_of_head (Pattern.forall_head?_cons rfl)

/-- A number that a separator follows is passed over. -/
theorem search_comma {run : Text} (hrun : ∀ c ∈ run, isValueChar c = true) (text : Text) :
    eventPattern.search (run ++ ',' :: text) = eventPattern.search text := by
  rw [search_run hrun (Pattern.forall_head?_cons rfl) (unitPattern_comma text),
    Pattern.search_cons (eventPattern_of_head (by decide))]

/-- The groups that a separator follows are passed over. -/
theorem search_groupedDigits (n : ℕ) (text : Text) :
    eventPattern.search (groupedDigits n ++ ',' :: text) = eventPattern.search text := by
  induction n using Nat.strong_induction_on generalizing text with
  | _ n ih =>
    rw [groupedDigits]
    split
    · exact search_comma (fun c hc => isValueChar_of_mem_toDigits hc) text
    · rw [List.append_assoc, List.cons_append, ih (n / 1000) (by omega)]
      exact search_comma (fun c hc => isValueChar_of_mem_paddedDigits hc) text

/-- A grouped number starts with a digit. -/
theorem groupedDigits_eq_cons (n : ℕ) :
    ∃ c text, groupedDigits n = c :: text ∧ c.isDigit := by
  induction n using Nat.strong_induction_on with
  | _ n ih =>
    rw [groupedDigits]
    split
    · exact exists_toDigits_eq_cons n
    · obtain ⟨c, text, heq, hc⟩ := ih (n / 1000) (by omega)
      exact ⟨c, text ++ ',' :: paddedDigits 3 (n % 1000), by rw [heq, List.cons_append], hc⟩

/-- A value starts with a digit. -/
theorem Event.wholeText_eq_cons (event : Event) :
    ∃ c text, event.wholeText = c :: text ∧ c.isDigit := by
  rw [Event.wholeText]
  split
  · exact groupedDigits_eq_cons event.whole
  · exact exists_toDigits_eq_cons event.whole

/-- The search gets past the time to the value. -/
theorem search_line (event : Event) :
    eventPattern.search event.line =
      eventPattern.search (event.wholeText ++ (event.fraction ++ event.unitText)) := by
  obtain ⟨c, text, hwhole, hc⟩ := event.wholeText_eq_cons
  have hother : c ≠ 'M' := by
    intro heq
    rw [heq] at hc
    exact absurd hc (by decide)
  rw [Event.line, search_replicate, search_run (fun d hd => isValueChar_of_mem_timeText hd)]
  · exact search_replicate (event.valueGap + 1) _
  · exact Pattern.forall_head?_cons rfl
  · rw [hwhole]
    exact unitPattern_of_other (isSpace_of_isValueChar (isValueChar_of_isDigit hc)) hother

/-- A number with a fraction is found in front of the unit. -/
theorem search_number (event : Event) {number : Text} (hne : number ≠ [])
    (hnumber : ∀ c ∈ number, c.isDigit) :
    eventPattern.search (number ++ (event.fraction ++ event.unitText)) =
      some (number ++ event.fraction, event.eventType) := by
  have hrun : ∀ c ∈ number ++ event.fraction, isValueChar c = true := by
    intro c hc
    rcases List.mem_append.mp hc with hdigit | hfraction
    · exact isValueChar_of_isDigit (hnumber c hdigit)
    · exact isValueChar_of_mem_fractionText hfraction
  have hrest : ∀ c ∈ event.unitText.head?, isValueChar c = false := Pattern.forall_head?_cons rfl
  have hmatch := eventPattern_run (List.append_ne_nil_of_left_ne_nil hne event.fraction) hrun hrest
  rw [unitPattern_unitText, List.map_singleton] at hmatch
  rw [← List.append_assoc]
  exact Pattern.search_of_match hmatch

/-- The value of digits with a fraction. -/
theorem float_number {number : Text} {scale n : ℕ} (hne : number ≠ [])
    (hnumber : ∀ c ∈ number, c.isDigit) (hn : n < 10 ^ scale) :
    float (number ++ fractionText scale n) =
      some ((Nat.ofDigitChars 10 number 0 : ℕ) + n / 10 ^ scale : ℚ) := by
  obtain ⟨c, text, rfl⟩ := List.exists_cons_of_ne_nil hne
  rw [float, List.cons_append, parseDecimal_of_isDigit (hnumber c List.mem_cons_self),
    ← List.cons_append, parseMagnitude_number false hne hnumber hn, Option.map_some, Decimal.value]
  have hpow : (10 : ℚ) ^ scale ≠ 0 := by positivity
  push_cast
  field_simp

/-- The value is its digits before the point and its fraction. -/
theorem Event.value_eq (event : Event) :
    event.value = event.whole + ((event.digits % 10 ^ event.scale : ℕ) : ℚ) / 10 ^ event.scale := by
  have hpow : (10 : ℚ) ^ event.scale ≠ 0 := by positivity
  have hdigits : ((10 ^ event.scale * event.whole + event.digits % 10 ^ event.scale : ℕ) : ℚ) =
      event.digits := by
    rw [Event.whole, Nat.div_add_mod]
  push_cast at hdigits
  rw [Event.value, ← hdigits]
  field_simp

/-- The fraction is below its power of ten. -/
theorem Event.fraction_lt (event : Event) : event.digits % 10 ^ event.scale < 10 ^ event.scale :=
  Nat.mod_lt _ (by positivity)

/-- An ungrouped value is printed like a number without separators. -/
theorem Event.Ungrouped.wholeText_eq {event : Event} (h : event.Ungrouped) :
    event.wholeText = Nat.toDigits 10 event.whole := by
  rw [Event.wholeText]
  split
  · rename_i hgrouped
    rw [groupedDigits, if_pos (h hgrouped)]
  · rfl

/-- A value without a separator is read in full. -/
theorem Event.Ungrouped.readInFull {event : Event} (h : event.Ungrouped) : event.ReadInFull := by
  have hdigits : ∀ c ∈ Nat.toDigits 10 event.whole, c.isDigit := fun _ hc => isDigit_of_mem_toDigits hc
  refine ⟨Nat.toDigits 10 event.whole ++ event.fraction, ?_, ?_⟩
  · rw [search_line, h.wholeText_eq, search_number event Nat.toDigits_ne_nil hdigits]
  · rw [Event.fraction, float_number Nat.toDigits_ne_nil hdigits event.fraction_lt,
      Nat.ofDigitChars_ten_toDigits, event.value_eq]

/-- Of a value with a separator, only what follows the last separator is found. -/
theorem search_grouped {event : Event} (hgrouped : event.grouped = true) (hlarge : 1000 ≤ event.whole) :
    eventPattern.search event.line =
      some (paddedDigits 3 (event.whole % 1000) ++ event.fraction, event.eventType) := by
  have hlength : (paddedDigits 3 (event.whole % 1000)).length = 3 :=
    length_paddedDigits (by norm_num) (Nat.mod_lt _ (by norm_num))
  rw [search_line, Event.wholeText, if_pos hgrouped, groupedDigits, if_neg (by omega),
    List.append_assoc, List.cons_append, search_groupedDigits]
  exact search_number event (List.ne_nil_of_length_pos (by omega)) fun _ hc =>
    isDigit_of_mem_paddedDigits hc

/-- The part of a value after its last separator is another number. -/
theorem float_last_group {event : Event} (hlarge : 1000 ≤ event.whole) :
    float (paddedDigits 3 (event.whole % 1000) ++ event.fraction) ≠ some event.value := by
  have hlength : (paddedDigits 3 (event.whole % 1000)).length = 3 :=
    length_paddedDigits (by norm_num) (Nat.mod_lt _ (by norm_num))
  have hmod : event.whole % 1000 < event.whole := (Nat.mod_lt _ (by norm_num)).trans_le hlarge
  rw [Event.fraction, float_number (List.ne_nil_of_length_pos (by omega))
    (fun _ hc => isDigit_of_mem_paddedDigits hc) event.fraction_lt, ofDigitChars_paddedDigits,
    event.value_eq]
  intro heq
  have hcast : ((event.whole % 1000 : ℕ) : ℚ) = event.whole := add_right_cancel (Option.some.inj heq)
  exact hmod.ne (Nat.cast_injective hcast)

/-- A value is read in full exactly when it is written without a separator. -/
theorem Event.readInFull_iff (event : Event) : event.ReadInFull ↔ event.Ungrouped := by
  constructor
  · intro hread hgrouped
    by_contra hlarge
    obtain ⟨text, hsearch, hfloat⟩ := hread
    rw [search_grouped hgrouped (not_lt.mp hlarge)] at hsearch
    obtain ⟨rfl, -⟩ := Prod.mk.inj (Option.some.inj hsearch)
    exact float_last_group (not_lt.mp hlarge) hfloat
  · intro hungrouped
    exact hungrouped.readInFull

end NodePower.Perf
