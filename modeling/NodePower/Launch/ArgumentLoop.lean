import NodePower.Launch.Numerals
import NodePower.Pcm.Controller

/-!
# The argument loop of pcm-memory

`mainThrows` walks over the words of its command line. A value option takes the next word,
converts it and stores it in a global; without a next word the program exits. The other
options set local variables of `mainThrows`, of which only the delay and the two ranks can
end the program. A run of the loop that exits or throws has no result.

The values of `--benchmark` and `--suite` name the output file and are kept beside the globals
that the controller reads.
-/

namespace NodePower

/-- The globals `suite` and `benchmark`, which name the output file. -/
structure FileNames where
  suite : Word
  benchmark : Word

/-- The variables that the loop sets: the globals, and the local ones that can make it exit. -/
structure ArgumentState where
  options : OptionValues Number
  fileNames : FileNames
  delay : ℚ
  rankA : ℤ
  rankB : ℤ

/-- The globals before the command line is read; a literal denotes the nearest `double`. -/
def initialOptions : OptionValues Number where
  uncore0 := .finite (roundBinary64 defaultOptions.uncore0)
  uncore1 := .finite (roundBinary64 defaultOptions.uncore1)
  incTs := .finite (roundBinary64 defaultOptions.incTs)
  decTs := .finite (roundBinary64 defaultOptions.decTs)
  dynamicUfsMem := defaultOptions.dynamicUfsMem
  history := defaultOptions.history
  dualCap := defaultOptions.dualCap
  burstUp := .finite (roundBinary64 defaultOptions.burstUp)
  burstLow := .finite (roundBinary64 defaultOptions.burstLow)
  powerShift := defaultOptions.powerShift
  gCap := defaultOptions.gCap
  ups := defaultOptions.ups
  memoryThroughputTs := .finite (roundBinary64 defaultOptions.memoryThroughputTs)

/-- The file names before the command line is read. -/
def initialFileNames : FileNames := ⟨.text "default", .text "default"⟩

/-- What a value option does with its value: the new globals, or nothing when it throws. -/
abbrev ValueHandler := Word → OptionValues Number → Option (OptionValues Number)

/-- The handler of a `double` global. -/
def doubleOption (set : Number → OptionValues Number → OptionValues Number) : ValueHandler :=
  fun word options => (stod word).map (set · options)

/-- The handler of an `int` global. -/
def intOption (set : Int32 → OptionValues Number → OptionValues Number) : ValueHandler :=
  fun word options => (stodToInt word).map (set · options)

/-- The handler of a text that names the output file: the other globals are kept. -/
def fileNameOption : ValueHandler := fun _ options => some options

/-- The file names after an option with its value. -/
def recordFileName (option value : Word) (names : FileNames) : FileNames :=
  match option with
  | .text "--benchmark" => { names with benchmark := value }
  | .text "--suite" => { names with suite := value }
  | _ => names

/-- The options that take the next word as their value. -/
def valueOption : Word → Option ValueHandler
  | .text "--benchmark" => some fileNameOption
  | .text "--uncore_0" => some (doubleOption fun x o => { o with uncore0 := x })
  | .text "--uncore_1" => some (doubleOption fun x o => { o with uncore1 := x })
  | .text "--dynamic_ufs_mem" => some (intOption fun n o => { o with dynamicUfsMem := n })
  | .text "--history" => some (intOption fun n o => { o with history := n })
  | .text "--dual_cap" => some (intOption fun n o => { o with dualCap := n })
  | .text "--inc_ts" => some (doubleOption fun x o => { o with incTs := x })
  | .text "--dec_ts" => some (doubleOption fun x o => { o with decTs := x })
  | .text "--burst_up" => some (doubleOption fun x o => { o with burstUp := x })
  | .text "--burst_low" => some (doubleOption fun x o => { o with burstLow := x })
  | .text "--memory_throughput_ts" => some (doubleOption fun x o => { o with memoryThroughputTs := x })
  | .text "--suite" => some fileNameOption
  | .text "--power_shift" => some (intOption fun n o => { o with powerShift := n })
  | .text "--g_cap" => some (intOption fun n o => { o with gCap := n })
  | .text "--ups" => some (intOption fun n o => { o with ups := n })
  | _ => none

/-- `check_argument_equals`: the word is one of the names. -/
def checkArgumentEquals (word : Word) (names : List String) : Bool :=
  match word with
  | .number _ => false
  | .text spelling => names.contains spelling

/-- A value without the quotation marks around it; one of nothing but quotation marks is kept. -/
def trimQuotes (value : List Char) : List Char :=
  let quote := Char.ofNat 34
  if value.all (· == quote) then value
  else ((value.dropWhile (· == quote)).reverse.dropWhile (· == quote)).reverse

/-- `extract_argument_value`: the value in a word `name=value` for one of the names. -/
def extractArgumentValue (word : Word) (names : List String) : Option (List Char) :=
  match word with
  | .number _ => none
  | .text spelling => names.findSome? fun name =>
      if (name.toList ++ ['=']).isPrefixOf spelling.toList then
        some (trimQuotes (spelling.toList.drop (name.length + 1)))
      else none

/-- The digits at the start of a text, as a number. -/
def leadingDigits (text : List Char) : Option ℤ :=
  match text.takeWhile Char.isDigit with
  | [] => none
  | digits => some (digits.foldl (fun n c => 10 * n + (c.toNat - 48 : ℤ)) 0)

/-- `std::stoi`, or nothing when it throws. -/
def stoi (text : List Char) : Option ℤ :=
  let parsed := match text.dropWhile (fun c => c == ' ' || (9 ≤ c.toNat && c.toNat ≤ 13)) with
    | '-' :: rest => (leadingDigits rest).map (- ·)
    | '+' :: rest => leadingDigits rest
    | rest => leadingDigits rest
  parsed.bind fun n => if InIntRange n then some n else none

/-- The option `-rank=n`, for at most two ranks up to 7. -/
def rankOption (rank : ℤ) (state : ArgumentState) : Option ArgumentState :=
  if 0 ≤ state.rankA ∧ 0 ≤ state.rankB then none
  else if 7 < rank then none
  else if state.rankA < 0 then some { state with rankA := rank }
  else if state.rankB < 0 then some { state with rankB := rank }
  else some state

/-- `parse_delay`: a finite number that is not negative, or nothing when the program exits. -/
def parseDelay : Word → Option ℚ
  | .number (.finite value) =>
    if roundBinary64 value < 0 ∨ 2 ^ 1024 ≤ |roundBinary64 value| then none
    else some (roundBinary64 value)
  | _ => none

/-- The options after the value options, and the delay as the last resort. -/
def otherArgument (word : Word) (state : ArgumentState) : Option ArgumentState :=
  if checkArgumentEquals word ["-silent", "/silent"] then some state
  else if checkArgumentEquals word ["-csv", "/csv"] then some state
  else if (extractArgumentValue word ["-csv", "/csv"]).isSome then some state
  else if (extractArgumentValue word ["-i", "/i"]).isSome then some state
  else match extractArgumentValue word ["-columns", "/columns"] with
  | some value => if value.isEmpty then some state else (stoi value).map fun _ => state
  | none => match extractArgumentValue word ["-rank", "/rank"] with
  | some value => if value.isEmpty then some state else (stoi value).bind (rankOption · state)
  | none =>
    if checkArgumentEquals word ["--nochannel", "/nc", "-nc", "-pmm", "/pmm", "-pmem", "/pmem",
      "-all", "/all", "-mixed", "/mixed", "-mm", "/mm", "-partial", "/partial", "-u", "/u",
      "-f", "/f"] then some state
    else (parseDelay word).map fun delay => { state with delay }

/-- The loop over the words after the program name. -/
def argumentLoop : List Word → ArgumentState → Option ArgumentState
  | [], state => some state
  | word :: rest, state =>
    if checkArgumentEquals word ["--help", "-h", "/h"] then none
    else match valueOption word with
    | some handler =>
      match rest with
      | [] => none
      | value :: rest =>
        (handler value state.options).bind fun options =>
          argumentLoop rest
            { state with options, fileNames := recordFileName word value state.fileNames }
    | none =>
      if checkArgumentEquals word ["--"] then some state
      else (otherArgument word state).bind (argumentLoop rest)

/-- The variables with which pcm-memory leaves its argument loop. -/
def mainThrowsState (words : List Word) : Option ArgumentState :=
  argumentLoop words ⟨initialOptions, initialFileNames, -1, -1, -1⟩

/-- The globals with which pcm-memory leaves its argument loop. -/
def mainThrowsOptions (words : List Word) : Option (OptionValues Number) :=
  (mainThrowsState words).map ArgumentState.options

/-- The name is that of a value option. -/
def IsValueOption (name : String) : Prop :=
  checkArgumentEquals (.text name) ["--help", "-h", "/h"] = false ∧ (valueOption (.text name)).isSome = true

instance (name : String) : Decidable (IsValueOption name) := inferInstanceAs (Decidable (_ ∧ _))

/-- The effect of a value option on the globals. -/
def applyOption (options : OptionValues Number) (pair : String × Word) : Option (OptionValues Number) :=
  (valueOption (.text pair.1)).bind fun handler => handler pair.2 options

/-- A value option and its value are consumed together. -/
theorem argumentLoop_value {name : String} (hname : IsValueOption name) (value : Word) (rest : List Word)
    (state : ArgumentState) :
    argumentLoop (.text name :: value :: rest) state =
      (applyOption state.options (name, value)).bind fun options =>
        argumentLoop rest
          { state with options, fileNames := recordFileName (.text name) value state.fileNames } := by
  obtain ⟨hhelp, hhandler⟩ := hname
  obtain ⟨handler, hhandler⟩ := Option.isSome_iff_exists.mp hhandler
  rw [argumentLoop, hhelp, applyOption, hhandler]
  rfl

/-- A command line of value options applies them to the globals in order. -/
theorem argumentLoop_valueWords {pairs : List (String × Word)} (hpairs : ∀ pair ∈ pairs, IsValueOption pair.1)
    (state : ArgumentState) :
    (argumentLoop (valueWords pairs) state).map ArgumentState.options =
      pairs.foldlM applyOption state.options := by
  induction pairs generalizing state with
  | nil => rfl
  | cons pair rest ih =>
    have hrest : ∀ pair ∈ rest, IsValueOption pair.1 := fun p hp => hpairs p (List.mem_cons_of_mem _ hp)
    change (argumentLoop (.text pair.1 :: pair.2 :: valueWords rest) state).map _ = _
    rw [argumentLoop_value (hpairs pair List.mem_cons_self), List.foldlM_cons, Option.map_bind]
    change _ = (applyOption state.options pair).bind _
    congr 1
    funext options
    exact ih hrest _

/-- A command line of value options records the file names among them in order. -/
theorem argumentLoop_fileNames {pairs : List (String × Word)} (hpairs : ∀ pair ∈ pairs, IsValueOption pair.1)
    {state final : ArgumentState} (hloop : argumentLoop (valueWords pairs) state = some final) :
    final.fileNames =
      pairs.foldl (fun names pair => recordFileName (.text pair.1) pair.2 names) state.fileNames := by
  induction pairs generalizing state with
  | nil =>
    obtain rfl := Option.some.inj hloop
    rfl
  | cons pair rest ih =>
    have hrest : ∀ pair ∈ rest, IsValueOption pair.1 := fun p hp => hpairs p (List.mem_cons_of_mem _ hp)
    change argumentLoop (.text pair.1 :: pair.2 :: valueWords rest) state = some final at hloop
    rw [argumentLoop_value (hpairs pair List.mem_cons_self)] at hloop
    obtain ⟨options, -, hlater⟩ := Option.bind_eq_some_iff.mp hloop
    exact ih hrest hlater

/-- Applying options is running the handlers that their names select. -/
theorem foldlM_applyOption {pairs : List (String × Word)} {handlers : List (ValueHandler × Word)}
    (h : pairs.map (fun pair => (valueOption (.text pair.1), pair.2)) =
      handlers.map fun pair => (some pair.1, pair.2)) (options : OptionValues Number) :
    pairs.foldlM applyOption options = handlers.foldlM (fun o pair => pair.1 pair.2 o) options := by
  induction pairs generalizing handlers options with
  | nil =>
    rw [List.map_eq_nil_iff.mp h.symm]
    rfl
  | cons pair rest ih =>
    cases handlers with
    | nil => cases h
    | cons handler later =>
      obtain ⟨hhead, htail⟩ := List.cons.inj h
      obtain ⟨hselected, hvalue⟩ := Prod.mk.inj hhead
      rw [List.foldlM_cons, List.foldlM_cons, applyOption, hselected, hvalue]
      change (handler.1 handler.2 options).bind _ = (handler.1 handler.2 options).bind _
      congr 1
      funext next
      exact ih htail next

/-- A number among the words, if it is not negative, is the delay. -/
theorem argumentLoop_delay {delay : ℚ} (hdelay : 0 ≤ roundBinary64 delay)
    (hfinite : |roundBinary64 delay| < 2 ^ 1024) (rest : List Word) (state : ArgumentState) :
    argumentLoop (.number (.finite delay) :: rest) state =
      argumentLoop rest { state with delay := roundBinary64 delay } := by
  have hparsed : parseDelay (.number (.finite delay)) = some (roundBinary64 delay) :=
    if_neg (not_or.mpr ⟨not_lt.mpr hdelay, not_le.mpr hfinite⟩)
  -- A number is the name of no option, so only the delay is left.
  have hother : otherArgument (.number (.finite delay)) state =
      some { state with delay := roundBinary64 delay } := by
    change (parseDelay (.number (.finite delay))).map _ = _
    rw [hparsed]
    rfl
  change (otherArgument (.number (.finite delay)) state).bind (argumentLoop rest) = _
  rw [hother]
  rfl

end NodePower
