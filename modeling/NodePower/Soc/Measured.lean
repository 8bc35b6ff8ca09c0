import NodePower.Soc.Monitor

/-!
# Measured utilisations

A round of `monitor_cpu_util` knows the interval since the round before, if there was one.
Its utilisation is that of the interval exactly when neither unsigned difference wraps and the
total has grown; in every other case, in the first round above all, `SoC` is called with a
number that was not measured. What `SoC` receives need not be the number it is passed.
-/

namespace NodePower.Soc

/-- The share of an interval that was not idle, in percent. -/
def busyShare (earlier later : ProcStat) : ℚ :=
  100 * (1 - ((later.idleTime.toNat : ℚ) - earlier.idleTime.toNat) /
    ((later.total.toNat : ℚ) - earlier.total.toNat))

/-- The call of the governor lowers the frequency. -/
def Lowers (c : MonitorCall) : Prop := c.input.received ≤ lowTs

/-- The round acts on a measured utilisation: it is computed, as that of the interval since the round
before, over which neither difference wraps and the total grows; it is from 0 to 100, and at most
10 if the call lowers. -/
structure Measured (earlier : List MonitorCall) (c : MonitorCall) : Prop where
  computed : c.before.prevTotal ≠ 0
  interval : ∃ previous, earlier.getLast? = some previous ∧
    previous.input.stat.idleTime.toNat ≤ c.input.stat.idleTime.toNat ∧
    previous.input.stat.total.toNat < c.input.stat.total.toNat ∧
    passed c = some (busyShare previous.input.stat c.input.stat)
  in_range : ∃ utilisation, passed c = some utilisation ∧ 0 ≤ utilisation ∧ utilisation ≤ 100
  lowers_measured : Lowers c → ∃ utilisation, passed c = some utilisation ∧ utilisation ≤ 10

/-- There was a round before, with a total that is not zero; since then the idle time has not fallen,
the total has grown, and by at least as much; and `SoC` receives a low number only for an interval
that was at least nine tenths idle. -/
def Measurable (earlier : List MonitorCall) (c : MonitorCall) : Prop :=
  ∃ previous, earlier.getLast? = some previous ∧ previous.input.stat.total ≠ 0 ∧
    previous.input.stat.idleTime.toNat ≤ c.input.stat.idleTime.toNat ∧
    previous.input.stat.total.toNat < c.input.stat.total.toNat ∧
    c.input.stat.idleTime.toNat + previous.input.stat.total.toNat ≤
      c.input.stat.total.toNat + previous.input.stat.idleTime.toNat ∧
    (Lowers c →
      9 * c.input.stat.total.toNat + 10 * previous.input.stat.idleTime.toNat ≤
        10 * c.input.stat.idleTime.toNat + 9 * previous.input.stat.total.toNat)

/-- Successive counters do not fall, except that the I/O wait may. -/
def CountersAdvance (readings : List Reading) : Prop :=
  readings.IsChain fun earlier later =>
    earlier.stat.user ≤ later.stat.user ∧ earlier.stat.nice ≤ later.stat.nice ∧
      earlier.stat.system ≤ later.stat.system ∧ earlier.stat.idle ≤ later.stat.idle ∧
      earlier.stat.irq ≤ later.stat.irq ∧ earlier.stat.softirq ≤ later.stat.softirq ∧
      earlier.stat.steal ≤ later.stat.steal

/-- The utilisation of an interval in which neither difference wraps. -/
theorem cpuUsage_eq_busyShare {earlier later : ProcStat} (hnonzero : earlier.total ≠ 0)
    (hidle : earlier.idleTime.toNat ≤ later.idleTime.toNat)
    (htotal : earlier.total.toNat < later.total.toNat) :
    cpuUsage earlier.idleTime earlier.total later = some (busyShare earlier later) := by
  have hidleDiff : (later.idleTime - earlier.idleTime).toNat =
      later.idleTime.toNat - earlier.idleTime.toNat := BitVec.toNat_sub_of_le hidle
  have htotalDiff : (later.total - earlier.total).toNat = later.total.toNat - earlier.total.toNat :=
    BitVec.toNat_sub_of_le htotal.le
  have hne : later.total - earlier.total ≠ 0 := by
    intro hzero
    rw [hzero] at htotalDiff
    change 0 = later.total.toNat - earlier.total.toNat at htotalDiff
    omega
  simp only [cpuUsage, if_pos hnonzero, if_neg hne, hidleDiff, htotalDiff, busyShare]
  rw [Nat.cast_sub hidle, Nat.cast_sub htotal.le]

section Share

variable {earlier later : ProcStat} (htotal : earlier.total.toNat < later.total.toNat)

include htotal

/-- The busy share of a growing total is at most a bound exactly when the rest of it was idle. -/
theorem busyShare_le_iff (bound : ℚ) :
    busyShare earlier later ≤ bound ↔
      (100 - bound) * ((later.total.toNat : ℚ) - earlier.total.toNat) ≤
        100 * ((later.idleTime.toNat : ℚ) - earlier.idleTime.toNat) := by
  have hpos : (0 : ℚ) < (later.total.toNat : ℚ) - earlier.total.toNat := by
    rw [sub_pos]
    exact_mod_cast htotal
  have hshare : busyShare earlier later = 100 - 100 * ((later.idleTime.toNat : ℚ) -
      earlier.idleTime.toNat) / ((later.total.toNat : ℚ) - earlier.total.toNat) := by
    rw [busyShare]
    ring
  rw [hshare, sub_le_comm, le_div_iff₀ hpos]

/-- The busy share of a growing total is not negative exactly when no more time was idle. -/
theorem busyShare_nonneg_iff :
    0 ≤ busyShare earlier later ↔
      later.idleTime.toNat + earlier.total.toNat ≤ later.total.toNat + earlier.idleTime.toNat := by
  have hpos : (0 : ℚ) < (later.total.toNat : ℚ) - earlier.total.toNat := by
    rw [sub_pos]
    exact_mod_cast htotal
  rw [busyShare, mul_nonneg_iff_of_pos_left (by norm_num), sub_nonneg, div_le_one hpos,
    sub_le_sub_iff]
  exact_mod_cast Iff.rfl

/-- The busy share of a growing total is at most 10 exactly when nine tenths of it were idle. -/
theorem busyShare_le_ten_iff :
    busyShare earlier later ≤ 10 ↔
      9 * later.total.toNat + 10 * earlier.idleTime.toNat ≤
        10 * later.idleTime.toNat + 9 * earlier.total.toNat := by
  rw [busyShare_le_iff htotal, ← Nat.cast_le (α := ℚ)]
  push_cast
  constructor
  · intro hle
    linarith
  · intro hle
    linarith

/-- The busy share of a growing total is at most 100 if the idle time has not fallen. -/
theorem busyShare_le_hundred (hidle : earlier.idleTime.toNat ≤ later.idleTime.toNat) :
    busyShare earlier later ≤ 100 := by
  have hcast : (earlier.idleTime.toNat : ℚ) ≤ later.idleTime.toNat := Nat.cast_le.mpr hidle
  rw [busyShare_le_iff htotal]
  linarith

end Share

/-- The differences of a round are those to the round before, and to zero in the first. -/
structure Remembers (calls : List MonitorCall) (m : MonitorState) : Prop where
  prevTotal_eq : m.prevTotal = (calls.getLast?.map fun c => c.input.stat.total).getD 0
  prevIdle_eq : m.prevIdle = (calls.getLast?.map fun c => c.input.stat.idleTime).getD 0

variable {dualCap : Int32} {calls : List MonitorCall} {c : MonitorCall}

/-- A round leaves the totals of its reading. -/
theorem Remembers.concat (hround : monitorRound dualCap c.before c.input = (c.after, c.output)) :
    Remembers (calls ++ [c]) c.after := by
  rw [monitorRound] at hround
  obtain ⟨hafter, -⟩ := Prod.mk.inj hround
  constructor
  · rw [← hafter]
    simp
  · rw [← hafter]
    simp

/-- In the first round nothing was measured and nothing can be. -/
theorem measured_iff_of_first (hfirst : calls.getLast? = none) :
    Measured calls c ↔ Measurable calls c := by
  refine iff_of_false ?_ ?_
  · intro hmeasured
    obtain ⟨previous, hsome, -⟩ := hmeasured.interval
    rw [hfirst] at hsome
    cases hsome
  · intro hmeasurable
    obtain ⟨previous, hsome, -⟩ := hmeasurable
    rw [hfirst] at hsome
    cases hsome

/-- A round acts on a measured utilisation exactly when its interval can be measured. -/
theorem Remembers.measured_iff (h : Remembers calls c.before) :
    Measured calls c ↔ Measurable calls c := by
  cases hprevious : calls.getLast? with
  | none => exact measured_iff_of_first hprevious
  | some previous =>
    have hprevTotal : c.before.prevTotal = previous.input.stat.total := by
      rw [h.prevTotal_eq, hprevious]
      rfl
    have hprevIdle : c.before.prevIdle = previous.input.stat.idleTime := by
      rw [h.prevIdle_eq, hprevious]
      rfl
    constructor
    · intro hmeasured
      obtain ⟨previous', hsome, hidle, htotal, hpassed⟩ := hmeasured.interval
      obtain rfl : previous = previous' := Option.some.inj (hprevious.symm.trans hsome)
      refine ⟨previous, hprevious, hprevTotal ▸ hmeasured.computed, hidle, htotal, ?_, ?_⟩
      · obtain ⟨utilisation, hutilisation, hnonneg, -⟩ := hmeasured.in_range
        obtain rfl := Option.some.inj (hpassed.symm.trans hutilisation)
        exact (busyShare_nonneg_iff htotal).mp hnonneg
      · intro hlowers
        obtain ⟨utilisation, hutilisation, hlow⟩ := hmeasured.lowers_measured hlowers
        obtain rfl := Option.some.inj (hpassed.symm.trans hutilisation)
        exact (busyShare_le_ten_iff htotal).mp hlow
    · intro hmeasurable
      obtain ⟨previous', hsome, hnonzero, hidle, htotal, hbusy, hlow⟩ := hmeasurable
      obtain rfl : previous = previous' := Option.some.inj (hprevious.symm.trans hsome)
      have hpassed : passed c = some (busyShare previous.input.stat c.input.stat) := by
        rw [passed, hprevTotal, hprevIdle, cpuUsage_eq_busyShare hnonzero hidle htotal]
      exact {
        computed := hprevTotal ▸ hnonzero
        interval := ⟨previous, hprevious, hidle, htotal, hpassed⟩
        in_range := ⟨_, hpassed, (busyShare_nonneg_iff htotal).mpr hbusy, busyShare_le_hundred htotal hidle⟩
        lowers_measured := fun hlowers =>
          ⟨_, hpassed, (busyShare_le_ten_iff htotal).mpr (hlow hlowers)⟩ }

/-- In every run, each round acts on a measured utilisation exactly when its interval can be measured
at all. -/
theorem measured_iff_measurable (dualCap : Int32) (readings : List Reading) :
    EveryCall (fun earlier c => Measured earlier c ↔ Measurable earlier c)
      (monitorRun dualCap readings) := by
  refine (totalCalls_final_induction
    (fun calls m => Remembers calls m ∧
      EveryCall (fun earlier c => Measured earlier c ↔ Measurable earlier c) calls)
    ⟨⟨rfl, rfl⟩, everyCall_nil _⟩ ?_ readings).2
  intro calls c hinvariant hround
  obtain ⟨hremembers, hcalls⟩ := hinvariant
  exact ⟨Remembers.concat hround, everyCall_concat.mpr ⟨hcalls, hremembers.measured_iff⟩⟩

/-- The first round of every run acts on a utilisation that was not measured. -/
theorem measured_fails_in_first_round :
    ¬ ∀ (dualCap : Int32) (readings : List Reading), CountersAdvance readings →
      EveryCall Measured (monitorRun dualCap readings) := by
  intro hevery
  have hmeasured := hevery 1 [⟨0, ⟨500, 0, 100, 400, 0, 0, 0, 0⟩, 0⟩] (List.IsChain.singleton _) 0
    (by decide)
  exact hmeasured.computed rfl

end NodePower.Soc
