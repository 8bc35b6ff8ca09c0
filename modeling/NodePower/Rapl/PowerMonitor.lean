import Mathlib.Algebra.Order.Field.Rat
import Mathlib.Data.Fin.VecNotation
import Mathlib.RingTheory.Coprime.Lemmas
import Mathlib.Tactic.FieldSimp
import Mathlib.Tactic.Linarith
import Mathlib.Tactic.NormNum
import Mathlib.Tactic.Positivity
import Mathlib.Tactic.Ring

/-!
# Package power from the energy registers

`RaplPowerMonitor` and `RaplPowerMonitor_serverID` read `MSR_PKG_ENERGY_STATUS` of one CPU of
each socket before and after a pause and print the power of both sockets. They take the whole
register as a signed number, while only its low half counts, modulo its range. And they use the
energy unit of the first CPU for both sockets. The printed power is therefore the true one exactly
when the signed number has not fallen and has risen by less than the range of the counter, unless
the units differ and there is something to count; the difference of the times is right in every case.

A register that cannot be read ends the program and is not modelled. Numbers of type `double` are
exact rationals, also those that registers are converted to.
-/

namespace NodePower.Rapl

/-- A time of day. -/
structure Timeval where
  tvSec : ℕ
  tvUsec : ℕ
  tvUsec_lt : tvUsec < 1000000

/-- The seconds that a time of day stands for. -/
def Timeval.seconds (t : Timeval) : ℚ := t.tvSec + t.tvUsec / 1000000

/-- The microseconds between two times, as the tools compute them; they fit a `long`. -/
def microseconds (earlier later : Timeval) : ℤ :=
  ((later.tvUsec : ℤ) - earlier.tvUsec) + ((later.tvSec : ℤ) - earlier.tvSec) * 1000000

/-- One of the two tools: the CPU that it reads for each socket. -/
structure MonitorTool where
  cpus : Fin 2 → ℕ

/-- `RaplPowerMonitor` -/
def raplPowerMonitor : MonitorTool := ⟨![0, 1]⟩

/-- `RaplPowerMonitor_serverID` -/
def raplPowerMonitorServerID : MonitorTool := ⟨![0, 12]⟩

/-- What one round reads: the energy registers of the CPUs and the time of day before and after the
pause. -/
structure PowerRound where
  before : ℕ → BitVec 64
  currentime1 : Timeval
  after : ℕ → BitVec 64
  currentime2 : Timeval

/-- A printed line. -/
structure PowerLine where
  nowtime : ℚ
  power : Fin 2 → ℚ

/-- The energy unit in joules of the register `MSR_RAPL_POWER_UNIT`. -/
def energyUnits (result1 : BitVec 64) : ℚ := (1 / 2) ^ (result1.sshiftRight 8 &&& 0x1F#64).toNat

/-- The power of one socket from two readings, which `read_msr` gives as `long long`. -/
def packagePower (energyUnits : ℚ) (before after : BitVec 64) (currentime1 currentime2 : Timeval) : ℚ :=
  let packageBefore := before.toInt * energyUnits
  let packageAfter := after.toInt * energyUnits
  (packageAfter - packageBefore) / microseconds currentime1 currentime2 * 1000000

/-- The line that one round prints. -/
def powerLine (tool : MonitorTool) (energyUnits : ℚ) (beginningtime : Timeval) (round : PowerRound) :
    PowerLine where
  nowtime := microseconds beginningtime round.currentime2 / 1000000
  power socket := packagePower energyUnits (round.before (tool.cpus socket))
    (round.after (tool.cpus socket)) round.currentime1 round.currentime2

/-- A run of a tool, with the unit register of each CPU: the lines that its rounds print. -/
def monitorLines (tool : MonitorTool) (powerUnit : ℕ → BitVec 64) (beginningtime : Timeval)
    (rounds : List PowerRound) : List PowerLine :=
  rounds.map (powerLine tool (energyUnits (powerUnit (tool.cpus 0))) beginningtime)

/-- The difference of two counters modulo their range; the counter is the low half of a register. -/
def counterDifference (before after : BitVec 64) : ℕ :=
  (after.extractLsb' 0 32 - before.extractLsb' 0 32).toNat

/-- The exponent of the energy unit, bits 12 to 8 of the unit register. -/
def energyExponent (result1 : BitVec 64) : ℕ := (result1.extractLsb' 8 5).toNat

/-- A printed power is the counted energy over the elapsed time, and so not negative. -/
structure TruePower (powerUnit before after : BitVec 64) (currentime1 currentime2 : Timeval)
    (power : ℚ) : Prop where
  eq : power = counterDifference before after * (1 / 2) ^ energyExponent powerUnit /
    (currentime2.seconds - currentime1.seconds)
  nonneg : 0 ≤ power

/-- The lines of a run print the true power of both sockets in every round, each in the unit of its own
CPU. -/
def PrintsTruePower (tool : MonitorTool) (powerUnit : ℕ → BitVec 64) (rounds : List PowerRound)
    (lines : List PowerLine) : Prop :=
  List.Forall₂ (fun round line => ∀ socket, TruePower (powerUnit (tool.cpus socket))
    (round.before (tool.cpus socket)) (round.after (tool.cpus socket))
    round.currentime1 round.currentime2 (line.power socket)) rounds lines

/-- As a signed number the register does not fall, and it rises by less than the range of the
counter. -/
def StaysOnLap (before after : BitVec 64) : Prop :=
  before.toInt ≤ after.toInt ∧ after.toInt < before.toInt + 2 ^ 32

/-- The shift and the mask of the tools select bits 12 to 8. -/
theorem energyUnits_eq (result1 : BitVec 64) : energyUnits result1 = (1 / 2) ^ energyExponent result1 := by
  have hfield : result1.sshiftRight 8 &&& 0x1F#64 = (result1.extractLsb' 8 5).setWidth 64 := by
    apply BitVec.eq_of_getLsbD_eq
    intro i hi
    have hmask : (0x1F#64).getLsbD i = decide (i < 5) := by decide +revert
    simp only [BitVec.getLsbD_and, BitVec.getLsbD_sshiftRight, hmask, BitVec.getLsbD_setWidth,
      BitVec.getLsbD_extractLsb', hi, decide_true, Bool.true_and]
    by_cases hlow : i < 5
    · simp [hlow, show ¬ 64 ≤ i by omega, show 8 + i < 64 by omega]
    · simp [hlow]
  rw [energyUnits, energyExponent, hfield, BitVec.toNat_setWidth,
    Nat.mod_eq_of_lt ((result1.extractLsb' 8 5).isLt.trans (by norm_num))]

/-- The microseconds between two times are the elapsed time, whether or not the fraction borrows. -/
theorem microseconds_eq (earlier later : Timeval) :
    (microseconds earlier later : ℚ) = (later.seconds - earlier.seconds) * 1000000 := by
  simp only [microseconds, Timeval.seconds]
  push_cast
  ring

/-- The difference of the whole registers is the difference of the counters up to full ranges. -/
theorem toInt_sub_toInt_emod (before after : BitVec 64) :
    (after.toInt - before.toInt) % 2 ^ 32 = counterDifference before after := by
  have hbefore := before.isLt
  have hafter := after.isLt
  simp only [counterDifference, BitVec.toNat_sub, BitVec.extractLsb'_toNat, Nat.shiftRight_zero,
    BitVec.toInt_eq_toNat_cond]
  split_ifs <;> push_cast <;> omega

/-- The difference of the registers is that of the counters exactly when it stays on a lap. -/
theorem toInt_sub_toInt_eq_iff (before after : BitVec 64) :
    after.toInt - before.toInt = counterDifference before after ↔ StaysOnLap before after := by
  have hmod := toInt_sub_toInt_emod before after
  have hrange : (counterDifference before after : ℤ) < 2 ^ 32 := by
    rw [← hmod]
    exact Int.emod_lt_of_pos _ (by norm_num)
  rw [StaysOnLap]
  constructor
  · intro heq
    omega
  · intro hstays
    rw [← hmod, Int.emod_eq_of_lt (by omega) (by omega)]

/-- One less than a power of two shares no factor with a power of two. -/
theorem isCoprime_two_pow_sub_one (m k : ℕ) : IsCoprime ((2 : ℤ) ^ m) (2 ^ (k + 1) - 1) := by
  have htwo : IsCoprime (2 : ℤ) (2 ^ (k + 1) - 1) := ⟨2 ^ k, -1, by ring⟩
  exact htwo.pow_left

/-- A number that is a remainder times a higher power of two, and has that remainder, is zero. -/
theorem eq_zero_of_emod_eq {d c : ℤ} (hmod : d % 2 ^ 32 = c) {k : ℕ}
    (hscaled : d = c * 2 ^ (k + 1) ∨ d * 2 ^ (k + 1) = c) : d = 0 ∧ c = 0 := by
  have hdvd : (2 ^ 32 : ℤ) ∣ d - c := by omega
  have hrange : 0 ≤ c ∧ c < 2 ^ 32 := by omega
  rcases hscaled with hlarge | hsmall
  · have hfactor : d - c = c * (2 ^ (k + 1) - 1) := by rw [hlarge]; ring
    have hc : (2 ^ 32 : ℤ) ∣ c :=
      (isCoprime_two_pow_sub_one 32 k).dvd_of_dvd_mul_right (hfactor ▸ hdvd)
    have hzero : c = 0 := Int.eq_zero_of_dvd_of_nonneg_of_lt hrange.1 hrange.2 hc
    exact ⟨by rw [hlarge, hzero, zero_mul], hzero⟩
  · have hfactor : d - c = -d * (2 ^ (k + 1) - 1) := by rw [← hsmall]; ring
    have hd : (2 ^ 32 : ℤ) ∣ -d :=
      (isCoprime_two_pow_sub_one 32 k).dvd_of_dvd_mul_right (hfactor ▸ hdvd)
    have hzero : c = 0 := by omega
    refine ⟨?_, hzero⟩
    rw [hzero] at hsmall
    exact (mul_eq_zero.mp hsmall).resolve_right (by positivity)

/-- Amounts in two units are equal only in the same unit, or if there is nothing to count. -/
theorem mul_unit_eq_iff {d c : ℤ} (hmod : d % 2 ^ 32 = c) (first own : ℕ) :
    (d : ℚ) * (1 / 2) ^ first = c * (1 / 2) ^ own ↔ d = c ∧ (own = first ∨ d = 0) := by
  have hsplit : ∀ (x y : ℤ) (n k : ℕ),
      (x : ℚ) * (1 / 2) ^ (n + (k + 1)) = y * (1 / 2) ^ n → x = y * 2 ^ (k + 1) := by
    intro x y n k h
    rw [pow_add, mul_left_comm, mul_comm, mul_left_inj' (by positivity)] at h
    have hx : (x : ℚ) = y * 2 ^ (k + 1) := by
      rw [← h, mul_assoc, ← mul_pow]
      norm_num
    exact_mod_cast hx
  constructor
  · intro h
    rcases lt_trichotomy own first with hlt | rfl | hlt
    · obtain ⟨k, rfl⟩ := Nat.exists_eq_add_of_lt hlt
      obtain ⟨hd, hc⟩ := eq_zero_of_emod_eq hmod (Or.inl (hsplit d c own k h))
      exact ⟨hd.trans hc.symm, Or.inr hd⟩
    · rw [mul_left_inj' (by positivity)] at h
      exact ⟨by exact_mod_cast h, Or.inl rfl⟩
    · obtain ⟨k, rfl⟩ := Nat.exists_eq_add_of_lt hlt
      obtain ⟨hd, hc⟩ := eq_zero_of_emod_eq hmod (Or.inr (hsplit c d first k h.symm).symm)
      exact ⟨hd.trans hc.symm, Or.inr hd⟩
  · rintro ⟨rfl, rfl | hzero⟩
    · rfl
    · rw [hzero, Int.cast_zero, zero_mul, zero_mul]
/-- The register stays on a lap, and if it does not stand still, it counts in the unit that is used. -/
def CountsInUnit (firstUnit ownUnit before after : BitVec 64) : Prop :=
  StaysOnLap before after ∧ (energyExponent ownUnit = energyExponent firstUnit ∨ before = after)

variable {currentime1 currentime2 : Timeval} (firstUnit ownUnit before after : BitVec 64)

/-- The power that is printed, by the elapsed time. -/
theorem packagePower_eq (hlater : currentime1.seconds < currentime2.seconds) :
    packagePower (energyUnits firstUnit) before after currentime1 currentime2 =
      (after.toInt - before.toInt : ℤ) * (1 / 2) ^ energyExponent firstUnit /
        (currentime2.seconds - currentime1.seconds) := by
  have helapsed : currentime2.seconds - currentime1.seconds ≠ 0 := (sub_pos.mpr hlater).ne'
  rw [packagePower, energyUnits_eq, microseconds_eq]
  push_cast
  field_simp

/-- The printed power of a socket is the true one exactly when its register stays on a lap and counts
in the unit of the first CPU. -/
theorem truePower_packagePower_iff (hlater : currentime1.seconds < currentime2.seconds) :
    TruePower ownUnit before after currentime1 currentime2
        (packagePower (energyUnits firstUnit) before after currentime1 currentime2) ↔
      CountsInUnit firstUnit ownUnit before after := by
  have helapsed : 0 < currentime2.seconds - currentime1.seconds := sub_pos.mpr hlater
  have hstill : after.toInt - before.toInt = 0 ↔ before = after := by
    rw [sub_eq_zero, BitVec.toInt_inj, eq_comm]
  have henergy := mul_unit_eq_iff (toInt_sub_toInt_emod before after) (energyExponent firstUnit)
    (energyExponent ownUnit)
  rw [Int.cast_natCast, toInt_sub_toInt_eq_iff, hstill] at henergy
  rw [CountsInUnit, ← henergy]
  constructor
  · intro htrue
    have heq := htrue.eq
    rwa [packagePower_eq firstUnit before after hlater, div_left_inj' helapsed.ne'] at heq
  · intro heq
    have hpower : packagePower (energyUnits firstUnit) before after currentime1 currentime2 =
        counterDifference before after * (1 / 2) ^ energyExponent ownUnit /
          (currentime2.seconds - currentime1.seconds) := by
      rw [packagePower_eq firstUnit before after hlater, heq]
    refine ⟨hpower, ?_⟩
    rw [hpower]
    positivity

/-- Both tools print the true power of both sockets in every round of a run exactly when no energy
register leaves its lap in a round, and none counts in another unit than that of the first CPU. -/
theorem printsTruePower_iff (tool : MonitorTool) (powerUnit : ℕ → BitVec 64)
    (beginningtime : Timeval) (rounds : List PowerRound)
    (hlater : ∀ round ∈ rounds, round.currentime1.seconds < round.currentime2.seconds) :
    PrintsTruePower tool powerUnit rounds (monitorLines tool powerUnit beginningtime rounds) ↔
      ∀ round ∈ rounds, ∀ socket, CountsInUnit (powerUnit (tool.cpus 0)) (powerUnit (tool.cpus socket))
        (round.before (tool.cpus socket)) (round.after (tool.cpus socket)) := by
  rw [PrintsTruePower, monitorLines, List.forall₂_map_right_iff, List.forall₂_same]
  refine forall₂_congr fun round hround => forall_congr' fun socket => ?_
  exact truePower_packagePower_iff _ _ _ _ (hlater round hround)

/-- A round of a tenth of a second that borrows from the seconds, with registers that rise. -/
def borrowedRound : PowerRound where
  before _ := 0x1000#64
  currentime1 := ⟨7, 950000, by decide⟩
  after _ := 0x21234#64
  currentime2 := ⟨8, 50000, by decide⟩

/-- For this round the power is printed as it is. -/
theorem printsTruePower_iff_borrowed :
    PrintsTruePower raplPowerMonitor (fun _ => 0xA0E03#64) [borrowedRound]
      (monitorLines raplPowerMonitor (fun _ => 0xA0E03#64) ⟨0, 0, by decide⟩ [borrowedRound]) := by
  rw [printsTruePower_iff raplPowerMonitor (fun _ => 0xA0E03#64) ⟨0, 0, by decide⟩ [borrowedRound] (by
    intro round hround
    rw [List.mem_singleton.mp hround]
    norm_num [borrowedRound, Timeval.seconds])]
  have hlap : StaysOnLap 0x1000#64 0x21234#64 := ⟨by decide, by decide⟩
  intro round hround socket
  rw [List.mem_singleton.mp hround]
  exact ⟨hlap, Or.inl rfl⟩

/-- When a counter starts again from zero within a tenth of a second, the printed power is negative. -/
theorem printsTruePower_fails_at_wrap :
    ¬ ∀ (tool : MonitorTool) (powerUnit : ℕ → BitVec 64) (beginningtime : Timeval)
      (rounds : List PowerRound),
      (∀ cpu, energyExponent (powerUnit cpu) = energyExponent (powerUnit 0)) →
      (∀ round ∈ rounds, round.currentime1.seconds < round.currentime2.seconds) →
        PrintsTruePower tool powerUnit rounds (monitorLines tool powerUnit beginningtime rounds) := by
  intro hevery
  have hprints := hevery raplPowerMonitor (fun _ => 0xA0E03#64) ⟨0, 0, by decide⟩
    [⟨fun _ => 0xFFFFFFFF#64, ⟨7, 0, by decide⟩, fun _ => 0x1234#64, ⟨7, 100000, by decide⟩⟩]
    (fun _ => rfl)
    (by
      intro round hround
      rw [List.mem_singleton.mp hround]
      norm_num [Timeval.seconds])
  rw [PrintsTruePower, monitorLines, List.map_singleton, List.forall₂_cons] at hprints
  have hcounts := (truePower_packagePower_iff _ _ _ _ (by norm_num [Timeval.seconds])).mp (hprints.1 0)
  exact absurd hcounts.1.1 (by decide)

end NodePower.Rapl
