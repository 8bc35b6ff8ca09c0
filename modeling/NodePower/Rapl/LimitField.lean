import NodePower.Rapl.SetPower
import Mathlib.Tactic.Ring
import Mathlib.Tactic.NormNum
import Mathlib.Tactic.Positivity

/-!
# The limit that is written and the limit that is read

The setpoint is combined with the register bit by bit: its low fifteen bits are the limit,
the second mask clears the bits above its own half word, and everything from bit 32 on is
kept. The limit that is read back is therefore the setpoint modulo the field, and it is the
target exactly when the scaled target fits into fifteen bits.
-/

namespace NodePower.Rapl

/-- What a successful run leaves of one core, for a target in watts: zero keeps the register; else
the limit decodes to the target, limit 1 is enabled and clamped with the fixed time window, and
the upper half is kept. -/
structure LimitKept (target : ℕ) (before after : Registers) : Prop where
  zero_keeps : target = 0 → after.pkgPowerLimit = before.pkgPowerLimit
  decoded : target ≠ 0 → decodedLimit after.powerUnit after.pkgPowerLimit = target
  enabled : target ≠ 0 → after.pkgPowerLimit.getLsbD 15 = true
  clamped : target ≠ 0 → after.pkgPowerLimit.getLsbD 16 = true
  timeWindow : target ≠ 0 →
    after.pkgPowerLimit.extractLsb' 17 15 = (0xD0000#64).extractLsb' 17 15
  upperHalf : target ≠ 0 →
    after.pkgPowerLimit.extractLsb' 32 32 = before.pkgPowerLimit.extractLsb' 32 32

/-- What a successful run leaves of one core for every target: the fixed fields are written for each
nonzero target that an `int` holds, and the limit decodes to a nonzero target exactly when the
scaled target fits into the fifteen bits of the field. -/
structure LimitWritten (target : ℕ) (before after : Registers) : Prop where
  zero_keeps : target = 0 → after.pkgPowerLimit = before.pkgPowerLimit
  decoded_iff : target ≠ 0 → (decodedLimit after.powerUnit after.pkgPowerLimit = target ↔
    target * 2 ^ powerUnitExponent before.powerUnit < 2 ^ 15)
  enabled : target ≠ 0 → target < 2 ^ 31 → after.pkgPowerLimit.getLsbD 15 = true
  clamped : target ≠ 0 → target < 2 ^ 31 → after.pkgPowerLimit.getLsbD 16 = true
  timeWindow : target ≠ 0 → target < 2 ^ 31 →
    after.pkgPowerLimit.extractLsb' 17 15 = (0xD0000#64).extractLsb' 17 15
  upperHalf : target ≠ 0 → target < 2 ^ 31 →
    after.pkgPowerLimit.extractLsb' 32 32 = before.pkgPowerLimit.extractLsb' 32 32

/-- The first mask clears the low half word. -/
theorem getLsbD_keepAboveLimit (i : Fin 64) :
    (0xFFFFFFFFFFFF0000#64).getLsbD i = decide (16 ≤ i.val) := by
  decide +revert

/-- The second mask clears the half word above it. -/
theorem getLsbD_keepAroundWindow (i : Fin 64) :
    (0xFFFFFFFF0000FFFF#64).getLsbD i = decide (i.val < 16 ∨ 32 ≤ i.val) := by
  decide +revert

/-- The bits that are set whatever the setpoint. -/
theorem getLsbD_fixedBits (i : Fin 64) :
    ((0x8000#64).getLsbD i = decide (i.val = 15)) ∧
      ((0xD0000#64).getLsbD i = decide (i.val = 16 ∨ i.val = 18 ∨ i.val = 19)) := by
  decide +revert

/-- Every bit of the word that is written: the setpoint below bit 15, fixed bits below bit 32, and
the register above. -/
theorem getLsbD_limitWord (reg : BitVec 64) (setpoint : BitVec 32) {i : ℕ} (hi : i < 64) :
    (limitWord reg setpoint).getLsbD i =
      if i < 15 then setpoint.getLsbD i
      else if i < 32 then decide (i = 15 ∨ i = 16 ∨ i = 18 ∨ i = 19)
      else reg.getLsbD i := by
  have habove := getLsbD_keepAboveLimit ⟨i, hi⟩
  have haround := getLsbD_keepAroundWindow ⟨i, hi⟩
  obtain ⟨henable, hfixed⟩ := getLsbD_fixedBits ⟨i, hi⟩
  simp only at habove haround henable hfixed
  simp only [limitWord, BitVec.getLsbD_or, BitVec.getLsbD_and, BitVec.getLsbD_setWidth, habove,
    haround, henable, hfixed, hi]
  rcases Nat.lt_or_ge i 15 with hlow | hlow
  · simp [hlow, show ¬ 16 ≤ i by omega, show i < 16 by omega, show i ≠ 15 by omega,
      show i ≠ 16 by omega, show i ≠ 18 by omega, show i ≠ 19 by omega]
  rcases Nat.lt_or_ge i 32 with hmid | hmid
  · rcases hlow.eq_or_lt with rfl | hlow
    · simp
    · simp [show ¬ i < 15 by omega, show ¬ i < 16 by omega, show ¬ 32 ≤ i by omega, hmid,
        show i ≠ 15 by omega]
  · simp [show ¬ i < 15 by omega, show ¬ i < 32 by omega, hmid, show i ≠ 15 by omega,
      show 16 ≤ i by omega, show i ≠ 16 by omega, show i ≠ 18 by omega, show i ≠ 19 by omega]

/-- A read that delivers all eight bytes gives the register. -/
theorem rdmsr_complete (register value : BitVec 64) : rdmsr 8 register value = register := by
  have hmask : BitVec.allOnes 64 >>> (64 - 8 * (8 : Fin 9).val) = BitVec.allOnes 64 := by decide
  simp only [rdmsr, hmask, BitVec.and_allOnes, BitVec.not_allOnes, BitVec.and_zero, BitVec.or_zero]

/-- The limit field of the word that is written is the setpoint modulo the field. -/
theorem limitField_limitWord (reg : BitVec 64) (setpoint : BitVec 32) :
    (limitWord reg setpoint &&& 0x7FFF#64).toNat = setpoint.toNat % 2 ^ 15 := by
  have hfield : limitWord reg setpoint &&& 0x7FFF#64 = setpoint.setWidth 64 &&& 0x7FFF#64 := by
    apply BitVec.eq_of_getLsbD_eq
    intro i hi
    have hmask : (0x7FFF#64).getLsbD i = decide (i < 15) := by decide +revert
    rw [BitVec.getLsbD_and, BitVec.getLsbD_and, getLsbD_limitWord reg setpoint hi, hmask,
      BitVec.getLsbD_setWidth]
    by_cases hlow : i < 15
    · simp [hlow, hi]
    · simp [hlow]
  have hsetpoint : setpoint.toNat < 2 ^ 64 := setpoint.isLt.trans (by norm_num)
  rw [hfield, BitVec.toNat_and, BitVec.toNat_setWidth, Nat.mod_eq_of_lt hsetpoint]
  exact Nat.and_two_pow_sub_one_eq_mod setpoint.toNat 15

/-- Bits 15 and 16, the time window and the upper half of the word that is written. -/
theorem fixedFields_limitWord (reg : BitVec 64) (setpoint : BitVec 32) :
    (limitWord reg setpoint).getLsbD 15 = true ∧ (limitWord reg setpoint).getLsbD 16 = true ∧
      (limitWord reg setpoint).extractLsb' 17 15 = (0xD0000#64).extractLsb' 17 15 ∧
      (limitWord reg setpoint).extractLsb' 32 32 = reg.extractLsb' 32 32 := by
  refine ⟨?_, ?_, ?_, ?_⟩
  · rw [getLsbD_limitWord reg setpoint (by norm_num)]
    rfl
  · rw [getLsbD_limitWord reg setpoint (by norm_num)]
    rfl
  · apply BitVec.eq_of_getLsbD_eq
    intro i hi
    have hfixed := (getLsbD_fixedBits ⟨17 + i, by omega⟩).2
    simp only at hfixed
    rw [BitVec.getLsbD_extractLsb', BitVec.getLsbD_extractLsb', hfixed,
      getLsbD_limitWord reg setpoint (by omega), if_neg (by omega), if_pos (by omega)]
    simp [show ¬ 17 + i = 15 by omega]
  · apply BitVec.eq_of_getLsbD_eq
    intro i hi
    rw [BitVec.getLsbD_extractLsb', BitVec.getLsbD_extractLsb',
      getLsbD_limitWord reg setpoint (by omega), if_neg (by omega), if_neg (by omega)]

/-- `atoi` reads what an `int` holds. -/
theorem toInt_atoi {n : ℕ} (hn : n < 2 ^ 31) : (atoi n).toInt = n := by
  have hmin : min n (2 ^ 63 - 1) = n := by omega
  rw [atoi, hmin, Int32.toInt_ofInt_of_le (by omega) (by omega)]

/-- The setpoint of a target is the scaled target, cut to 32 bits. -/
theorem toNat_setpoint (w u : ℕ) :
    (toUInt32 ((w : ℤ) / (1 / 2) ^ u)).toNat = w * 2 ^ u % 2 ^ 32 := by
  have hscaled : ((w : ℤ) : ℚ) / (1 / 2) ^ u = ((w * 2 ^ u : ℕ) : ℤ) := by
    rw [one_div, inv_pow, div_inv_eq_mul]
    push_cast
    ring
  rw [toUInt32, hscaled, truncate_intCast, BitVec.ofInt_natCast, BitVec.toNat_ofNat]

/-- The limit that is read back from a scaled target. -/
theorem decodedLimit_limitWord (reg powerUnit : BitVec 64) (w : ℕ) :
    decodedLimit powerUnit (limitWord reg (toUInt32 ((w : ℤ) / powerUnits powerUnit))) =
      powerUnits powerUnit * (w * 2 ^ powerUnitExponent powerUnit % 2 ^ 15 : ℕ) := by
  rw [decodedLimit, limitField_limitWord, powerUnits, toNat_setpoint, Nat.mod_mod_of_dvd]
  norm_num

/-- No register decodes to a limit whose scaled value exceeds the field. -/
theorem decodedLimit_scaled_lt (powerUnit currentval : BitVec 64) {target : ℕ}
    (hdecoded : decodedLimit powerUnit currentval = target) :
    target * 2 ^ powerUnitExponent powerUnit < 2 ^ 15 := by
  have hfield : (currentval &&& 0x7FFF#64).toNat < 2 ^ 15 := by
    rw [BitVec.toNat_and]
    exact Nat.and_lt_two_pow _ (by norm_num)
  have hscaled : ((currentval &&& 0x7FFF#64).toNat : ℚ) =
      (target * 2 ^ powerUnitExponent powerUnit : ℕ) := by
    push_cast
    rw [← hdecoded, decodedLimit, powerUnits, one_div, inv_pow]
    field_simp
  have heq : (currentval &&& 0x7FFF#64).toNat = target * 2 ^ powerUnitExponent powerUnit := by
    exact_mod_cast hscaled
  rwa [← heq]

variable (arguments : Fin 2 → ℕ) (cores : Fin 2 → Registers) (core : Fin 2)

/-- The unit register is not written. -/
theorem powerUnit_raplSetPower :
    (raplSetPower (fun _ => 8) arguments cores core).powerUnit = (cores core).powerUnit := by
  rw [raplSetPower, setCore]
  split <;> rfl

/-- A target of zero leaves the registers alone. -/
theorem raplSetPower_of_zero (hzero : arguments core = 0) :
    raplSetPower (fun _ => 8) arguments cores core = cores core := by
  simp [raplSetPower, setCore, hzero, atoi]

variable {arguments core}

/-- The limit that is written for a nonzero target which an `int` holds. -/
theorem pkgPowerLimit_raplSetPower (hpos : arguments core ≠ 0) (hint : arguments core < 2 ^ 31) :
    (raplSetPower (fun _ => 8) arguments cores core).pkgPowerLimit =
      limitWord (cores core).pkgPowerLimit
        (toUInt32 ((arguments core : ℤ) / powerUnits (cores core).powerUnit)) := by
  have hwatts : (Int32.ofInt (arguments core)).toInt = arguments core :=
    Int32.toInt_ofInt_of_le (by omega) (by omega)
  have htarget : ((arguments core : ℤ) : ℚ) ≠ 0 := by exact_mod_cast hpos
  rw [raplSetPower, setCore, toInt_atoi hint, if_pos htarget, setPowerLimit, truncate_intCast,
    hwatts, rdmsr_complete]

/-- The limit that the tool writes, for every pair of targets and all register contents. -/
theorem raplSetPower_limitWritten (arguments : Fin 2 → ℕ) (cores : Fin 2 → Registers)
    (core : Fin 2) :
    LimitWritten (arguments core) (cores core)
      (raplSetPower (fun _ => 8) arguments cores core) := by
  have hfixed : arguments core ≠ 0 → arguments core < 2 ^ 31 → _ := fun hpos hint =>
    pkgPowerLimit_raplSetPower cores hpos hint ▸ fixedFields_limitWord (cores core).pkgPowerLimit
      (toUInt32 ((arguments core : ℤ) / powerUnits (cores core).powerUnit))
  refine ⟨?_, ?_, fun hpos hint => (hfixed hpos hint).1, fun hpos hint => (hfixed hpos hint).2.1,
    fun hpos hint => (hfixed hpos hint).2.2.1, fun hpos hint => (hfixed hpos hint).2.2.2⟩
  · intro hzero
    rw [raplSetPower_of_zero arguments cores core hzero]
  · intro hpos
    rw [powerUnit_raplSetPower]
    refine ⟨decodedLimit_scaled_lt _ _, fun hfits => ?_⟩
    have hint : arguments core < 2 ^ 31 := by
      have hunit := Nat.one_le_two_pow (n := powerUnitExponent (cores core).powerUnit)
      nlinarith
    rw [pkgPowerLimit_raplSetPower cores hpos hint, decodedLimit_limitWord, Nat.mod_eq_of_lt hfits,
      powerUnits, one_div, inv_pow]
    push_cast
    field_simp

/-- With a unit of an eighth of a watt, a target of 4096 W is written as a limit of zero. -/
theorem limitKept_fails_beyond_field :
    ¬ ∀ (arguments : Fin 2 → ℕ) (cores : Fin 2 → Registers) (core : Fin 2),
      LimitKept (arguments core) (cores core) (raplSetPower (fun _ => 8) arguments cores core) := by
  intro hevery
  have hdecoded := (hevery (fun _ => 4096) (fun _ => ⟨3#64, 0#64⟩) 0).decoded (by norm_num)
  rw [powerUnit_raplSetPower] at hdecoded
  have hfits := decodedLimit_scaled_lt _ _ hdecoded
  exact absurd hfits (by decide)

end NodePower.Rapl
