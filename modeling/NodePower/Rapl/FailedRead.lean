import NodePower.Rapl.LimitField

/-!
# Setting the limit after a failed read

`set_power_limit` reads the register into a variable that starts at zero, does not look at
what the read returned, and writes the variable back with the new limit. After a read that
did not deliver the register the upper half is therefore what was delivered of it, and else
zero: the second limit and the lock are lost.
-/

namespace NodePower.Rapl

/-- The values that one round of the loop of `main` writes to the limit register. -/
def writtenValues (delivered : Fin 9) (registers : Registers) (powerTarget : Int32) :
    List (BitVec 64) :=
  if (powerTarget.toInt : ℚ) ≠ 0 then
    let watts := Int32.ofInt (truncate (powerTarget.toInt : ℚ))
    let setpoint := toUInt32 (watts.toInt / powerUnits registers.powerUnit)
    [limitWord (rdmsr delivered registers.pkgPowerLimit 0) setpoint]
  else []

/-- A round does not write a register that it could not read, and keeps its upper half. -/
structure LeavesAlone (delivered : Fin 9) (registers : Registers) (powerTarget : Int32) : Prop where
  unread_unwritten : delivered ≠ 8 → writtenValues delivered registers powerTarget = []
  upperHalf_kept :
    (setCore delivered registers powerTarget.toInt).pkgPowerLimit.extractLsb' 32 32 =
      registers.pkgPowerLimit.extractLsb' 32 32

variable (delivered : Fin 9) (registers : Registers) {powerTarget : Int32}

/-- A target is zero as a `double` exactly when it is zero. -/
theorem cast_toInt_eq_zero_iff : (powerTarget.toInt : ℚ) = 0 ↔ powerTarget = 0 := by
  rw [Int.cast_eq_zero, ← Int32.toInt_zero, Int32.toInt_inj]

/-- A round leaves the register with the last value it wrote, or as it was. -/
theorem pkgPowerLimit_setCore (powerTarget : Int32) :
    (setCore delivered registers powerTarget.toInt).pkgPowerLimit =
      (writtenValues delivered registers powerTarget).getLastD registers.pkgPowerLimit := by
  by_cases hzero : (powerTarget.toInt : ℚ) = 0
  · rw [writtenValues, setCore, if_neg (not_not.mpr hzero), if_neg (not_not.mpr hzero)]
    rfl
  · rw [writtenValues, setCore, if_pos hzero, if_pos hzero]
    rfl

/-- A round writes nothing exactly for a target of zero, whatever the read delivers. -/
theorem writtenValues_eq_nil_iff : writtenValues delivered registers powerTarget = [] ↔ powerTarget = 0 := by
  rw [writtenValues, ← cast_toInt_eq_zero_iff]
  split
  · rename_i hne
    exact iff_of_false (List.cons_ne_nil _ _) hne
  · rename_i hzero
    exact iff_of_true rfl (not_not.mp hzero)

/-- The upper half of the register after a nonzero target is the upper half of what was delivered. -/
theorem upperHalf_setCore (hne : powerTarget ≠ 0) :
    (setCore delivered registers powerTarget.toInt).pkgPowerLimit.extractLsb' 32 32 =
      (rdmsr delivered registers.pkgPowerLimit 0).extractLsb' 32 32 := by
  rw [setCore, if_pos (cast_toInt_eq_zero_iff.not.mpr hne), setPowerLimit]
  exact (fixedFields_limitWord _ _).2.2.2

/-- After a read of at most four bytes, as after an error, the upper half is erased. -/
theorem upperHalf_erased (hshort : delivered ≤ 4) (hne : powerTarget ≠ 0) :
    (setCore delivered registers powerTarget.toInt).pkgPowerLimit.extractLsb' 32 32 = 0 := by
  rw [upperHalf_setCore delivered registers hne]
  apply BitVec.eq_of_getLsbD_eq
  intro i hi
  have hcount : delivered.val ≤ 4 := hshort
  have hmask : (BitVec.allOnes 64 >>> (64 - 8 * delivered.val)).getLsbD (32 + i) = false := by
    rw [BitVec.getLsbD_ushiftRight, BitVec.getLsbD_allOnes, decide_eq_false_iff_not]
    omega
  simp only [rdmsr, BitVec.getLsbD_extractLsb', BitVec.getLsbD_or, BitVec.getLsbD_and, hmask,
    BitVec.ofNat_eq_ofNat, BitVec.getLsbD_zero, Bool.and_false, Bool.false_and, Bool.or_self]

/-- For every pair of targets and all register contents, the tool leaves both registers alone exactly
when each is read in full or has a target of zero. -/
theorem leavesAlone_iff (delivered : Fin 2 → Fin 9) (cores : Fin 2 → Registers)
    (targets : Fin 2 → Int32) :
    (∀ core, LeavesAlone (delivered core) (cores core) (targets core)) ↔
      ∀ core, delivered core = 8 ∨ targets core = 0 := by
  refine forall_congr' fun core => ?_
  constructor
  · intro halone
    by_cases hread : delivered core = 8
    · exact Or.inl hread
    · exact Or.inr ((writtenValues_eq_nil_iff _ _).mp (halone.unread_unwritten hread))
  · intro hcondition
    by_cases hzero : targets core = 0
    · have hunwritten := (writtenValues_eq_nil_iff (delivered core) (cores core)).mpr hzero
      refine ⟨fun _ => hunwritten, ?_⟩
      rw [pkgPowerLimit_setCore, hunwritten]
      rfl
    · have hread := hcondition.resolve_right hzero
      refine ⟨fun hunread => absurd hread hunread, ?_⟩
      rw [upperHalf_setCore _ _ hzero, hread, rdmsr_complete]

/-- When the read of a register with a second limit fails, a target of 100 W erases that limit. -/
theorem leavesAlone_fails_on_error :
    ¬ ∀ (delivered : Fin 2 → Fin 9) (cores : Fin 2 → Registers) (targets : Fin 2 → Int32) (core : Fin 2),
      LeavesAlone (delivered core) (cores core) (targets core) := by
  intro hevery
  have hkept := (hevery (fun _ => 0) (fun _ => ⟨3#64, 0x0042834800DD8320#64⟩) (fun _ => 100) 0).upperHalf_kept
  rw [upperHalf_erased _ _ (by decide) (by decide)] at hkept
  exact absurd hkept (by decide)

end NodePower.Rapl
