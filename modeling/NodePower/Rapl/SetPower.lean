import NodePower.Common.DecimalRounding

/-!
# Setting and reading the package power limit

`RaplSetPower` takes a limit in watts for each of two cores, scales it by the power unit of
the core and writes it into `MSR_PKG_RAPL_POWER_LIMIT`; a target of zero leaves the register
alone. `RaplPowerMonitor` reads a limit from the low fifteen bits of that register. It applies
the unit of the first core to both limits; here each limit is decoded with the unit of its
own core.

The unit is a power of two and a target is an `int`, so the divisions of the source are exact.
-/

namespace NodePower.Rapl

/-- The registers of one core that the tools use. -/
structure Registers where
  powerUnit : BitVec 64
  pkgPowerLimit : BitVec 64

/-- `atoi` on the numeral of a natural number: `strtol` stops at the largest `long`, and the result
is cut to an `int`. -/
def atoi (numeral : ℕ) : Int32 := Int32.ofInt (min numeral (2 ^ 63 - 1) : ℕ)

/-- Conversion of a `double` to `uint32_t`: without its fraction, the low 32 bits. -/
def toUInt32 (x : ℚ) : BitVec 32 := BitVec.ofInt 32 (truncate x)

/-- The exponent of the power unit. -/
def powerUnitExponent (result : BitVec 64) : ℕ := (result &&& 0xF#64).toNat

/-- The power unit in watts, one half to the power of the exponent. -/
def powerUnits (result : BitVec 64) : ℚ := (1 / 2) ^ powerUnitExponent result

/-- The variable that `rdmsr` fills when `pread` delivers a number of bytes of the register, none on
an error. -/
def rdmsr (delivered : Fin 9) (register value : BitVec 64) : BitVec 64 :=
  let mask := BitVec.allOnes 64 >>> (64 - 8 * delivered.val)
  (register &&& mask) ||| (value &&& ~~~mask)

/-- The register content that `set_power_limit` builds from the one it read. -/
def limitWord (reg : BitVec 64) (setpoint : BitVec 32) : BitVec 64 :=
  let reg := (reg &&& 0xFFFFFFFFFFFF0000#64) ||| setpoint.setWidth 64 ||| 0x8000#64
  (reg &&& 0xFFFFFFFF0000FFFF#64) ||| 0xD0000#64

/-- `set_power_limit`, writing the register whatever the read delivered. -/
def setPowerLimit (delivered : Fin 9) (registers : Registers) (watts : Int32) (pu : ℚ) : Registers :=
  let setpoint := toUInt32 (watts.toInt / pu)
  let reg := rdmsr delivered registers.pkgPowerLimit 0
  { registers with pkgPowerLimit := limitWord reg setpoint }

/-- One round of the loop of `main` over the cores. -/
def setCore (delivered : Fin 9) (registers : Registers) (powerTarget : ℚ) : Registers :=
  if powerTarget ≠ 0 then
    setPowerLimit delivered registers (Int32.ofInt (truncate powerTarget))
      (powerUnits registers.powerUnit)
  else registers

/-- The registers of both cores after `main` with one argument for each core. -/
def raplSetPower (delivered : Fin 2 → Fin 9) (arguments : Fin 2 → ℕ) (cores : Fin 2 → Registers)
    (core : Fin 2) : Registers :=
  setCore (delivered core) (cores core) (atoi (arguments core)).toInt

/-- The limit in watts that the monitor reads from a register. -/
def decodedLimit (powerUnit currentval : BitVec 64) : ℚ :=
  powerUnits powerUnit * (currentval &&& 0x7FFF#64).toNat

end NodePower.Rapl
