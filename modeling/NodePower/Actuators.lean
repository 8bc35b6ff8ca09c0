import Mathlib.Data.Rat.Init

/-!
# The actuators of the node

The monitors and controllers act on the node through two shell commands. One sets the
uncore frequency of both sockets in GHz, the other the power limit of the GPUs in watts.
What has been commanded last is all that the models know of the hardware.
-/

namespace NodePower

/-- The command `set_uncore_freq.sh cpu0 cpu1`, with the numbers that its arguments denote. -/
structure UncoreCommand where
  cpu0 : ℚ
  cpu1 : ℚ
  deriving DecidableEq

/-- The shell commands of the throughput controller: `set_uncore_freq.sh` with the two frequencies
it is given, and `nvidia-smi -pl` with a limit in watts. -/
inductive Command where
  | setUncoreFreq (cpu0 cpu1 : ℚ)
  | setGpuPowerLimit (watts : ℕ)
  deriving DecidableEq

/-- What the commands issued so far have set: the frequency last commanded for each socket and
the last GPU power limit, if any. -/
structure Hardware where
  cpu0 : ℚ
  cpu1 : ℚ
  gpuLimit : Option ℕ

/-- The effect of one command. -/
def Hardware.apply (hw : Hardware) : Command → Hardware
  | .setUncoreFreq cpu0 cpu1 => { hw with cpu0, cpu1 }
  | .setGpuPowerLimit watts => { hw with gpuLimit := some watts }

end NodePower
