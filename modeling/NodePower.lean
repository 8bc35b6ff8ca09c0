import NodePower.Launch.Parameters
import NodePower.Launch.Monitors
import NodePower.Pcm.HistorySpec
import NodePower.Pcm.Bursts
import NodePower.Pcm.Budget
import NodePower.Pcm.WindowSafety
import NodePower.Pcm.Bandwidth
import NodePower.Pcm.ThroughputLog
import NodePower.Pcm.MainLoop
import NodePower.Pcm.MemoryMode
import NodePower.Pcm.CsvDisplay
import NodePower.Pcm.ChaEvents
import NodePower.Ups.Settling
import NodePower.Ups.StepDown
import NodePower.Ups.Wraparound
import NodePower.Ups.SensorFailures
import NodePower.Ups.Ipc
import NodePower.Ups.Script
import NodePower.SampleStorage
import NodePower.Rapl.LimitField
import NodePower.Rapl.FailedRead
import NodePower.Rapl.PowerMonitor
import NodePower.Uncore.RoundTrip
import NodePower.Uncore.Validation
import NodePower.Uncore.SharedRegisters
import NodePower.Soc.Governor
import NodePower.Soc.Measured
import NodePower.Cpu.Accounting
import NodePower.EnergyModes
import NodePower.Gpu.GpuOrder
import NodePower.Gpu.Dcgm
import NodePower.Perf.Framing
import NodePower.Perf.Synchronised
import NodePower.Sweep.Rows
import NodePower.PowerMotif
import NodePower.Caps.Pipeline
import NodePower.Common.MonotoneRounding
