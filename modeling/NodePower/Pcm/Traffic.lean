import NodePower.Common.Accumulators
import NodePower.Common.DecimalRounding
import NodePower.Pcm.Bandwidth

/-!
# From counters to traffic

`calculate_bandwidth` takes two states of the uncore counters and the time between them, and fills
one `memdata` record: the traffic of every channel and every socket. The counters have 64 bits and
their differences wrap. What is counted at a position depends on the metrics that were programmed.
A channel that counted nothing is skipped, unless the option `-all` was given, and then its traffic is
marked with a negative number.

Numbers of type `float` are exact. The quotients by an elapsed time of zero, which are infinite, are
not modelled: results are for samples that took some time.
-/

namespace NodePower

/-- `ServerUncoreCounterState::maxChannels`, the bound of the arrays over the channels. -/
def maxChannels : ℕ := 32

/-- `ServerUncoreCounterState::maxControllers`. -/
def maxControllers : ℕ := 4

/-- `ServerUncoreCounterState::maxCXLPorts`. -/
def maxCXLPorts : ℕ := 6

/-- `ServerUncoreCounterState::maxCounters`. -/
def maxCounters : ℕ := 8

/-- `ServerUncoreMemoryMetrics`. -/
inductive MemoryMetrics where
  | partialWrites
  | pmem
  | pmemMemoryMode
  | pmemMixedMode
  deriving DecidableEq

/-- `anyPmem`. -/
def anyPmem (metrics : MemoryMetrics) : Bool :=
  metrics == .pmem || metrics == .pmemMixedMode || metrics == .pmemMemoryMode

/-- The processor models that pcm-memory tells apart. -/
inductive CPUModel where
  | skx
  | icx
  | spr
  | emr
  | other
  deriving DecidableEq

/-- The positions of `ServerUncorePMUs::EventPosition` and, for the CXL ports, of
`PCM::EventPosition`, among the counters of a unit. -/
inductive EventPosition where
  | read
  | write
  | partialWrite
  | pmmRead
  | pmmWrite
  | pmmMissClean
  | pmmMissDirty
  | nmHit
  | cxlTxCMem
  | cxlTxCCache

/-- The number of a position; several events share one counter. -/
def EventPosition.counter : EventPosition → Fin maxCounters
  | .read | .nmHit | .cxlTxCMem => ⟨0, by decide⟩
  | .write | .cxlTxCCache => ⟨1, by decide⟩
  | .partialWrite | .pmmRead | .pmmMissClean => ⟨2, by decide⟩
  | .pmmWrite | .pmmMissDirty => ⟨3, by decide⟩

/-- `FreeRunningCounterID`. -/
inductive FreeRunningCounterID where
  | imcReads
  | imcWrites
  | pmmReads
  | pmmWrites

/-- The counters of one socket in a `ServerUncoreCounterState`. -/
structure ServerUncoreCounterState where
  mcCounter : Fin maxChannels → Fin maxCounters → UInt64
  edcCounter : Fin maxChannels → Fin maxCounters → UInt64
  m2mCounter : Fin maxControllers → Fin maxCounters → UInt64
  cxlcmCounter : Fin maxCXLPorts → Fin maxCounters → UInt64
  freeRunningCounter : FreeRunningCounterID → Option UInt64

/-- What pcm-memory asks about the memory of a machine: its channels and those of the first
controller of each socket, its CXL ports, and its processor. -/
structure MemoryMachine extends Machine where
  cpuModel : CPUModel
  mcChannelsPerSocket : ℕ
  mcChannels0 : ℕ → ℕ
  numCXLPorts : ℕ → ℕ
  channels_within : mcChannelsPerSocket ≤ maxChannels
  ports_within : ∀ skt, numCXLPorts skt ≤ maxCXLPorts

/-- `getHBMCASTransferSize`. -/
def MemoryMachine.hbmCASTransferSize (m : MemoryMachine) : ℕ := if m.cpuModel = .spr then 32 else 64

/-- The channels below `max_imc_channels`, which pcm-memory sets to the channels of a socket. -/
def MemoryMachine.imcChannels (m : MemoryMachine) : List (Fin maxChannels) :=
  (List.finRange maxChannels).take m.mcChannelsPerSocket

/-- The CXL ports of a socket. -/
def MemoryMachine.cxlPorts (m : MemoryMachine) (skt : ℕ) : List (Fin maxCXLPorts) :=
  (List.finRange maxCXLPorts).take (m.numCXLPorts skt)

/-- What one socket contributes to the `memdata` record. -/
structure SocketTraffic where
  imcRdChan : Fin maxChannels → ℚ
  imcWrChan : Fin maxChannels → ℚ
  imcPmmRdChan : Fin maxChannels → ℚ
  imcPmmWrChan : Fin maxChannels → ℚ
  imcPmmMissChan : Fin maxChannels → ℚ
  imcRd : ℚ
  imcWr : ℚ
  imcPmmRd : ℚ
  imcPmmWr : ℚ
  imcPmmMiss : ℚ
  imcPmmHit : ℚ
  imcNMHitRate : ℚ
  m2mNMReadHitRate : Fin maxControllers → ℚ
  edcRdChan : Fin maxChannels → ℚ
  edcWrChan : Fin maxChannels → ℚ
  edcRd : ℚ
  edcWr : ℚ
  partialWrite : UInt64
  cxlMemWr : Fin maxCXLPorts → ℚ
  cxlCacheWr : Fin maxCXLPorts → ℚ

/-- A socket after its numbers have been set to zero. -/
def clearedTraffic : SocketTraffic :=
  ⟨fun _ => 0, fun _ => 0, fun _ => 0, fun _ => 0, fun _ => 0, 0, 0, 0, 0, 0, 0, 0, fun _ => 0,
    fun _ => 0, fun _ => 0, 0, 0, 0, fun _ => 0, fun _ => 0⟩

/-- What a call of `calculate_bandwidth` is about: the metrics, whether inactive channels are
skipped, and the elapsed time in milliseconds. -/
structure TrafficQuery where
  metrics : MemoryMetrics
  skipInactiveChannels : Bool
  elapsedTime : UInt64

/-- `toBW`: lines of 64 bytes in megabytes per second. -/
def toBW (elapsedTime nEvents : UInt64) : ℚ :=
  (nEvents * 64).toNat / 1000000 / (elapsedTime.toNat / 1000)

/-- A number of events per second. -/
def perSecond (elapsedTime nEvents : UInt64) : ℚ := nEvents.toNat / (elapsedTime.toNat / 1000)

section

variable (before after : ServerUncoreCounterState)

/-- `getMCCounter`. -/
def getMCCounter (channel : Fin maxChannels) (position : EventPosition) : UInt64 :=
  after.mcCounter channel position.counter - before.mcCounter channel position.counter

/-- `getEDCCounter`, which is zero without high-bandwidth memory. -/
def getEDCCounter (m : MemoryMachine) (channel : Fin maxChannels) (position : EventPosition) : UInt64 :=
  if m.hbmMemoryTrafficMetricsAvailable then
    after.edcCounter channel position.counter - before.edcCounter channel position.counter
  else 0

/-- `getM2MCounter`. -/
def getM2MCounter (controller : Fin maxControllers) (position : EventPosition) : UInt64 :=
  after.m2mCounter controller position.counter - before.m2mCounter controller position.counter

/-- `getCXLCMCounter`. -/
def getCXLCMCounter (port : Fin maxCXLPorts) (position : EventPosition) : UInt64 :=
  after.cxlcmCounter port position.counter - before.cxlcmCounter port position.counter

/-- `getFreeRunningCounter`, or nothing where its result is negative: the counter is missing in one
of the states, or the difference has its highest bit set. -/
def getFreeRunningCounter (counter : FreeRunningCounterID) : Option UInt64 := do
  let first ← before.freeRunningCounter counter
  let last ← after.freeRunningCounter counter
  if (last - first).toNat < 2 ^ 63 then some (last - first) else none

/-- The numbers of events that the loop over the channels reads first. -/
structure ChannelEvents where
  reads : UInt64
  writes : UInt64
  pmmReads : UInt64
  pmmWrites : UInt64
  cleanMisses : UInt64
  dirtyMisses : UInt64
  hits : UInt64

/-- The events of a channel; those that the metrics do not count are zero. -/
def channelEvents (metrics : MemoryMetrics) (channel : Fin maxChannels) : ChannelEvents :=
  let count (position : EventPosition) := getMCCounter before after channel position
  { reads := count .read
    writes := count .write
    pmmReads := if metrics = .pmem then count .pmmRead else 0
    pmmWrites := if metrics = .pmem then count .pmmWrite else 0
    cleanMisses :=
      if metrics = .pmemMixedMode ∨ metrics = .pmemMemoryMode then count .pmmMissClean else 0
    dirtyMisses :=
      if metrics = .pmemMixedMode ∨ metrics = .pmemMemoryMode then count .pmmMissDirty else 0
    hits := if metrics = .pmemMemoryMode then count .nmHit else 0 }

/-- The condition under which a channel is skipped. -/
def channelSkipped (query : TrafficQuery) (events : ChannelEvents) : Bool :=
  query.skipInactiveChannels && events.reads + events.writes == 0 &&
    (query.metrics != .pmem || events.pmmReads + events.pmmWrites == 0) &&
    (query.metrics != .pmemMixedMode || events.cleanMisses + events.dirtyMisses == 0)

end

/-- The traffic of an active channel is added, except in memory mode. -/
def addCas (query : TrafficQuery) (events : ChannelEvents) (channel : Fin maxChannels)
    (t : SocketTraffic) : SocketTraffic :=
  if query.metrics = .pmemMemoryMode then t
  else
    let rd := toBW query.elapsedTime events.reads
    let wr := toBW query.elapsedTime events.writes
    { t with
      imcRdChan := Function.update t.imcRdChan channel rd
      imcWrChan := Function.update t.imcWrChan channel wr
      imcRd := t.imcRd + rd
      imcWr := t.imcWr + wr }

/-- What the metrics count besides reads and writes is added. -/
def addMetrics (query : TrafficQuery) (events : ChannelEvents) (partialWrites : UInt64)
    (numChannels1 : ℕ) (channel : Fin maxChannels) (t : SocketTraffic) : SocketTraffic :=
  match query.metrics with
  | .pmem =>
    let rd := toBW query.elapsedTime events.pmmReads
    let wr := toBW query.elapsedTime events.pmmWrites
    let controller : Fin maxControllers :=
      if channel.val < numChannels1 then ⟨0, by decide⟩ else ⟨1, by decide⟩
    { t with
      imcPmmRdChan := Function.update t.imcPmmRdChan channel rd
      imcPmmWrChan := Function.update t.imcPmmWrChan channel wr
      imcPmmRd := t.imcPmmRd + rd
      imcPmmWr := t.imcPmmWr + wr
      m2mNMReadHitRate := Function.update t.m2mNMReadHitRate controller
        (t.m2mNMReadHitRate controller + events.reads.toNat) }
  | .pmemMixedMode =>
    let miss := toBW query.elapsedTime (events.cleanMisses + 2 * events.dirtyMisses)
    { t with
      imcPmmMissChan := Function.update t.imcPmmMissChan channel miss
      imcPmmMiss := t.imcPmmMiss + miss }
  | .pmemMemoryMode =>
    { t with
      imcPmmMiss := t.imcPmmMiss +
        perSecond query.elapsedTime (events.cleanMisses + events.dirtyMisses)
      imcPmmHit := t.imcPmmHit + perSecond query.elapsedTime events.hits }
  | .partialWrites =>
    { t with
      partialWrite := t.partialWrite +
        UInt64.ofInt (truncate (perSecond query.elapsedTime partialWrites)) }

section

variable (m : MemoryMachine) (query : TrafficQuery) (skt : ℕ)
  (before after : ServerUncoreCounterState)

/-- One pass of the loop over the channels of the memory controllers. -/
def imcChannel (t : SocketTraffic) (channel : Fin maxChannels) : SocketTraffic :=
  let events := channelEvents before after query.metrics channel
  if channelSkipped query events then
    { t with
      imcRdChan := Function.update t.imcRdChan channel (-1)
      imcWrChan := Function.update t.imcWrChan channel (-1) }
  else
    addMetrics query events (getMCCounter before after channel .partialWrite) (m.mcChannels0 skt)
      channel (addCas query events channel t)

/-- One pass of the loop over the channels of the high-bandwidth memory. -/
def edcChannel (t : SocketTraffic) (channel : Fin maxChannels) : SocketTraffic :=
  let reads := getEDCCounter before after m channel .read
  let writes := getEDCCounter before after m channel .write
  if query.skipInactiveChannels && reads == 0 && writes == 0 then
    { t with
      edcRdChan := Function.update t.edcRdChan channel (-1)
      edcWrChan := Function.update t.edcWrChan channel (-1) }
  else
    let scalingFactor : ℚ := m.hbmCASTransferSize / 64
    let rd := scalingFactor * toBW query.elapsedTime reads
    let wr := scalingFactor * toBW query.elapsedTime writes
    { t with
      edcRdChan := Function.update t.edcRdChan channel rd
      edcWrChan := Function.update t.edcWrChan channel wr
      edcRd := t.edcRd + rd
      edcWr := t.edcWr + wr }

/-- In memory mode reads and writes come from the free-running counters. -/
def freeRunningCas (t : SocketTraffic) : SocketTraffic :=
  if query.metrics = .pmemMemoryMode then
    { t with
      imcRd := t.imcRd +
        ((getFreeRunningCounter before after .imcReads).map (toBW query.elapsedTime)).getD 0
      imcWr := t.imcWr +
        ((getFreeRunningCounter before after .imcWrites).map (toBW query.elapsedTime)).getD 0 }
  else t

/-- The traffic that all controllers of a socket count at one position. -/
def m2mTraffic (position : EventPosition) : ℚ :=
  ((List.finRange maxControllers).map fun c =>
    toBW query.elapsedTime (getM2MCounter before after c position)).sum

/-- In mixed and memory mode the traffic of the persistent memory comes from the free-running
counters or, where there are none, from the controllers. -/
def freeRunningPmm (t : SocketTraffic) : SocketTraffic :=
  if query.metrics = .pmemMixedMode ∨ query.metrics = .pmemMemoryMode then
    { t with
      imcPmmRd := t.imcPmmRd +
        ((getFreeRunningCounter before after .pmmReads).map (toBW query.elapsedTime)).getD
          (m2mTraffic query before after .pmmRead)
      imcPmmWr := t.imcPmmWr +
        ((getFreeRunningCounter before after .pmmWrites).map (toBW query.elapsedTime)).getD
          (m2mTraffic query before after .pmmWrite) }
  else t

/-- The hit rates of the near memory, where something was counted. -/
def hitRates (t : SocketTraffic) : SocketTraffic :=
  let all := t.imcPmmMiss + t.imcPmmHit
  { t with
    m2mNMReadHitRate := fun c =>
      if query.metrics = .pmem ∧ t.m2mNMReadHitRate c ≠ 0 then
        (getM2MCounter before after c .nmHit).toNat / t.m2mNMReadHitRate c
      else t.m2mNMReadHitRate c
    imcNMHitRate :=
      if query.metrics = .pmemMemoryMode ∧ all ≠ 0 then t.imcPmmHit / all else t.imcNMHitRate }

/-- The traffic of a CXL port. -/
def cxlPort (t : SocketTraffic) (port : Fin maxCXLPorts) : SocketTraffic :=
  let traffic (position : EventPosition) : ℚ :=
    1 / 2 * toBW query.elapsedTime (getCXLCMCounter before after port position)
  { t with
    cxlMemWr := Function.update t.cxlMemWr port (traffic .cxlTxCMem)
    cxlCacheWr := Function.update t.cxlCacheWr port (traffic .cxlTxCCache) }

/-- The two loops over the channels. -/
def channelLoops : SocketTraffic :=
  m.imcChannels.foldl (imcChannel m query skt before after)
    (if m.hbmMemoryTrafficMetricsAvailable then
      (List.finRange maxChannels).foldl (edcChannel m query before after) clearedTraffic
    else clearedTraffic)

/-- What `calculate_bandwidth` does for one socket, in its order. -/
def socketTraffic : SocketTraffic :=
  let t := channelLoops m query skt before after
  let t := freeRunningCas query before after t
  let t := freeRunningPmm query before after t
  let t := hitRates query before after t
  (m.cxlPorts skt).foldl (cxlPort query before after) t

end

/-- The state of the uncore counters of all sockets. -/
abbrev UncoreStates := ℕ → ServerUncoreCounterState

/-- The `memdata` record that `calculate_bandwidth` fills, socket by socket. -/
def memdata (m : MemoryMachine) (query : TrafficQuery) (uncState1 uncState2 : UncoreStates)
    (skt : ℕ) : SocketTraffic :=
  if skt < m.numSockets.toNat then socketTraffic m query skt (uncState1 skt) (uncState2 skt)
  else clearedTraffic

/-- The part of the record that `display_bandwidth` adds up. -/
def memData (md : ℕ → SocketTraffic) : MemData where
  imcRdSocket := Vector.ofFn fun skt => (md skt).imcRd
  imcWrSocket := Vector.ofFn fun skt => (md skt).imcWr
  imcPmmRdSocket := Vector.ofFn fun skt => (md skt).imcPmmRd
  imcPmmWrSocket := Vector.ofFn fun skt => (md skt).imcPmmWr
  edcRdSocket := Vector.ofFn fun skt => (md skt).edcRd
  edcWrSocket := Vector.ofFn fun skt => (md skt).edcWr

end NodePower
