import NodePower.Pcm.Traffic

/-!
# What a socket has transferred

Between two states whose counters have moved on, and by less than can be multiplied by the size of a
line, the traffic of a socket is the number of lines that its counters have gone up by, over the
elapsed time. Inactive channels have no part in this: what they would add is zero.
-/

namespace NodePower

/-- A counter does not go down, and goes up by less than `2 ^ 58`. -/
structure Grows (first last : UInt64) : Prop where
  le : first.toNat ≤ last.toNat
  bounded : last.toNat < first.toNat + 2 ^ 58

/-- The counters that pcm-memory reads have moved on from one state to the next. -/
structure Advances (before after : ServerUncoreCounterState) : Prop where
  mc : ∀ channel counter, Grows (before.mcCounter channel counter) (after.mcCounter channel counter)
  edc : ∀ channel counter,
    Grows (before.edcCounter channel counter) (after.edcCounter channel counter)
  m2m : ∀ controller counter,
    Grows (before.m2mCounter controller counter) (after.m2mCounter controller counter)
  freeRunning : ∀ counter, Option.Rel Grows (before.freeRunningCounter counter)
    (after.freeRunningCounter counter)

/-- Megabytes per second for one line in the given number of milliseconds. -/
def lineRate (elapsedTime : UInt64) : ℚ := 64 / 1000000 / (elapsedTime.toNat / 1000)

/-- The difference of a growing counter is exact. -/
theorem Grows.toNat_sub {first last : UInt64} (h : Grows first last) :
    (last - first).toNat = last.toNat - first.toNat :=
  UInt64.toNat_sub_of_le last first (UInt64.le_iff_toNat_le.mpr h.le)

/-- The difference of a growing counter is small. -/
theorem Grows.toNat_sub_lt {first last : UInt64} (h : Grows first last) :
    (last - first).toNat < 2 ^ 58 := by
  have hle := h.le
  have hbounded := h.bounded
  rw [h.toNat_sub]
  omega

/-- Few enough lines are multiplied by their size without overflow. -/
theorem toBW_of_lt (elapsedTime : UInt64) {nEvents : UInt64} (h : nEvents.toNat < 2 ^ 58) :
    toBW elapsedTime nEvents = nEvents.toNat * lineRate elapsedTime := by
  have hlines : (nEvents * 64).toNat = nEvents.toNat * 64 := by
    rw [UInt64.toNat_mul, show (64 : UInt64).toNat = 64 from rfl]
    exact Nat.mod_eq_of_lt (by omega)
  rw [toBW, hlines, lineRate]
  push_cast
  ring

/-- No lines make no traffic. -/
theorem toBW_zero (elapsedTime : UInt64) : toBW elapsedTime 0 = 0 := by
  simp [toBW]

/-- A growing counter makes the traffic of the lines it has gone up by. -/
theorem Grows.toBW_sub {first last : UInt64} (h : Grows first last) (elapsedTime : UInt64) :
    toBW elapsedTime (last - first) =
      ((last.toNat : ℚ) - first.toNat) * lineRate elapsedTime := by
  rw [toBW_of_lt elapsedTime h.toNat_sub_lt, h.toNat_sub, Nat.cast_sub h.le]

/-- Two small numbers of events that add up to zero are zero. -/
theorem eq_zero_of_add_eq_zero {first second : UInt64} (hfirst : first.toNat < 2 ^ 58)
    (hsecond : second.toNat < 2 ^ 58) (h : first + second = 0) : first = 0 ∧ second = 0 := by
  have hsum : (first + second).toNat = first.toNat + second.toNat := by
    rw [UInt64.toNat_add]
    exact Nat.mod_eq_of_lt (by omega)
  rw [h] at hsum
  have hzero : (0 : UInt64).toNat = 0 := rfl
  constructor
  · exact UInt64.toNat_inj.mp (by omega)
  · exact UInt64.toNat_inj.mp (by omega)

/-- Reads and writes of the memory controllers. -/
def SocketTraffic.cas (t : SocketTraffic) : ℚ × ℚ := (t.imcRd, t.imcWr)

/-- Reads and writes of the high-bandwidth memory. -/
def SocketTraffic.hbm (t : SocketTraffic) : ℚ × ℚ := (t.edcRd, t.edcWr)

section

variable {m : MemoryMachine} {query : TrafficQuery} {skt : ℕ}
  {before after : ServerUncoreCounterState}

/-- What the counters of a channel have gone up by is small. -/
theorem Advances.getMCCounter_lt (h : Advances before after) (channel : Fin maxChannels)
    (position : EventPosition) : (getMCCounter before after channel position).toNat < 2 ^ 58 :=
  (h.mc channel position.counter).toNat_sub_lt

/-- A skipped channel has neither read nor written. -/
theorem reads_of_channelSkipped (h : Advances before after) {channel : Fin maxChannels}
    (hskip : channelSkipped query (channelEvents before after query.metrics channel) = true) :
    getMCCounter before after channel .read = 0 ∧ getMCCounter before after channel .write = 0 := by
  simp only [channelSkipped, Bool.and_eq_true, beq_iff_eq] at hskip
  exact eq_zero_of_add_eq_zero (h.getMCCounter_lt channel .read) (h.getMCCounter_lt channel .write)
    hskip.1.1.2

/-- The other metrics leave reads and writes and the high-bandwidth memory as they are. -/
theorem addMetrics_frame (events : ChannelEvents) (partialWrites : UInt64) (numChannels1 : ℕ)
    (channel : Fin maxChannels) (t : SocketTraffic) :
    (addMetrics query events partialWrites numChannels1 channel t).cas = t.cas ∧
      (addMetrics query events partialWrites numChannels1 channel t).hbm = t.hbm := by
  unfold addMetrics
  split <;> exact ⟨rfl, rfl⟩

/-- Reads and writes leave the high-bandwidth memory as it is. -/
theorem addCas_hbm (events : ChannelEvents) (channel : Fin maxChannels) (t : SocketTraffic) :
    (addCas query events channel t).hbm = t.hbm := by
  unfold addCas
  split <;> rfl

/-- What a channel adds to reads and writes: nothing in memory mode. -/
def casAmount (query : TrafficQuery) (before after : ServerUncoreCounterState)
    (channel : Fin maxChannels) : ℚ × ℚ :=
  if query.metrics = .pmemMemoryMode then 0
  else (toBW query.elapsedTime (getMCCounter before after channel .read),
    toBW query.elapsedTime (getMCCounter before after channel .write))

/-- A skipped channel is only marked. -/
theorem imcChannel_of_skipped {channel : Fin maxChannels}
    (hskip : channelSkipped query (channelEvents before after query.metrics channel) = true)
    (t : SocketTraffic) :
    imcChannel m query skt before after t channel =
      { t with
        imcRdChan := Function.update t.imcRdChan channel (-1)
        imcWrChan := Function.update t.imcWrChan channel (-1) } :=
  if_pos hskip

/-- An active channel is added. -/
theorem imcChannel_of_active {channel : Fin maxChannels}
    (hactive : channelSkipped query (channelEvents before after query.metrics channel) = false)
    (t : SocketTraffic) :
    imcChannel m query skt before after t channel =
      addMetrics query (channelEvents before after query.metrics channel)
        (getMCCounter before after channel .partialWrite) (m.mcChannels0 skt) channel
        (addCas query (channelEvents before after query.metrics channel) channel t) :=
  if_neg (ne_true_of_eq_false hactive)

/-- Each channel adds its reads and writes, and those of a skipped one are zero. -/
theorem imcChannel_cas (h : Advances before after) (channel : Fin maxChannels) (t : SocketTraffic) :
    (imcChannel m query skt before after t channel).cas =
      t.cas + casAmount query before after channel := by
  cases hskip : channelSkipped query (channelEvents before after query.metrics channel) with
  | true =>
    obtain ⟨hreads, hwrites⟩ := reads_of_channelSkipped h hskip
    have hnothing : casAmount query before after channel = 0 := by
      rw [casAmount, hreads, hwrites, toBW_zero]
      exact ite_self 0
    rw [imcChannel_of_skipped hskip, hnothing, add_zero]
    rfl
  | false =>
    rw [imcChannel_of_active hskip, (addMetrics_frame _ _ _ _ _).1, addCas, casAmount]
    split_ifs
    · rw [add_zero]
    · rfl

/-- What a channel of the high-bandwidth memory adds. -/
def hbmAmount (m : MemoryMachine) (query : TrafficQuery) (before after : ServerUncoreCounterState)
    (channel : Fin maxChannels) : ℚ × ℚ :=
  (m.hbmCASTransferSize / 64 * toBW query.elapsedTime (getEDCCounter before after m channel .read),
    m.hbmCASTransferSize / 64 * toBW query.elapsedTime (getEDCCounter before after m channel .write))

/-- Each channel of the high-bandwidth memory adds its traffic, and that of a skipped one is zero. -/
theorem edcChannel_hbm (channel : Fin maxChannels) (t : SocketTraffic) :
    (edcChannel m query before after t channel).hbm =
      t.hbm + hbmAmount m query before after channel := by
  unfold edcChannel
  extract_lets reads writes scalingFactor rd wr
  cases hskip : query.skipInactiveChannels && reads == 0 && writes == 0 with
  | true =>
    simp only [Bool.and_eq_true, beq_iff_eq] at hskip
    have hnothing : hbmAmount m query before after channel = 0 := by
      rw [hbmAmount, show getEDCCounter before after m channel .read = 0 from hskip.1.2,
        show getEDCCounter before after m channel .write = 0 from hskip.2, toBW_zero, mul_zero]
      rfl
    rw [hnothing, add_zero]
    rfl
  | false => rfl

/-- The channels of the memory controllers leave the high-bandwidth memory as it is. -/
theorem imcChannel_hbm (channel : Fin maxChannels) (t : SocketTraffic) :
    (imcChannel m query skt before after t channel).hbm = t.hbm := by
  cases hskip : channelSkipped query (channelEvents before after query.metrics channel) with
  | true =>
    rw [imcChannel_of_skipped hskip]
    rfl
  | false =>
    rw [imcChannel_of_active hskip, (addMetrics_frame _ _ _ _ _).2, addCas_hbm]

/-- The high-bandwidth memory leaves the memory controllers as they are. -/
theorem edcChannel_cas (t : SocketTraffic) (channel : Fin maxChannels) :
    (edcChannel m query before after t channel).cas = t.cas := by
  unfold edcChannel
  extract_lets
  split <;> rfl

/-- Behind the channels only the free-running counters add to reads and writes, and nothing to the
high-bandwidth memory. -/
theorem socketTraffic_frame (m : MemoryMachine) (query : TrafficQuery) (skt : ℕ)
    (before after : ServerUncoreCounterState) :
    (socketTraffic m query skt before after).cas =
        (freeRunningCas query before after (channelLoops m query skt before after)).cas ∧
      (socketTraffic m query skt before after).hbm = (channelLoops m query skt before after).hbm := by
  have hports : ∀ t : SocketTraffic,
      ((m.cxlPorts skt).foldl (cxlPort query before after) t).cas = t.cas ∧
      ((m.cxlPorts skt).foldl (cxlPort query before after) t).hbm = t.hbm := by
    intro t
    constructor
    · exact foldl_keeps SocketTraffic.cas (fun _ _ => by rfl) (m.cxlPorts skt) t
    · exact foldl_keeps SocketTraffic.hbm (fun _ _ => by rfl) (m.cxlPorts skt) t
  have hpmm : ∀ t : SocketTraffic, (freeRunningPmm query before after t).cas = t.cas ∧
      (freeRunningPmm query before after t).hbm = t.hbm := by
    intro t
    unfold freeRunningPmm
    split <;> exact ⟨rfl, rfl⟩
  have hfree : ∀ t : SocketTraffic, (freeRunningCas query before after t).hbm = t.hbm := by
    intro t
    unfold freeRunningCas
    split <;> rfl
  constructor
  · exact (hports _).1.trans (hpmm _).1
  · exact (hports _).2.trans ((hpmm _).2.trans (hfree _))

/-- The loops add the traffic of all channels. -/
theorem channelLoops_cas (h : Advances before after) :
    (channelLoops m query skt before after).cas =
      (m.imcChannels.map (casAmount query before after)).sum := by
  have hedc : ∀ channels t, ((channels : List (Fin maxChannels)).foldl
      (edcChannel m query before after) t).cas = t.cas :=
    foldl_keeps SocketTraffic.cas edcChannel_cas
  rw [channelLoops, foldl_accumulates SocketTraffic.cas (fun c _ t => imcChannel_cas h c t)]
  split
  · rw [hedc]
    exact zero_add _
  · exact zero_add _

/-- The loops add the traffic of all channels of the high-bandwidth memory, if there is any. -/
theorem channelLoops_hbm :
    (channelLoops m query skt before after).hbm =
      if m.hbmMemoryTrafficMetricsAvailable then
        ((List.finRange maxChannels).map (hbmAmount m query before after)).sum
      else 0 := by
  rw [channelLoops, foldl_keeps SocketTraffic.hbm (fun t c => imcChannel_hbm c t)]
  split
  · rw [foldl_accumulates SocketTraffic.hbm (fun c _ t => edcChannel_hbm c t)]
    exact zero_add _
  · rfl

end

/-- The lines that a state shows for a channel of the memory controllers, read and written. -/
def channelLines (s : ServerUncoreCounterState) (channel : Fin maxChannels) : ℚ × ℚ :=
  ((s.mcCounter channel EventPosition.read.counter).toNat,
    (s.mcCounter channel EventPosition.write.counter).toNat)

/-- The number that a free-running counter shows, if there is one. -/
def freeRunningLines (s : ServerUncoreCounterState) (counter : FreeRunningCounterID) : ℚ :=
  ((s.freeRunningCounter counter).map fun lines => (lines.toNat : ℚ)).getD 0

/-- The lines that the memory controllers of a socket have read and written. -/
def casLines (m : MemoryMachine) (metrics : MemoryMetrics) (s : ServerUncoreCounterState) : ℚ × ℚ :=
  if metrics = .pmemMemoryMode then
    (freeRunningLines s .imcReads, freeRunningLines s .imcWrites)
  else (m.imcChannels.map (channelLines s)).sum

/-- The lines that a state shows for a channel of the high-bandwidth memory, read and written. -/
def edcLines (s : ServerUncoreCounterState) (channel : Fin maxChannels) : ℚ × ℚ :=
  ((s.edcCounter channel EventPosition.read.counter).toNat,
    (s.edcCounter channel EventPosition.write.counter).toNat)

/-- The lines of 64 bytes that the high-bandwidth memory of a socket has read and written, if there
is any. -/
def hbmLines (m : MemoryMachine) (s : ServerUncoreCounterState) : ℚ × ℚ :=
  if m.hbmMemoryTrafficMetricsAvailable then
    (m.hbmCASTransferSize / 64 : ℚ) • ((List.finRange maxChannels).map (edcLines s)).sum
  else 0

section

variable {m : MemoryMachine} {query : TrafficQuery} {skt : ℕ}
  {before after : ServerUncoreCounterState}

/-- A channel adds the traffic of the lines that its counters have gone up by. -/
theorem casAmount_eq (h : Advances before after) (hmetrics : query.metrics ≠ .pmemMemoryMode)
    (channel : Fin maxChannels) :
    casAmount query before after channel =
      lineRate query.elapsedTime • (channelLines after channel - channelLines before channel) := by
  have hread := (h.mc channel EventPosition.read.counter).toBW_sub query.elapsedTime
  have hwrite := (h.mc channel EventPosition.write.counter).toBW_sub query.elapsedTime
  rw [casAmount, if_neg hmetrics, getMCCounter, getMCCounter, hread, hwrite, mul_comm,
    mul_comm _ (lineRate query.elapsedTime)]
  rfl

/-- A channel of the high-bandwidth memory adds the traffic of its lines. -/
theorem hbmAmount_eq (h : Advances before after) (hhbm : m.hbmMemoryTrafficMetricsAvailable = true)
    (channel : Fin maxChannels) :
    hbmAmount m query before after channel =
      (m.hbmCASTransferSize / 64 * lineRate query.elapsedTime : ℚ) •
        (edcLines after channel - edcLines before channel) := by
  have hread := (h.edc channel EventPosition.read.counter).toBW_sub query.elapsedTime
  have hwrite := (h.edc channel EventPosition.write.counter).toBW_sub query.elapsedTime
  rw [hbmAmount, getEDCCounter, getEDCCounter, if_pos hhbm, if_pos hhbm, hread, hwrite, mul_comm _ (lineRate _),
    mul_comm _ (lineRate query.elapsedTime), ← mul_assoc, ← mul_assoc]
  rfl

/-- A free-running counter adds the traffic of the lines that it has gone up by. -/
theorem freeRunning_eq (h : Advances before after) (elapsedTime : UInt64)
    (counter : FreeRunningCounterID) :
    ((getFreeRunningCounter before after counter).map (toBW elapsedTime)).getD 0 =
      lineRate elapsedTime * (freeRunningLines after counter - freeRunningLines before counter) := by
  have hcounter := h.freeRunning counter
  cases hfirst : before.freeRunningCounter counter with
  | none =>
    rw [hfirst] at hcounter
    cases hlast : after.freeRunningCounter counter with
    | none => simp [getFreeRunningCounter, freeRunningLines, hfirst, hlast]
    | some last => rw [hlast] at hcounter; cases hcounter
  | some first =>
    rw [hfirst] at hcounter
    cases hlast : after.freeRunningCounter counter with
    | none => rw [hlast] at hcounter; cases hcounter
    | some last =>
      rw [hlast] at hcounter
      obtain ⟨hgrows⟩ := hcounter
      have hpositive : (last - first).toNat < 2 ^ 63 := hgrows.toNat_sub_lt.trans (by norm_num)
      simp only [getFreeRunningCounter, freeRunningLines, hfirst, hlast, Option.bind_eq_bind,
        Option.bind_some, if_pos hpositive, Option.map_some, Option.getD_some]
      rw [hgrows.toBW_sub, mul_comm]

/-- The reads and writes of a socket are the traffic of the lines that its counters have gone up by. -/
theorem socketTraffic_cas (h : Advances before after) :
    (socketTraffic m query skt before after).cas =
      lineRate query.elapsedTime • (casLines m query.metrics after - casLines m query.metrics before) := by
  rw [(socketTraffic_frame m query skt before after).1, freeRunningCas]
  by_cases hmetrics : query.metrics = .pmemMemoryMode
  · have hchannels : (channelLoops m query skt before after).cas = 0 := by
      have hnothing : casAmount query before after = fun _ => 0 := by
        funext channel
        exact if_pos hmetrics
      rw [channelLoops_cas h, hnothing]
      simp
    obtain ⟨hrd, hwr⟩ := Prod.mk.inj hchannels
    rw [if_pos hmetrics, casLines, casLines, if_pos hmetrics, if_pos hmetrics]
    refine Prod.ext ?_ ?_
    · change (channelLoops m query skt before after).imcRd + _ = _
      rw [hrd, zero_add, freeRunning_eq h]
      rfl
    · change (channelLoops m query skt before after).imcWr + _ = _
      rw [hwr, zero_add, freeRunning_eq h]
      rfl
  · rw [if_neg hmetrics, channelLoops_cas h, casLines, casLines, if_neg hmetrics, if_neg hmetrics,
      ← sum_map_smul_sub]
    congr 1
    refine List.map_congr_left ?_
    intro channel _
    exact casAmount_eq h hmetrics channel

/-- The high-bandwidth memory of a socket has the traffic of the lines that its counters have gone up
by. -/
theorem socketTraffic_hbm (h : Advances before after) :
    (socketTraffic m query skt before after).hbm =
      lineRate query.elapsedTime • (hbmLines m after - hbmLines m before) := by
  rw [(socketTraffic_frame m query skt before after).2, channelLoops_hbm]
  cases hhbm : m.hbmMemoryTrafficMetricsAvailable with
  | false => simp [hbmLines, hhbm]
  | true =>
    rw [if_pos rfl, hbmLines, hbmLines, if_pos hhbm, if_pos hhbm, ← smul_sub, smul_smul, mul_comm,
      ← sum_map_smul_sub]
    congr 1
    refine List.map_congr_left ?_
    intro channel _
    exact hbmAmount_eq h hhbm channel

end

/-- One socket with two channels of a controller, without high-bandwidth memory. -/
def twoChannels : MemoryMachine where
  numSockets := 1
  hbmMemoryTrafficMetricsAvailable := false
  some_socket := by decide
  within_arrays := by decide
  cpuModel := .icx
  mcChannelsPerSocket := 2
  mcChannels0 _ := 1
  numCXLPorts _ := 0
  channels_within := by decide
  ports_within _ := by decide

end NodePower
