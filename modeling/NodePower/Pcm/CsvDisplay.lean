import NodePower.Common.CallTrace
import NodePower.Common.CsvTable
import NodePower.Pcm.MainLoop

/-!
# The table that pcm-memory writes

With the option `-csv` each pass writes one row of values, and the first pass writes two rows of headers
in front of it. Headers and values come out of the same function, which is called once for each of the
rows, and a channel of the high-bandwidth memory that is marked as inactive is left out of all of them.
So the rows of the later passes fit the headers only as far as the same channels are active.

The passes that show ranks are not part of this.
-/

namespace NodePower

/-- `CsvOutputType`. -/
inductive CsvOutputType where
  | header1
  | header2
  | data
  | header21
  | json

/-- A column of the table: its two headers and the value. -/
structure CsvColumn where
  header1 : Cell
  header2 : Cell
  data : Cell

/-- `choose`, for one column. -/
def choose (outputType : CsvOutputType) (column : CsvColumn) : Cell :=
  match outputType with
  | .header1 | .header21 => column.header1
  | .header2 => column.header2
  | .data | .json => column.data

/-- What names a column: its two headers. -/
def CsvColumn.name (column : CsvColumn) : Text × Text := (column.header1.text, column.header2.text)

/-- What `pcm_localtime` returns: the fields of a `tm` that are printed, and the milliseconds. -/
structure LocalTime where
  tmYear : ℕ
  tmMon : ℕ
  tmMday : ℕ
  tmHour : ℕ
  tmMin : ℕ
  tmSec : ℕ
  milliseconds : ℕ

/-- The columns of `printDateForCSV`. -/
def dateColumns (t : LocalTime) : List CsvColumn :=
  [⟨.word "", .word "Date", .padded 4 (1900 + t.tmYear) ++ .word "-" ++ .padded 2 (1 + t.tmMon) ++
      .word "-" ++ .padded 2 t.tmMday⟩,
    ⟨.word "", .word "Time", .padded 2 t.tmHour ++ .word ":" ++ .padded 2 t.tmMin ++ .word ":" ++
      .padded 2 t.tmSec ++ .word "." ++ .padded 3 t.milliseconds⟩]

/-- What the command line has fixed for the table. -/
structure CsvSettings where
  metrics : MemoryMetrics
  showChannelOutput : Bool
  skipInactiveChannels : Bool

/-- A number with two decimals in a field of eight characters. -/
def value8 (x : ℚ) : Cell := .setw 8 (.fixed 2 x)

/-- A number with two decimals in a field of ten characters. -/
def value10 (x : ℚ) : Cell := .setw 10 (.fixed 2 x)

/-- `AD_BW`. -/
def adBW (t : SocketTraffic) : ℚ := max (t.imcPmmRd + t.imcPmmWr - t.imcPmmMiss) 0

/-- `PMM_MM_Ratio` as it is printed: a quotient by zero is infinite or not a number. -/
def pmmMMRatio (t : SocketTraffic) : Cell :=
  let dram := t.imcRd + t.imcWr
  .setw 8 (if dram ≠ 0 then .fixed 2 (t.imcPmmMiss / dram)
    else if t.imcPmmMiss = 0 then .word "-nan"
    else if t.imcPmmMiss < 0 then .word "-inf" else .word "inf")

section

variable (m : MemoryMachine) (settings : CsvSettings)

/-- The first header of all columns of a socket. -/
def sktCell (skt : ℕ) : Cell := .word "SKT" ++ .number skt

/-- The columns of a channel of the memory controllers: both values of an inactive one stay empty. -/
def imcColumns (skt : ℕ) (t : SocketTraffic) (channel : Fin maxChannels) : List CsvColumn :=
  let invalidData := t.imcRdChan channel < 0 ∧ t.imcWrChan channel < 0
  let value (x : ℚ) : Cell := if invalidData then .word "" else value8 x
  let ch := Cell.word "Ch" ++ .number channel
  [⟨sktCell skt, ch ++ .word "Read", value (t.imcRdChan channel)⟩,
    ⟨sktCell skt, ch ++ .word "Write", value (t.imcWrChan channel)⟩] ++
  if settings.metrics = .pmem then
    [⟨sktCell skt, ch ++ .word "PMM_Read", value (t.imcPmmRdChan channel)⟩,
      ⟨sktCell skt, ch ++ .word "PMM_Write", value (t.imcPmmWrChan channel)⟩]
  else []

/-- The columns of a socket in front of those of its high-bandwidth memory. -/
def memoryColumns (skt : ℕ) (t : SocketTraffic) : List CsvColumn :=
  (if settings.showChannelOutput then m.imcChannels.flatMap (imcColumns settings skt t) else []) ++
  [⟨sktCell skt, .word "Mem Read (MB/s)", value8 t.imcRd⟩,
    ⟨sktCell skt, .word "Mem Write (MB/s)", value8 t.imcWr⟩] ++
  (if anyPmem settings.metrics then
    [⟨sktCell skt, .word "PMM_Read (MB/s)", value8 t.imcPmmRd⟩,
      ⟨sktCell skt, .word " PMM_Write (MB/s)", value8 t.imcPmmWr⟩]
  else []) ++
  (if settings.metrics = .pmemMemoryMode ∧ m.cpuModel = .icx then
    [⟨sktCell skt, .word "NM hit rate", value8 t.imcNMHitRate⟩,
      ⟨sktCell skt, .word "NM hits (M/s)", value8 (t.imcPmmHit / 1000000)⟩,
      ⟨sktCell skt, .word "NM misses (M/s)", value8 (t.imcPmmMiss / 1000000)⟩]
  else []) ++
  (if settings.metrics = .pmem ∧ m.cpuModel = .skx then
    (List.finRange maxControllers).map fun c =>
      ⟨sktCell skt, .word "iMC" ++ .number c ++ .word " NM read hit rate", value8 (t.m2mNMReadHitRate c)⟩
  else []) ++
  (if settings.metrics = .pmemMixedMode then
    [⟨sktCell skt, .word "PMM_AD (MB/s)", value8 (adBW t)⟩,
      ⟨sktCell skt, .word " PMM_MM (MB/s)", value8 t.imcPmmMiss⟩,
      ⟨sktCell skt, .word " PMM_MM_Bw/DRAM_Bw", pmmMMRatio t⟩]
  else []) ++
  (if m.hbmMemoryTrafficMetricsAvailable = false ∧ settings.metrics = .partialWrites then
    [⟨sktCell skt, .word "P. Write (T/s)", .setw 10 (.number t.partialWrite.toNat)⟩]
  else []) ++
  [⟨sktCell skt, .word "Memory (MB/s)", value8 (t.imcRd + t.imcWr)⟩]

/-- The columns of a channel of the high-bandwidth memory: an inactive one has none. -/
def edcColumns (skt : ℕ) (t : SocketTraffic) (channel : Fin maxChannels) : List CsvColumn :=
  if t.edcRdChan channel < 0 ∧ t.edcWrChan channel < 0 then []
  else
    [⟨sktCell skt, .word "EDC_Ch" ++ .number channel ++ .word "Read", value8 (t.edcRdChan channel)⟩,
      ⟨sktCell skt, .word "EDC_Ch" ++ .number channel ++ .word "Write", value8 (t.edcWrChan channel)⟩]

/-- The columns of all channels of the high-bandwidth memory of a socket, if they are shown. -/
def hbmChannelColumns (skt : ℕ) (t : SocketTraffic) : List CsvColumn :=
  if m.hbmMemoryTrafficMetricsAvailable ∧ settings.showChannelOutput then
    (List.finRange maxChannels).flatMap (edcColumns skt t)
  else []

/-- The columns of a socket behind those of the channels of its high-bandwidth memory. -/
def hbmColumns (skt : ℕ) (t : SocketTraffic) : List CsvColumn :=
  (if m.hbmMemoryTrafficMetricsAvailable then
    [⟨sktCell skt, .word "HBM Read (MB/s)", value8 t.edcRd⟩,
      ⟨sktCell skt, .word " HBM Write (MB/s)", value8 t.edcWr⟩,
      ⟨sktCell skt, .word " HBM (MB/s)", value8 (t.edcRd + t.edcWr)⟩]
  else []) ++
  (m.cxlPorts skt).flatMap fun port =>
    [⟨sktCell skt, .word "CXL.mem_P" ++ .number port ++ .word "Write", value8 (t.cxlMemWr port)⟩,
      ⟨sktCell skt, .word "CXL.cache_P" ++ .number port ++ .word "hst->dv", value8 (t.cxlCacheWr port)⟩]

/-- The columns of a socket. -/
def socketColumns (md : ℕ → SocketTraffic) (skt : ℕ) : List CsvColumn :=
  memoryColumns m settings skt (md skt) ++ hbmChannelColumns m settings skt (md skt) ++
    hbmColumns m skt (md skt)

/-- The sums over all sockets; those of the memory include the high-bandwidth memory. -/
def csvSums (md : ℕ → SocketTraffic) : Sums :=
  (List.range m.numSockets.toNat).foldl
    (fun sums skt =>
      let hbm := m.hbmMemoryTrafficMetricsAvailable
      { sysReadDRAM := sums.sysReadDRAM + (md skt).imcRd + if hbm then (md skt).edcRd else 0
        sysWriteDRAM := sums.sysWriteDRAM + (md skt).imcWr + if hbm then (md skt).edcWr else 0
        sysReadPMM := sums.sysReadPMM + (md skt).imcPmmRd
        sysWritePMM := sums.sysWritePMM + (md skt).imcPmmWr })
    ⟨0, 0, 0, 0⟩

/-- `SPR_CXL`. -/
def sprCXL : Bool :=
  (m.cpuModel == .spr || m.cpuModel == .emr) &&
    (List.range m.numSockets.toNat).any fun skt => 0 < m.numCXLPorts skt

/-- The columns of the whole system. -/
def systemColumns (sums : Sums) (cxlReadBW : ℚ) : List CsvColumn :=
  (if anyPmem settings.metrics then
    [⟨.word "System", .word "DRAMRead", value10 sums.sysReadDRAM⟩,
      ⟨.word "System", .word "DRAMWrite", value10 sums.sysWriteDRAM⟩,
      ⟨.word "System", .word "PMMREAD", value10 sums.sysReadPMM⟩,
      ⟨.word "System", .word "PMMWrite", value10 sums.sysWritePMM⟩]
  else []) ++
  (if sprCXL m then [⟨.word "System", .word "CXLRead", value10 cxlReadBW⟩] else []) ++
  [⟨.word "System", .word "Read", value10 (sums.sysReadDRAM + sums.sysReadPMM)⟩,
    ⟨.word "System", .word "Write", value10 (sums.sysWriteDRAM + sums.sysWritePMM)⟩,
    ⟨.word "System", .word "Memory",
      value10 (sums.sysReadDRAM + sums.sysReadPMM + sums.sysWriteDRAM + sums.sysWritePMM)⟩]

/-- All columns that one call of `display_bandwidth_csv` goes through. -/
def csvColumns (time : LocalTime) (md : ℕ → SocketTraffic) (cxlReadBW : ℚ) : List CsvColumn :=
  dateColumns time ++ (List.range m.numSockets.toNat).flatMap (socketColumns m settings md) ++
    systemColumns m settings (csvSums m md) cxlReadBW

/-- `display_bandwidth_csv`: a comma stands behind every column but the last, and there the line ends. -/
def displayBandwidthCsv (time : LocalTime) (md : ℕ → SocketTraffic) (outputType : CsvOutputType)
    (cxlReadBW : ℚ) : Text :=
  writeRow ((csvColumns m settings time md cxlReadBW).map (choose outputType))

/-- What a pass reads besides the counters: the local time when the row is printed, and the number of
the CXL events. -/
structure CsvReading extends Reading where
  localTime : LocalTime
  chaCount : UInt64

/-- The traffic that a pass shows. -/
def csvTraffic (v : LoopVariables) (reading : CsvReading) : ℕ → SocketTraffic :=
  memdata m ⟨settings.metrics, settings.skipInactiveChannels, reading.time - v.beforeTime⟩ v.beforeState
    reading.states

/-- The columns of a pass. -/
def passColumns (v : LoopVariables) (reading : CsvReading) : List CsvColumn :=
  csvColumns m settings reading.localTime (csvTraffic m settings v reading)
    (toBW (reading.time - v.beforeTime) reading.chaCount)

/-- One pass of the main loop with the option `-csv`: the variables and `csvheader` behind it, and the
text that it writes. -/
def csvPass (v : LoopVariables × Bool) (reading : CsvReading) : (LoopVariables × Bool) × Text :=
  let md := csvTraffic m settings v.1 reading
  let cxlReadBW := toBW (reading.time - v.1.beforeTime) reading.chaCount
  let display (outputType : CsvOutputType) : Text :=
    displayBandwidthCsv m settings reading.localTime md outputType cxlReadBW
  ((⟨reading.time, v.1.beforeTime, reading.states, v.1.beforeState⟩, false),
    (if v.2 then display .header1 ++ display .header2 else []) ++ display .data)

end

section

variable {m : MemoryMachine} {settings : CsvSettings}

/-- The names of the columns of a channel do not depend on the traffic. -/
theorem imcColumns_names (skt : ℕ) (t u : SocketTraffic) (channel : Fin maxChannels) :
    (imcColumns settings skt t channel).map CsvColumn.name =
      (imcColumns settings skt u channel).map CsvColumn.name := by
  simp only [imcColumns, List.map_append, apply_ite (List.map CsvColumn.name), List.map_cons,
    List.map_nil, CsvColumn.name]

/-- The names of the columns in front of the high-bandwidth memory do not depend on the traffic. -/
theorem memoryColumns_names (skt : ℕ) (t u : SocketTraffic) :
    (memoryColumns m settings skt t).map CsvColumn.name =
      (memoryColumns m settings skt u).map CsvColumn.name := by
  have himc : ∀ channels : List (Fin maxChannels),
      (channels.flatMap (imcColumns settings skt t)).map CsvColumn.name =
        (channels.flatMap (imcColumns settings skt u)).map CsvColumn.name := by
    intro channels
    rw [List.map_flatMap, List.map_flatMap]
    exact List.flatMap_congr fun channel _ => imcColumns_names skt t u channel
  simp only [memoryColumns, List.map_append, apply_ite (List.map CsvColumn.name), himc, List.map_map,
    List.map_cons, List.map_nil, CsvColumn.name, Function.comp_def]

/-- The names of the columns behind those of its channels do not depend on the traffic. -/
theorem hbmColumns_names (skt : ℕ) (t u : SocketTraffic) :
    (hbmColumns m skt t).map CsvColumn.name = (hbmColumns m skt u).map CsvColumn.name := by
  simp only [hbmColumns, List.map_append, apply_ite (List.map CsvColumn.name), List.map_flatMap,
    List.map_cons, List.map_nil, CsvColumn.name]

/-- The names of the columns of the system do not depend on the sums. -/
theorem systemColumns_names (sums others : Sums) (x y : ℚ) :
    (systemColumns m settings sums x).map CsvColumn.name =
      (systemColumns m settings others y).map CsvColumn.name := by
  simp only [systemColumns, List.map_append, apply_ite (List.map CsvColumn.name), List.map_cons,
    List.map_nil, CsvColumn.name]

/-- No column of the memory controllers passes for one of the high-bandwidth memory. -/
theorem memoryColumns_head (skt : ℕ) (t : SocketTraffic) :
    ∀ column ∈ memoryColumns m settings skt t, column.header2.text.head? ≠ some 'E' := by
  intro column hcolumn
  simp only [memoryColumns, imcColumns, List.mem_append, List.mem_ite_nil_right, List.mem_flatMap,
    List.mem_map, List.mem_cons, List.not_mem_nil, or_false, or_assoc] at hcolumn
  rcases hcolumn with ⟨-, channel, -, rfl | rfl | ⟨-, rfl | rfl⟩⟩ | rfl | rfl | ⟨-, rfl | rfl⟩ |
    ⟨-, rfl | rfl | rfl⟩ | ⟨-, c, -, rfl⟩ | ⟨-, rfl | rfl | rfl⟩ | ⟨-, rfl⟩ | rfl <;> simp [Cell.word]

/-- Nor does a column behind its channels. -/
theorem hbmColumns_head (skt : ℕ) (t : SocketTraffic) :
    ∀ column ∈ hbmColumns m skt t, column.header2.text.head? ≠ some 'E' := by
  intro column hcolumn
  simp only [hbmColumns, List.mem_append, List.mem_ite_nil_right, List.mem_flatMap, List.mem_cons,
    List.not_mem_nil, or_false] at hcolumn
  rcases hcolumn with ⟨-, rfl | rfl | rfl⟩ | ⟨port, -, rfl | rfl⟩ <;> simp [Cell.word]

/-- Nor does a column of the system. -/
theorem systemColumns_head (sums : Sums) (x : ℚ) :
    ∀ column ∈ systemColumns m settings sums x, column.header2.text.head? ≠ some 'E' := by
  intro column hcolumn
  simp only [systemColumns, List.mem_append, List.mem_ite_nil_right, List.mem_cons, List.not_mem_nil,
    or_false, or_assoc] at hcolumn
  rcases hcolumn with ⟨-, rfl | rfl | rfl | rfl⟩ | ⟨-, rfl⟩ | rfl | rfl | rfl <;> simp [Cell.word]

/-- Nor does a column of the date. -/
theorem dateColumns_head (time : LocalTime) :
    ∀ column ∈ dateColumns time, column.header2.text.head? ≠ some 'E' := by
  intro column hcolumn
  simp only [dateColumns, List.mem_cons, List.not_mem_nil, or_false] at hcolumn
  rcases hcolumn with rfl | rfl <;> simp [Cell.word]

/-- A channel of the high-bandwidth memory that is marked as inactive. -/
def EdcMarked (t : SocketTraffic) (channel : Fin maxChannels) : Prop :=
  t.edcRdChan channel < 0 ∧ t.edcWrChan channel < 0

/-- The name of the column with what a channel of the high-bandwidth memory has read. -/
def edcName (skt : ℕ) (channel : Fin maxChannels) : Text × Text :=
  ((sktCell skt).text, (Cell.word "EDC_Ch" ++ .number channel ++ .word "Read").text)

/-- A column of a channel has the name of that channel alone. -/
theorem eq_of_edcName {skt other : ℕ} {channel another : Fin maxChannels} {t : SocketTraffic}
    {column : CsvColumn} (hcolumn : column ∈ edcColumns other t another)
    (hname : column.name = edcName skt channel) :
    other = skt ∧ another = channel ∧ ¬EdcMarked t another := by
  unfold edcColumns at hcolumn
  split at hcolumn
  · exact absurd hcolumn List.not_mem_nil
  · rename_i hmarked
    simp only [List.mem_cons, List.not_mem_nil, or_false] at hcolumn
    rcases hcolumn with rfl | rfl
    · obtain ⟨hskt, hch⟩ := Prod.mk.inj hname
      simp only [sktCell, Cell.text_append] at hskt hch
      refine ⟨Cell.number_inj (List.append_cancel_left hskt), ?_, hmarked⟩
      exact Fin.ext (Cell.number_inj (List.append_cancel_left (List.append_cancel_right hch)))
    · have hlast := congrArg (fun text => text.reverse.head?) (Prod.mk.inj hname).2
      simp [Cell.word] at hlast

variable {time other : LocalTime} {md md' : ℕ → SocketTraffic} {x y : ℚ}

/-- A shown channel of the high-bandwidth memory has a column exactly if it is not marked. -/
theorem edcName_mem_iff (hhbm : m.hbmMemoryTrafficMetricsAvailable = true)
    (hshown : settings.showChannelOutput = true) {skt : ℕ} (hskt : skt < m.numSockets.toNat)
    (channel : Fin maxChannels) :
    edcName skt channel ∈ (csvColumns m settings time md x).map CsvColumn.name ↔
      ¬EdcMarked (md skt) channel := by
  rw [List.mem_map]
  constructor
  · rintro ⟨column, hcolumn, hname⟩
    have hhead : column.header2.text.head? = some 'E' := by
      rw [show column.header2.text = (edcName skt channel).2 from congrArg Prod.snd hname]
      rfl
    simp only [csvColumns, socketColumns, hbmChannelColumns, List.mem_append, List.mem_flatMap,
      List.mem_ite_nil_right] at hcolumn
    rcases hcolumn with (hdate | ⟨s, -, (hmemory | ⟨-, c, -, hedc⟩) | hhbmColumns⟩) | hsystem
    · exact absurd hhead (dateColumns_head time column hdate)
    · exact absurd hhead (memoryColumns_head s _ column hmemory)
    · obtain ⟨rfl, rfl, hmarked⟩ := eq_of_edcName hedc hname
      exact hmarked
    · exact absurd hhead (hbmColumns_head s _ column hhbmColumns)
    · exact absurd hhead (systemColumns_head _ _ column hsystem)
  · intro hmarked
    refine ⟨⟨sktCell skt, .word "EDC_Ch" ++ .number channel ++ .word "Read",
      value8 ((md skt).edcRdChan channel)⟩, ?_, rfl⟩
    simp only [csvColumns, socketColumns, hbmChannelColumns, List.mem_append, List.mem_flatMap,
      List.mem_ite_nil_right]
    refine Or.inl (Or.inr ⟨skt, List.mem_range.mpr hskt, Or.inl (Or.inr ⟨⟨hhbm, hshown⟩, channel,
      List.mem_finRange channel, ?_⟩)⟩)
    rw [show edcColumns skt (md skt) channel = _ from if_neg hmarked]
    exact List.mem_cons_self

/-- Two passes have the same columns exactly if the same shown channels are marked in both. -/
theorem names_eq_iff :
    (csvColumns m settings time md x).map CsvColumn.name =
        (csvColumns m settings other md' y).map CsvColumn.name ↔
      (m.hbmMemoryTrafficMetricsAvailable = true → settings.showChannelOutput = true →
        ∀ skt < m.numSockets.toNat, ∀ channel,
          EdcMarked (md skt) channel ↔ EdcMarked (md' skt) channel) := by
  constructor
  · intro hnames hhbm hshown skt hskt channel
    rw [← not_iff_not, ← edcName_mem_iff hhbm hshown hskt channel, hnames,
      edcName_mem_iff hhbm hshown hskt channel]
  · intro hmarked
    have hsocket : ∀ skt ∈ List.range m.numSockets.toNat,
        (socketColumns m settings md skt).map CsvColumn.name =
          (socketColumns m settings md' skt).map CsvColumn.name := by
      intro skt hskt
      have hchannels : (hbmChannelColumns m settings skt (md skt)).map CsvColumn.name =
          (hbmChannelColumns m settings skt (md' skt)).map CsvColumn.name := by
        unfold hbmChannelColumns
        split_ifs with hboth
        · rw [List.map_flatMap, List.map_flatMap]
          refine List.flatMap_congr ?_
          intro channel _
          have hsame := hmarked hboth.1 hboth.2 skt (List.mem_range.mp hskt) channel
          unfold EdcMarked at hsame
          simp only [edcColumns, hsame, apply_ite (List.map CsvColumn.name), List.map_cons, List.map_nil,
            CsvColumn.name]
        · rfl
      simp only [socketColumns, List.map_append, hchannels, memoryColumns_names skt (md skt) (md' skt),
        hbmColumns_names skt (md skt) (md' skt)]
    have hdate : (dateColumns time).map CsvColumn.name = (dateColumns other).map CsvColumn.name := by
      simp only [dateColumns, List.map_cons, List.map_nil, CsvColumn.name]
    simp only [csvColumns, List.map_append, List.map_flatMap, List.flatMap_congr hsocket, hdate,
      systemColumns_names (csvSums m md) (csvSums m md') x y]

end

section

variable {m : MemoryMachine} {query : TrafficQuery} {skt : ℕ} {before after : ServerUncoreCounterState}

/-- A channel of the high-bandwidth memory that has neither read nor written. -/
def EdcIdle (m : MemoryMachine) (before after : ServerUncoreCounterState) (channel : Fin maxChannels) :
    Prop :=
  getEDCCounter before after m channel .read = 0 ∧ getEDCCounter before after m channel .write = 0

instance (channel : Fin maxChannels) : Decidable (EdcIdle m before after channel) :=
  inferInstanceAs (Decidable (_ ∧ _))

/-- Both numbers of all channels of the high-bandwidth memory. -/
def SocketTraffic.edcChan (t : SocketTraffic) (channel : Fin maxChannels) : ℚ × ℚ :=
  (t.edcRdChan channel, t.edcWrChan channel)

/-- What the loop writes for a channel of the high-bandwidth memory. -/
def edcEntry (m : MemoryMachine) (query : TrafficQuery) (before after : ServerUncoreCounterState)
    (channel : Fin maxChannels) : ℚ × ℚ :=
  if query.skipInactiveChannels = true ∧ EdcIdle m before after channel then (-1, -1)
  else hbmAmount m query before after channel

/-- Each pass over the channels of the high-bandwidth memory writes the entry of its channel. -/
theorem edcChannel_edcChan (t : SocketTraffic) (channel : Fin maxChannels) :
    (edcChannel m query before after t channel).edcChan =
      Function.update t.edcChan channel (edcEntry m query before after channel) := by
  have hpair : ∀ rd wr : ℚ,
      (fun c => (Function.update t.edcRdChan channel rd c, Function.update t.edcWrChan channel wr c)) =
        Function.update t.edcChan channel (rd, wr) := by
    intro rd wr
    funext c
    by_cases hc : c = channel
    · subst hc
      simp only [Function.update_self]
    · simp only [Function.update_of_ne hc]
      rfl
  unfold edcChannel edcEntry EdcIdle
  extract_lets reads writes scalingFactor rd wr
  by_cases hskip : query.skipInactiveChannels = true ∧ reads = 0 ∧ writes = 0
  · rw [if_pos (by simpa [and_assoc] using hskip), if_pos hskip]
    exact hpair (-1) (-1)
  · rw [if_neg (by simpa [and_assoc] using hskip), if_neg hskip]
    exact hpair rd wr

/-- No channel of the memory controllers touches the high-bandwidth memory. -/
theorem imcChannel_edcChan (t : SocketTraffic) (channel : Fin maxChannels) :
    (imcChannel m query skt before after t channel).edcChan = t.edcChan := by
  unfold imcChannel addMetrics addCas
  extract_lets events
  split_ifs
  · rfl
  · split <;> rfl
  · split <;> rfl

/-- The entries of all channels of the high-bandwidth memory, if there is any. -/
theorem socketTraffic_edcChan (hhbm : m.hbmMemoryTrafficMetricsAvailable = true)
    (channel : Fin maxChannels) :
    (socketTraffic m query skt before after).edcChan channel =
      edcEntry m query before after channel := by
  have hpmm : ∀ t : SocketTraffic, (freeRunningPmm query before after t).edcChan = t.edcChan := by
    intro t
    unfold freeRunningPmm
    split <;> rfl
  have hcas : ∀ t : SocketTraffic, (freeRunningCas query before after t).edcChan = t.edcChan := by
    intro t
    unfold freeRunningCas
    split <;> rfl
  have hrest : (socketTraffic m query skt before after).edcChan =
      (channelLoops m query skt before after).edcChan := by
    rw [socketTraffic, foldl_keeps SocketTraffic.edcChan (fun _ _ => by rfl)]
    exact (hpmm _).trans (hcas _)
  rw [hrest, channelLoops, foldl_keeps SocketTraffic.edcChan imcChannel_edcChan, if_pos hhbm,
    foldl_updates SocketTraffic.edcChan edcChannel_edcChan, if_pos (List.mem_finRange channel)]

/-- Only an idle channel is marked, and only without the option `-all`. -/
theorem edcMarked_iff (hhbm : m.hbmMemoryTrafficMetricsAvailable = true) (channel : Fin maxChannels) :
    EdcMarked (socketTraffic m query skt before after) channel ↔
      query.skipInactiveChannels = true ∧ EdcIdle m before after channel := by
  have hentry : (socketTraffic m query skt before after).edcChan channel =
      edcEntry m query before after channel := socketTraffic_edcChan hhbm channel
  have hread := congrArg Prod.fst hentry
  have hwrite := congrArg Prod.snd hentry
  simp only [SocketTraffic.edcChan] at hread hwrite
  rw [EdcMarked, hread, hwrite, edcEntry]
  split_ifs with hidle
  · simp [hidle]
  · have hnonneg : 0 ≤ (hbmAmount m query before after channel).1 := by
      unfold hbmAmount toBW
      positivity
    simp [hidle, hnonneg.not_gt]

end

section

variable (m : MemoryMachine) (settings : CsvSettings)

/-- The variables before a loop that writes a table. -/
def csvStart (first : Reading) : LoopVariables × Bool := (loopStart first, true)

/-- The passes of a run. -/
def csvRun (first : Reading) (readings : List CsvReading) :
    List (Call (LoopVariables × Bool) CsvReading Char) :=
  totalCalls (csvPass m settings) (csvStart first) readings

/-- The columns of one of its passes. -/
def callColumns (c : Call (LoopVariables × Bool) CsvReading Char) : List CsvColumn :=
  passColumns m settings c.before.1 c.input

/-- The channels of the high-bandwidth memory that a pass finds idle. -/
def callIdle (c : Call (LoopVariables × Bool) CsvReading Char) (skt : ℕ) (channel : Fin maxChannels) :
    Prop :=
  EdcIdle m (c.before.1.beforeState skt) (c.input.states skt) channel

variable {m settings}

/-- A table always has columns. -/
theorem csvColumns_ne_nil (time : LocalTime) (md : ℕ → SocketTraffic) (x : ℚ) :
    csvColumns m settings time md x ≠ [] := by
  simp [csvColumns, dateColumns]

/-- The values that a pass shows. -/
def callValues (m : MemoryMachine) (settings : CsvSettings)
    (c : Call (LoopVariables × Bool) CsvReading Char) : List Cell :=
  (callColumns m settings c).map CsvColumn.data

/-- The passes behind the header write one row each. -/
theorem commandsOf_rows (v : LoopVariables) (readings : List CsvReading) :
    commandsOf (totalCalls (csvPass m settings) (v, false) readings) =
      writeTable ((totalCalls (csvPass m settings) (v, false) readings).map
        (callValues m settings)) := by
  induction readings generalizing v with
  | nil => rfl
  | cons reading rest ih =>
    have hrest := ih ⟨reading.time, v.beforeTime, reading.states, v.beforeState⟩
    rw [writeTable, commandsOf] at hrest ⊢
    rw [totalCalls, List.map_cons, List.flatMap_cons, List.flatMap_cons]
    exact congrArg₂ (· ++ ·) rfl hrest

/-- The first pass writes the headers in front of its row. -/
theorem commandsOf_csvRun (first : Reading) (second : CsvReading) (later : List CsvReading) :
    commandsOf (csvRun m settings first (second :: later)) =
      writeTable ((passColumns m settings (loopStart first) second).map CsvColumn.header1 ::
        (passColumns m settings (loopStart first) second).map CsvColumn.header2 ::
        (csvRun m settings first (second :: later)).map (callValues m settings)) := by
  have hrest : commandsOf (totalCalls (csvPass m settings)
      (⟨second.time, (loopStart first).beforeTime, second.states, (loopStart first).beforeState⟩, false)
      later) = _ := commandsOf_rows _ _
  rw [writeTable, commandsOf] at hrest ⊢
  rw [csvRun, totalCalls, List.map_cons, List.flatMap_cons, List.flatMap_cons, List.flatMap_cons,
    List.flatMap_cons, ← List.append_assoc, ← List.append_assoc]
  exact congrArg₂ (· ++ ·) rfl hrest

/-- A pass has the columns of the header exactly if it finds the same channels idle. -/
theorem callColumns_names_iff (first : Reading) (second : CsvReading)
    (c : Call (LoopVariables × Bool) CsvReading Char) :
    (callColumns m settings c).map CsvColumn.name =
        (passColumns m settings (loopStart first) second).map CsvColumn.name ↔
      (m.hbmMemoryTrafficMetricsAvailable = true → settings.showChannelOutput = true →
        settings.skipInactiveChannels = true → ∀ skt < m.numSockets.toNat, ∀ channel,
          callIdle m c skt channel ↔ EdcIdle m (first.states skt) (second.states skt) channel) := by
  have hmarked : m.hbmMemoryTrafficMetricsAvailable = true → ∀ skt < m.numSockets.toNat, ∀ channel,
      (EdcMarked (csvTraffic m settings c.before.1 c.input skt) channel ↔
        settings.skipInactiveChannels = true ∧ callIdle m c skt channel) ∧
      (EdcMarked (csvTraffic m settings (loopStart first) second skt) channel ↔
        settings.skipInactiveChannels = true ∧
          EdcIdle m (first.states skt) (second.states skt) channel) := by
    intro hhbm skt hskt channel
    simp only [csvTraffic, memdata, if_pos hskt, edcMarked_iff hhbm]
    exact ⟨Iff.rfl, Iff.rfl⟩
  rw [callColumns, passColumns, passColumns, names_eq_iff]
  constructor
  · intro hsame hhbm hshown hskip skt hskt channel
    have hchannel := hsame hhbm hshown skt hskt channel
    rw [(hmarked hhbm skt hskt channel).1, (hmarked hhbm skt hskt channel).2] at hchannel
    simpa only [hskip, true_and] using hchannel
  · intro hsame hhbm hshown skt hskt channel
    rw [(hmarked hhbm skt hskt channel).1, (hmarked hhbm skt hskt channel).2]
    exact and_congr_right fun hskip => hsame hhbm hshown hskip skt hskt channel

/-- In every run with the option `-csv`, the text is read back as two rows of headers and one row of values
for each pass, and the values of all passes stand under their own names exactly if every pass finds the
same channels of the high-bandwidth memory idle as the first. -/
theorem csvRun_readTable (first : Reading) (second : CsvReading) (later : List CsvReading) :
    let calls := csvRun m settings first (second :: later)
    let header := passColumns m settings (loopStart first) second
    readTable (commandsOf calls) =
        header.map (·.header1.text) :: header.map (·.header2.text) ::
          calls.map (fun c => (callColumns m settings c).map (·.data.text)) ∧
      ((∀ c ∈ calls, (callColumns m settings c).map CsvColumn.name = header.map CsvColumn.name) ↔
        (m.hbmMemoryTrafficMetricsAvailable = true → settings.showChannelOutput = true →
          settings.skipInactiveChannels = true → ∀ c ∈ calls, ∀ skt < m.numSockets.toNat, ∀ channel,
            callIdle m c skt channel ↔
              EdcIdle m (first.states skt) (second.states skt) channel)) := by
  intro calls header
  constructor
  · rw [commandsOf_csvRun, readTable_writeTable]
    · simp only [List.map_cons, List.map_map, callValues, Function.comp_def]
      rfl
    · intro row hrow
      simp only [List.mem_cons, List.mem_map] at hrow
      rcases hrow with rfl | rfl | ⟨c, -, rfl⟩
      · exact fun hnil => csvColumns_ne_nil _ _ _ (List.map_eq_nil_iff.mp hnil)
      · exact fun hnil => csvColumns_ne_nil _ _ _ (List.map_eq_nil_iff.mp hnil)
      · exact fun hnil => csvColumns_ne_nil _ _ _ (List.map_eq_nil_iff.mp hnil)
  · constructor
    · intro hnames hhbm hshown hskip c hc
      exact (callColumns_names_iff first second c).mp (hnames c hc) hhbm hshown hskip
    · intro hidle c hc
      rw [callColumns_names_iff]
      exact fun hhbm hshown hskip => hidle hhbm hshown hskip c hc

end

end NodePower
