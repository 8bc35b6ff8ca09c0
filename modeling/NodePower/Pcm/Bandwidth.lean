import NodePower.Common.WhileLoop
import NodePower.Launch.ArgumentLoop

/-!
# The sample that pcm-memory takes of the whole machine

`display_bandwidth` goes through the sockets row by row, as the display once did, and adds up
what they read and write. A row is as wide as the option `-columns` says, or one socket wide if
the machine has high-bandwidth memory, whose traffic is then added as well. The sums are recorded and
given to the controller. Numbers of type `float` are exact, and a read behind the end of an
array has no result.
-/

namespace NodePower

/-- The bound of the arrays over the sockets. -/
def maxSockets : ℕ := 256

/-- The width of a row without an option. -/
def defaultDisplayColumns : UInt32 := 2

/-- A machine: the number of its sockets and whether the traffic of its high-bandwidth memory is
available. -/
structure Machine where
  numSockets : UInt32
  hbmMemoryTrafficMetricsAvailable : Bool
  some_socket : 1 ≤ numSockets.toNat
  within_arrays : numSockets.toNat ≤ maxSockets

/-- The traffic of every socket. -/
structure MemData where
  imcRdSocket : Vector ℚ maxSockets
  imcWrSocket : Vector ℚ maxSockets
  imcPmmRdSocket : Vector ℚ maxSockets
  imcPmmWrSocket : Vector ℚ maxSockets
  edcRdSocket : Vector ℚ maxSockets
  edcWrSocket : Vector ℚ maxSockets

/-- The branch of the argument loop for a value of `-columns`, which fails if `std::stoi` throws. -/
def columnsArgument (m : Machine) (noColumns : UInt32) (argValue : List Char) : Option UInt32 :=
  if argValue = [] then some noColumns
  else (stoi argValue).map fun number =>
    let noColumns := UInt32.ofInt number
    let noColumns := if noColumns = 0 then defaultDisplayColumns else noColumns
    if m.numSockets < noColumns then m.numSockets else noColumns

/-- The width that the argument loop leaves after the given values of `-columns`. -/
def columnsOption (m : Machine) (values : List (List Char)) : Option UInt32 :=
  values.foldlM (columnsArgument m) defaultDisplayColumns

/-- The sums of `display_bandwidth`. -/
structure Sums where
  sysReadDRAM : ℚ
  sysWriteDRAM : ℚ
  sysReadPMM : ℚ
  sysWritePMM : ℚ

/-- The variables of its loop. -/
structure DisplayState where
  skt : UInt32
  sums : Sums

/-- One pass of the loop in `printRow`. -/
def addSocket (md : MemData) (sums : Sums) (i : ℕ) : Option Sums := do
  let read ← md.imcRdSocket[i]?
  let write ← md.imcWrSocket[i]?
  let readPMM ← md.imcPmmRdSocket[i]?
  let writePMM ← md.imcPmmWrSocket[i]?
  some ⟨sums.sysReadDRAM + read, sums.sysWriteDRAM + write, sums.sysReadPMM + readPMM,
    sums.sysWritePMM + writePMM⟩

/-- `printRow`: its loop runs over the indices from `skt` up to `skt + no_columns`, a sum of 32 bits. -/
def printRow (md : MemData) (noColumns : UInt32) (s : DisplayState) : Option DisplayState := do
  let sums ← (List.range' s.skt.toNat ((s.skt + noColumns).toNat - s.skt.toNat)).foldlM
    (addSocket md) s.sums
  some ⟨s.skt + noColumns, sums⟩

/-- `printHBM`: one socket with its high-bandwidth memory. -/
def printHBM (md : MemData) (s : DisplayState) : Option DisplayState := do
  let read ← md.imcRdSocket[s.skt.toNat]?
  let readHBM ← md.edcRdSocket[s.skt.toNat]?
  let write ← md.imcWrSocket[s.skt.toNat]?
  let writeHBM ← md.edcWrSocket[s.skt.toNat]?
  some ⟨s.skt + 1, { s.sums with
    sysReadDRAM := s.sums.sysReadDRAM + (read + readHBM)
    sysWriteDRAM := s.sums.sysWriteDRAM + (write + writeHBM) }⟩

/-- The body of the loop. -/
def displayRow (m : Machine) (md : MemData) (noColumns : UInt32) (s : DisplayState) :
    Option DisplayState :=
  if m.hbmMemoryTrafficMetricsAvailable then printHBM md s
  else if s.skt + noColumns ≤ m.numSockets then printRow md noColumns s
  else printRow md (m.numSockets - s.skt) s

/-- A call that is made with the sums. -/
inductive SampleCall where
  | recordMemThroughput (sample : Sample)
  | dynamicUfs (sample : Sample)

/-- `display_bandwidth`: the calls that it makes in order, if its loop ends within the given fuel. -/
def displayBandwidth (fuel : ℕ) (opt : Options) (m : Machine) (md : MemData) (noColumns : UInt32) :
    Option (List SampleCall) := do
  let s ← whileLoop (fun s => decide (s.skt < m.numSockets)) (displayRow m md noColumns) fuel
    ⟨0, ⟨0, 0, 0, 0⟩⟩
  let sample : Sample := ⟨s.sums.sysReadDRAM, s.sums.sysWriteDRAM⟩
  some (.recordMemThroughput sample ::
    if opt.dynamicUfsMem = 1 ∧ opt.ups = 0 then [.dynamicUfs sample] else [])

/-- What the first sockets contribute to a sum. -/
def firstSockets (data : Vector ℚ maxSockets) (count : ℕ) : ℚ := (data.toList.take count).sum

/-- What the controller should be given: the traffic of all sockets, and that of their
high-bandwidth memory if it is available. -/
def machineSample (m : Machine) (md : MemData) : Sample where
  sysReadDRAM := firstSockets md.imcRdSocket m.numSockets.toNat +
    if m.hbmMemoryTrafficMetricsAvailable then firstSockets md.edcRdSocket m.numSockets.toNat else 0
  sysWriteDRAM := firstSockets md.imcWrSocket m.numSockets.toNat +
    if m.hbmMemoryTrafficMetricsAvailable then firstSockets md.edcWrSocket m.numSockets.toNat else 0

/-- A socket within the arrays can be read, and adds its own traffic. -/
theorem firstSockets_succ (data : Vector ℚ maxSockets) {k : ℕ} (hk : k < maxSockets) :
    ∃ value, data[k]? = some value ∧ firstSockets data (k + 1) = firstSockets data k + value := by
  have hlength : k < data.toList.length := by rwa [Vector.length_toList]
  refine ⟨data[k], Vector.getElem?_eq_getElem hk, ?_⟩
  rw [firstSockets, firstSockets, List.sum_take_succ data.toList k hlength, Vector.getElem_toList]

/-- The sums over the first sockets in rows. -/
def rowSums (md : MemData) (k : ℕ) : Sums where
  sysReadDRAM := firstSockets md.imcRdSocket k
  sysWriteDRAM := firstSockets md.imcWrSocket k
  sysReadPMM := firstSockets md.imcPmmRdSocket k
  sysWritePMM := firstSockets md.imcPmmWrSocket k

/-- The sums over the first sockets with their high-bandwidth memory. -/
def hbmSums (md : MemData) (k : ℕ) : Sums where
  sysReadDRAM := firstSockets md.imcRdSocket k + firstSockets md.edcRdSocket k
  sysWriteDRAM := firstSockets md.imcWrSocket k + firstSockets md.edcWrSocket k
  sysReadPMM := 0
  sysWritePMM := 0

/-- The state in which the first sockets have been added. -/
def displayState (m : Machine) (md : MemData) (k : ℕ) : DisplayState where
  skt := UInt32.ofNat k
  sums := if m.hbmMemoryTrafficMetricsAvailable then hbmSums md k else rowSums md k

/-- The next socket is added to the sums. -/
theorem addSocket_rowSums (md : MemData) {k : ℕ} (hk : k < maxSockets) :
    addSocket md (rowSums md k) k = some (rowSums md (k + 1)) := by
  obtain ⟨read, hread, hreads⟩ := firstSockets_succ md.imcRdSocket hk
  obtain ⟨write, hwrite, hwrites⟩ := firstSockets_succ md.imcWrSocket hk
  obtain ⟨readPMM, hreadPMM, hreadsPMM⟩ := firstSockets_succ md.imcPmmRdSocket hk
  obtain ⟨writePMM, hwritePMM, hwritesPMM⟩ := firstSockets_succ md.imcPmmWrSocket hk
  simp only [addSocket, rowSums, hread, hwrite, hreadPMM, hwritePMM, hreads, hwrites, hreadsPMM,
    hwritesPMM, Option.bind_eq_bind, Option.bind_some]

/-- The sockets of a row are added one after another. -/
theorem addSockets_rowSums (md : MemData) (k count : ℕ) (hwithin : k + count ≤ maxSockets) :
    (List.range' k count).foldlM (addSocket md) (rowSums md k) = some (rowSums md (k + count)) := by
  induction count generalizing k with
  | zero => rfl
  | succ count ih =>
    rw [List.range'_succ, List.foldlM_cons, addSocket_rowSums md (by omega), Option.bind_eq_bind,
      Option.bind_some, ih (k + 1) (by omega), Nat.add_assoc, Nat.add_comm 1 count]

section

variable {m : Machine} {md : MemData} {k : ℕ}

/-- A number of sockets is a number of 32 bits. -/
theorem lt_size_of_le (hk : k ≤ maxSockets) : k < UInt32.size := Nat.lt_of_le_of_lt hk (by decide)

/-- A row that lies within the arrays is added as a whole. -/
theorem printRow_displayState (hhbm : m.hbmMemoryTrafficMetricsAvailable = false)
    (noColumns : UInt32) (hwithin : k + noColumns.toNat ≤ maxSockets) :
    printRow md noColumns (displayState m md k) = some (displayState m md (k + noColumns.toNat)) := by
  have hskt : (UInt32.ofNat k).toNat = k := UInt32.toNat_ofNat_of_lt' (lt_size_of_le (by omega))
  have hnext : UInt32.ofNat k + noColumns = UInt32.ofNat (k + noColumns.toNat) := by
    rw [UInt32.ofNat_add, UInt32.ofNat_toNat]
  simp only [printRow, displayState, hhbm, Bool.false_eq_true, if_false, hnext, hskt,
    UInt32.toNat_ofNat_of_lt' (lt_size_of_le hwithin), Nat.add_sub_cancel_left,
    addSockets_rowSums md k noColumns.toNat hwithin, Option.bind_eq_bind, Option.bind_some]

/-- A socket is added with its high-bandwidth memory. -/
theorem printHBM_displayState (hhbm : m.hbmMemoryTrafficMetricsAvailable = true)
    (hk : k < maxSockets) :
    printHBM md (displayState m md k) = some (displayState m md (k + 1)) := by
  have hskt : (UInt32.ofNat k).toNat = k := UInt32.toNat_ofNat_of_lt' (lt_size_of_le (by omega))
  obtain ⟨read, hread, hreads⟩ := firstSockets_succ md.imcRdSocket hk
  obtain ⟨readHBM, hreadHBM, hreadsHBM⟩ := firstSockets_succ md.edcRdSocket hk
  obtain ⟨write, hwrite, hwrites⟩ := firstSockets_succ md.imcWrSocket hk
  obtain ⟨writeHBM, hwriteHBM, hwritesHBM⟩ := firstSockets_succ md.edcWrSocket hk
  simp only [printHBM, displayState, hhbm, if_true, hbmSums, hskt, hread, hreadHBM, hwrite,
    hwriteHBM, hreads, hreadsHBM, hwrites, hwritesHBM, Option.bind_eq_bind, Option.bind_some,
    UInt32.ofNat_add, add_add_add_comm]
  rfl

/-- Each pass adds the next sockets and no socket that the machine does not have. -/
theorem displayRow_displayState (noColumns : UInt32) (hpos : 1 ≤ noColumns.toNat)
    (hbound : noColumns.toNat ≤ maxSockets) (hk : k < m.numSockets.toNat) :
    ∃ next, k < next ∧ next ≤ m.numSockets.toNat ∧
      displayRow m md noColumns (displayState m md k) = some (displayState m md next) := by
  have hwithin := m.within_arrays
  cases hhbm : m.hbmMemoryTrafficMetricsAvailable with
  | true =>
    refine ⟨k + 1, Nat.lt_succ_self k, hk, ?_⟩
    rw [displayRow, if_pos hhbm, printHBM_displayState hhbm (by omega)]
  | false =>
    have hcond : (displayState m md k).skt + noColumns ≤ m.numSockets ↔
        k + noColumns.toNat ≤ m.numSockets.toNat := by
      rw [displayState, ← UInt32.ofNat_toNat (x := noColumns), ← UInt32.ofNat_add, UInt32.ofNat_toNat,
        UInt32.ofNat_le_iff (Nat.lt_of_le_of_lt (Nat.add_le_add (by omega) hbound)
          (by decide : maxSockets + maxSockets < UInt32.size))]
    rw [displayRow, if_neg (ne_true_of_eq_false hhbm)]
    by_cases hfull : k + noColumns.toNat ≤ m.numSockets.toNat
    · refine ⟨k + noColumns.toNat, by omega, hfull, ?_⟩
      rw [if_pos (hcond.mpr hfull), printRow_displayState hhbm noColumns (by omega)]
    · have hrest : m.numSockets - (displayState m md k).skt =
          UInt32.ofNat (m.numSockets.toNat - k) := by
        rw [UInt32.ofNat_sub (by omega), UInt32.ofNat_toNat]
        rfl
      have hcount : (UInt32.ofNat (m.numSockets.toNat - k)).toNat = m.numSockets.toNat - k :=
        UInt32.toNat_ofNat_of_lt' (lt_size_of_le (by omega))
      refine ⟨m.numSockets.toNat, hk, le_refl _, ?_⟩
      rw [if_neg (mt hcond.mp hfull), hrest, printRow_displayState hhbm _ (by omega), hcount,
        Nat.add_sub_cancel' (by omega)]

/-- The loop adds all sockets and ends. -/
theorem displayLoop_ends (md : MemData) (noColumns : UInt32) (hpos : 1 ≤ noColumns.toNat)
    (hbound : noColumns.toNat ≤ maxSockets) {fuel : ℕ} (hfuel : m.numSockets.toNat < fuel) :
    whileLoop (fun s => decide (s.skt < m.numSockets)) (displayRow m md noColumns) fuel
      (displayState m md 0) = some (displayState m md m.numSockets.toNat) := by
  have hwithin := m.within_arrays
  have hskt : ∀ k ≤ m.numSockets.toNat, (displayState m md k).skt.toNat = k := by
    intro k hk
    exact UInt32.toNat_ofNat_of_lt' (lt_size_of_le (by omega))
  -- The passes lead from one number of added sockets to a larger one.
  have hbody : ∀ s, (∃ k ≤ m.numSockets.toNat, s = displayState m md k) →
      decide (s.skt < m.numSockets) = true → ∃ t, displayRow m md noColumns s = some t ∧
        (∃ k ≤ m.numSockets.toNat, t = displayState m md k) ∧
        m.numSockets.toNat - t.skt.toNat < m.numSockets.toNat - s.skt.toNat := by
    intro s hinv hguard
    obtain ⟨k, hk, rfl⟩ := hinv
    rw [decide_eq_true_eq, UInt32.lt_iff_toNat_lt, hskt k hk] at hguard
    obtain ⟨next, hless, hnext, hrow⟩ := displayRow_displayState noColumns hpos hbound hguard
    refine ⟨displayState m md next, hrow, ⟨next, hnext, rfl⟩, ?_⟩
    rw [hskt next hnext, hskt k hk]
    omega
  have hinit : ∃ k ≤ m.numSockets.toNat, displayState m md 0 = displayState m md k :=
    ⟨0, Nat.zero_le _, rfl⟩
  have hvariant : m.numSockets.toNat - (displayState m md 0).skt.toNat < fuel :=
    Nat.lt_of_le_of_lt (Nat.sub_le _ _) hfuel
  obtain ⟨s, hloop, hinv, hguard⟩ := whileLoop_ends _
    (fun s : DisplayState => m.numSockets.toNat - s.skt.toNat) hbody hinit hvariant
  obtain ⟨k, hk, rfl⟩ := hinv
  rw [decide_eq_false_iff_not, UInt32.lt_iff_toNat_lt, hskt k hk] at hguard
  rw [hloop, Nat.le_antisymm hk (not_lt.mp hguard)]

/-- One value of `-columns` leaves a width that is not zero and lies within the arrays. -/
theorem columnsArgument_bounds {before after : UInt32} {argValue : List Char}
    (hbefore : 1 ≤ before.toNat ∧ before.toNat ≤ maxSockets)
    (h : columnsArgument m before argValue = some after) :
    1 ≤ after.toNat ∧ after.toNat ≤ maxSockets := by
  have hsocket := m.some_socket
  have hwithin := m.within_arrays
  rw [columnsArgument] at h
  by_cases hempty : argValue = []
  · rw [if_pos hempty] at h
    rwa [← Option.some.inj h]
  · rw [if_neg hempty] at h
    obtain ⟨number, _, rfl⟩ := Option.map_eq_some_iff.mp h
    dsimp only
    generalize hwidth : (if UInt32.ofInt number = 0 then defaultDisplayColumns
      else UInt32.ofInt number) = width
    -- The default takes the place of zero before the number of sockets bounds the width.
    have hdefault : 1 ≤ width.toNat := by
      rw [← hwidth]
      split
      · decide
      · rename_i hzero
        exact Nat.pos_of_ne_zero fun h => hzero (UInt32.toNat_inj.mp h)
    by_cases hwide : m.numSockets < width
    · rw [if_pos hwide]
      exact ⟨hsocket, hwithin⟩
    · rw [if_neg hwide]
      rw [UInt32.lt_iff_toNat_lt] at hwide
      exact ⟨hdefault, by omega⟩

/-- The argument loop leaves a width that is not zero and lies within the arrays. -/
theorem columnsOption_bounds {values : List (List Char)} {noColumns : UInt32}
    (h : columnsOption m values = some noColumns) :
    1 ≤ noColumns.toNat ∧ noColumns.toNat ≤ maxSockets := by
  have hfrom : ∀ before : UInt32, 1 ≤ before.toNat ∧ before.toNat ≤ maxSockets →
      values.foldlM (columnsArgument m) before = some noColumns →
      1 ≤ noColumns.toNat ∧ noColumns.toNat ≤ maxSockets := by
    clear h
    induction values with
    | nil =>
      intro before hbefore h
      rwa [← Option.some.inj h]
    | cons value values ih =>
      intro before hbefore h
      obtain ⟨next, hnext, hrest⟩ := Option.bind_eq_some_iff.mp h
      exact ih next (columnsArgument_bounds hbefore hnext) hrest
  exact hfrom defaultDisplayColumns (by decide) h

/-- With every width that the argument loop leaves, the loop over the sockets ends, and the sums that
are recorded and given to the controller are those over all sockets. -/
theorem displayBandwidth_machineSample (opt : Options) (md : MemData) {values : List (List Char)}
    {noColumns : UInt32} (hcolumns : columnsOption m values = some noColumns) :
    ∃ enough, ∀ fuel ≥ enough, displayBandwidth fuel opt m md noColumns =
      some (.recordMemThroughput (machineSample m md) ::
        if opt.dynamicUfsMem = 1 ∧ opt.ups = 0 then [.dynamicUfs (machineSample m md)] else []) := by
  obtain ⟨hpos, hbound⟩ := columnsOption_bounds hcolumns
  refine ⟨m.numSockets.toNat + 1, ?_⟩
  intro fuel hfuel
  have hstart : displayState m md 0 = ⟨0, ⟨0, 0, 0, 0⟩⟩ := by
    cases hhbm : m.hbmMemoryTrafficMetricsAvailable <;>
      simp [displayState, hhbm, hbmSums, rowSums, firstSockets]
  have hsample : (⟨(displayState m md m.numSockets.toNat).sums.sysReadDRAM,
      (displayState m md m.numSockets.toNat).sums.sysWriteDRAM⟩ : Sample) = machineSample m md := by
    cases hhbm : m.hbmMemoryTrafficMetricsAvailable <;>
      simp [displayState, machineSample, hhbm, hbmSums, rowSums]
  rw [displayBandwidth, ← hstart, displayLoop_ends md noColumns hpos hbound hfuel,
    Option.bind_eq_bind, Option.bind_some, hsample]

end

/-- A machine with three sockets. -/
def threeSockets : Machine where
  numSockets := 3
  hbmMemoryTrafficMetricsAvailable := false
  some_socket := by decide
  within_arrays := by decide

/-- The same traffic on every socket. -/
def uniformTraffic : MemData where
  imcRdSocket := Vector.replicate maxSockets 2
  imcWrSocket := Vector.replicate maxSockets 1
  imcPmmRdSocket := Vector.replicate maxSockets 0
  imcPmmWrSocket := Vector.replicate maxSockets 0
  edcRdSocket := Vector.replicate maxSockets 5
  edcWrSocket := Vector.replicate maxSockets 5

/-- A negative width is a large number of 32 bits and is cut down to the three sockets, which are then
added in one row. -/
theorem displayBandwidth_threeSockets :
    columnsOption threeSockets ["-1".toList] = some 3 ∧ ∃ enough, ∀ fuel ≥ enough,
      displayBandwidth fuel { defaultOptions with dynamicUfsMem := 1 } threeSockets uniformTraffic 3 =
        some [.recordMemThroughput ⟨6, 3⟩, .dynamicUfs ⟨6, 3⟩] := by
  have hcolumns : columnsOption threeSockets ["-1".toList] = some 3 := by decide
  refine ⟨hcolumns, ?_⟩
  obtain ⟨enough, hcalls⟩ := displayBandwidth_machineSample
    { defaultOptions with dynamicUfsMem := 1 } uniformTraffic hcolumns
  refine ⟨enough, ?_⟩
  intro fuel hfuel
  have hsockets : (3 : UInt32).toNat = 3 := by decide
  have hsample : machineSample threeSockets uniformTraffic = ⟨6, 3⟩ := by
    norm_num [machineSample, threeSockets, uniformTraffic, firstSockets, maxSockets, hsockets]
  rw [hcalls fuel hfuel, hsample]
  rfl

end NodePower
