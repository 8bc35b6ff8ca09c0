import NodePower.Common.MonotoneRounding
import NodePower.Pcm.TrafficTotals
import Mathlib.Algebra.Order.BigOperators.Group.List

/-!
# Hit rates in memory mode

In memory mode the counter of the reads counts hits of the near memory, and the misses are counted
elsewhere. A channel without hits passes for inactive even if it counted misses, and is skipped with
them. So without the option `-all` the hit rate of a socket can only come out too high, whatever the
numbers of type `float` and `double` are rounded to. With exact numbers it comes out right exactly when no
skipped channel had a miss; rounded numbers can hide a small one.
-/

namespace NodePower

/-- The misses and hits of the near memory per second. -/
def SocketTraffic.nearMemory (t : SocketTraffic) : ℚ × ℚ := (t.imcPmmMiss, t.imcPmmHit)

/-- A channel that counted nothing where the other metrics count reads and writes. -/
def Quiet (before after : ServerUncoreCounterState) (channel : Fin maxChannels) : Prop :=
  getMCCounter before after channel .read = 0 ∧ getMCCounter before after channel .write = 0

section

variable {before after : ServerUncoreCounterState}

instance (channel : Fin maxChannels) : Decidable (Quiet before after channel) :=
  inferInstanceAs (Decidable (_ ∧ _))

/-- In memory mode exactly the quiet channels are skipped. -/
theorem channelSkipped_memoryMode (h : Advances before after) (elapsedTime : UInt64)
    (skipInactiveChannels : Bool) (channel : Fin maxChannels) :
    channelSkipped ⟨.pmemMemoryMode, skipInactiveChannels, elapsedTime⟩
        (channelEvents before after .pmemMemoryMode channel) = true ↔
      skipInactiveChannels = true ∧ Quiet before after channel := by
  have hsum : getMCCounter before after channel .read + getMCCounter before after channel .write = 0 ↔
      Quiet before after channel := by
    constructor
    · exact eq_zero_of_add_eq_zero (h.getMCCounter_lt channel .read) (h.getMCCounter_lt channel .write)
    · intro hquiet
      rw [hquiet.1, hquiet.2]
      rfl
  simp [channelSkipped, channelEvents, hsum]

end

section

variable (double single : Rounding ℚ) (elapsedTime : UInt64)

/-- A number of events per second, `(float)(nEvents / (elapsedTime / 1000.0))`, rounded at every step. -/
def eventsPerSecond (nEvents : UInt64) : ℚ :=
  single.round (double.round (double.round nEvents.toNat /
    double.round (double.round elapsedTime.toNat / 1000)))

/-- Without rounding these are the events per second. -/
theorem eventsPerSecond_exact (nEvents : UInt64) :
    eventsPerSecond (.exact ℚ) (.exact ℚ) elapsedTime nEvents = perSecond elapsedTime nEvents := rfl

/-- No events are none per second. -/
theorem eventsPerSecond_zero : eventsPerSecond double single elapsedTime 0 = 0 := by
  rw [eventsPerSecond, show ((0 : UInt64).toNat : ℚ) = 0 from Nat.cast_zero, double.round_zero, zero_div,
    double.round_zero, single.round_zero]

/-- Events per second are not negative. -/
theorem eventsPerSecond_nonneg (nEvents : UInt64) :
    0 ≤ eventsPerSecond double single elapsedTime nEvents := by
  have hseconds : 0 ≤ double.round (double.round elapsedTime.toNat / 1000) :=
    double.nonneg (div_nonneg (double.nonneg (Nat.cast_nonneg _)) (by norm_num))
  exact single.nonneg (double.nonneg (div_nonneg (double.nonneg (Nat.cast_nonneg _)) hseconds))

variable (before after : ServerUncoreCounterState)

/-- What a channel adds to the misses: a skipped one adds nothing. -/
def missAmount (skipInactiveChannels : Bool) (channel : Fin maxChannels) : ℚ :=
  if skipInactiveChannels = true ∧ Quiet before after channel then 0
  else eventsPerSecond double single elapsedTime (getMCCounter before after channel .pmmMissClean +
    getMCCounter before after channel .pmmMissDirty)

/-- The misses that are lost with a channel that is skipped. -/
def skippedMiss (channel : Fin maxChannels) : ℚ :=
  if Quiet before after channel then
    missAmount double single elapsedTime before after false channel
  else 0

/-- What a channel adds to the hits. -/
def hitAmount (channel : Fin maxChannels) : ℚ :=
  eventsPerSecond double single elapsedTime (getMCCounter before after channel .nmHit)

/-- One pass of the loop over the channels in memory mode, over the sums of the misses and hits. -/
def nearMemoryChannel (skipInactiveChannels : Bool) (total : ℚ × ℚ) (channel : Fin maxChannels) : ℚ × ℚ :=
  let events := channelEvents before after .pmemMemoryMode channel
  if channelSkipped ⟨.pmemMemoryMode, skipInactiveChannels, elapsedTime⟩ events then total
  else
    (single.round (total.1 +
        eventsPerSecond double single elapsedTime (events.cleanMisses + events.dirtyMisses)),
      single.round (total.2 + eventsPerSecond double single elapsedTime events.hits))

/-- The hit rate of the near memory in memory mode, rounded at every step. -/
def nearMemoryHitRate (m : MemoryMachine) (skipInactiveChannels : Bool) : ℚ :=
  let total := m.imcChannels.foldl
    (nearMemoryChannel double single elapsedTime before after skipInactiveChannels) (0, 0)
  single.share total.1 total.2

end

section

variable (double single : Rounding ℚ) (elapsedTime : UInt64) {before after : ServerUncoreCounterState}

/-- A quiet channel has no hits. -/
theorem Quiet.hitAmount {channel : Fin maxChannels} (h : Quiet before after channel) :
    hitAmount double single elapsedTime before after channel = 0 := by
  have hnone : getMCCounter before after channel .nmHit = 0 := h.1
  rw [NodePower.hitAmount, hnone, eventsPerSecond_zero]

/-- What a channel adds to the misses is not negative. -/
theorem missAmount_nonneg (skipInactiveChannels : Bool) (channel : Fin maxChannels) :
    0 ≤ missAmount double single elapsedTime before after skipInactiveChannels channel := by
  unfold missAmount
  split_ifs
  · exact le_rfl
  · exact eventsPerSecond_nonneg double single elapsedTime _

/-- The misses of a skipped channel are not negative. -/
theorem skippedMiss_nonneg (channel : Fin maxChannels) :
    0 ≤ skippedMiss double single elapsedTime before after channel := by
  unfold skippedMiss
  split_ifs
  · exact missAmount_nonneg double single elapsedTime false channel
  · exact le_rfl

/-- Skipping takes the misses of the skipped channels away. -/
theorem missAmount_eq_add (channel : Fin maxChannels) :
    missAmount double single elapsedTime before after false channel =
      missAmount double single elapsedTime before after true channel +
        skippedMiss double single elapsedTime before after channel := by
  by_cases hquiet : Quiet before after channel
  · have hskipped : missAmount double single elapsedTime before after true channel = 0 :=
      if_pos ⟨rfl, hquiet⟩
    rw [skippedMiss, if_pos hquiet, hskipped, zero_add]
  · simp [missAmount, skippedMiss, hquiet]

/-- A channel adds no more misses where channels are skipped. -/
theorem missAmount_le (channel : Fin maxChannels) :
    missAmount double single elapsedTime before after true channel ≤
      missAmount double single elapsedTime before after false channel := by
  rw [missAmount_eq_add]
  exact le_add_of_nonneg_right (skippedMiss_nonneg double single elapsedTime channel)

/-- What a channel adds to the hits is not negative. -/
theorem hitAmount_nonneg (channel : Fin maxChannels) :
    0 ≤ hitAmount double single elapsedTime before after channel :=
  eventsPerSecond_nonneg double single elapsedTime _

/-- The loop adds the misses and hits of the channels. -/
theorem foldl_nearMemoryChannel (h : Advances before after) (skipInactiveChannels : Bool)
    (channels : List (Fin maxChannels)) {total : ℚ × ℚ} (hmiss : single.round total.1 = total.1)
    (hhit : single.round total.2 = total.2) :
    channels.foldl (nearMemoryChannel double single elapsedTime before after skipInactiveChannels) total =
      (single.sumFrom total.1
          (channels.map (missAmount double single elapsedTime before after skipInactiveChannels)),
        single.sumFrom total.2 (channels.map (hitAmount double single elapsedTime before after))) := by
  induction channels generalizing total with
  | nil => rfl
  | cons channel rest ih =>
    have hstep : nearMemoryChannel double single elapsedTime before after skipInactiveChannels total channel =
        (single.round (total.1 +
            missAmount double single elapsedTime before after skipInactiveChannels channel),
          single.round (total.2 + hitAmount double single elapsedTime before after channel)) := by
      have hskipped := channelSkipped_memoryMode h elapsedTime skipInactiveChannels channel
      by_cases hquiet : skipInactiveChannels = true ∧ Quiet before after channel
      · rw [nearMemoryChannel, missAmount, if_pos hquiet, hquiet.2.hitAmount, single.round_add_zero hmiss,
          single.round_add_zero hhit]
        exact if_pos (hskipped.mpr hquiet)
      · rw [nearMemoryChannel, missAmount, if_neg hquiet]
        exact if_neg (hskipped.not.mpr hquiet)
    rw [List.foldl_cons, hstep, ih (single.round_round _) (single.round_round _)]
    rfl

variable (m : MemoryMachine)

/-- The hit rate is the share of the hits in the rounded sums. -/
theorem nearMemoryHitRate_eq (h : Advances before after) (skipInactiveChannels : Bool) :
    nearMemoryHitRate double single elapsedTime before after m skipInactiveChannels =
      single.share
        (single.sumFrom 0
          (m.imcChannels.map (missAmount double single elapsedTime before after skipInactiveChannels)))
        (single.sumFrom 0 (m.imcChannels.map (hitAmount double single elapsedTime before after))) := by
  rw [nearMemoryHitRate, foldl_nearMemoryChannel double single elapsedTime h skipInactiveChannels
    m.imcChannels single.round_zero single.round_zero]

/-- Whatever the rounding is, skipping channels does not lower the hit rate. -/
theorem nearMemoryHitRate_le (h : Advances before after) :
    nearMemoryHitRate double single elapsedTime before after m false ≤
      nearMemoryHitRate double single elapsedTime before after m true := by
  rw [nearMemoryHitRate_eq double single elapsedTime m h, nearMemoryHitRate_eq double single elapsedTime m h]
  exact single.share_le (single.round_sumFrom single.round_zero _)
    (single.sumFrom_nonneg fun channel _ => hitAmount_nonneg double single elapsedTime channel)
    (single.sumFrom_nonneg fun channel _ => missAmount_nonneg double single elapsedTime true channel)
    (single.sumFrom_mono le_rfl fun channel _ => missAmount_le double single elapsedTime channel)

/-- Whatever the rounding is, skipping channels changes the hit rate neither without hits nor without
misses in the skipped channels. -/
theorem nearMemoryHitRate_of_nothing_skipped (h : Advances before after)
    (hnone : (∀ channel ∈ m.imcChannels, getMCCounter before after channel .nmHit = 0) ∨
      ∀ channel ∈ m.imcChannels, Quiet before after channel →
        getMCCounter before after channel .pmmMissClean = 0 ∧
          getMCCounter before after channel .pmmMissDirty = 0) :
    nearMemoryHitRate double single elapsedTime before after m false =
      nearMemoryHitRate double single elapsedTime before after m true := by
  rw [nearMemoryHitRate_eq double single elapsedTime m h, nearMemoryHitRate_eq double single elapsedTime m h]
  rcases hnone with hhits | hmisses
  · have hzero : single.sumFrom 0 (m.imcChannels.map
        (hitAmount double single elapsedTime before after)) = 0 := by
      refine single.sumFrom_zeros fun amount hamount => ?_
      obtain ⟨channel, hchannel, rfl⟩ := List.mem_map.mp hamount
      rw [hitAmount, hhits channel hchannel, eventsPerSecond_zero]
    simp only [hzero, Rounding.share, zero_div, single.round_zero, ite_self]
  · congr 2
    refine List.map_congr_left fun channel hchannel => ?_
    by_cases hquiet : Quiet before after channel
    · obtain ⟨hclean, hdirty⟩ := hmisses channel hchannel hquiet
      simp [missAmount, hquiet, hclean, hdirty, eventsPerSecond_zero]
    · simp [missAmount, hquiet]

end

section

variable (m : MemoryMachine) (skt : ℕ) {before after : ServerUncoreCounterState}
  (skipInactiveChannels : Bool) (elapsedTime : UInt64)

/-- The high-bandwidth memory leaves the near memory as it is. -/
theorem edcChannel_nearMemory {query : TrafficQuery} (t : SocketTraffic) (channel : Fin maxChannels) :
    (edcChannel m query before after t channel).nearMemory = t.nearMemory := by
  unfold edcChannel
  extract_lets
  split <;> rfl

/-- Each channel adds its hits, and its misses unless it is skipped. -/
theorem imcChannel_nearMemory (h : Advances before after) (channel : Fin maxChannels)
    (t : SocketTraffic) :
    (imcChannel m ⟨.pmemMemoryMode, skipInactiveChannels, elapsedTime⟩ skt before after t
        channel).nearMemory =
      t.nearMemory +
        (missAmount (.exact ℚ) (.exact ℚ) elapsedTime before after skipInactiveChannels channel,
          hitAmount (.exact ℚ) (.exact ℚ) elapsedTime before after channel) := by
  have hskipped := channelSkipped_memoryMode h elapsedTime skipInactiveChannels channel
  cases hskip : channelSkipped ⟨.pmemMemoryMode, skipInactiveChannels, elapsedTime⟩
      (channelEvents before after .pmemMemoryMode channel) with
  | true =>
    have hquiet := hskipped.mp hskip
    rw [imcChannel_of_skipped hskip, missAmount, if_pos hquiet, hquiet.2.hitAmount, Prod.mk_zero_zero,
      add_zero]
    rfl
  | false =>
    have hactive : ¬(skipInactiveChannels = true ∧ Quiet before after channel) := by
      intro hquiet
      exact ne_true_of_eq_false hskip (hskipped.mpr hquiet)
    rw [imcChannel_of_active hskip, missAmount, if_neg hactive]
    rfl

/-- The loops add the misses and hits of the channels. -/
theorem channelLoops_nearMemory (h : Advances before after) :
    (channelLoops m ⟨.pmemMemoryMode, skipInactiveChannels, elapsedTime⟩ skt before after).nearMemory =
      ((m.imcChannels.map
          (missAmount (.exact ℚ) (.exact ℚ) elapsedTime before after skipInactiveChannels)).sum,
        (m.imcChannels.map (hitAmount (.exact ℚ) (.exact ℚ) elapsedTime before after)).sum) := by
  rw [channelLoops, foldl_accumulates SocketTraffic.nearMemory
    (fun c _ t => imcChannel_nearMemory m skt skipInactiveChannels elapsedTime h c t), prodMk_sum_map]
  split
  · rw [foldl_keeps SocketTraffic.nearMemory (edcChannel_nearMemory m)]
    exact zero_add _
  · exact zero_add _

/-- No channel sets a hit rate. -/
theorem channelLoops_imcNMHitRate (query : TrafficQuery) :
    (channelLoops m query skt before after).imcNMHitRate = 0 := by
  have hmetrics : ∀ events partialWrites numChannels1 channel t,
      (addMetrics query events partialWrites numChannels1 channel t).imcNMHitRate = t.imcNMHitRate := by
    intro events partialWrites numChannels1 channel t
    unfold addMetrics
    split <;> rfl
  have himc : ∀ t channel, (imcChannel m query skt before after t channel).imcNMHitRate =
      t.imcNMHitRate := by
    intro t channel
    unfold imcChannel
    extract_lets events
    split
    · rfl
    · rw [hmetrics, addCas]
      split <;> rfl
  have hedc : ∀ t channel, (edcChannel m query before after t channel).imcNMHitRate =
      t.imcNMHitRate := by
    intro t channel
    unfold edcChannel
    extract_lets
    split <;> rfl
  rw [channelLoops, foldl_keeps SocketTraffic.imcNMHitRate himc]
  split
  · rw [foldl_keeps SocketTraffic.imcNMHitRate hedc]
    rfl
  · rfl

/-- The hit rate of a socket is that of the misses and hits of its loops. -/
theorem socketTraffic_imcNMHitRate :
    (socketTraffic m ⟨.pmemMemoryMode, skipInactiveChannels, elapsedTime⟩ skt before
        after).imcNMHitRate =
      let (miss, hit) := (channelLoops m ⟨.pmemMemoryMode, skipInactiveChannels, elapsedTime⟩ skt before
        after).nearMemory
      hit / (miss + hit) := by
  have hzero : (channelLoops m ⟨.pmemMemoryMode, skipInactiveChannels, elapsedTime⟩ skt before
      after).imcNMHitRate = 0 := channelLoops_imcNMHitRate m skt _
  rw [socketTraffic, foldl_keeps SocketTraffic.imcNMHitRate (fun _ _ => by rfl)]
  simp only [hitRates, freeRunningCas, freeRunningPmm, SocketTraffic.nearMemory, if_true, or_true,
    true_and, hzero, ite_not]
  split_ifs with hall
  · rw [hall, div_zero]
  · rfl

/-- Without rounding the hit rate of the loop over the channels is the one of the record. -/
theorem nearMemoryHitRate_exact (h : Advances before after) :
    nearMemoryHitRate (.exact ℚ) (.exact ℚ) elapsedTime before after m skipInactiveChannels =
      (socketTraffic m ⟨.pmemMemoryMode, skipInactiveChannels, elapsedTime⟩ skt before
        after).imcNMHitRate := by
  rw [nearMemoryHitRate_eq _ _ _ _ h, Rounding.exact_sumFrom, Rounding.exact_sumFrom, zero_add, zero_add,
    Rounding.exact_share, socketTraffic_imcNMHitRate, channelLoops_nearMemory _ _ _ _ h]

/-- Over some time, no events per second are no events. -/
theorem perSecond_eq_zero_iff (htime : elapsedTime ≠ 0) (nEvents : UInt64) :
    perSecond elapsedTime nEvents = 0 ↔ nEvents = 0 := by
  have hne : (elapsedTime.toNat : ℚ) ≠ 0 := by
    intro hzero
    exact htime (UInt64.toNat_inj.mp (Nat.cast_eq_zero.mp hzero))
  have hevents : (nEvents.toNat : ℚ) = 0 ↔ nEvents = 0 := by
    rw [Nat.cast_eq_zero, ← UInt64.toNat_inj]
    rfl
  simp [perSecond, hne, hevents]

/-- No misses are lost with a channel that is not skipped or whose counters of misses stand still. -/
theorem skippedMiss_eq_zero_iff (h : Advances before after) (htime : elapsedTime ≠ 0)
    (channel : Fin maxChannels) :
    skippedMiss (.exact ℚ) (.exact ℚ) elapsedTime before after channel = 0 ↔
      (Quiet before after channel → getMCCounter before after channel .pmmMissClean = 0 ∧
        getMCCounter before after channel .pmmMissDirty = 0) := by
  rw [skippedMiss, ite_eq_right_iff]
  refine imp_congr_right fun _ => ?_
  rw [missAmount, if_neg (by simp), eventsPerSecond_exact, perSecond_eq_zero_iff elapsedTime htime]
  constructor
  · exact eq_zero_of_add_eq_zero (h.getMCCounter_lt channel _) (h.getMCCounter_lt channel _)
  · rintro ⟨hclean, hdirty⟩
    rw [hclean, hdirty]
    rfl

/-- A share stays the same beside a larger rest exactly when there is nothing of it or of the increase. -/
theorem div_add_eq_div_add_iff {hit miss extra : ℚ} (hhit : 0 ≤ hit) (hmiss : 0 ≤ miss)
    (hextra : 0 ≤ extra) :
    hit / (miss + extra + hit) = hit / (miss + hit) ↔ hit = 0 ∨ extra = 0 := by
  rcases hhit.eq_or_lt with hzero | hpos
  · simp [← hzero]
  · have hleft : 0 < miss + hit := by linarith
    have hright : 0 < miss + extra + hit := by linarith
    rw [div_eq_div_iff hright.ne' hleft.ne', mul_right_inj' hpos.ne']
    constructor
    · intro hsame
      exact Or.inr (by linarith)
    · rintro (hnone | hnone)
      · exact absurd hnone hpos.ne'
      · linarith

/-- Amounts that are not negative do not add up to a negative number. -/
theorem sum_map_nonneg {I : Type*} {items : List I} {amount : I → ℚ}
    (hnonneg : ∀ item ∈ items, 0 ≤ amount item) : 0 ≤ (items.map amount).sum := by
  refine List.sum_nonneg ?_
  intro x hx
  obtain ⟨item, hitem, rfl⟩ := List.mem_map.mp hx
  exact hnonneg item hitem

/-- Amounts that are not negative add up to nothing exactly when each of them is nothing. -/
theorem sum_map_eq_zero_iff {I : Type*} {items : List I} {amount : I → ℚ}
    (hnonneg : ∀ item ∈ items, 0 ≤ amount item) :
    (items.map amount).sum = 0 ↔ ∀ item ∈ items, amount item = 0 := by
  induction items with
  | nil => simp
  | cons item rest ih =>
    have hrest : ∀ other ∈ rest, 0 ≤ amount other :=
      fun other hother => hnonneg other (List.mem_cons_of_mem _ hother)
    rw [List.map_cons, List.sum_cons, List.forall_mem_cons, ← ih hrest]
    exact add_eq_zero_iff_of_nonneg (hnonneg item List.mem_cons_self) (sum_map_nonneg hrest)

/-- Without the option `-all` the hit rate of the near memory is never lower than with it, whatever its
numbers are rounded to, and the same if there were no hits at all or no miss in a skipped channel. With exact
numbers it is the same only then. -/
theorem hitRate_of_skipped (h : Advances before after) (htime : elapsedTime ≠ 0) :
    let nothing := (∀ channel ∈ m.imcChannels, getMCCounter before after channel .nmHit = 0) ∨
      ∀ channel ∈ m.imcChannels, Quiet before after channel →
        getMCCounter before after channel .pmmMissClean = 0 ∧
          getMCCounter before after channel .pmmMissDirty = 0
    (∀ double single : Rounding ℚ,
      let rate := nearMemoryHitRate double single elapsedTime before after m
      rate false ≤ rate true ∧ (nothing → rate false = rate true)) ∧
      let rate (skipInactiveChannels : Bool) : ℚ :=
        (socketTraffic m ⟨.pmemMemoryMode, skipInactiveChannels, elapsedTime⟩ skt before
          after).imcNMHitRate
      rate = nearMemoryHitRate (.exact ℚ) (.exact ℚ) elapsedTime before after m ∧
        rate false ≤ rate true ∧ (rate false = rate true ↔ nothing) := by
  intro nothing
  refine ⟨fun double single => ⟨nearMemoryHitRate_le double single elapsedTime m h,
    nearMemoryHitRate_of_nothing_skipped double single elapsedTime m h⟩, ?_⟩
  intro rate
  have hexact : rate = nearMemoryHitRate (.exact ℚ) (.exact ℚ) elapsedTime before after m := by
    funext skipInactiveChannels
    exact (nearMemoryHitRate_exact m skt skipInactiveChannels elapsedTime h).symm
  have hhits : ∀ channel ∈ m.imcChannels,
      0 ≤ hitAmount (.exact ℚ) (.exact ℚ) elapsedTime before after channel :=
    fun channel _ => hitAmount_nonneg _ _ elapsedTime channel
  have hlost : ∀ channel ∈ m.imcChannels,
      0 ≤ skippedMiss (.exact ℚ) (.exact ℚ) elapsedTime before after channel :=
    fun channel _ => skippedMiss_nonneg _ _ elapsedTime channel
  have hmisses : 0 ≤ (m.imcChannels.map
      (missAmount (.exact ℚ) (.exact ℚ) elapsedTime before after true)).sum :=
    sum_map_nonneg fun channel _ => missAmount_nonneg _ _ elapsedTime true channel
  refine ⟨hexact, ?_, ?_⟩
  · rw [hexact]
    exact nearMemoryHitRate_le _ _ elapsedTime m h
  · -- With and without the option, the loops differ in the misses of the skipped channels alone.
    have hsplit : (m.imcChannels.map
        (missAmount (.exact ℚ) (.exact ℚ) elapsedTime before after false)).sum =
        (m.imcChannels.map (missAmount (.exact ℚ) (.exact ℚ) elapsedTime before after true)).sum +
          (m.imcChannels.map (skippedMiss (.exact ℚ) (.exact ℚ) elapsedTime before after)).sum := by
      rw [← List.sum_map_add]
      exact congrArg List.sum (List.map_congr_left fun channel _ => missAmount_eq_add _ _ _ channel)
    simp only [rate, socketTraffic_imcNMHitRate, channelLoops_nearMemory _ _ _ _ h, hsplit]
    rw [div_add_eq_div_add_iff (sum_map_nonneg hhits) hmisses (sum_map_nonneg hlost),
      sum_map_eq_zero_iff hhits, sum_map_eq_zero_iff hlost]
    refine or_congr ?_ ?_
    · exact forall₂_congr fun channel _ => perSecond_eq_zero_iff elapsedTime htime _
    · exact forall₂_congr fun channel _ => skippedMiss_eq_zero_iff elapsedTime h htime channel

end

/-- A state in which one channel has counted hits and all have counted clean misses. -/
def missedState (hits misses : UInt64) : ServerUncoreCounterState where
  mcCounter channel counter :=
    if counter = EventPosition.pmmMissClean.counter then misses
    else if channel.val = 0 ∧ counter = EventPosition.nmHit.counter then hits else 0
  edcCounter _ _ := 0
  m2mCounter _ _ := 0
  cxlcmCounter _ _ := 0
  freeRunningCounter _ := none

/-- Thirty hits in one channel and ten misses in each of two show as a hit rate that is too high. -/
theorem hitRate_missedState :
    (socketTraffic twoChannels ⟨.pmemMemoryMode, false, 1000⟩ 0 (missedState 0 0)
        (missedState 30 10)).imcNMHitRate <
      (socketTraffic twoChannels ⟨.pmemMemoryMode, true, 1000⟩ 0 (missedState 0 0)
        (missedState 30 10)).imcNMHitRate := by
  have hgrows : ∀ channel counter, Grows ((missedState 0 0).mcCounter channel counter)
      ((missedState 30 10).mcCounter channel counter) := by
    intro channel counter
    have hbefore : (missedState 0 0).mcCounter channel counter = 0 := by simp [missedState]
    rw [hbefore]
    unfold missedState
    simp only
    split_ifs <;> exact ⟨by decide, by decide⟩
  have hzero : Grows 0 0 := ⟨le_rfl, by decide⟩
  have hadvances : Advances (missedState 0 0) (missedState 30 10) :=
    ⟨hgrows, fun _ _ => hzero, fun _ _ => hzero, fun _ => .none⟩
  obtain ⟨-, -, hle, hsame⟩ := hitRate_of_skipped twoChannels 0 1000 hadvances
    (show (1000 : UInt64) ≠ 0 by decide)
  refine lt_of_le_of_ne hle ?_
  rw [Ne, hsame]
  decide

end NodePower
