import WebrtcWinXp.NetEq.Histogram
import WebrtcWinXp.Support.Transition

/-!
# Runs of the delay manager

As long as times and lengths are small enough, no computation overflows.  Then
the histogram is a distribution in every state, the correction loop always ends
with nothing left, and the target level respects its limits.
-/

namespace WebrtcWinXp.NetEq

open Support
open Fec (isNewerSequenceNumber)

theorem tdiv_bounds {a b : ℤ} (ha : 0 ≤ a) (hb : 0 ≤ b) :
    0 ≤ a.tdiv b ∧ a.tdiv b ≤ a := by
  rw [Int.tdiv_eq_ediv_of_nonneg ha]
  exact ⟨Int.ediv_nonneg ha hb, Int.ediv_le_self b ha⟩

theorem foldl_max_bounds {α : Type*} (g : α → ℤ) {l : List α} {a b : ℤ}
    (hl : ∀ x ∈ l, g x ≤ b) (ha : a ≤ b) :
    a ≤ l.foldl (fun m x => max m (g x)) a ∧
      l.foldl (fun m x => max m (g x)) a ≤ b := by
  induction l generalizing a with
  | nil => exact ⟨le_rfl, ha⟩
  | cons x l ih =>
    rw [List.forall_mem_cons] at hl
    obtain ⟨hlower, hupper⟩ := ih hl.2 (max_le ha hl.1)
    exact ⟨(le_max_left a (g x)).trans hlower, hupper⟩

/-! ## Delay peaks -/

namespace DelayPeakDetector

/-- Peaks are kept with a valid period and a saturated height. -/
structure Inv (p : DelayPeakDetector) : Prop where
  counter : -1 ≤ p.peakPeriodCounterMs ∧ p.peakPeriodCounterMs < 2 ^ 31
  threshold : 0 ≤ p.peakDetectionThreshold ∧
    p.peakDetectionThreshold ≤ kPeakHeightMs
  periods : ∀ peak ∈ p.peakHistory, peak.periodMs ≤ kMaxPeakPeriodMs
  heights : ∀ peak ∈ p.peakHistory, peak.peakHeightPackets ≤ kMaxIat

variable {p q : DelayPeakDetector} {interArrivalTime targetLevel incMs : ℤ}

theorem Inv.new : Inv {} :=
  ⟨by decide, by decide, nofun, nofun⟩

theorem counter_bounds : -1 ≤ (0 : ℤ) ∧ (0 : ℤ) < 2 ^ 31 := by decide

theorem Inv.reset (h : Inv p) : Inv p.reset where
  counter := show -1 ≤ (-1 : ℤ) ∧ (-1 : ℤ) < 2 ^ 31 by decide
  threshold := h.threshold
  periods := nofun
  heights := nofun

theorem Inv.setPacketAudioLength (h : Inv p) (lengthMs : ℤ) :
    Inv (p.setPacketAudioLength lengthMs) := by
  rw [DelayPeakDetector.setPacketAudioLength]
  split
  · have hbounds : 0 ≤ kPeakHeightMs.tdiv lengthMs ∧
        kPeakHeightMs.tdiv lengthMs ≤ kPeakHeightMs :=
      tdiv_bounds (by decide) (by omega)
    exact { h with threshold := hbounds }
  · exact h

theorem Inv.maxPeakHeight (h : Inv p) :
    -1 ≤ p.maxPeakHeight ∧ p.maxPeakHeight ≤ kMaxIat :=
  foldl_max_bounds _ h.heights (by decide)

theorem Inv.maxPeakPeriod (h : Inv p) :
    -1 ≤ p.maxPeakPeriod ∧ p.maxPeakPeriod ≤ kMaxPeakPeriodMs :=
  foldl_max_bounds _ h.periods (by decide)

theorem Inv.checkPeakConditions (h : Inv p) :
    ∃ found q, p.checkPeakConditions = some (found, q) ∧ Inv q := by
  have hfits : Fits (2 * p.maxPeakPeriod) := by
    have hbounds := h.maxPeakPeriod
    rw [kMaxPeakPeriodMs] at hbounds
    exact ⟨by omega, by omega⟩
  rw [DelayPeakDetector.checkPeakConditions]
  split
  · rw [int32_of_fits hfits]
    exact ⟨_, _, rfl, { h with }⟩
  · exact ⟨_, _, rfl, { h with }⟩

theorem Inv.observePeak (h : Inv p) (hheight : interArrivalTime ≤ kMaxIat) :
    Inv (p.observePeak interArrivalTime) := by
  rw [DelayPeakDetector.observePeak]
  split
  · exact { h with counter := counter_bounds }
  · split
    · rename_i hperiod
      have hsuffix := List.drop_suffix
        ((p.peakHistory ++ [Peak.mk p.peakPeriodCounterMs interArrivalTime]).length
          - kMaxNumPeaks)
        (p.peakHistory ++ [Peak.mk p.peakPeriodCounterMs interArrivalTime])
      refine ⟨counter_bounds, h.threshold, ?_, ?_⟩
      · intro peak hpeak
        obtain hold | hnew := List.mem_append.mp (hsuffix.subset hpeak)
        · exact h.periods peak hold
        · rw [List.mem_singleton.mp hnew]
          exact hperiod
      · intro peak hpeak
        obtain hold | hnew := List.mem_append.mp (hsuffix.subset hpeak)
        · exact h.heights peak hold
        · rw [List.mem_singleton.mp hnew]
          exact hheight
    · split
      · exact { h with counter := counter_bounds }
      · exact h.reset

theorem Inv.update (h : Inv p) (hheight : interArrivalTime ≤ kMaxIat)
    (htarget : 0 ≤ targetLevel ∧ targetLevel ≤ kMaxIat) :
    ∃ found q, p.update interArrivalTime targetLevel = some (found, q) ∧
      Inv q := by
  have hthreshold := h.threshold
  rw [kPeakHeightMs] at hthreshold
  have hmax : kMaxIat = 64 := rfl
  have hfits : Fits (targetLevel + p.peakDetectionThreshold) :=
    ⟨by omega, by omega⟩
  have htwice : Fits (2 * targetLevel) := ⟨by omega, by omega⟩
  have hpeak : ∃ peak, p.isPeak interArrivalTime targetLevel = some peak := by
    rw [isPeak, int32_of_fits hfits]
    simp only [Option.bind_eq_bind, Option.bind_some]
    split
    · exact ⟨true, rfl⟩
    · rw [int32_of_fits htwice]
      exact ⟨_, rfl⟩
  obtain ⟨peak, heq⟩ := hpeak
  rw [DelayPeakDetector.update, heq, Option.bind_some]
  split
  · exact (h.observePeak hheight).checkPeakConditions
  · exact h.checkPeakConditions

theorem Inv.incrementCounter (h : Inv p) (hinc : 0 ≤ incMs)
    (hfits : p.peakPeriodCounterMs + incMs < 2 ^ 31) :
    ∃ q, p.incrementCounter incMs = some q ∧ Inv q := by
  rw [DelayPeakDetector.incrementCounter]
  split
  · have hsum : Fits (p.peakPeriodCounterMs + incMs) := ⟨by omega, hfits⟩
    have hcounter : -1 ≤ p.peakPeriodCounterMs + incMs ∧
        p.peakPeriodCounterMs + incMs < 2 ^ 31 := ⟨by omega, hfits⟩
    rw [int32_of_fits hsum]
    exact ⟨_, rfl, { h with counter := hcounter }⟩
  · exact ⟨p, rfl, h⟩

end DelayPeakDetector

namespace DelayManager

/-- What holds between calls. -/
structure Inv (d : DelayManager) : Prop where
  histogram : Distribution d.iatVector
  iatFactor : 0 ≤ d.iatFactor ∧ d.iatFactor ≤ kIatFactor
  count : 0 ≤ d.packetIatCountMs
  timer : 0 ≤ d.maxTimerMs
  cumulativeSum : 0 ≤ d.iatCumulativeSum
  highest : -2 ≤ d.maxIatCumulativeSum
  packetLen : 0 ≤ d.packetLenMs ∧ d.packetLenMs < 2 ^ 17
  minimumDelay : d.minimumDelayMs * 2 ^ 8 < 2 ^ 31
  maximumDelay : d.maximumDelayMs * 2 ^ 8 < 2 ^ 31
  buffer : 0 ≤ d.maxPacketsInBuffer ∧ 3 * (d.maxPacketsInBuffer * 2 ^ 8) < 2 ^ 31
  detector : d.peakDetector.Inv

variable {d t : DelayManager} {sequenceNumber : UInt16} {timestamp : UInt32}
  {sampleRateHz packetLenMs iatPackets elapsedTimeMs lengthMs delayMs : ℤ}

/-- The room for the cumulative sum, which is a target level in streaming
mode. -/
def StreamingFits (d : DelayManager) : Prop :=
  (max d.maxIatCumulativeSum d.iatCumulativeSum + d.packetIatCountMs * 2 ^ 8 +
    2 ^ 24) * max 1 d.packetLenMs < 2 ^ 31

/-- Times and lengths for which nothing overflows. -/
def CallFits (d : DelayManager) : DelayCall → Prop
  | .reset => True
  | .update sequenceNumber timestamp _ =>
    (d.inOrder sequenceNumber timestamp →
      1000 * (d.packetLenSamp sequenceNumber timestamp : ℤ) < 2 ^ 31) ∧
    d.packetIatCountMs + 2 ^ 16 < 2 ^ 31 ∧
    (d.streamingMode → d.StreamingFits)
  | .updateCounters elapsedTimeMs =>
    0 ≤ elapsedTimeMs ∧ d.packetIatCountMs + elapsedTimeMs < 2 ^ 31 ∧
      d.maxTimerMs + elapsedTimeMs < 2 ^ 31 ∧
        d.peakDetector.peakPeriodCounterMs + elapsedTimeMs < 2 ^ 31
  | .resetPacketIatCount => True
  | .setPacketAudioLength lengthMs => lengthMs < 2 ^ 17
  | .setMinimumDelay delayMs =>
    delayMs * 2 ^ 8 < 2 ^ 31 ∧
      3 * d.maxPacketsInBuffer * d.packetLenMs < 2 ^ 31
  | .setMaximumDelay delayMs => delayMs * 2 ^ 8 < 2 ^ 31
  | .setStreamingMode _ => True

theorem Inv.reset (h : Inv d) : Inv d.reset where
  histogram := distribution_resetVector
  iatFactor := show (0 : ℤ) ≤ 0 ∧ (0 : ℤ) ≤ kIatFactor by decide
  count := le_rfl
  timer := le_rfl
  cumulativeSum := le_rfl
  highest := show (-2 : ℤ) ≤ 0 by decide
  packetLen := show (0 : ℤ) ≤ 0 ∧ (0 : ℤ) < 2 ^ 17 by decide
  minimumDelay := h.minimumDelay
  maximumDelay := h.maximumDelay
  buffer := h.buffer
  detector := h.detector.reset

def LevelFits (d : DelayManager) : Prop :=
  d.streamingMode → d.maxIatCumulativeSum * max 1 d.packetLenMs < 2 ^ 31

theorem agedMaximum_bounds (timer : ℤ) {maximum : ℤ} (h : 0 ≤ maximum)
    (hfits : maximum < 2 ^ 31) :
    ∃ m, agedMaximum timer maximum = some m ∧ -2 ≤ m ∧ m ≤ maximum := by
  rw [agedMaximum, kCumulativeSumDrift]
  split
  · have hsub : Fits (maximum - 2) := ⟨by omega, by omega⟩
    exact ⟨maximum - 2, int32_of_fits hsub, by omega, by omega⟩
  · exact ⟨maximum, rfl, by omega, le_rfl⟩

theorem Inv.updateCumulativeSums (h : Inv d) (hlen : 0 ≤ packetLenMs)
    (hfits : d.StreamingFits) :
    ∃ t, d.updateCumulativeSums packetLenMs sequenceNumber = some t ∧ Inv t ∧
      LevelFits t := by
  have hcount := h.count
  have hsum := h.cumulativeSum
  rw [StreamingFits] at hfits
  set bound := max d.maxIatCumulativeSum d.iatCumulativeSum +
    d.packetIatCountMs * 2 ^ 8 + 2 ^ 24 with hbound
  have hone : bound * 1 ≤ bound * max 1 d.packetLenMs :=
    Int.mul_le_mul_of_nonneg_left (le_max_left _ _) (by omega)
  have hseq := sequenceNumber.toNat_lt
  have hlast := d.lastSeqNo.toNat_lt
  obtain ⟨hquot, hquot'⟩ := tdiv_bounds
    (show 0 ≤ d.packetIatCountMs * 2 ^ 8 by omega) hlen
  have hcountfits : Fits (d.packetIatCountMs * 2 ^ 8) := ⟨by omega, by omega⟩
  rw [DelayManager.updateCumulativeSums, kCumulativeSumDrift]
  simp only [Option.bind_eq_bind, int32_of_fits hcountfits, Option.bind_some]
  set quotient := (d.packetIatCountMs * 2 ^ 8).tdiv packetLenMs
  set gap := ((sequenceNumber.toNat : ℤ) - d.lastSeqNo.toNat) * 2 ^ 8
  have hgapfits : Fits gap := ⟨by omega, by omega⟩
  have hchangefits : Fits (quotient - gap) := ⟨by omega, by omega⟩
  have hsumfits : Fits (d.iatCumulativeSum + (quotient - gap)) :=
    ⟨by omega, by omega⟩
  have hdriftfits : Fits (d.iatCumulativeSum + (quotient - gap) - 2) :=
    ⟨by omega, by omega⟩
  simp only [int32_of_fits hgapfits, int32_of_fits hchangefits,
    int32_of_fits hsumfits, int32_of_fits hdriftfits, Option.bind_some]
  set sum := max (d.iatCumulativeSum + (quotient - gap) - 2) 0 with hsum'
  set timer := if d.maxIatCumulativeSum < sum then 0 else d.maxTimerMs
    with htimer
  obtain ⟨m, hm, hm', hle⟩ := agedMaximum_bounds timer
    (show 0 ≤ max d.maxIatCumulativeSum sum by omega)
    (show max d.maxIatCumulativeSum sum < 2 ^ 31 by omega)
  have htimer' : 0 ≤ timer := by
    rw [htimer]
    split
    · exact le_rfl
    · exact h.timer
  rw [hm, Option.bind_some]
  refine ⟨_, rfl, ?_, ?_⟩
  · exact
      { h with
        timer := htimer'
        cumulativeSum := le_max_right _ _
        highest := hm' }
  · intro _
    have hmul : m * max 1 d.packetLenMs ≤ bound * max 1 d.packetLenMs :=
      Int.mul_le_mul_of_nonneg_right (by omega) (by omega)
    exact hmul.trans_lt hfits

theorem Inv.streamingSums (sequenceNumber : UInt16) (h : Inv d) (hlen : 0 ≤ packetLenMs)
    (hfits : d.streamingMode → d.StreamingFits) :
    ∃ t, d.streamingSums packetLenMs sequenceNumber = some t ∧ Inv t ∧
      LevelFits t := by
  rw [DelayManager.streamingSums]
  split
  · rename_i hstreaming
    exact h.updateCumulativeSums hlen (hfits hstreaming)
  · rename_i hstreaming
    exact ⟨d, rfl, h, fun htrue => absurd htrue hstreaming⟩

theorem compensate_nonneg (d : DelayManager) (sequenceNumber : UInt16)
    (hiat : 0 ≤ iatPackets)
    (hfits : iatPackets + 2 ^ 16 < 2 ^ 31) :
    ∃ j, d.compensate sequenceNumber iatPackets = some j ∧ 0 ≤ j := by
  rw [compensate]
  split
  · have hlt := (sequenceNumber - d.lastSeqNo - 1).toNat_lt
    have hsub : Fits (iatPackets - (sequenceNumber - d.lastSeqNo - 1).toNat) :=
      ⟨by omega, by omega⟩
    rw [int32_of_fits hsub]
    exact ⟨_, rfl, le_max_right _ _⟩
  · split
    · have hlt := (d.lastSeqNo + 1 - sequenceNumber).toNat_lt
      have hadd :
          Fits (iatPackets + (d.lastSeqNo + 1 - sequenceNumber).toNat) :=
        ⟨by omega, by omega⟩
      exact ⟨_, int32_of_fits hadd, by omega⟩
    · exact ⟨iatPackets, rfl, hiat⟩

/-- The assertions of `UpdateHistogram` hold. -/
theorem Inv.updateHistogram (h : Inv d) (hlevel : LevelFits d)
    (hiat : 0 ≤ iatPackets ∧ iatPackets ≤ kMaxIat) :
    ∃ t, d.updateHistogram iatPackets = some t ∧ Inv t ∧ LevelFits t := by
  have hfactor := h.iatFactor
  rw [kIatFactor] at hfactor
  obtain ⟨w, hw, hdistribution⟩ := h.histogram.correctedHistogram
    h.iatFactor.1 (by omega) (show iatPackets.toNat ≤ kMaxIat by omega)
  rw [DelayManager.updateHistogram, if_pos ⟨hiat.1, by
    rw [h.histogram.length_eq]
    omega⟩, hw]
  refine ⟨_, rfl, ?_, hlevel⟩
  exact
    { h with
      histogram := hdistribution
      iatFactor := iatFactor_step h.iatFactor.1 h.iatFactor.2 }

theorem Inv.calculateTargetLevel (h : Inv d) (hlevel : LevelFits d)
    (hiat : iatPackets ≤ kMaxIat) :
    ∃ t, d.calculateTargetLevel iatPackets = some t ∧ Inv t ∧ LevelFits t ∧
      0 ≤ t.targetLevel ∧ t.targetLevel ≤ 2 ^ 14 := by
  have hmax : kMaxIat = 64 := rfl
  have hlength := h.histogram.length_eq
  have hnonneg := h.histogram.nonneg
  have hsum := h.histogram.sum_eq
  rw [DelayManager.calculateTargetLevel]
  split
  · rename_i hnil
    rw [hnil] at hlength
    exact absurd hlength (by decide)
  · rename_i entry rest hcons
    rw [hcons, List.length_cons] at hlength
    rw [hcons, List.forall_mem_cons] at hnonneg
    rw [hcons, List.sum_cons] at hsum
    have hrest : 0 ≤ rest.sum := List.sum_nonneg hnonneg.2
    have hfits : Fits (2 ^ 30 - entry) := ⟨by omega, by omega⟩
    have hne : rest ≠ [] := List.ne_nil_of_length_pos (by omega)
    obtain ⟨index, hindex, hlt, hle⟩ := targetIndexLoop_eq
      (if d.streamingMode then kLimitProbabilityStreaming
        else kLimitProbability) 0 hne hnonneg.2
      (show rest.sum ≤ 2 ^ 30 - entry by omega) (by omega)
    obtain ⟨found, q, hq, hdetector⟩ := h.detector.update hiat
      (show 0 ≤ index ∧ index ≤ kMaxIat by omega)
    obtain ⟨hheight, hheight'⟩ := hdetector.maxPeakHeight
    have hfound : (if found = true then max index q.maxPeakHeight else index) ≤
        64 := by
      split <;> omega
    set level := if found = true then max index q.maxPeakHeight else index
      with hlevel'
    have hlevelfits : Fits (max level 1 * 2 ^ 8) := ⟨by omega, by omega⟩
    rw [int32_of_fits hfits]
    simp only [Option.bind_eq_bind, Option.bind_some, hindex, hq, ← hlevel',
      int32_of_fits hlevelfits]
    refine ⟨_, rfl, { h with detector := hdetector }, hlevel, ?_, ?_⟩
    · dsimp only
      omega
    · dsimp only
      omega

theorem Inv.streamingLevel (h : Inv d) (hlevel : LevelFits d)
    (htarget : 0 ≤ d.targetLevel ∧ d.targetLevel ≤ 2 ^ 14) :
    Inv d.streamingLevel ∧
      Fits (d.streamingLevel.targetLevel * d.streamingLevel.packetLenMs) := by
  have hlen := h.packetLen
  have hsmall : d.targetLevel * d.packetLenMs ≤ 2 ^ 14 * (2 ^ 17 - 1) :=
    Int.mul_le_mul htarget.2 (by omega) hlen.1 (by decide)
  rw [DelayManager.streamingLevel]
  split
  · rename_i hstreaming
    refine ⟨{ h with }, ?_⟩
    have hlarge : d.maxIatCumulativeSum * d.packetLenMs < 2 ^ 31 := by
      obtain hneg | hpos := lt_or_ge d.maxIatCumulativeSum 0
      · have hmul := Int.mul_nonpos_of_nonpos_of_nonneg hneg.le hlen.1
        omega
      · have hmul : d.maxIatCumulativeSum * d.packetLenMs ≤
            d.maxIatCumulativeSum * max 1 d.packetLenMs :=
          Int.mul_le_mul_of_nonneg_left (le_max_right _ _) hpos
        exact hmul.trans_lt (hlevel hstreaming)
    dsimp only
    refine fits_of_bounds (Int.mul_nonneg (by omega) hlen.1) ?_
    obtain hle | hle := le_total d.targetLevel d.maxIatCumulativeSum
    · rw [max_eq_right hle]
      exact hlarge
    · rw [max_eq_left hle]
      omega
  · exact ⟨h, fits_of_bounds (Int.mul_nonneg htarget.1 hlen.1) (by omega)⟩

theorem Inv.limitTargetLevel (h : Inv d)
    (hfits : Fits (d.targetLevel * d.packetLenMs)) :
    ∃ t, d.limitTargetLevel = some t ∧ Inv t := by
  have hbuffer := h.buffer
  have hraised : ∃ level, d.raisedLevel = some level := by
    have hminimum := h.minimumDelay
    rw [raisedLevel]
    split
    · have hdelay : Fits (d.minimumDelayMs * 2 ^ 8) := ⟨by omega, by omega⟩
      rw [int32_of_fits hdelay]
      exact ⟨_, rfl⟩
    · exact ⟨_, rfl⟩
  obtain ⟨raised, hraised⟩ := hraised
  have hlowered : ∃ level, d.loweredLevel raised = some level := by
    have hmaximum := h.maximumDelay
    rw [loweredLevel]
    split
    · have hdelay : Fits (d.maximumDelayMs * 2 ^ 8) := ⟨by omega, by omega⟩
      rw [int32_of_fits hdelay]
      exact ⟨_, rfl⟩
    · exact ⟨_, rfl⟩
  obtain ⟨lowered, hlowered⟩ := hlowered
  have hpackets : Fits (d.maxPacketsInBuffer * 2 ^ 8) := ⟨by omega, by omega⟩
  have hthree : Fits (3 * (d.maxPacketsInBuffer * 2 ^ 8)) :=
    ⟨by omega, hbuffer.2⟩
  rw [DelayManager.limitTargetLevel, maxBufferPacketsQ8]
  simp only [Option.bind_eq_bind, Option.bind_some, int32_of_fits hfits,
    hraised, hlowered, int32_of_fits hpackets, int32_of_fits hthree]
  exact ⟨_, rfl, { h with }⟩

theorem Inv.updateStatistics (h : Inv d) (hlen : 0 ≤ packetLenMs)
    (hcount : d.packetIatCountMs + 2 ^ 16 < 2 ^ 31)
    (hfits : d.streamingMode → d.StreamingFits) :
    ∃ t, d.updateStatistics packetLenMs sequenceNumber = some t ∧ Inv t := by
  have hcount' := h.count
  obtain ⟨hiat, hiat'⟩ := tdiv_bounds hcount' hlen
  obtain ⟨summed, hsummed, hinv, hlevel⟩ :=
    h.streamingSums sequenceNumber hlen hfits
  obtain ⟨j, hj, hj'⟩ := compensate_nonneg d sequenceNumber hiat (by omega)
  have hmax : kMaxIat = 64 := rfl
  obtain ⟨updated, hupdated, hinv, hlevel⟩ := hinv.updateHistogram hlevel
    (show 0 ≤ min j kMaxIat ∧ min j kMaxIat ≤ kMaxIat by omega)
  obtain ⟨calculated, hcalculated, hinv, hlevel, htarget⟩ :=
    hinv.calculateTargetLevel hlevel (show min j kMaxIat ≤ kMaxIat by omega)
  obtain ⟨hinv, hproduct⟩ := hinv.streamingLevel hlevel htarget
  rw [DelayManager.updateStatistics]
  simp only [Option.bind_eq_bind, Option.bind_some, hsummed, hj, hupdated,
    hcalculated]
  exact hinv.limitTargetLevel hproduct

theorem Inv.update (h : Inv d)
    (hfits : CallFits d (.update sequenceNumber timestamp sampleRateHz)) :
    ∃ result t, d.update sequenceNumber timestamp sampleRateHz =
      some (result, t) ∧ Inv t := by
  obtain ⟨hsamples, hcount, hstreaming⟩ := hfits
  have hprepare : ∀ {s : DelayManager}, Inv s →
      Inv (s.prepare sequenceNumber timestamp) :=
    fun hs => { hs with count := le_rfl }
  have hlen : ∃ len, d.packetLen sequenceNumber timestamp sampleRateHz =
      some len := by
    rw [DelayManager.packetLen]
    split
    · rename_i horder
      have hproduct : Fits (1000 * d.packetLenSamp sequenceNumber timestamp) :=
        fits_of_bounds (by omega) (hsamples horder)
      rw [int32_of_fits hproduct]
      exact ⟨_, rfl⟩
    · exact ⟨_, rfl⟩
  obtain ⟨len, hlen⟩ := hlen
  have hstatistics : ∃ t, d.statistics len sequenceNumber = some t ∧ Inv t := by
    rw [statistics]
    split
    · rename_i hpos
      exact h.updateStatistics hpos.le hcount hstreaming
    · exact ⟨d, rfl, h⟩
  obtain ⟨t, ht, hinv⟩ := hstatistics
  rw [DelayManager.update]
  split
  · exact ⟨_, d, rfl, h⟩
  · split
    · simp only [Option.bind_eq_bind, Option.bind_some, hlen, ht]
      exact ⟨_, _, rfl, hprepare hinv⟩
    · exact ⟨_, _, rfl, { hprepare h with }⟩

/-! ## Runs -/

theorem Inv.call (h : Inv d) {c : DelayCall} (hfits : CallFits d c) :
    ∃ t, d.call c = some t ∧ Inv t := by
  cases c with
  | reset => exact ⟨_, rfl, h.reset⟩
  | update sequenceNumber timestamp sampleRateHz =>
    obtain ⟨result, t, ht, hinv⟩ := h.update hfits
    rw [DelayManager.call, ht]
    exact ⟨t, rfl, hinv⟩
  | updateCounters elapsedTimeMs =>
    obtain ⟨helapsed, hcount, htimer, hcounter⟩ := hfits
    have hnonneg := h.count
    have hnonneg' := h.timer
    obtain ⟨q, hq, hdetector⟩ :=
      h.detector.incrementCounter helapsed hcounter
    have hcountfits : Fits (d.packetIatCountMs + elapsedTimeMs) :=
      fits_of_bounds (by omega) hcount
    have htimerfits : Fits (d.maxTimerMs + elapsedTimeMs) :=
      fits_of_bounds (by omega) htimer
    have hcount' : 0 ≤ d.packetIatCountMs + elapsedTimeMs := by omega
    have htimer' : 0 ≤ d.maxTimerMs + elapsedTimeMs := by omega
    rw [DelayManager.call, updateCounters]
    simp only [Option.bind_eq_bind, Option.bind_some,
      int32_of_fits hcountfits, hq, int32_of_fits htimerfits]
    exact ⟨_, rfl,
      { h with
        count := hcount'
        timer := htimer'
        detector := hdetector }⟩
  | resetPacketIatCount => exact ⟨_, rfl, { h with count := le_rfl }⟩
  | setPacketAudioLength lengthMs =>
    refine ⟨_, rfl, ?_⟩
    rw [setPacketAudioLength]
    split
    · exact h
    · have hlen : 0 ≤ lengthMs ∧ lengthMs < 2 ^ 17 := ⟨by omega, hfits⟩
      exact
        { h with
          packetLen := hlen
          count := le_rfl
          detector := h.detector.setPacketAudioLength lengthMs }
  | setMinimumDelay delayMs =>
    obtain ⟨hdelay, hroom⟩ := hfits
    have hbuffer := h.buffer
    have hlen := h.packetLen
    have hrefuses : ∃ refused, d.refusesMinimum delayMs = some refused := by
      have hpackets : Fits (3 * d.maxPacketsInBuffer) := ⟨by omega, by omega⟩
      have hroomfits : Fits (3 * d.maxPacketsInBuffer * d.packetLenMs) :=
        fits_of_bounds (Int.mul_nonneg (by omega) hlen.1) hroom
      rw [refusesMinimum]
      split
      · exact ⟨true, rfl⟩
      · split
        · simp only [Option.bind_eq_bind, Option.bind_some,
            int32_of_fits hpackets, int32_of_fits hroomfits]
          exact ⟨_, rfl⟩
        · exact ⟨false, rfl⟩
    obtain ⟨refused, hrefused⟩ := hrefuses
    rw [DelayManager.call, setMinimumDelay, hrefused]
    refine ⟨_, rfl, ?_⟩
    cases refused with
    | true => exact h
    | false => exact { h with minimumDelay := hdelay }
  | setMaximumDelay delayMs =>
    refine ⟨_, rfl, ?_⟩
    rw [setMaximumDelay]
    split
    · exact { h with maximumDelay := show (0 : ℤ) * 2 ^ 8 < 2 ^ 31 by decide }
    · split
      · exact h
      · exact { h with maximumDelay := hfits }
  | setStreamingMode value => exact ⟨_, rfl, { h with }⟩

/-- A new delay manager, for a packet buffer whose size in Q8 fits. -/
def IsNew (d : DelayManager) : Prop :=
  ∃ maxPacketsInBuffer : ℤ, 0 ≤ maxPacketsInBuffer ∧
    3 * (maxPacketsInBuffer * 2 ^ 8) < 2 ^ 31 ∧ d = new maxPacketsInBuffer

theorem Inv.new (h : IsNew d) : Inv d := by
  obtain ⟨maxPacketsInBuffer, hnonneg, hfits, rfl⟩ := h
  exact
    { histogram := distribution_resetVector
      iatFactor := show (0 : ℤ) ≤ 0 ∧ (0 : ℤ) ≤ kIatFactor by decide
      count := le_rfl
      timer := le_rfl
      cumulativeSum := le_rfl
      highest := show (-2 : ℤ) ≤ 0 by decide
      packetLen := show (0 : ℤ) ≤ 0 ∧ (0 : ℤ) < 2 ^ 17 by decide
      minimumDelay := show (0 : ℤ) * 2 ^ 8 < 2 ^ 31 by decide
      maximumDelay := show (4 * 2 ^ 8 : ℤ) * 2 ^ 8 < 2 ^ 31 by decide
      buffer := ⟨hnonneg, hfits⟩
      detector := DelayPeakDetector.Inv.new.reset }

end DelayManager

end WebrtcWinXp.NetEq
