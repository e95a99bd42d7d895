import WebrtcWinXp.Fec.Packet
import WebrtcWinXp.Support.Int32

/-!
# `DelayManager`

Inter-arrival times are counted in packets.  Their histogram, in Q30, gives the
target level of the packet buffer, in Q8.  A call in which an `int` overflows or
an assertion fails has no result.
-/

namespace WebrtcWinXp.NetEq

open Support
open Fec (isNewerSequenceNumber)

def isNewerTimestamp (timestamp prevTimestamp : UInt32) : Bool :=
  timestamp != prevTimestamp &&
    decide (timestamp - prevTimestamp < 0x80000000)

structure Peak where
  periodMs : ℤ
  peakHeightPackets : ℤ

def kMaxNumPeaks : ℕ := 8
def kMinPeaksToTrigger : ℕ := 2
def kPeakHeightMs : ℤ := 78
def kMaxPeakPeriodMs : ℤ := 10000

structure DelayPeakDetector where
  peakHistory : List Peak := []
  peakFound : Bool := false
  peakDetectionThreshold : ℤ := 0
  peakPeriodCounterMs : ℤ := -1

namespace DelayPeakDetector

variable (p : DelayPeakDetector)

def reset : DelayPeakDetector :=
  { p with
    peakPeriodCounterMs := -1
    peakFound := false
    peakHistory := [] }

def setPacketAudioLength (lengthMs : ℤ) : DelayPeakDetector :=
  if 0 < lengthMs then
    { p with peakDetectionThreshold := kPeakHeightMs.tdiv lengthMs }
  else p

def maxPeakHeight : ℤ :=
  p.peakHistory.foldl (fun m peak => max m peak.peakHeightPackets) (-1)

def maxPeakPeriod : ℤ :=
  p.peakHistory.foldl (fun m peak => max m peak.periodMs) (-1)

def checkPeakConditions : Option (Bool × DelayPeakDetector) :=
  if kMinPeaksToTrigger ≤ p.peakHistory.length then
    (int32 (2 * p.maxPeakPeriod)).map fun period =>
      (p.peakPeriodCounterMs ≤ period,
        { p with peakFound := p.peakPeriodCounterMs ≤ period })
  else some (false, { p with peakFound := false })

/-- What `Update` does when a peak is observed. -/
def observePeak (interArrivalTime : ℤ) : DelayPeakDetector :=
  if p.peakPeriodCounterMs = -1 then { p with peakPeriodCounterMs := 0 }
  else if p.peakPeriodCounterMs ≤ kMaxPeakPeriodMs then
    let history := p.peakHistory ++ [⟨p.peakPeriodCounterMs, interArrivalTime⟩]
    { p with
      peakHistory := history.drop (history.length - kMaxNumPeaks)
      peakPeriodCounterMs := 0 }
  else if p.peakPeriodCounterMs ≤ 2 * kMaxPeakPeriodMs then
    { p with peakPeriodCounterMs := 0 }
  else p.reset

def isPeak (interArrivalTime targetLevel : ℤ) : Option Bool := do
  let height ← int32 (targetLevel + p.peakDetectionThreshold)
  if height < interArrivalTime then some true
  else
    (int32 (2 * targetLevel)).map fun height =>
      decide (height < interArrivalTime)

def update (interArrivalTime targetLevel : ℤ) :
    Option (Bool × DelayPeakDetector) :=
  (p.isPeak interArrivalTime targetLevel).bind fun peak =>
    (if peak then p.observePeak interArrivalTime else p).checkPeakConditions

def incrementCounter (incMs : ℤ) : Option DelayPeakDetector :=
  if 0 ≤ p.peakPeriodCounterMs then
    (int32 (p.peakPeriodCounterMs + incMs)).map fun counter =>
      { p with peakPeriodCounterMs := counter }
  else some p

end DelayPeakDetector

def kLimitProbability : ℤ := 53687091
def kLimitProbabilityStreaming : ℤ := 536871
def kMaxStreamingPeakPeriodMs : ℤ := 600000
def kCumulativeSumDrift : ℤ := 2
def kIatFactor : ℤ := 32745
def kMaxIat : ℕ := 64

/-- The entries that `ResetHistogram` writes. -/
def resetVector : ℕ → ℕ → List ℤ
  | 0, _ => []
  | n + 1, tempProb => (tempProb / 2 * 2 ^ 16 : ℕ) :: resetVector n (tempProb / 2)

/-- Each entry is multiplied by the forgetting factor; with the sum. -/
def forgetLoop (iatFactor : ℤ) : List ℤ → ℤ → Option (List ℤ × ℤ)
  | [], vectorSum => some ([], vectorSum)
  | entry :: rest, vectorSum => do
      let entry ← int32 (entry * iatFactor / 2 ^ 15)
      let vectorSum ← int32 (vectorSum + entry)
      let (rest, vectorSum) ← forgetLoop iatFactor rest vectorSum
      some (entry :: rest, vectorSum)

/-- The first entries are changed until the sum is right. -/
def correctionLoop (flipSign : ℤ) : List ℤ → ℤ → Option (List ℤ × ℤ)
  | [], vectorSum => some ([], vectorSum)
  | entry :: rest, vectorSum =>
    if vectorSum = 0 then some (entry :: rest, vectorSum)
    else do
      let correction := flipSign * min |vectorSum| (entry / 2 ^ 4)
      let entry ← int32 (entry + correction)
      let vectorSum ← int32 (vectorSum + correction)
      let (rest, vectorSum) ← correctionLoop flipSign rest vectorSum
      some (entry :: rest, vectorSum)

/-- The loop of `CalculateTargetLevel`, over the entries behind `index`. -/
def targetIndexLoop (limitProbability : ℤ) : List ℤ → ℤ → ℤ → Option ℤ
  | [], _, _ => none
  | entry :: rest, index, sum => do
      let sum ← int32 (sum - entry)
      if limitProbability < sum ∧ rest ≠ [] then
        targetIndexLoop limitProbability rest (index + 1) sum
      else some (index + 1)

/-! ## The delay manager -/

structure DelayManager where
  firstPacketReceived : Bool
  maxPacketsInBuffer : ℤ
  iatVector : List ℤ
  iatFactor : ℤ
  packetIatCountMs : ℤ
  baseTargetLevel : ℤ
  targetLevel : ℤ
  packetLenMs : ℤ
  streamingMode : Bool
  lastSeqNo : UInt16
  lastTimestamp : UInt32
  minimumDelayMs : ℤ
  leastRequiredDelayMs : ℤ
  maximumDelayMs : ℤ
  iatCumulativeSum : ℤ
  maxIatCumulativeSum : ℤ
  maxTimerMs : ℤ
  peakDetector : DelayPeakDetector

namespace DelayManager

variable (d : DelayManager)

def resetHistogram : DelayManager :=
  { d with
    iatVector := resetVector (kMaxIat + 1) 0x4002
    baseTargetLevel := 4
    targetLevel := 4 * 2 ^ 8 }

def reset : DelayManager :=
  { d.resetHistogram with
    packetLenMs := 0
    streamingMode := false
    peakDetector := d.peakDetector.reset
    iatFactor := 0
    packetIatCountMs := 0
    maxTimerMs := 0
    iatCumulativeSum := 0
    maxIatCumulativeSum := 0 }

def new (maxPacketsInBuffer : ℤ) : DelayManager :=
  reset
    { firstPacketReceived := false
      maxPacketsInBuffer := maxPacketsInBuffer
      iatVector := List.replicate (kMaxIat + 1) 0
      iatFactor := 0
      packetIatCountMs := 0
      baseTargetLevel := 4
      targetLevel := 4 * 2 ^ 8
      packetLenMs := 0
      streamingMode := false
      lastSeqNo := 0
      lastTimestamp := 0
      minimumDelayMs := 0
      leastRequiredDelayMs := 4 * 2 ^ 8
      maximumDelayMs := 4 * 2 ^ 8
      iatCumulativeSum := 0
      maxIatCumulativeSum := 0
      maxTimerMs := 0
      peakDetector := {} }

/-- The maximum, which is lowered when it was observed too long ago. -/
def agedMaximum (timer maximum : ℤ) : Option ℤ :=
  if kMaxStreamingPeakPeriodMs < timer then
    int32 (maximum - kCumulativeSumDrift)
  else some maximum

def updateCumulativeSums (packetLenMs : ℤ) (sequenceNumber : UInt16) :
    Option DelayManager := do
  let iatCount ← int32 (d.packetIatCountMs * 2 ^ 8)
  let iatPacketsQ8 := iatCount.tdiv packetLenMs
  let gap ← int32 (((sequenceNumber.toNat : ℤ) - d.lastSeqNo.toNat) * 2 ^ 8)
  let change ← int32 (iatPacketsQ8 - gap)
  let sum ← int32 (d.iatCumulativeSum + change)
  let sum ← int32 (sum - kCumulativeSumDrift)
  let sum := max sum 0
  let timer := if d.maxIatCumulativeSum < sum then 0 else d.maxTimerMs
  let maximum ← agedMaximum timer (max d.maxIatCumulativeSum sum)
  some
    { d with
      iatCumulativeSum := sum
      maxIatCumulativeSum := maximum
      maxTimerMs := timer }

/-- The histogram after `UpdateHistogram`, and what is left of the vector sum
behind the correction loop. -/
def correctedHistogram (iatPackets : ℕ) : Option (List ℤ × ℤ) := do
  let (vector, vectorSum) ← forgetLoop d.iatFactor d.iatVector 0
  let gain ← int32 ((32768 - d.iatFactor) * 2 ^ 15)
  let entry ← int32 (vector.getD iatPackets 0 + gain)
  let vectorSum ← int32 (vectorSum + gain)
  let vectorSum ← int32 (vectorSum - 2 ^ 30)
  if vectorSum ≠ 0 then
    correctionLoop (if 0 < vectorSum then -1 else 1)
      (vector.set iatPackets entry) vectorSum
  else some (vector.set iatPackets entry, vectorSum)

/-- `UpdateHistogram`, with its two assertions. -/
def updateHistogram (iatPackets : ℤ) : Option DelayManager :=
  if 0 ≤ iatPackets ∧ iatPackets < d.iatVector.length then do
    let (vector, vectorSum) ← d.correctedHistogram iatPackets.toNat
    if vectorSum = 0 then
      some
        { d with
          iatVector := vector
          iatFactor := d.iatFactor + (kIatFactor - d.iatFactor + 3) / 2 ^ 2 }
    else none
  else none

def raisedLevel : Option ℤ :=
  if 0 < d.packetLenMs ∧ 0 < d.minimumDelayMs then
    (int32 (d.minimumDelayMs * 2 ^ 8)).map fun delay =>
      max d.targetLevel (delay.tdiv d.packetLenMs)
  else some d.targetLevel

def loweredLevel (level : ℤ) : Option ℤ :=
  if 0 < d.maximumDelayMs ∧ 0 < d.packetLenMs then
    (int32 (d.maximumDelayMs * 2 ^ 8)).map fun delay =>
      min level (delay.tdiv d.packetLenMs)
  else some level

def maxBufferPacketsQ8 : Option ℤ := do
  let packets ← int32 (d.maxPacketsInBuffer * 2 ^ 8)
  let packets ← int32 (3 * packets)
  some (packets.tdiv 4)

def limitTargetLevel : Option DelayManager := do
  let required ← int32 (d.targetLevel * d.packetLenMs)
  let level ← d.raisedLevel
  let level ← d.loweredLevel level
  let packets ← d.maxBufferPacketsQ8
  some
    { d with
      leastRequiredDelayMs := required / 2 ^ 8
      targetLevel := max (min level packets) (2 ^ 8) }

def calculateTargetLevel (iatPackets : ℤ) : Option DelayManager :=
  match d.iatVector with
  | [] => none
  | entry :: rest => do
      let sum ← int32 (2 ^ 30 - entry)
      let index ← targetIndexLoop
        (if d.streamingMode then kLimitProbabilityStreaming
          else kLimitProbability) rest 0 sum
      let (found, detector) ← d.peakDetector.update iatPackets index
      let level := if found then max index detector.maxPeakHeight else index
      let level ← int32 (max level 1 * 2 ^ 8)
      some
        { d with
          baseTargetLevel := index
          targetLevel := level
          peakDetector := detector }

/-- Whether the packet length can be found from the previous packet. -/
def inOrder (sequenceNumber : UInt16) (timestamp : UInt32) : Bool :=
  isNewerTimestamp timestamp d.lastTimestamp &&
    isNewerSequenceNumber sequenceNumber d.lastSeqNo

def packetLenSamp (sequenceNumber : UInt16) (timestamp : UInt32) : ℕ :=
  (timestamp - d.lastTimestamp).toNat / (sequenceNumber - d.lastSeqNo).toNat

/-- The packet length that `Update` uses. -/
def packetLen (sequenceNumber : UInt16) (timestamp : UInt32)
    (sampleRateHz : ℤ) : Option ℤ :=
  if d.inOrder sequenceNumber timestamp then
    (int32 (1000 * d.packetLenSamp sequenceNumber timestamp)).map
      (·.tdiv sampleRateHz)
  else some d.packetLenMs

/-- The inter-arrival time, compensated for gaps and reordering. -/
def compensate (sequenceNumber : UInt16) (iatPackets : ℤ) : Option ℤ :=
  if isNewerSequenceNumber sequenceNumber (d.lastSeqNo + 1) then
    (int32 (iatPackets - (sequenceNumber - d.lastSeqNo - 1).toNat)).map
      (max · 0)
  else if !isNewerSequenceNumber sequenceNumber d.lastSeqNo then
    int32 (iatPackets + (d.lastSeqNo + 1 - sequenceNumber).toNat)
  else some iatPackets

/-- The cumulative sums, in streaming mode only. -/
def streamingSums (packetLenMs : ℤ) (sequenceNumber : UInt16) :
    Option DelayManager :=
  if d.streamingMode then d.updateCumulativeSums packetLenMs sequenceNumber
  else some d

/-- The target level covers the cumulative sum, in streaming mode only. -/
def streamingLevel : DelayManager :=
  if d.streamingMode then
    { d with targetLevel := max d.targetLevel d.maxIatCumulativeSum }
  else d

/-- What `Update` does with a valid packet length. -/
def updateStatistics (packetLenMs : ℤ) (sequenceNumber : UInt16) :
    Option DelayManager := do
  let summed ← d.streamingSums packetLenMs sequenceNumber
  let iatPackets ←
    d.compensate sequenceNumber (d.packetIatCountMs.tdiv packetLenMs)
  let updated ← summed.updateHistogram (min iatPackets kMaxIat)
  let calculated ← updated.calculateTargetLevel (min iatPackets kMaxIat)
  calculated.streamingLevel.limitTargetLevel

/-- Without a valid packet length, the statistics stay. -/
def statistics (packetLenMs : ℤ) (sequenceNumber : UInt16) :
    Option DelayManager :=
  if 0 < packetLenMs then d.updateStatistics packetLenMs sequenceNumber
  else some d

def prepare (sequenceNumber : UInt16) (timestamp : UInt32) : DelayManager :=
  { d with
    packetIatCountMs := 0
    lastSeqNo := sequenceNumber
    lastTimestamp := timestamp }

def update (sequenceNumber : UInt16) (timestamp : UInt32) (sampleRateHz : ℤ) :
    Option (ℤ × DelayManager) :=
  if sampleRateHz ≤ 0 then some (-1, d)
  else if d.firstPacketReceived then do
    let packetLenMs ← d.packetLen sequenceNumber timestamp sampleRateHz
    let updated ← d.statistics packetLenMs sequenceNumber
    some (0, updated.prepare sequenceNumber timestamp)
  else
    some (0,
      { d.prepare sequenceNumber timestamp with
        firstPacketReceived := true })

def setPacketAudioLength (lengthMs : ℤ) : ℤ × DelayManager :=
  if lengthMs ≤ 0 then (-1, d)
  else
    (0,
      { d with
        packetLenMs := lengthMs
        peakDetector := d.peakDetector.setPacketAudioLength lengthMs
        packetIatCountMs := 0 })

def updateCounters (elapsedTimeMs : ℤ) : Option DelayManager := do
  let count ← int32 (d.packetIatCountMs + elapsedTimeMs)
  let detector ← d.peakDetector.incrementCounter elapsedTimeMs
  let timer ← int32 (d.maxTimerMs + elapsedTimeMs)
  some
    { d with
      packetIatCountMs := count
      peakDetector := detector
      maxTimerMs := timer }

def refusesMinimum (delayMs : ℤ) : Option Bool :=
  if 0 < d.maximumDelayMs ∧ d.maximumDelayMs < delayMs then some true
  else if 0 < d.packetLenMs then do
    let packets ← int32 (3 * d.maxPacketsInBuffer)
    let room ← int32 (packets * d.packetLenMs)
    some (decide (room.tdiv 4 < delayMs))
  else some false

def setMinimumDelay (delayMs : ℤ) : Option (Bool × DelayManager) :=
  (d.refusesMinimum delayMs).map fun refused =>
    if refused then (false, d) else (true, { d with minimumDelayMs := delayMs })

def setMaximumDelay (delayMs : ℤ) : Bool × DelayManager :=
  if delayMs = 0 then (true, { d with maximumDelayMs := 0 })
  else if delayMs < d.minimumDelayMs ∨ delayMs < d.packetLenMs then (false, d)
  else (true, { d with maximumDelayMs := delayMs })

end DelayManager

inductive DelayCall where
  | reset
  | update (sequenceNumber : UInt16) (timestamp : UInt32) (sampleRateHz : ℤ)
  | updateCounters (elapsedTimeMs : ℤ)
  | resetPacketIatCount
  | setPacketAudioLength (lengthMs : ℤ)
  | setMinimumDelay (delayMs : ℤ)
  | setMaximumDelay (delayMs : ℤ)
  | setStreamingMode (value : Bool)

namespace DelayManager

def call (d : DelayManager) : DelayCall → Option DelayManager
  | .reset => some d.reset
  | .update sequenceNumber timestamp sampleRateHz =>
    (d.update sequenceNumber timestamp sampleRateHz).map Prod.snd
  | .updateCounters elapsedTimeMs => d.updateCounters elapsedTimeMs
  | .resetPacketIatCount => some { d with packetIatCountMs := 0 }
  | .setPacketAudioLength lengthMs => some (d.setPacketAudioLength lengthMs).2
  | .setMinimumDelay delayMs => (d.setMinimumDelay delayMs).map Prod.snd
  | .setMaximumDelay delayMs => some (d.setMaximumDelay delayMs).2
  | .setStreamingMode value => some { d with streamingMode := value }

end DelayManager

end WebrtcWinXp.NetEq
