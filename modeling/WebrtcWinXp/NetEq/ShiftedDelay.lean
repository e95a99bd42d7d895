import WebrtcWinXp.NetEq.DelayManager
import WebrtcWinXp.Support.Transition

/-!
# Shifted sequence numbers and timestamps

The delay manager compares sequence numbers and timestamps by their distances.
Only the cumulative sums of the streaming mode use a difference of sequence
numbers that is not reduced to 16 bits.
-/

namespace WebrtcWinXp.NetEq

open Support
open Fec (isNewerSequenceNumber lessThan lessThan_add_right)

theorem isNewerSequenceNumber_add_right (a b c : UInt16) :
    isNewerSequenceNumber (a + c) (b + c) = isNewerSequenceNumber a b :=
  lessThan_add_right b a c

theorem isNewerTimestamp_add_right (a b k : UInt32) :
    isNewerTimestamp (a + k) (b + k) = isNewerTimestamp a b := by
  have hne : (a + k != b + k) = (a != b) := by
    rw [Bool.eq_iff_iff]
    simp
  rw [isNewerTimestamp, isNewerTimestamp, hne, add_sub_add_right_eq_sub]

def DelayCall.shift (c : UInt16) (k : UInt32) : DelayCall → DelayCall
  | .update sequenceNumber timestamp sampleRateHz =>
    .update (sequenceNumber + c) (timestamp + k) sampleRateHz
  | call => call

namespace DelayManager

def withLast (s : UInt16) (t : UInt32) (d : DelayManager) : DelayManager :=
  { d with
    lastSeqNo := s
    lastTimestamp := t }

variable {d e : DelayManager} {s c sequenceNumber : UInt16}
  {t k timestamp : UInt32} {packetLenMs iatPackets : ℤ}

theorem updateHistogram_withLast :
    (d.withLast s t).updateHistogram iatPackets =
      (d.updateHistogram iatPackets).map (withLast s t) := by
  rw [updateHistogram, updateHistogram, apply_ite (Option.map _)]
  congr 1
  change (d.correctedHistogram iatPackets.toNat).bind _ = _
  simp only [Option.bind_eq_bind, Option.map_bind]
  congr 1
  funext x
  rw [Function.comp_apply, apply_ite (Option.map _)]
  rfl

theorem calculateTargetLevel_withLast :
    (d.withLast s t).calculateTargetLevel iatPackets =
      (d.calculateTargetLevel iatPackets).map (withLast s t) := by
  rw [calculateTargetLevel, calculateTargetLevel, withLast]
  dsimp only
  cases d.iatVector with
  | nil => rfl
  | cons entry rest =>
    simp only [Option.bind_eq_bind, Option.map_bind, Function.comp_def,
      Option.map_some]
    rfl

theorem limitTargetLevel_withLast :
    (d.withLast s t).limitTargetLevel =
      d.limitTargetLevel.map (withLast s t) := by
  rw [limitTargetLevel, limitTargetLevel]
  simp only [Option.bind_eq_bind, Option.map_bind, Function.comp_def]
  rfl

theorem streamingLevel_withLast :
    (d.withLast s t).streamingLevel = d.streamingLevel.withLast s t := by
  rw [streamingLevel, streamingLevel, apply_ite (withLast s t)]
  rfl

/-- The differences of the sequence numbers are the same before and after a
shift: the numbers wrap around between the two in both runs or in neither. -/
def WrapsAlike (c last sequenceNumber : UInt16) : Prop :=
  ((sequenceNumber + c).toNat : ℤ) - (last + c).toNat =
    sequenceNumber.toNat - last.toNat

instance (c last sequenceNumber : UInt16) :
    Decidable (WrapsAlike c last sequenceNumber) :=
  inferInstanceAs (Decidable (_ = _))

def shifted (c : UInt16) (k : UInt32) (d : DelayManager) : DelayManager :=
  d.withLast (d.lastSeqNo + c) (d.lastTimestamp + k)

theorem updateCumulativeSums_shifted
    (h : WrapsAlike c d.lastSeqNo sequenceNumber) :
    (d.shifted c k).updateCumulativeSums packetLenMs (sequenceNumber + c) =
      (d.updateCumulativeSums packetLenMs sequenceNumber).map
        (withLast (d.lastSeqNo + c) (d.lastTimestamp + k)) := by
  rw [updateCumulativeSums, updateCumulativeSums]
  simp only [Option.bind_eq_bind, Option.map_bind, Function.comp_def]
  change ((int32 (d.packetIatCountMs * 2 ^ 8)).bind fun iatCount =>
    (int32 ((((sequenceNumber + c).toNat : ℤ) - (d.lastSeqNo + c).toNat) *
      2 ^ 8)).bind _) = _
  rw [h]
  rfl

theorem compensate_shifted :
    (d.shifted c k).compensate (sequenceNumber + c) iatPackets =
      d.compensate sequenceNumber iatPackets := by
  have hnext : d.lastSeqNo + c + 1 = d.lastSeqNo + 1 + c := add_right_comm _ _ _
  have hgap : sequenceNumber + c - (d.lastSeqNo + c) - 1 =
      sequenceNumber - d.lastSeqNo - 1 := by
    rw [add_sub_add_right_eq_sub]
  rw [compensate, compensate]
  change (if isNewerSequenceNumber (sequenceNumber + c) (d.lastSeqNo + c + 1)
    then _ else if !isNewerSequenceNumber (sequenceNumber + c)
      (d.lastSeqNo + c) then int32 (iatPackets +
        (d.lastSeqNo + c + 1 - (sequenceNumber + c)).toNat) else _) = _
  rw [hnext, isNewerSequenceNumber_add_right, isNewerSequenceNumber_add_right,
    add_sub_add_right_eq_sub]
  change (if _ then (int32 (iatPackets -
    (sequenceNumber + c - (d.lastSeqNo + c) - 1).toNat)).map _ else _) = _
  rw [hgap]

theorem packetLen_shifted {sampleRateHz : ℤ} :
    (d.shifted c k).packetLen (sequenceNumber + c) (timestamp + k)
        sampleRateHz =
      d.packetLen sequenceNumber timestamp sampleRateHz := by
  have horder : (d.shifted c k).inOrder (sequenceNumber + c) (timestamp + k) =
      d.inOrder sequenceNumber timestamp := by
    rw [inOrder, inOrder, ← isNewerTimestamp_add_right timestamp _ k,
      ← isNewerSequenceNumber_add_right sequenceNumber _ c]
    rfl
  have hsamp : (d.shifted c k).packetLenSamp (sequenceNumber + c)
      (timestamp + k) = d.packetLenSamp sequenceNumber timestamp := by
    rw [packetLenSamp, packetLenSamp,
      ← add_sub_add_right_eq_sub timestamp _ k,
      ← add_sub_add_right_eq_sub sequenceNumber _ c]
    rfl
  rw [packetLen, packetLen, horder, hsamp]
  rfl

theorem streamingSums_shifted
    (h : d.streamingMode → WrapsAlike c d.lastSeqNo sequenceNumber) :
    (d.shifted c k).streamingSums packetLenMs (sequenceNumber + c) =
      (d.streamingSums packetLenMs sequenceNumber).map
        (withLast (d.lastSeqNo + c) (d.lastTimestamp + k)) := by
  rw [streamingSums, streamingSums]
  change (if d.streamingMode then _ else _) = _
  split
  · rename_i hstreaming
    exact updateCumulativeSums_shifted (h hstreaming)
  · rfl

theorem statistics_shifted
    (h : d.streamingMode → WrapsAlike c d.lastSeqNo sequenceNumber) :
    (d.shifted c k).statistics packetLenMs (sequenceNumber + c) =
      (d.statistics packetLenMs sequenceNumber).map
        (withLast (d.lastSeqNo + c) (d.lastTimestamp + k)) := by
  rw [statistics, statistics]
  split
  · rw [updateStatistics, updateStatistics, streamingSums_shifted h,
      compensate_shifted]
    simp only [Option.bind_eq_bind, Option.map_bind, Function.comp_def,
      Option.bind_map, updateHistogram_withLast,
      calculateTargetLevel_withLast, streamingLevel_withLast,
      limitTargetLevel_withLast]
    rfl
  · rfl

theorem update_shifted {sampleRateHz : ℤ}
    (hfirst : d.firstPacketReceived = true)
    (h : d.streamingMode → WrapsAlike c d.lastSeqNo sequenceNumber) :
    (d.shifted c k).update (sequenceNumber + c) (timestamp + k) sampleRateHz =
      (d.update sequenceNumber timestamp sampleRateHz).map fun r =>
        (r.1, r.2.shifted c k) := by
  have hfirst' : (d.shifted c k).firstPacketReceived = true := hfirst
  rw [update, update]
  split
  · rfl
  · rw [packetLen_shifted]
    simp only [Option.bind_eq_bind, Option.map_bind, Function.comp_def,
      statistics_shifted h, Option.bind_map]
    rfl

/-! ## Runs -/

/-- The second manager is the first one, but for the last packet, which is
shifted once there is one. -/
structure ShiftOf (c : UInt16) (k : UInt32) (d e : DelayManager) : Prop where
  eq : e = d.withLast e.lastSeqNo e.lastTimestamp
  last : d.firstPacketReceived = true →
    e.lastSeqNo = d.lastSeqNo + c ∧ e.lastTimestamp = d.lastTimestamp + k

theorem shiftOf_refl (h : d.firstPacketReceived = false) : ShiftOf c k d d :=
  ⟨rfl, fun htrue => absurd (h.symm.trans htrue) Bool.false_ne_true⟩

theorem shiftOf_shifted : ShiftOf c k d (d.shifted c k) :=
  ⟨rfl, fun _ => ⟨rfl, rfl⟩⟩

/-- In streaming mode, an update wraps around alike in both runs. -/
def Alike (c : UInt16) (d : DelayManager) : DelayCall → Prop
  | .update sequenceNumber _ _ =>
    d.firstPacketReceived = true → d.streamingMode = true →
      WrapsAlike c d.lastSeqNo sequenceNumber
  | _ => True

instance (c : UInt16) (d : DelayManager) (call : DelayCall) :
    Decidable (Alike c d call) :=
  match call with
  | .update _ _ _ => inferInstanceAs (Decidable (_ → _ → _))
  | .reset | .updateCounters _ | .resetPacketIatCount
  | .setPacketAudioLength _ | .setMinimumDelay _ | .setMaximumDelay _
  | .setStreamingMode _ => inferInstanceAs (Decidable True)

def estimate (d : DelayManager) : List ℤ × ℤ × ℤ × ℤ :=
  (d.iatVector, d.iatCumulativeSum, d.maxIatCumulativeSum, d.targetLevel)

theorem ShiftOf.estimate_eq (h : ShiftOf c k d e) :
    e.estimate = d.estimate := by
  rw [h.eq]
  rfl

theorem call_withLast {call : DelayCall}
    (h : ∀ sequenceNumber timestamp sampleRateHz,
      call ≠ .update sequenceNumber timestamp sampleRateHz) :
    (d.withLast s t).call call = (d.call call).map (withLast s t) ∧
      ∀ u, d.call call = some u →
        u.lastSeqNo = d.lastSeqNo ∧ u.lastTimestamp = d.lastTimestamp ∧
          u.firstPacketReceived = d.firstPacketReceived := by
  cases call with
  | update sequenceNumber timestamp sampleRateHz =>
    exact absurd rfl (h sequenceNumber timestamp sampleRateHz)
  | reset =>
    refine ⟨rfl, ?_⟩
    rintro u ⟨⟩
    exact ⟨rfl, rfl, rfl⟩
  | updateCounters elapsedTimeMs =>
    simp only [DelayManager.call, updateCounters, Option.bind_eq_bind,
      Option.map_bind, Function.comp_def, Option.bind_eq_some_iff]
    refine ⟨rfl, ?_⟩
    rintro u ⟨count, -, detector, -, timer, -, ⟨⟩⟩
    exact ⟨rfl, rfl, rfl⟩
  | resetPacketIatCount =>
    refine ⟨rfl, ?_⟩
    rintro u ⟨⟩
    exact ⟨rfl, rfl, rfl⟩
  | setPacketAudioLength lengthMs =>
    simp only [DelayManager.call, setPacketAudioLength]
    split
    · refine ⟨rfl, ?_⟩
      rintro u ⟨⟩
      exact ⟨rfl, rfl, rfl⟩
    · refine ⟨rfl, ?_⟩
      rintro u ⟨⟩
      exact ⟨rfl, rfl, rfl⟩
  | setMinimumDelay delayMs =>
    simp only [DelayManager.call, setMinimumDelay, Option.map_map,
      Option.map_eq_some_iff]
    constructor
    · change (d.refusesMinimum delayMs).map _ = _
      congr 1
      funext refused
      cases refused <;> rfl
    · rintro u ⟨refused, -, rfl⟩
      cases refused <;> exact ⟨rfl, rfl, rfl⟩
  | setMaximumDelay delayMs =>
    have hcases : (d.setMaximumDelay delayMs).2 = d ∨
        ∃ m, (d.setMaximumDelay delayMs).2 = { d with maximumDelayMs := m }
          := by
      rw [setMaximumDelay]
      split
      · exact .inr ⟨0, rfl⟩
      · split
        · exact .inl rfl
        · exact .inr ⟨delayMs, rfl⟩
    have hcomm : ((d.withLast s t).setMaximumDelay delayMs).2 =
        (d.setMaximumDelay delayMs).2.withLast s t := by
      rw [setMaximumDelay, setMaximumDelay]
      change (if delayMs = 0 then _ else if delayMs < d.minimumDelayMs ∨
        delayMs < d.packetLenMs then _ else _ : Bool × DelayManager).2 = _
      split
      · rfl
      · split <;> rfl
    refine ⟨congrArg some hcomm, ?_⟩
    rintro u ⟨⟩
    obtain heq | ⟨m, heq⟩ := hcases
    · rw [heq]
      exact ⟨rfl, rfl, rfl⟩
    · rw [heq]
      exact ⟨rfl, rfl, rfl⟩
  | setStreamingMode value =>
    refine ⟨rfl, ?_⟩
    rintro u ⟨⟩
    exact ⟨rfl, rfl, rfl⟩

theorem ShiftOf.call (h : ShiftOf c k d e) {call : DelayCall}
    (halike : Alike c d call) :
    (d.call call = none ∧ e.call (call.shift c k) = none) ∨
      ∃ u v, d.call call = some u ∧ e.call (call.shift c k) = some v ∧
        ShiftOf c k u v := by
  by_cases hupdate : ∃ sequenceNumber timestamp sampleRateHz,
      call = .update sequenceNumber timestamp sampleRateHz
  · obtain ⟨sequenceNumber, timestamp, sampleRateHz, rfl⟩ := hupdate
    simp only [DelayCall.shift, DelayManager.call]
    cases hfirst : d.firstPacketReceived with
    | true =>
      have heq : e = d.shifted c k := by
        rw [h.eq, (h.last hfirst).1, (h.last hfirst).2]
        rfl
      rw [heq, update_shifted hfirst (halike hfirst)]
      cases d.update sequenceNumber timestamp sampleRateHz with
      | none => exact .inl ⟨rfl, rfl⟩
      | some r => exact .inr ⟨r.2, r.2.shifted c k, rfl, rfl, shiftOf_shifted⟩
    | false =>
      have hfirst' : e.firstPacketReceived = false := by
        rw [h.eq]
        exact hfirst
      rw [update, update, hfirst, hfirst']
      split
      · exact .inr ⟨d, e, rfl, rfl, h⟩
      · refine .inr ⟨_, _, rfl, rfl, ?_, fun _ => ⟨rfl, rfl⟩⟩
        rw [h.eq]
        rfl
  · have hother : ∀ sequenceNumber timestamp sampleRateHz,
        call ≠ .update sequenceNumber timestamp sampleRateHz :=
      fun _ _ _ heq => hupdate ⟨_, _, _, heq⟩
    have hshift : call.shift c k = call := by
      cases call with
      | update sequenceNumber timestamp sampleRateHz =>
        exact absurd rfl (hother sequenceNumber timestamp sampleRateHz)
      | _ => rfl
    obtain ⟨hcommutes, hkeeps⟩ :=
      call_withLast (d := d) (s := e.lastSeqNo) (t := e.lastTimestamp) hother
    rw [hshift, h.eq, hcommutes]
    cases hcall : d.call call with
    | none => exact .inl ⟨rfl, rfl⟩
    | some u =>
      obtain ⟨hseq, htime, hfirst⟩ := hkeeps u hcall
      refine .inr ⟨u, _, rfl, rfl, rfl, ?_⟩
      intro htrue
      rw [hfirst] at htrue
      obtain ⟨hlast, hlast'⟩ := h.last htrue
      rw [hseq, htime]
      exact ⟨hlast, hlast'⟩

theorem ShiftOf.execute (h : ShiftOf c k d e) {calls : List DelayCall}
    (halike : Allowed DelayManager.call (Alike c) d calls) :
    (Support.execute DelayManager.call e
        (calls.map (DelayCall.shift c k))).map estimate =
      (Support.execute DelayManager.call d calls).map estimate := by
  induction calls generalizing d e with
  | nil => exact congrArg some h.estimate_eq
  | cons call calls ih =>
    obtain ⟨hcall, hrest⟩ := halike
    rw [List.map_cons, Support.execute, Support.execute]
    obtain ⟨hd, he⟩ | ⟨u, v, hd, he, hshift⟩ := h.call hcall
    · rw [hd, he]
      rfl
    · rw [hd, he]
      exact ih hshift (hrest u hd)

/-- Shifting all sequence numbers and all timestamps changes the delay estimate
after no call, as long as the sequence numbers of the streaming mode wrap around
alike. -/
theorem estimate_shift (maxPacketsInBuffer : ℤ) (c : UInt16) (k : UInt32)
    {calls : List DelayCall}
    (halike : Allowed DelayManager.call (Alike c) (new maxPacketsInBuffer)
      calls) (n : ℕ) :
    (Support.execute DelayManager.call (new maxPacketsInBuffer)
        ((calls.take n).map (DelayCall.shift c k))).map estimate =
      (Support.execute DelayManager.call (new maxPacketsInBuffer)
        (calls.take n)).map estimate :=
  (shiftOf_refl rfl).execute (halike.take n)

def twoPackets (sequenceNumber : UInt16) (timestamp : UInt32) :
    List DelayCall :=
  [.setPacketAudioLength 20, .setStreamingMode true,
    .update sequenceNumber timestamp 8000, .updateCounters 20,
    .update (sequenceNumber + 1) (timestamp + 160) 8000]

theorem estimate_shift_twoPackets :
    (Support.execute DelayManager.call (new 240)
        (((twoPackets 1 0).take 5).map (DelayCall.shift 5 7))).map estimate =
      (Support.execute DelayManager.call (new 240)
        ((twoPackets 1 0).take 5)).map estimate :=
  estimate_shift 240 5 7 (by decide +kernel) 5

/-- The sequence numbers and timestamps of the updates. -/
def updates (calls : List DelayCall) : List (UInt16 × UInt32) :=
  calls.filterMap fun
    | .update sequenceNumber timestamp _ => some (sequenceNumber, timestamp)
    | _ => none

/-- Consecutive packets are close to each other. -/
def Close (calls : List DelayCall) : Prop :=
  (updates calls).IsChain fun p q =>
    min (q.1 - p.1).toNat (p.1 - q.1).toNat < 2 ^ 15 ∧
      min (q.2 - p.2).toNat (p.2 - q.2).toNat < 2 ^ 31

instance (calls : List DelayCall) : Decidable (Close calls) :=
  inferInstanceAs (Decidable (List.IsChain _ _))

/-- The sequence number wraps around between the two packets. -/
theorem not_forall_estimate_shift :
    ¬∀ (maxPacketsInBuffer : ℤ) (c : UInt16) (k : UInt32)
      (calls : List DelayCall), Close calls →
        (Support.execute DelayManager.call (new maxPacketsInBuffer)
            (calls.map (DelayCall.shift c k))).map estimate =
          (Support.execute DelayManager.call (new maxPacketsInBuffer)
            calls).map estimate := by
  intro h
  have heq := congrArg (Option.map fun e => e.2.1)
    (h 240 1 0 (twoPackets 65535 0) (by decide))
  exact absurd heq (by decide +kernel)

end DelayManager

end WebrtcWinXp.NetEq
