import Mathlib
import WebrtcWinXp.Support.Transition

/-!
# The bitrate controller

`BitrateControllerImpl` and the `SendSideBandwidthEstimation` that it asks.
The rates that are computed in floating point are kept general.
-/

namespace WebrtcWinXp.Bitrate

open Support

def kBweIncreaseIntervalMs : UInt32 := 1000

def kBweDecreaseIntervalMs : UInt32 := 300

def kLimitNumPackets : ℤ := 20

/-- The least rate when the sum of the minimums is not enforced. -/
def kLowestMinBitrate : UInt32 := 10000

/-- The rates in doubles: an increase by eight percent, and `CalcTfrcBps`. -/
structure RateArithmetic where
  increased : UInt32 → UInt32
  calcTfrcBps : UInt16 → UInt8 → UInt32

structure SendSideBandwidthEstimation where
  minBitrateHistory : List (UInt32 × UInt32)
  accumulateLostPacketsQ8 : ℤ
  accumulateExpectedPackets : ℤ
  bitrate : UInt32
  minBitrateConfigured : UInt32
  maxBitrateConfigured : UInt32
  timeLastReceiverBlockMs : UInt32
  lastFractionLoss : UInt8
  lastRoundTripTimeMs : UInt16
  bweIncoming : UInt32
  timeLastDecreaseMs : UInt32
  deriving DecidableEq

namespace SendSideBandwidthEstimation

def new : SendSideBandwidthEstimation := ⟨[], 0, 0, 0, 0, 0, 0, 0, 0, 0, 0⟩

variable (e : SendSideBandwidthEstimation)

def setSendBitrate (bitrate : UInt32) : SendSideBandwidthEstimation :=
  { e with
    bitrate := bitrate
    minBitrateHistory := [] }

def setMinMaxBitrate (minBitrate maxBitrate : UInt32) :
    SendSideBandwidthEstimation :=
  { e with
    minBitrateConfigured := minBitrate
    maxBitrateConfigured := maxBitrate }

def capBitrateToThresholds : SendSideBandwidthEstimation :=
  let bitrate := if 0 < e.bweIncoming then min e.bitrate e.bweIncoming
    else e.bitrate
  { e with
    bitrate :=
      max (min bitrate e.maxBitrateConfigured) e.minBitrateConfigured }

def updateReceiverEstimate (bandwidth : UInt32) :
    SendSideBandwidthEstimation :=
  { e with bweIncoming := bandwidth }.capBitrateToThresholds

/-- Old rates are dropped from the front, and higher ones from the back. -/
def updateMinHistory (now : UInt32) : SendSideBandwidthEstimation :=
  let recent := e.minBitrateHistory.dropWhile fun entry =>
    kBweIncreaseIntervalMs < now - entry.1 + 1
  { e with
    minBitrateHistory :=
      (recent.rdropWhile fun entry => e.bitrate ≤ entry.2) ++
        [(now, e.bitrate)] }

variable (arith : RateArithmetic)

/-- The rate goes up without losses, and down with many. -/
def updateBitrate (now : UInt32) : SendSideBandwidthEstimation :=
  if e.lastFractionLoss ≤ 5 then
    { e with
      bitrate := arith.increased
        (e.minBitrateHistory.head?.elim 0 Prod.snd) + 1000 }
  else if e.lastFractionLoss ≤ 26 then e
  else if kBweDecreaseIntervalMs + e.lastRoundTripTimeMs.toUInt32 ≤
      now - e.timeLastDecreaseMs then
    { e with
      timeLastDecreaseMs := now
      bitrate := max
        (.ofNat (e.bitrate.toNat * (512 - e.lastFractionLoss.toNat) / 512))
        (arith.calcTfrcBps e.lastRoundTripTimeMs e.lastFractionLoss) }
  else e

def updateEstimate (now : UInt32) : SendSideBandwidthEstimation :=
  let e := e.updateMinHistory now
  let e := if e.timeLastReceiverBlockMs ≠ 0 then e.updateBitrate arith now
    else e
  e.capBitrateToThresholds

def updateReceiverBlock (fractionLoss : UInt8) (rtt : UInt32)
    (numberOfPackets : ℤ) (now : UInt32) : SendSideBandwidthEstimation :=
  let e := { e with lastRoundTripTimeMs := rtt.toUInt16 }
  if 0 < numberOfPackets then
    let lost := e.accumulateLostPacketsQ8 +
      fractionLoss.toNat * numberOfPackets
    let expected := e.accumulateExpectedPackets + numberOfPackets
    if kLimitNumPackets ≤ expected then
      { e with
        lastFractionLoss := .ofInt (lost.tdiv expected)
        accumulateLostPacketsQ8 := 0
        accumulateExpectedPackets := 0
        timeLastReceiverBlockMs := now }.updateEstimate arith now
    else
      { e with
        accumulateLostPacketsQ8 := lost
        accumulateExpectedPackets := expected }
  else { e with timeLastReceiverBlockMs := now }.updateEstimate arith now

end SendSideBandwidthEstimation

structure BitrateConfiguration where
  startBitrate : UInt32
  minBitrate : UInt32
  maxBitrate : UInt32
  deriving DecidableEq

/-- What an observer is told. -/
structure Notification where
  observer : ℕ
  bitrate : UInt32
  fractionLoss : UInt8
  rtt : UInt32
  deriving DecidableEq

/-- The observers are known by their addresses. -/
structure BitrateControllerImpl where
  lastBitrateUpdateMs : UInt32
  bandwidthEstimation : SendSideBandwidthEstimation
  bitrateObservers : List (ℕ × BitrateConfiguration)
  enforceMinBitrate : Bool
  reservedBitrateBps : UInt32
  lastBitrateBps : UInt32
  lastFractionLoss : UInt8
  lastRttMs : UInt32
  lastEnforceMinBitrate : Bool
  bitrateObserversModified : Bool
  lastReservedBitrateBps : UInt32
  deriving DecidableEq

/-! ## Allocation -/

def sumBitrates (f : BitrateConfiguration → UInt32)
    (observers : List (ℕ × BitrateConfiguration)) : UInt32 :=
  (observers.map fun o => f o.2).sum

/-- The loop of `NormalRateAllocation`, with the observers that are left. -/
def normalRateLoop (fractionLoss : UInt8) (rtt : UInt32) :
    UInt32 → List (ℕ × BitrateConfiguration) → List Notification
  | _, [] => []
  | bitratePerObserver, o :: observers =>
    let allowance := o.2.minBitrate + bitratePerObserver
    if o.2.maxBitrate < allowance then
      -- We have more than enough; the remainder is carried forward.
      let remainder := allowance - o.2.maxBitrate
      let bitratePerObserver :=
        if observers.length ≠ 0 then
          bitratePerObserver + remainder / .ofNat observers.length
        else bitratePerObserver
      ⟨o.1, o.2.maxBitrate, fractionLoss, rtt⟩ ::
        normalRateLoop fractionLoss rtt bitratePerObserver observers
    else
      ⟨o.1, allowance, fractionLoss, rtt⟩ ::
        normalRateLoop fractionLoss rtt bitratePerObserver observers

/-- The multimap that sorts the observers by their maximum. -/
def sortByMax (observers : List (ℕ × BitrateConfiguration)) :
    List (ℕ × BitrateConfiguration) :=
  observers.insertionSort fun o p => o.2.maxBitrate ≤ p.2.maxBitrate

def normalRateAllocation (observers : List (ℕ × BitrateConfiguration))
    (bitrate : UInt32) (fractionLoss : UInt8) (rtt sumMinBitrates : UInt32) :
    List Notification :=
  normalRateLoop fractionLoss rtt
    ((bitrate - sumMinBitrates) / .ofNat observers.length)
    (sortByMax observers)

/-- The loop of `LowRateAllocation` without an enforced minimum. -/
def lowRateLoop (fractionLoss : UInt8) (rtt : UInt32) :
    UInt32 → List (ℕ × BitrateConfiguration) → List Notification
  | _, [] => []
  | remainder, o :: observers =>
    let allocation := min remainder o.2.minBitrate
    ⟨o.1, allocation, fractionLoss, rtt⟩ ::
      lowRateLoop fractionLoss rtt (remainder - allocation) observers

namespace BitrateControllerImpl

/-- The constructor, with the time of the clock. -/
def new (now : UInt32) (enforceMinBitrate : Bool) :
    BitrateControllerImpl where
  lastBitrateUpdateMs := now
  bandwidthEstimation := .new
  bitrateObservers := []
  enforceMinBitrate := enforceMinBitrate
  reservedBitrateBps := 0
  lastBitrateBps := 0
  lastFractionLoss := 0
  lastRttMs := 0
  lastEnforceMinBitrate := !enforceMinBitrate
  bitrateObserversModified := false
  lastReservedBitrateBps := 0

variable (c : BitrateControllerImpl)

def setSendBitrate (bitrate : UInt32) : BitrateControllerImpl :=
  { c with
    bandwidthEstimation := c.bandwidthEstimation.setSendBitrate bitrate }

def sumMinBitrates : UInt32 :=
  sumBitrates BitrateConfiguration.minBitrate c.bitrateObservers

def lowRateAllocation (bitrate : UInt32) (fractionLoss : UInt8)
    (rtt : UInt32) : List Notification × BitrateControllerImpl :=
  if c.enforceMinBitrate then
    (c.bitrateObservers.map fun o =>
        ⟨o.1, o.2.minBitrate, fractionLoss, rtt⟩,
      c.setSendBitrate c.sumMinBitrates)
  else
    (lowRateLoop fractionLoss rtt bitrate c.bitrateObservers,
      c.setSendBitrate bitrate)

def onNetworkChanged (bitrate : UInt32) (fractionLoss : UInt8)
    (rtt : UInt32) : List Notification × BitrateControllerImpl :=
  if c.bitrateObservers = [] then ([], c)
  else if bitrate ≤ c.sumMinBitrates then
    c.lowRateAllocation bitrate fractionLoss rtt
  else
    (normalRateAllocation c.bitrateObservers bitrate fractionLoss rtt
      c.sumMinBitrates, c)

/-- What is left of a rate without the reserved one. -/
def unreserved (bitrate : UInt32) : UInt32 :=
  bitrate - min bitrate c.reservedBitrateBps

/-- Something is not as it was when the observers were told last. -/
def changed : Bool :=
  c.bitrateObserversModified ||
    c.unreserved c.bandwidthEstimation.bitrate ≠ c.lastBitrateBps ||
    c.bandwidthEstimation.lastFractionLoss ≠ c.lastFractionLoss ||
    c.bandwidthEstimation.lastRoundTripTimeMs.toUInt32 ≠ c.lastRttMs ||
    c.lastEnforceMinBitrate ≠ c.enforceMinBitrate ||
    c.lastReservedBitrateBps ≠ c.reservedBitrateBps

def recorded : BitrateControllerImpl :=
  { c with
    lastBitrateBps := c.unreserved c.bandwidthEstimation.bitrate
    lastFractionLoss := c.bandwidthEstimation.lastFractionLoss
    lastRttMs := c.bandwidthEstimation.lastRoundTripTimeMs.toUInt32
    lastEnforceMinBitrate := c.enforceMinBitrate
    bitrateObserversModified := false
    lastReservedBitrateBps := c.reservedBitrateBps }

def maybeTriggerOnNetworkChanged : List Notification × BitrateControllerImpl :=
  if c.changed then
    c.recorded.onNetworkChanged (c.unreserved c.bandwidthEstimation.bitrate)
      c.bandwidthEstimation.lastFractionLoss
      c.bandwidthEstimation.lastRoundTripTimeMs.toUInt32
  else ([], c)

def updateMinMaxBitrate : BitrateControllerImpl :=
  let sumMax := sumBitrates BitrateConfiguration.maxBitrate c.bitrateObservers
  { c with
    bandwidthEstimation := c.bandwidthEstimation.setMinMaxBitrate
      (if c.enforceMinBitrate then c.sumMinBitrates
        else min c.sumMinBitrates kLowestMinBitrate)
      (if sumMax = 0 then 1000000000 else sumMax) }

def setBitrateObserver (observer : ℕ) (config : BitrateConfiguration) :
    BitrateControllerImpl :=
  if c.bitrateObservers.any fun o => o.1 = observer then
    let c :=
      { c with
        bitrateObservers := c.bitrateObservers.map
          fun o : ℕ × BitrateConfiguration =>
            if o.1 = observer then (observer, config) else o }
    (c.setSendBitrate (max
      (sumBitrates BitrateConfiguration.startBitrate c.bitrateObservers)
      c.bandwidthEstimation.bitrate)).updateMinMaxBitrate
  else
    let c :=
      { c with
        bitrateObservers := c.bitrateObservers ++ [(observer, config)]
        bitrateObserversModified := true }
    -- Only the first observer sets the start bitrate.
    (if c.bitrateObservers.length = 1 then c.setSendBitrate config.startBitrate
      else c).updateMinMaxBitrate

def removeBitrateObserver (observer : ℕ) : BitrateControllerImpl :=
  if c.bitrateObservers.any fun o => o.1 = observer then
    { c with
      bitrateObservers := c.bitrateObservers.eraseP fun o => o.1 = observer
      bitrateObserversModified := true }
  else c

/-- Time until `Process` does something is measured with 32 bits. -/
def isProcessDue (now : UInt32) : Bool :=
  25 ≤ (now - c.lastBitrateUpdateMs).toInt32.toInt

end BitrateControllerImpl

/-- The operations of the controller and of its `RtcpBandwidthObserver`. -/
inductive ControllerCall where
  | setBitrateObserver (observer : ℕ) (config : BitrateConfiguration)
  | removeBitrateObserver (observer : ℕ)
  | enforceMinBitrate (enforce : Bool)
  | setReservedBitrate (bitrate : UInt32)
  | onReceivedEstimatedBitrate (bitrate : UInt32)
  | onReceivedRtcpReceiverReport (fractionLoss : UInt8) (rtt : UInt32)
      (numberOfPackets : ℤ) (now : UInt32)
  | process (now : UInt32)

namespace BitrateControllerImpl

variable (arith : RateArithmetic) (c : BitrateControllerImpl)

def call : ControllerCall → List Notification × BitrateControllerImpl
  | .setBitrateObserver observer config =>
    ([], c.setBitrateObserver observer config)
  | .removeBitrateObserver observer => ([], c.removeBitrateObserver observer)
  | .enforceMinBitrate enforce =>
    ([], { c with enforceMinBitrate := enforce }.updateMinMaxBitrate)
  | .setReservedBitrate bitrate =>
    { c with reservedBitrateBps := bitrate }.maybeTriggerOnNetworkChanged
  | .onReceivedEstimatedBitrate bitrate =>
    { c with
      bandwidthEstimation :=
        c.bandwidthEstimation.updateReceiverEstimate bitrate
    }.maybeTriggerOnNetworkChanged
  | .onReceivedRtcpReceiverReport fractionLoss rtt numberOfPackets now =>
    { c with
      bandwidthEstimation := c.bandwidthEstimation.updateReceiverBlock arith
        fractionLoss rtt numberOfPackets now
    }.maybeTriggerOnNetworkChanged
  | .process now =>
    if c.isProcessDue now then
      { c with
        bandwidthEstimation := c.bandwidthEstimation.updateEstimate arith now
        lastBitrateUpdateMs := now }.maybeTriggerOnNetworkChanged
    else ([], c)

def step (call : ControllerCall) : Option BitrateControllerImpl :=
  some (c.call arith call).2

end BitrateControllerImpl

/-! ## A second call -/

section

variable {c : BitrateControllerImpl} {bitrate rtt : UInt32}
  {fractionLoss : UInt8}

theorem length_normalRateLoop (share : UInt32)
    (observers : List (ℕ × BitrateConfiguration)) :
    (normalRateLoop fractionLoss rtt share observers).length =
      observers.length := by
  induction observers generalizing share with
  | nil => rfl
  | cons o observers ih =>
    rw [normalRateLoop]
    dsimp only
    by_cases hmax : o.2.maxBitrate < o.2.minBitrate + share
    · rw [if_pos hmax, List.length_cons, ih, List.length_cons]
    · rw [if_neg hmax, List.length_cons, ih, List.length_cons]

theorem length_lowRateLoop (remainder : UInt32)
    (observers : List (ℕ × BitrateConfiguration)) :
    (lowRateLoop fractionLoss rtt remainder observers).length =
      observers.length := by
  induction observers generalizing remainder with
  | nil => rfl
  | cons o observers ih =>
    rw [lowRateLoop, List.length_cons, ih, List.length_cons]

theorem toNat_min (a b : UInt32) : (min a b).toNat = min a.toNat b.toNat := by
  have hmin : min a b = if a ≤ b then a else b := rfl
  rw [hmin]
  by_cases hle : a ≤ b
  · rw [if_pos hle, min_eq_left (UInt32.le_iff_toNat_le.mp hle)]
  · rw [if_neg hle, min_eq_right]
    exact UInt32.le_iff_toNat_le.mp (UInt32.le_of_lt (UInt32.not_le.mp hle))

namespace BitrateControllerImpl

/-- Every observer is told something. -/
theorem length_onNetworkChanged :
    (c.onNetworkChanged bitrate fractionLoss rtt).1.length =
      c.bitrateObservers.length := by
  rw [onNetworkChanged]
  by_cases hnil : c.bitrateObservers = []
  · rw [if_pos hnil, hnil]
    rfl
  · rw [if_neg hnil]
    by_cases hlow : bitrate ≤ c.sumMinBitrates
    · rw [if_pos hlow, lowRateAllocation]
      by_cases henforce : c.enforceMinBitrate = true
      · rw [if_pos henforce, List.length_map]
      · rw [if_neg henforce, length_lowRateLoop]
    · rw [if_neg hlow, normalRateAllocation, length_normalRateLoop, sortByMax,
        List.length_insertionSort]

def allocatedRate (c : BitrateControllerImpl) (bitrate : UInt32) : UInt32 :=
  if c.enforceMinBitrate then c.sumMinBitrates else bitrate

theorem onNetworkChanged_snd :
    (c.onNetworkChanged bitrate fractionLoss rtt).2 =
      if c.bitrateObservers ≠ [] ∧ bitrate ≤ c.sumMinBitrates then
        c.setSendBitrate (c.allocatedRate bitrate)
      else c := by
  rw [onNetworkChanged]
  by_cases hnil : c.bitrateObservers = []
  · rw [if_pos hnil, if_neg fun h => h.1 hnil]
  · rw [if_neg hnil]
    by_cases hlow : bitrate ≤ c.sumMinBitrates
    · rw [if_pos hlow, if_pos ⟨hnil, hlow⟩, lowRateAllocation, allocatedRate]
      by_cases henforce : c.enforceMinBitrate = true
      · rw [if_pos henforce, if_pos henforce]
      · rw [if_neg henforce, if_neg henforce]
    · rw [if_neg hlow, if_neg fun h => hlow h.2]

/-- Nothing is sent by a second call, and the estimate stays. -/
def Idempotent (c : BitrateControllerImpl) : Prop :=
  let once := c.maybeTriggerOnNetworkChanged.2
  once.maybeTriggerOnNetworkChanged.1 = [] ∧
    once.maybeTriggerOnNetworkChanged.2.bandwidthEstimation =
      once.bandwidthEstimation

instance : Decidable c.Idempotent := inferInstanceAs (Decidable (_ ∧ _))

/-- The rate that is set is offered like the one it was made from: nothing is
reserved, or nothing is left, and the minimums are not enforced, or their sum
without the reserve is that rate. -/
def KeepsOffer (c : BitrateControllerImpl) : Prop :=
  let offer := c.unreserved c.bandwidthEstimation.bitrate
  if c.enforceMinBitrate then c.unreserved c.sumMinBitrates = offer
  else c.reservedBitrateBps = 0 ∨
    c.bandwidthEstimation.bitrate ≤ c.reservedBitrateBps

/-- Nobody has to be told anything, or the rate is above the minimums, or what
is set keeps the offer. -/
def Settles (c : BitrateControllerImpl) : Prop :=
  c.changed = false ∨ c.bitrateObservers = [] ∨
    c.sumMinBitrates < c.unreserved c.bandwidthEstimation.bitrate ∨
    c.KeepsOffer

theorem toNat_unreserved (bitrate : UInt32) :
    (c.unreserved bitrate).toNat =
      bitrate.toNat - c.reservedBitrateBps.toNat := by
  have hle : min bitrate c.reservedBitrateBps ≤ bitrate := by
    rw [UInt32.le_iff_toNat_le, toNat_min]
    exact Nat.min_le_left _ _
  rw [unreserved, UInt32.toNat_sub_of_le _ _ hle, toNat_min]
  omega

theorem unreserved_unreserved_iff (bitrate : UInt32) :
    c.unreserved (c.unreserved bitrate) = c.unreserved bitrate ↔
      c.reservedBitrateBps = 0 ∨ bitrate ≤ c.reservedBitrateBps := by
  rw [← UInt32.toNat_inj, toNat_unreserved, toNat_unreserved,
    ← UInt32.toNat_inj, UInt32.le_iff_toNat_le, UInt32.toNat_zero]
  omega

theorem keepsOffer_iff :
    c.KeepsOffer ↔
      c.unreserved
          (c.allocatedRate (c.unreserved c.bandwidthEstimation.bitrate)) =
        c.unreserved c.bandwidthEstimation.bitrate := by
  rw [KeepsOffer, allocatedRate]
  by_cases henforce : c.enforceMinBitrate = true
  · simp only [if_pos henforce]
  · simp only [if_neg henforce]
    exact (c.unreserved_unreserved_iff _).symm

theorem changed_setSendBitrate_recorded (bitrate : UInt32) :
    (c.recorded.setSendBitrate bitrate).changed = false ↔
      c.unreserved bitrate = c.unreserved c.bandwidthEstimation.bitrate := by
  have hsame : (c.recorded.setSendBitrate bitrate).changed =
      !decide (c.unreserved bitrate =
        c.unreserved c.bandwidthEstimation.bitrate) := by
    simp only [changed, recorded, setSendBitrate, unreserved,
      SendSideBandwidthEstimation.setSendBitrate, ne_eq, not_true_eq_false,
      decide_false, Bool.false_or, Bool.or_false]
    exact decide_not
  rw [hsame, Bool.not_eq_false', decide_eq_true_iff]

theorem changed_recorded : c.recorded.changed = false := by
  simp [changed, recorded, unreserved]

theorem maybeTrigger_of_unchanged (h : c.changed = false) :
    c.maybeTriggerOnNetworkChanged = ([], c) := by
  rw [maybeTriggerOnNetworkChanged, h]
  rfl

theorem maybeTrigger_of_changed (h : c.changed = true) :
    c.maybeTriggerOnNetworkChanged.2 =
      if c.bitrateObservers ≠ [] ∧
          c.unreserved c.bandwidthEstimation.bitrate ≤ c.sumMinBitrates then
        c.recorded.setSendBitrate
          (c.allocatedRate (c.unreserved c.bandwidthEstimation.bitrate))
      else c.recorded := by
  rw [maybeTriggerOnNetworkChanged, if_pos h, onNetworkChanged_snd]
  rfl

theorem not_idempotent_of_changed (hnil : c.bitrateObservers ≠ [])
    (h : c.changed = true) : c.maybeTriggerOnNetworkChanged.1 ≠ [] := by
  rw [maybeTriggerOnNetworkChanged, if_pos h, ← List.length_pos_iff,
    length_onNetworkChanged]
  exact List.length_pos_iff.mpr hnil

/-- In any state, whatever the operations before, a second call does nothing
exactly when the first one settles. -/
theorem idempotent_iff (c : BitrateControllerImpl) :
    c.Idempotent ↔ c.Settles := by
  rw [Idempotent, Settles]
  by_cases hchanged : c.changed = true
  · rw [maybeTrigger_of_changed hchanged]
    by_cases hlow : c.bitrateObservers ≠ [] ∧
        c.unreserved c.bandwidthEstimation.bitrate ≤ c.sumMinBitrates
    · have hsettles : (c.changed = false ∨ c.bitrateObservers = [] ∨
          c.sumMinBitrates < c.unreserved c.bandwidthEstimation.bitrate ∨
            c.KeepsOffer) ↔ c.KeepsOffer := by
        rw [hchanged]
        simp [hlow.1, hlow.2]
      rw [if_pos hlow, hsettles, keepsOffer_iff,
        ← changed_setSendBitrate_recorded]
      refine ⟨fun h => ?_, fun h => ?_⟩
      · by_contra hagain
        rw [Bool.not_eq_false] at hagain
        refine not_idempotent_of_changed ?_ hagain h.1
        exact hlow.1
      · rw [maybeTrigger_of_unchanged h]
        exact ⟨rfl, rfl⟩
    · rw [if_neg hlow, maybeTrigger_of_unchanged changed_recorded]
      refine iff_of_true ⟨rfl, rfl⟩ (.inr ?_)
      by_contra hnot
      simp only [not_or, UInt32.not_lt] at hnot
      exact hlow ⟨hnot.1, hnot.2.1⟩
  · rw [Bool.not_eq_true] at hchanged
    rw [maybeTrigger_of_unchanged hchanged, maybeTrigger_of_unchanged hchanged]
    exact iff_of_true ⟨rfl, rfl⟩ (.inl hchanged)

/-- The reserve is taken away once by the setting, and again by a second
call, when the start bitrate is below the minimum. -/
theorem not_idempotent_reserved :
    ¬ ∀ (arith : RateArithmetic) (c : BitrateControllerImpl),
      Reachable (· = new 0 false) (step arith) c → c.Idempotent := by
  intro h
  let arith : RateArithmetic := ⟨id, fun _ _ => 0⟩
  have hrun := h arith _ (.step (.step (.init rfl)
    (e := .setBitrateObserver 1 ⟨100000, 200000, 300000⟩) trivial rfl)
    (e := .setReservedBitrate 10000) trivial rfl)
  revert hrun
  decide

end BitrateControllerImpl

end

end WebrtcWinXp.Bitrate
