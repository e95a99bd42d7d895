import WebrtcWinXp.Rtp.ReceiveStatistics

/-!
# What the receive statistics report

The numbers that a report should give, counted without a bound beside the
16-bit fields.  A report is right unless sequence number 0 was among the
numbers expected since the last one and one of these was lost.
-/

namespace WebrtcWinXp.Rtp

open Fec (isNewerSequenceNumber lessThan lessThan_iff)

/-- What was received of a stream, by unwrapped sequence numbers. -/
structure Reception where
  first : ℕ := 0
  highest : ℕ := 0
  received : ℕ := 0
  expectedAtReport : ℕ := 0
  receivedAtReport : ℕ := 0

namespace Reception

variable (r : Reception)

def expected : ℕ := if r.received = 0 then 0 else r.highest + 1 - r.first

def expectedSince : ℕ := r.expected - r.expectedAtReport

def lost : ℕ := r.expectedSince - (r.received - r.receivedAtReport)

/-- How far a sequence number is ahead of the highest one. -/
def distance (seq : UInt16) : ℕ := (seq - UInt16.ofNat r.highest).toNat

/-- The first packet, or one newer than all before. -/
def Newer (seq : UInt16) : Prop :=
  r.received = 0 ∨ 0 < r.distance seq ∧ r.distance seq < 2 ^ 15

def arrive (seq : UInt16) : Reception :=
  if r.received = 0 then
    { r with
      first := seq.toNat
      highest := seq.toNat
      received := 1 }
  else
    { r with
      highest := r.highest + r.distance seq
      received := r.received + 1 }

def report : Reception :=
  { r with
    expectedAtReport := r.expected
    receivedAtReport := r.received }

/-- Sequence number 0 is among those expected since the last report. -/
def ExpectsZero : Prop :=
  ∃ n, r.first + r.expectedAtReport ≤ n ∧ n ≤ r.highest ∧ n % 2 ^ 16 = 0

/-- At most as many packets arrive as are expected. -/
structure Consistent : Prop where
  new : r.received = 0 → r.highest = 0 ∧ r.receivedAtReport = 0
  first_le : r.first ≤ r.highest
  expected_le : r.expectedAtReport ≤ r.expected
  received_le : r.receivedAtReport ≤ r.received
  since_le : r.received - r.receivedAtReport ≤ r.expectedSince
  at_report_le : r.receivedAtReport ≤ r.expectedAtReport
  reported : r.receivedAtReport = 0 → r.expectedAtReport = 0

variable {r}

theorem Consistent.arrive (h : r.Consistent) {seq : UInt16}
    (hnewer : r.Newer seq) : (r.arrive seq).Consistent := by
  obtain ⟨hnew, hfirst, hexpected, hreceived, hsince, hat, hreported⟩ := h
  rw [expectedSince, expected] at hsince
  rw [expected] at hexpected
  rw [Reception.arrive]
  by_cases hzero : r.received = 0
  · rw [if_pos hzero]
    have hreport := (hnew hzero).2
    have hnone := hreported hreport
    have hone : 1 ≠ 0 := Nat.one_ne_zero
    constructor <;> simp only [expectedSince, expected, if_neg hone] <;> omega
  · rw [if_neg hzero]
    obtain habs | ⟨hpos, _⟩ := hnewer
    · exact absurd habs hzero
    rw [if_neg hzero] at hsince hexpected
    have hne : r.received + 1 ≠ 0 := Nat.succ_ne_zero _
    constructor <;> simp only [expectedSince, expected, if_neg hne] <;> omega

theorem Consistent.report (h : r.Consistent) : r.report.Consistent := by
  obtain ⟨hnew, hfirst, hexpected, hreceived, hsince, hat, hreported⟩ := h
  have heq : r.report.expected = r.expected := rfl
  constructor
  · intro hzero
    exact ⟨(hnew hzero).1, hzero⟩
  · exact hfirst
  · exact heq.ge
  · exact le_rfl
  · rw [Reception.report]
    dsimp only
    omega
  · rw [Reception.report]
    rw [expectedSince] at hsince
    dsimp only
    omega
  · intro hzero
    rw [Reception.report] at hzero ⊢
    dsimp only at hzero ⊢
    rw [expected, if_pos hzero]

end Reception

namespace StreamStatistician

section Clock

variable (convertNTPTimeToRTP : UInt32 → UInt32 → ℤ → UInt32)

inductive Event where
  | packet (a : Arrival)
  | request

/-- The statistics returned to the requests of a run, each with what was
received before it. -/
def reports (s : StreamStatistician) (r : Reception) :
    List Event → List (Reception × RtcpStatistics)
  | [] => []
  | .packet a :: events =>
    reports (s.updateCounters convertNTPTimeToRTP a)
      (r.arrive a.header.sequenceNumber) events
  | .request :: events =>
    match s.getStatistics true with
    | (none, s) => reports s r events
    | (some stats, s) => (r, stats) :: reports s r.report events

def Ordered (r : Reception) : List Event → Prop
  | [] => True
  | .packet a :: events =>
    r.Newer a.header.sequenceNumber ∧
      Ordered (r.arrive a.header.sequenceNumber) events
  | .request :: events => Ordered r events

end Clock

/-- The statistics say what was received. -/
structure Accurate (r : Reception) (stats : RtcpStatistics) : Prop where
  extended : stats.extendedMaxSequenceNumber = UInt32.ofNat r.highest
  fraction : stats.fractionLost.toNat = 255 * r.lost / r.expectedSince
  cumulative : stats.cumulativeLost = UInt32.ofNat (r.expected - r.received)

/-! ## The fields of the state -/

/-- The fields hold the numbers as far as they reach. -/
structure Tracks (s : StreamStatistician) (r : Reception) : Prop where
  consistent : r.Consistent
  packets : s.receiveCounters.packets.toNat = r.received
  retransmitted : s.receiveCounters.retransmittedPackets = 0
  inorder : s.lastReportInorderPackets.toNat = r.receivedAtReport
  old : s.lastReportOldPackets = 0
  start : r.received = 0 → s.lastReceiveTimeMs = 0 ∧
    s.receivedSeqFirst = 0 ∧ s.receiveCounters.bytes = 0
  seqFirst : 0 < r.received → s.receivedSeqFirst.toNat = r.first
  seqMax : s.receivedSeqMax.toNat = r.highest % 2 ^ 16
  wraps : s.receivedSeqWraps.toNat = r.highest / 2 ^ 16 % 2 ^ 16
  reported : 0 < r.receivedAtReport →
    s.lastReportSeqMax.toNat =
      (r.first + r.expectedAtReport + (2 ^ 16 - 1)) % 2 ^ 16
  cumulative : s.cumulativeLoss.toNat =
    (r.expectedAtReport - r.receivedAtReport) % 2 ^ 32

variable {s : StreamStatistician} {r : Reception}

theorem tracks_new : Tracks {} {} := by
  constructor
  · constructor <;> simp [Reception.expected, Reception.expectedSince]
  all_goals simp

theorem Tracks.inOrder (h : s.Tracks r) {seq : UInt16} (hnewer : r.Newer seq) :
    s.inOrderPacketInternal seq = true := by
  rw [inOrderPacketInternal]
  split
  · rfl
  · rename_i htime
    obtain hzero | hdistance := hnewer
    · exact absurd (h.start hzero).1 htime
    · have hmax : s.receivedSeqMax = UInt16.ofNat r.highest := by
        apply UInt16.toNat_inj.mp
        rw [h.seqMax, UInt16.toNat_ofNat']
      have hless : lessThan s.receivedSeqMax seq := by
        rw [lessThan_iff, hmax]
        exact hdistance
      exact if_pos hless

theorem updateCounters_fields
    (convertNTPTimeToRTP : UInt32 → UInt32 → ℤ → UInt32) {a : Arrival}
    (hin : s.inOrderPacketInternal a.header.sequenceNumber = true) :
    let t := s.updateCounters convertNTPTimeToRTP a
    t.receiveCounters = s.countPacket true a ∧
    t.receivedSeqFirst =
      (if s.receiveCounters.packets + 1 = 1 then a.header.sequenceNumber
        else s.receivedSeqFirst) ∧
    t.receivedSeqMax = a.header.sequenceNumber ∧
    t.receivedSeqWraps =
      (if s.receiveCounters.packets + 1 > 1 ∧
          s.receivedSeqMax > a.header.sequenceNumber then
        s.receivedSeqWraps + 1 else s.receivedSeqWraps) ∧
    t.lastReportInorderPackets = s.lastReportInorderPackets ∧
    t.lastReportOldPackets = s.lastReportOldPackets ∧
    t.lastReportSeqMax = s.lastReportSeqMax ∧
    t.cumulativeLoss = s.cumulativeLoss := by
  simp only [updateCounters, hin, if_true, updateInOrder, countPacket]
  split_ifs <;> exact ⟨rfl, rfl, rfl, rfl, rfl, rfl, rfl, rfl⟩

theorem toNat_distance (r : Reception) (seq : UInt16) :
    r.distance seq = (2 ^ 16 - r.highest % 2 ^ 16 + seq.toNat) % 2 ^ 16 := by
  rw [Reception.distance, UInt16.toNat_sub, UInt16.toNat_ofNat']

theorem Tracks.arrive (h : s.Tracks r)
    (convertNTPTimeToRTP : UInt32 → UInt32 → ℤ → UInt32) {a : Arrival}
    (hnewer : r.Newer a.header.sequenceNumber)
    (hroom : r.received + 1 < 2 ^ 32) :
    (s.updateCounters convertNTPTimeToRTP a).Tracks
      (r.arrive a.header.sequenceNumber) := by
  obtain ⟨hcounters, hfirst, hmax, hwraps, hinorder, hold, hseqMax, hloss⟩ :=
    updateCounters_fields convertNTPTimeToRTP (h.inOrder hnewer)
  have hpackets := h.packets
  have hseq := a.header.sequenceNumber.toNat_lt
  have hsum : (s.receiveCounters.packets + 1).toNat = r.received + 1 := by
    rw [UInt32.toNat_add, hpackets, UInt32.toNat_one]
    omega
  have hone : s.receiveCounters.packets + 1 = 1 ↔ r.received = 0 := by
    rw [← UInt32.toNat_inj, hsum, UInt32.toNat_one]
    omega
  have hmany : s.receiveCounters.packets + 1 > 1 ↔ r.received ≠ 0 := by
    rw [gt_iff_lt, UInt32.lt_iff_toNat_lt, hsum, UInt32.toNat_one]
    omega
  have hreceived : (r.arrive a.header.sequenceNumber).received =
      r.received + 1 := by
    rw [Reception.arrive]
    split_ifs with hzero
    · rw [hzero]
    · rfl
  have hdistance := toNat_distance r a.header.sequenceNumber
  constructor
  · exact h.consistent.arrive hnewer
  · rw [hcounters, countPacket]
    dsimp only
    rw [hsum, hreceived]
  · rw [hcounters, countPacket]
    dsimp only
    rw [Bool.not_true, Bool.false_and, if_neg Bool.false_ne_true,
      h.retransmitted]
  · rw [hinorder, h.inorder, Reception.arrive]
    split_ifs <;> rfl
  · rw [hold, h.old]
  · intro hzero
    omega
  · intro _
    rw [hfirst, Reception.arrive]
    by_cases hzero : r.received = 0
    · rw [if_pos (hone.mpr hzero), if_pos hzero]
    · rw [if_neg (hone.not.mpr hzero), if_neg hzero]
      exact h.seqFirst (by omega)
  · rw [hmax, Reception.arrive]
    split_ifs with hzero
    · dsimp only
      omega
    · obtain habs | _ := hnewer
      · exact absurd habs hzero
      dsimp only
      omega
  · have hcount := h.wraps
    have hwrap : (s.receiveCounters.packets + 1 > 1 ∧
        s.receivedSeqMax > a.header.sequenceNumber) ↔
        r.received ≠ 0 ∧
          a.header.sequenceNumber.toNat < r.highest % 2 ^ 16 := by
      rw [hmany, gt_iff_lt, UInt16.lt_iff_toNat_lt, h.seqMax]
    rw [hwraps, Reception.arrive]
    by_cases hzero : r.received = 0
    · have hhighest := (h.consistent.new hzero).1
      rw [if_neg (fun hw => (hwrap.mp hw).1 hzero), if_pos hzero, hcount]
      dsimp only
      omega
    · obtain habs | _ := hnewer
      · exact absurd habs hzero
      rw [if_neg hzero]
      dsimp only
      split_ifs with hw
      · have hlt := (hwrap.mp hw).2
        rw [UInt16.toNat_add, hcount, UInt16.toNat_one]
        omega
      · have hge : ¬a.header.sequenceNumber.toNat < r.highest % 2 ^ 16 :=
          fun hlt => hw (hwrap.mpr ⟨hzero, hlt⟩)
        rw [hcount]
        omega
  · intro hreport
    rw [Reception.arrive] at hreport ⊢
    by_cases hzero : r.received = 0
    · rw [if_pos hzero] at hreport
      have hnone := (h.consistent.new hzero).2
      dsimp only at hreport
      omega
    · rw [if_neg hzero] at hreport ⊢
      rw [hseqMax]
      exact h.reported hreport
  · rw [hloss, h.cumulative, Reception.arrive]
    split_ifs <;> rfl

/-! ## Reports -/

theorem Tracks.reportedSeqMax (h : s.Tracks r) (hsome : 0 < r.received) :
    s.reportedSeqMax.toNat =
      (r.first + r.expectedAtReport + (2 ^ 16 - 1)) % 2 ^ 16 := by
  have hinorder := h.inorder
  rw [StreamStatistician.reportedSeqMax]
  split
  · rename_i hzero
    rw [hzero] at hinorder
    have hnone := h.consistent.reported hinorder.symm
    rw [UInt16.toNat_sub, h.seqFirst hsome, UInt16.toNat_one, hnone]
    omega
  · rename_i hne
    apply h.reported
    rw [← hinorder]
    have hne' : s.lastReportInorderPackets.toNat ≠ (0 : UInt32).toNat := by
      rwa [Ne, UInt32.toNat_inj]
    exact Nat.pos_of_ne_zero hne'

theorem Tracks.recSinceLast (h : s.Tracks r) :
    s.recSinceLast.toNat = r.received - r.receivedAtReport := by
  have hpackets := h.packets
  have hinorder := h.inorder
  have hlt := s.receiveCounters.packets.toNat_lt
  have hle := h.consistent.received_le
  rw [StreamStatistician.recSinceLast]
  rw [h.retransmitted, h.old, sub_zero, sub_zero, add_zero, UInt32.toNat_sub,
    hpackets, hinorder]
  omega

/-- The expected packets as a report counts them: all or none of them while
fewer than `2 ^ 16` are expected. -/
theorem Tracks.expSinceLast (h : s.Tracks r) (hsome : 0 < r.received) :
    s.expSinceLast.toNat ≤ r.expectedSince ∧
      (r.expectedSince < 2 ^ 16 → r.ExpectsZero →
        s.expSinceLast.toNat = 0) ∧
      (¬r.ExpectsZero → s.expSinceLast.toNat = r.expectedSince) := by
  have hlast := h.reportedSeqMax hsome
  have hmax := h.seqMax
  have hexpected := h.consistent.expected_le
  have hfirst := h.consistent.first_le
  rw [Reception.expected, if_neg (by omega)] at hexpected
  rw [Reception.expectedSince, Reception.expected, if_neg (by omega),
    StreamStatistician.expSinceLast]
  have hcases : s.reportedSeqMax > s.receivedSeqMax ↔
      r.highest % 2 ^ 16 <
        (r.first + r.expectedAtReport + (2 ^ 16 - 1)) % 2 ^ 16 := by
    rw [gt_iff_lt, UInt16.lt_iff_toNat_lt, hlast, hmax]
  refine ⟨?_, ?_, ?_⟩
  · split_ifs with hwrap
    · exact Nat.zero_le _
    · rw [hcases] at hwrap
      rw [UInt16.toNat_sub, hlast, hmax]
      omega
  · rintro hshort ⟨n, hge, hle, hzero⟩
    rw [if_pos (hcases.mpr (by omega))]
    rfl
  · intro hno
    have hnext : ¬(r.first + r.expectedAtReport + (2 ^ 16 - 1)) / 2 ^ 16 *
        2 ^ 16 ≤ r.highest := by
      intro hle
      exact hno ⟨_, by omega, hle, by omega⟩
    rw [if_neg (hcases.not.mpr (by omega)), UInt16.toNat_sub, hlast, hmax]
    omega

theorem Tracks.missing (h : s.Tracks r) (hsome : 0 < r.received)
    (hzero : r.ExpectsZero → r.lost = 0) : s.missing = r.lost := by
  obtain ⟨hle, _, hall⟩ := h.expSinceLast hsome
  rw [StreamStatistician.missing, h.recSinceLast]
  by_cases hexpects : r.ExpectsZero
  · have hlost := hzero hexpects
    rw [hlost]
    rw [Reception.lost] at hlost
    split_ifs <;> omega
  · rw [hall hexpects, Reception.lost]
    split_ifs <;> omega

theorem Tracks.localFractionLost (h : s.Tracks r) (hsome : 0 < r.received)
    (hzero : r.ExpectsZero → r.lost = 0) :
    s.localFractionLost.toNat = 255 * r.lost / r.expectedSince := by
  have hmissing := h.missing hsome hzero
  have hle : r.lost ≤ r.expectedSince := Nat.sub_le _ _
  obtain ⟨_, _, hall⟩ := h.expSinceLast hsome
  rw [StreamStatistician.localFractionLost, hmissing]
  by_cases hlost : r.lost = 0
  · rw [hlost, mul_zero, Nat.zero_div, Nat.zero_div]
    split_ifs <;> rfl
  · have hexp := hall (fun hexpects => hlost (hzero hexpects))
    have hne : s.expSinceLast ≠ 0 := by
      intro hnone
      rw [hnone] at hexp
      have hnil : r.expectedSince = 0 := hexp.symm
      omega
    rw [if_pos hne, hexp, UInt8.toNat_ofNat']
    apply Nat.mod_eq_of_lt
    calc
      255 * r.lost / r.expectedSince ≤
          255 * r.expectedSince / r.expectedSince :=
        Nat.div_le_div_right (Nat.mul_le_mul_left _ hle)
      _ ≤ 255 := Nat.div_le_of_le_mul (by rw [Nat.mul_comm])
      _ < 2 ^ 8 := by decide

theorem Tracks.extended (h : s.Tracks r) :
    (s.receivedSeqWraps.toUInt32 <<< 16) + s.receivedSeqMax.toUInt32 =
      UInt32.ofNat r.highest := by
  have hwraps := h.wraps
  have hmax := h.seqMax
  apply UInt32.toNat_inj.mp
  rw [UInt32.toNat_add, UInt32.toNat_shiftLeft, UInt16.toNat_toUInt32,
    UInt16.toNat_toUInt32, UInt32.toNat_ofNat', hwraps, hmax,
    show (16 : UInt32).toNat % 32 = 16 from rfl, Nat.shiftLeft_eq]
  omega

theorem Reception.Consistent.lost_add (h : r.Consistent) :
    r.expectedAtReport - r.receivedAtReport + r.lost =
      r.expected - r.received := by
  have hsince := h.since_le
  have hexpected := h.expected_le
  have hreceived := h.received_le
  have hat := h.at_report_le
  rw [Reception.expectedSince] at hsince
  rw [Reception.lost, Reception.expectedSince]
  omega

theorem Tracks.cumulativeLost (h : s.Tracks r) (hsome : 0 < r.received)
    (hzero : r.ExpectsZero → r.lost = 0) :
    (s.cumulativeLoss + UInt32.ofNat s.missing).toNat =
      (r.expected - r.received) % 2 ^ 32 := by
  rw [UInt32.toNat_add, UInt32.toNat_ofNat', h.cumulative,
    h.missing hsome hzero, ← Reception.Consistent.lost_add h.consistent]
  omega

theorem Tracks.calculateRtcpStatistics (h : s.Tracks r)
    (hsome : 0 < r.received) (hzero : r.ExpectsZero → r.lost = 0) :
    Accurate r s.calculateRtcpStatistics.1 ∧
      s.calculateRtcpStatistics.2.Tracks r.report := by
  have hcumulative := h.cumulativeLost hsome hzero
  constructor
  · constructor
    · exact h.extended
    · exact h.localFractionLost hsome hzero
    · apply UInt32.toNat_inj.mp
      rw [UInt32.toNat_ofNat']
      exact hcumulative
  · constructor
    · exact h.consistent.report
    · exact h.packets
    · exact h.retransmitted
    · change (s.receiveCounters.packets -
        s.receiveCounters.retransmittedPackets).toNat = r.received
      rw [h.retransmitted, sub_zero, h.packets]
    · exact h.retransmitted
    · intro hnone
      exact absurd hnone hsome.ne'
    · exact h.seqFirst
    · exact h.seqMax
    · exact h.wraps
    · intro _
      change s.receivedSeqMax.toNat =
        (r.first + r.expected + (2 ^ 16 - 1)) % 2 ^ 16
      have hfirst := h.consistent.first_le
      rw [h.seqMax, Reception.expected, if_neg hsome.ne']
      omega
    · exact hcumulative

theorem Tracks.lost_eq_zero (h : s.Tracks r) (hsome : 0 < r.received)
    (hshort : r.expectedSince < 2 ^ 15)
    (haccurate : Accurate r s.calculateRtcpStatistics.1)
    (hexpects : r.ExpectsZero) : r.lost = 0 := by
  obtain ⟨_, hnone, _⟩ := h.expSinceLast hsome
  have hexp := hnone (by omega) hexpects
  have hmissing : s.missing = 0 := by
    rw [StreamStatistician.missing, hexp]
    rfl
  have hcumulative : s.cumulativeLoss + UInt32.ofNat s.missing =
      UInt32.ofNat (r.expected - r.received) := haccurate.cumulative
  have hlost := Reception.Consistent.lost_add h.consistent
  have hle : r.lost ≤ r.expectedSince := Nat.sub_le _ _
  rw [hmissing, ← UInt32.toNat_inj, UInt32.toNat_add, UInt32.toNat_ofNat',
    UInt32.toNat_ofNat', h.cumulative] at hcumulative
  omega

theorem getStatistics_true (s : StreamStatistician) :
    s.getStatistics true =
      if s.receivedSeqFirst = 0 ∧ s.receiveCounters.bytes = 0 then (none, s)
      else (some s.calculateRtcpStatistics.1, s.calculateRtcpStatistics.2) :=
  rfl

/-! ## Runs of packets and requests -/

section Clock

variable (convertNTPTimeToRTP : UInt32 → UInt32 → ℤ → UInt32)

theorem reports_request (events : List Event) :
    reports convertNTPTimeToRTP s r (.request :: events) =
      if s.receivedSeqFirst = 0 ∧ s.receiveCounters.bytes = 0 then
        reports convertNTPTimeToRTP s r events
      else (r, s.calculateRtcpStatistics.1) ::
        reports convertNTPTimeToRTP s.calculateRtcpStatistics.2 r.report
          events := by
  rw [reports, getStatistics_true]
  split_ifs <;> rfl

variable {events : List Event}

theorem Ordered.congr :
    ∀ {r r' : Reception}, Ordered r events → r'.received = r.received →
      r'.highest = r.highest → Ordered r' events := by
  induction events with
  | nil =>
    intro r r' _ _ _
    trivial
  | cons event events ih =>
    intro r r' h hreceived hhighest
    cases event with
    | packet a =>
      obtain ⟨hnewer, hrest⟩ := h
      have hdistance : r'.distance a.header.sequenceNumber =
          r.distance a.header.sequenceNumber := by
        rw [Reception.distance, Reception.distance, hhighest]
      constructor
      · rw [Reception.Newer, hreceived, hdistance]
        exact hnewer
      · apply ih hrest
        · rw [Reception.arrive, Reception.arrive, hreceived]
          split_ifs <;> rfl
        · rw [Reception.arrive, Reception.arrive, hreceived, hhighest,
            hdistance]
          split_ifs <;> rfl
    | request => exact ih (r := r) h hreceived hhighest

/-- The counters of packets do not wrap before the last report. -/
def Countable (r : Reception) (events : List Event) : Prop :=
  r.received + (events.countP fun
    | .packet _ => true
    | .request => false) < 2 ^ 32

theorem Countable.packet {a : Arrival}
    (h : Countable r (.packet a :: events)) :
    r.received + 1 < 2 ^ 32 ∧
      Countable (r.arrive a.header.sequenceNumber) events := by
  have hreceived : (r.arrive a.header.sequenceNumber).received =
      r.received + 1 := by
    rw [Reception.arrive]
    split_ifs with hzero
    · rw [hzero]
    · rfl
  rw [Countable, List.countP_cons_of_pos (by rfl)] at h
  rw [Countable, hreceived]
  omega

theorem Countable.request
    (h : Countable r (.request :: events)) :
    Countable r events ∧ Countable r.report events := by
  rw [Countable, List.countP_cons_of_neg (by simp)] at h
  exact ⟨h, h⟩

/-- The reports of a run are right when each lost nothing or did not expect
sequence number 0, and only then while each expects few packets. -/
theorem Tracks.reports :
    ∀ {s : StreamStatistician} {r : Reception}, s.Tracks r →
      Ordered r events → Countable r events →
      ((∀ p ∈ reports convertNTPTimeToRTP s r events,
          p.1.ExpectsZero → p.1.lost = 0) →
        ∀ p ∈ reports convertNTPTimeToRTP s r events, Accurate p.1 p.2) ∧
      ((∀ p ∈ reports convertNTPTimeToRTP s r events,
          p.1.expectedSince < 2 ^ 15) →
        (∀ p ∈ reports convertNTPTimeToRTP s r events, Accurate p.1 p.2) →
        ∀ p ∈ reports convertNTPTimeToRTP s r events,
          p.1.ExpectsZero → p.1.lost = 0) := by
  induction events with
  | nil =>
    intro s r _ _ _
    constructor
    · intro _ p hp
      exact absurd hp List.not_mem_nil
    · intro _ _ p hp
      exact absurd hp List.not_mem_nil
  | cons event events ih =>
    intro s r h hordered hcount
    cases event with
    | packet a =>
      obtain ⟨hnewer, hrest⟩ := hordered
      obtain ⟨hroom, hcount⟩ := hcount.packet
      exact ih (h.arrive convertNTPTimeToRTP hnewer hroom) hrest hcount
    | request =>
      obtain ⟨hcount, hreported⟩ := hcount.request
      have hordered' : Ordered r.report events :=
        hordered.congr rfl rfl
      rw [reports_request]
      split_ifs with hnone
      · exact ih h hordered hcount
      · have hsome : 0 < r.received := by
          by_contra hzero
          exact hnone (h.start (by omega)).2
        simp only [List.forall_mem_cons]
        constructor
        · rintro ⟨hzero, hzeros⟩
          obtain ⟨haccurate, hnext⟩ :=
            h.calculateRtcpStatistics hsome hzero
          exact ⟨haccurate, (ih hnext hordered' hreported).1 hzeros⟩
        · rintro ⟨hshort, hshorts⟩ ⟨haccurate, haccurates⟩
          have hzero := h.lost_eq_zero hsome hshort haccurate
          obtain ⟨_, hnext⟩ := h.calculateRtcpStatistics hsome hzero
          exact ⟨hzero, (ih hnext hordered' hreported).2 hshorts
            haccurates⟩

/-- Of a stream whose packets are newer each time, every report is right if
each lost nothing or did not expect sequence number 0; while fewer than
`2 ^ 15` packets are expected between reports, it is right only then. -/
theorem reports_accurate (events : List Event) (hordered : Ordered {} events)
    (hcount : Countable {} events) :
    ((∀ p ∈ reports convertNTPTimeToRTP {} {} events,
        p.1.ExpectsZero → p.1.lost = 0) →
      ∀ p ∈ reports convertNTPTimeToRTP {} {} events, Accurate p.1 p.2) ∧
    ((∀ p ∈ reports convertNTPTimeToRTP {} {} events,
        p.1.expectedSince < 2 ^ 15) →
      (∀ p ∈ reports convertNTPTimeToRTP {} {} events, Accurate p.1 p.2) →
      ∀ p ∈ reports convertNTPTimeToRTP {} {} events,
        p.1.ExpectsZero → p.1.lost = 0) :=
  tracks_new.reports convertNTPTimeToRTP hordered hcount

end Clock

def twoPackets (first second : UInt16) : List Event :=
  [.packet { header := { sequenceNumber := first }, bytes := 112 },
    .packet { header := { sequenceNumber := second }, bytes := 112 },
    .request]

/-- Packet 103 after 100: two of four are lost. -/
theorem reports_accurate_gap :
    reports (fun _ _ _ => 0) {} {} (twoPackets 100 103) =
        [(⟨100, 103, 2, 0, 0⟩, ⟨127, 2, 103, 0⟩)] ∧
      Accurate ⟨100, 103, 2, 0, 0⟩ ⟨127, 2, 103, 0⟩ := by
  have hreports : reports (fun _ _ _ => 0) {} {} (twoPackets 100 103) =
      [(⟨100, 103, 2, 0, 0⟩, ⟨127, 2, 103, 0⟩)] := rfl
  have haccurate := (reports_accurate (fun _ _ _ => 0) (twoPackets 100 103)
    ⟨.inl rfl, .inr (by decide), trivial⟩
    (show 2 < 2 ^ 32 by decide)).1
  rw [hreports] at haccurate
  refine ⟨hreports, haccurate ?_ _ (List.mem_singleton_self _)⟩
  rintro p hp ⟨n, hge, hle, hzero⟩
  rw [List.mem_singleton.mp hp] at hge hle
  dsimp only at hge hle
  omega

/-- Packet 1 after 65534: 65535 and 0 are lost, but the report says that
nothing was. -/
theorem not_forall_accurate :
    ¬∀ events, Ordered {} events →
      (∀ p ∈ reports (fun _ _ _ => 0) {} {} events,
        p.1.expectedSince < 2 ^ 15) →
      ∀ p ∈ reports (fun _ _ _ => 0) {} {} events, Accurate p.1 p.2 := by
  intro h
  have hreports : reports (fun _ _ _ => 0) {} {} (twoPackets 65534 1) =
      [(⟨65534, 65537, 2, 0, 0⟩, ⟨0, 0, 65537, 0⟩)] := rfl
  have haccurate := h (twoPackets 65534 1)
  rw [hreports] at haccurate
  have hlost := (haccurate (by
      refine ⟨.inl rfl, .inr ?_, trivial⟩
      decide) (by
      intro p hp
      rw [List.mem_singleton.mp hp]
      decide) _ (List.mem_singleton_self _)).cumulative
  exact absurd hlost (by decide)

end StreamStatistician

end WebrtcWinXp.Rtp
