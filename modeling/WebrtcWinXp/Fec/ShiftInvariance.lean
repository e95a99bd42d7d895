import WebrtcWinXp.Fec.SoundDecoding

/-!
# Sequence numbers that start elsewhere

Sequence numbers are compared by their distance modulo `2 ^ 16`, except in two
tests that take the difference of the integers: the test for an old FEC packet
and the test for a big gap.
-/

namespace WebrtcWinXp.Fec

open Support

/-- Add `k` to the word at bytes 2 and 3: the sequence number of a media packet,
the SN base of a FEC packet. -/
def Packet.shift (k : UInt16) (p : Packet) : Packet :=
  { p with data := assignUWord16 p.data 2 (bufferToUWord16 p.data 2 + k) }

def ReceivedPacket.shift (k : UInt16) (rx : ReceivedPacket) : ReceivedPacket :=
  { rx with
    seqNum := rx.seqNum + k
    pkt := rx.pkt.shift k }

def RecoveredPacket.shift (k : UInt16) (r : RecoveredPacket) :
    RecoveredPacket :=
  { r with
    seqNum := r.seqNum + k
    pkt := r.pkt.shift k }

def ProtectedPacket.shift (k : UInt16) (p : ProtectedPacket) :
    ProtectedPacket where
  seqNum := p.seqNum + k
  pkt := p.pkt.map (Packet.shift k)

def FecPacket.shift (k : UInt16) (fec : FecPacket) : FecPacket :=
  { fec with
    seqNum := fec.seqNum + k
    protectedPktList := fec.protectedPktList.map (ProtectedPacket.shift k)
    pkt := fec.pkt.shift k }

def Decoder.shift (k : UInt16) (s : Decoder) : Decoder where
  fecPacketList := s.fecPacketList.map (FecPacket.shift k)
  recoveredPacketList := s.recoveredPacketList.map (RecoveredPacket.shift k)
  recoveries := s.recoveries.map (RecoveredPacket.shift k)

def Attempt.shift (k : UInt16) (t : Attempt) : Attempt where
  scanned := t.scanned.map (FecPacket.shift k)
  rest := t.rest.map (FecPacket.shift k)
  recoveredPacketList := t.recoveredPacketList.map (RecoveredPacket.shift k)
  recoveries := t.recoveries.map (RecoveredPacket.shift k)

section Shift

variable (k : UInt16)

theorem ReceivedPacket.shift_seqNum (rx : ReceivedPacket) :
    (rx.shift k).seqNum = rx.seqNum + k := rfl

theorem RecoveredPacket.shift_seqNum (r : RecoveredPacket) :
    (r.shift k).seqNum = r.seqNum + k := rfl

theorem FecPacket.shift_seqNum (fec : FecPacket) :
    (fec.shift k).seqNum = fec.seqNum + k := rfl

theorem Packet.shift_data (p : Packet) {i : ℕ} (h2 : i ≠ 2) (h3 : i ≠ 3) :
    (p.shift k).data i = p.data i := by
  simp only [Packet.shift, assignUWord16]
  rw [if_neg h2, if_neg h3]

theorem bufferToUWord16_assign (data : ℕ → UInt8) (pos : ℕ) (value : UInt16) :
    bufferToUWord16 (assignUWord16 data pos value) pos = value := by
  have hnext : pos + 1 ≠ pos := Nat.succ_ne_self pos
  simp only [bufferToUWord16, assignUWord16, if_true, if_neg hnext,
    word16_bytes]

theorem Packet.shift_word (p : Packet) :
    bufferToUWord16 (p.shift k).data 2 = bufferToUWord16 p.data 2 + k :=
  bufferToUWord16_assign _ _ _

/-! ## Lists -/

theorem map_sortBySeqNum {α : Type*} {seqNum : α → UInt16} {f : α → α}
    (h : ∀ a, seqNum (f a) = seqNum a + k) (l : List α) :
    (sortBySeqNum seqNum l).map f = sortBySeqNum seqNum (l.map f) := by
  refine List.map_insertionSort _ _ _ _ fun a _ b _ => ?_
  rw [h, h, lessThan_add_right]

theorem updateCovering_shift (packet : RecoveredPacket)
    (l : List ProtectedPacket) :
    updateCovering (packet.shift k) (l.map (ProtectedPacket.shift k)) =
      (updateCovering packet l).map (ProtectedPacket.shift k) := by
  induction l with
  | nil => rfl
  | cons p l ih =>
    rw [List.map_cons, updateCovering, updateCovering]
    have hless : lessThan (p.shift k).seqNum (packet.shift k).seqNum =
        lessThan p.seqNum packet.seqNum := lessThan_add_right _ _ _
    have heq : (p.shift k).seqNum = (packet.shift k).seqNum ↔
        p.seqNum = packet.seqNum := add_left_inj k
    rw [hless]
    split
    · rw [List.map_cons, ih]
    · by_cases h : p.seqNum = packet.seqNum
      · rw [if_pos h, if_pos (heq.mpr h)]
        rfl
      · rw [if_neg h, if_neg (fun h' => h (heq.mp h'))]
        rfl

theorem updateCoveringFecPackets_shift (packet : RecoveredPacket)
    (l : List FecPacket) :
    updateCoveringFecPackets (packet.shift k) (l.map (FecPacket.shift k)) =
      (updateCoveringFecPackets packet l).map (FecPacket.shift k) := by
  unfold updateCoveringFecPackets
  rw [List.map_map, List.map_map]
  refine List.map_congr_left fun fec _ => ?_
  simp only [Function.comp, FecPacket.shift, updateCovering_shift]

theorem setIntersection_shift (rs : List RecoveredPacket)
    (ps : List ProtectedPacket) :
    setIntersection (rs.map (RecoveredPacket.shift k))
        (ps.map (ProtectedPacket.shift k)) =
      (setIntersection rs ps).map (RecoveredPacket.shift k) := by
  have hless : ∀ (r : RecoveredPacket) (p : ProtectedPacket),
      lessThan (r.shift k).seqNum (p.shift k).seqNum =
        lessThan r.seqNum p.seqNum := fun _ _ => lessThan_add_right _ _ _
  have hmore : ∀ (r : RecoveredPacket) (p : ProtectedPacket),
      lessThan (p.shift k).seqNum (r.shift k).seqNum =
        lessThan p.seqNum r.seqNum := fun _ _ => lessThan_add_right _ _ _
  induction rs, ps using setIntersection.induct with
  | case1 ps => simp [setIntersection]
  | case2 rs hrs =>
    rw [List.map_nil]
    cases rs with
    | nil => exact absurd rfl hrs
    | cons r rs => simp [setIntersection]
  | case3 r rs p ps hlt ih =>
    rw [List.map_cons, List.map_cons, setIntersection, setIntersection, hless,
      if_pos hlt, if_pos hlt, ← List.map_cons, ih]
  | case4 r rs p ps hnot hlt ih =>
    rw [List.map_cons, List.map_cons, setIntersection, setIntersection, hless,
      hmore, if_neg hnot, if_pos hlt, if_neg hnot, if_pos hlt,
      ← List.map_cons, ih]
  | case5 r rs p ps hnot hnot' ih =>
    rw [List.map_cons, List.map_cons, setIntersection, setIntersection, hless,
      hmore, if_neg hnot, if_neg hnot', if_neg hnot, if_neg hnot', ih,
      List.map_cons]

theorem assignRecovered_shift (rs : List RecoveredPacket)
    (ps : List ProtectedPacket) :
    assignRecovered (rs.map (RecoveredPacket.shift k))
        (ps.map (ProtectedPacket.shift k)) =
      (assignRecovered rs ps).map (ProtectedPacket.shift k) := by
  have heq : ∀ (r : RecoveredPacket) (p : ProtectedPacket),
      (p.shift k).seqNum ≠ (r.shift k).seqNum ↔ p.seqNum ≠ r.seqNum :=
    fun _ _ => not_congr (add_left_inj k)
  induction rs, ps using assignRecovered.induct with
  | case1 ps => simp [assignRecovered]
  | case2 r rs => simp [assignRecovered]
  | case3 r rs p ps hne ih =>
    rw [List.map_cons, List.map_cons, assignRecovered, assignRecovered,
      if_pos ((heq r p).mpr hne), if_pos hne, ← List.map_cons, ih,
      List.map_cons]
  | case4 r rs p ps hnot ih =>
    rw [List.map_cons, List.map_cons, assignRecovered, assignRecovered,
      if_neg (fun h => hnot ((heq r p).mp h)), if_neg hnot, ← ih]
    rfl

theorem protectedBy_shift (pkt : Packet) :
    protectedBy (pkt.shift k) =
      (protectedBy pkt).map (ProtectedPacket.shift k) := by
  have hmask : ∀ i, maskBit (pkt.shift k).data 12 i = maskBit pkt.data 12 i := by
    intro i
    rw [maskBit, maskBit, pkt.shift_data k (by omega) (by omega)]
  unfold protectedBy
  rw [pkt.shift_word, pkt.shift_data k (by omega) (by omega), List.map_map]
  simp only [hmask]
  refine List.map_congr_left fun i _ => ?_
  simp only [Function.comp, ProtectedPacket.shift, Option.map_none]
  rw [add_right_comm]

theorem any_seqNum_shift {α : Type*} {seqNum : α → UInt16} {f : α → α}
    (h : ∀ a, seqNum (f a) = seqNum a + k) (x : UInt16) (l : List α) :
    ((l.map f).any fun a => x + k = seqNum a) = l.any fun a => x = seqNum a := by
  rw [List.any_map]
  congr 1
  funext a
  rw [Function.comp, h, decide_eq_decide]
  exact add_left_inj k

theorem insertMediaPacket_shift (rx : ReceivedPacket) (s : Decoder) :
    insertMediaPacket (rx.shift k) (s.shift k) =
      (insertMediaPacket rx s).shift k := by
  unfold insertMediaPacket
  have hany : (s.shift k).recoveredPacketList.any (fun r =>
      (rx.shift k).seqNum = r.seqNum) =
        s.recoveredPacketList.any fun r => rx.seqNum = r.seqNum :=
    any_seqNum_shift k (RecoveredPacket.shift_seqNum k) _ _
  have hpacket : (rx.shift k).mediaPacket = rx.mediaPacket.shift k := rfl
  rw [hany, hpacket]
  split
  · rfl
  · simp only [Decoder.shift]
    rw [map_sortBySeqNum k (RecoveredPacket.shift_seqNum k), List.map_append,
      updateCoveringFecPackets_shift]
    rfl

theorem assignRecoveredPackets_shift (rs : List RecoveredPacket)
    (fec : FecPacket) :
    assignRecoveredPackets (rs.map (RecoveredPacket.shift k)) (fec.shift k) =
      (assignRecoveredPackets rs fec).shift k := by
  simp only [assignRecoveredPackets, FecPacket.shift, setIntersection_shift,
    assignRecovered_shift]

theorem insertFecPacket_shift (rx : ReceivedPacket) (s : Decoder) :
    insertFecPacket (rx.shift k) (s.shift k) =
      (insertFecPacket rx s).shift k := by
  unfold insertFecPacket
  have hany : (s.shift k).fecPacketList.any (fun f =>
      (rx.shift k).seqNum = f.seqNum) =
        s.fecPacketList.any fun f => rx.seqNum = f.seqNum :=
    any_seqNum_shift k (FecPacket.shift_seqNum k) _ _
  have hfec : (rx.shift k).fecPacket = rx.fecPacket.shift k := by
    simp only [ReceivedPacket.fecPacket, FecPacket.shift,
      ReceivedPacket.shift, protectedBy_shift]
  have hnil : (rx.fecPacket.shift k).protectedPktList = [] ↔
      rx.fecPacket.protectedPktList = [] := List.map_eq_nil_iff
  have hsort : sortBySeqNum FecPacket.seqNum ((s.shift k).fecPacketList ++
      [assignRecoveredPackets (s.shift k).recoveredPacketList
        (rx.fecPacket.shift k)]) =
      (sortBySeqNum FecPacket.seqNum (s.fecPacketList ++
        [assignRecoveredPackets s.recoveredPacketList rx.fecPacket])).map
          (FecPacket.shift k) := by
    rw [map_sortBySeqNum k (FecPacket.shift_seqNum k), List.map_append,
      List.map_singleton, ← assignRecoveredPackets_shift]
    rfl
  rw [hany, hfec]
  split
  · rfl
  · by_cases h : rx.fecPacket.protectedPktList = []
    · rw [if_pos (hnil.mpr h), if_pos h]
    · rw [if_neg (fun h' => h (hnil.mp h')), if_neg h]
      dsimp only
      rw [hsort]
      simp only [Decoder.shift, List.length_map]
      split
      · rw [List.map_tail]
      · rfl

theorem discardOldPackets_shift (l : List RecoveredPacket) :
    discardOldPackets (l.map (RecoveredPacket.shift k)) =
      (discardOldPackets l).map (RecoveredPacket.shift k) := by
  rw [discardOldPackets, discardOldPackets, List.length_map, List.map_drop]

/-! ## Recovery -/

theorem mediaPayloadLength_shift (p : Packet) :
    mediaPayloadLength (p.shift k) = mediaPayloadLength p := rfl

theorem initRecovery_shift (fec : FecPacket) :
    initRecovery (fec.shift k) = initRecovery fec := by
  have hdata : ∀ i, i < 2 ∨ 4 ≤ i →
      (fec.pkt.shift k).data i = fec.pkt.data i :=
    fun i hi => fec.pkt.shift_data k (by omega) (by omega)
  unfold initRecovery
  simp only [FecPacket.shift, bufferToUWord16, hdata 0 (by omega),
    hdata 10 (by omega), hdata 11 (by omega)]
  congr 1
  · funext i
    simp only [assignUWord32, memcpy]
    congr 4
    by_cases h4 : 4 ≤ i ∧ i < 4 + 4
    · rw [if_pos h4, if_pos h4, hdata _ (by omega)]
    rw [if_neg h4, if_neg h4]
    by_cases h2 : 0 ≤ i ∧ i < 0 + 2
    · rw [if_pos h2, if_pos h2, hdata _ (by omega)]
    · rw [if_neg h2, if_neg h2, hdata _ (by unfold kFecHeaderSize; omega)]
  · funext i
    exact hdata (8 + i) (by omega)

theorem xorPackets_shift (p : Packet) (r : Recovery) :
    xorPackets (p.shift k) r = xorPackets p r := by
  have hdata : ∀ i, i < 2 ∨ 4 ≤ i → (p.shift k).data i = p.data i :=
    fun i hi => p.shift_data k (by omega) (by omega)
  unfold xorPackets
  rw [mediaPayloadLength_shift]
  dsimp only
  congr 1
  funext i
  simp only [xorInto_apply]
  by_cases h2 : 0 ≤ i ∧ i < 0 + 2
  · rw [if_pos h2, if_pos h2, hdata (i - 0) (by omega), hdata (4 + (i - 4))
      (by omega), hdata (kRtpHeaderSize + (i - kRtpHeaderSize))
      (by unfold kRtpHeaderSize; omega)]
    rfl
  · rw [if_neg h2, if_neg h2, hdata (4 + (i - 4)) (by omega),
      hdata (kRtpHeaderSize + (i - kRtpHeaderSize))
      (by unfold kRtpHeaderSize; omega)]
    rfl

theorem finishRecovery_shift (seqNum : UInt16) (r : Recovery) :
    finishRecovery (seqNum + k) r = (finishRecovery seqNum r).shift k := by
  simp only [finishRecovery, RecoveredPacket.shift, Packet.shift,
    bufferToUWord16_assign]
  congr 2
  funext i
  simp only [assignUWord16]
  split
  · rfl
  · split <;> rfl

theorem foldl_recoverStep_shift (l : List ProtectedPacket) (r : Recovery)
    (x : UInt16) :
    (l.map (ProtectedPacket.shift k)).foldl recoverStep (r, x + k) =
      ((l.foldl recoverStep (r, x)).1, (l.foldl recoverStep (r, x)).2 + k) := by
  induction l generalizing r x with
  | nil => rfl
  | cons p l ih =>
    rw [List.map_cons, List.foldl_cons, List.foldl_cons]
    cases hp : p.pkt with
    | none =>
      have hstep : recoverStep (r, x) p = (r, p.seqNum) := by
        rw [recoverStep, hp]
      have hstep' : recoverStep (r, x + k) (p.shift k) =
          (r, p.seqNum + k) := by
        rw [recoverStep, ProtectedPacket.shift, hp]
        rfl
      rw [hstep, hstep', ih]
    | some pkt =>
      have hstep : recoverStep (r, x) p = (xorPackets pkt r, x) := by
        rw [recoverStep, hp]
      have hstep' : recoverStep (r, x + k) (p.shift k) =
          (xorPackets pkt r, x + k) := by
        rw [recoverStep, ProtectedPacket.shift, hp]
        simp only [Option.map_some, xorPackets_shift]
      rw [hstep, hstep', ih]

theorem foldl_recoverStep_start {l : List ProtectedPacket}
    (h : ∃ p ∈ l, p.pkt = none) (r : Recovery) (x y : UInt16) :
    l.foldl recoverStep (r, x) = l.foldl recoverStep (r, y) := by
  induction l generalizing r with
  | nil => exact absurd h (by simp)
  | cons p l ih =>
    rw [List.foldl_cons, List.foldl_cons]
    cases hp : p.pkt with
    | none =>
      have hstep : ∀ x, recoverStep (r, x) p = (r, p.seqNum) := by
        intro x
        rw [recoverStep, hp]
      rw [hstep, hstep]
    | some pkt =>
      have hstep : ∀ x, recoverStep (r, x) p = (xorPackets pkt r, x) := by
        intro x
        rw [recoverStep, hp]
      rw [hstep, hstep]
      refine ih ?_ _
      obtain ⟨q, hq, hnone⟩ := h
      rcases List.mem_cons.mp hq with rfl | hq
      · rw [hp] at hnone
        cases hnone
      · exact ⟨q, hq, hnone⟩

theorem numCoveredPacketsMissing_shift (fec : FecPacket) :
    numCoveredPacketsMissing (fec.shift k) = numCoveredPacketsMissing fec := by
  unfold numCoveredPacketsMissing
  simp only [FecPacket.shift, List.countP_map]
  congr 2
  funext p
  simp [ProtectedPacket.shift]

theorem recoverPacket_shift {fec : FecPacket}
    (h : numCoveredPacketsMissing fec = 1) :
    recoverPacket (fec.shift k) = (recoverPacket fec).shift k := by
  have hmissing : ∃ p ∈ fec.protectedPktList.map (ProtectedPacket.shift k),
      p.pkt = none := by
    have hpos : 0 < fec.protectedPktList.countP fun p => p.pkt.isNone := by
      unfold numCoveredPacketsMissing at h
      omega
    obtain ⟨p, hp, hnone⟩ := List.countP_pos_iff.mp hpos
    refine ⟨p.shift k, List.mem_map_of_mem hp, ?_⟩
    rw [ProtectedPacket.shift, Option.isNone_iff_eq_none.mp hnone]
    rfl
  unfold recoverPacket
  dsimp only
  rw [initRecovery_shift, ← finishRecovery_shift]
  change finishRecovery ((fec.protectedPktList.map
    (ProtectedPacket.shift k)).foldl recoverStep (initRecovery fec, 0)).2 _ = _
  rw [foldl_recoverStep_start hmissing _ 0 (0 + k), foldl_recoverStep_shift]
  congr 1
  change ((fec.protectedPktList.map (ProtectedPacket.shift k)).foldl recoverStep
    (initRecovery fec, 0)).1 = _
  rw [foldl_recoverStep_start hmissing _ 0 (0 + k), foldl_recoverStep_shift]

theorem attemptStep_shift (t : Attempt) :
    attemptStep (t.shift k) = (attemptStep t).map (Attempt.shift k) := by
  unfold attemptStep
  cases hrest : t.rest with
  | nil =>
    have hnil : (t.shift k).rest = [] := by
      simp only [Attempt.shift, hrest, List.map_nil]
    rw [hnil]
    rfl
  | cons fec rest =>
    have hcons : (t.shift k).rest =
        fec.shift k :: rest.map (FecPacket.shift k) := by
      simp only [Attempt.shift, hrest, List.map_cons]
    rw [hcons]
    dsimp only
    rw [numCoveredPacketsMissing_shift]
    by_cases hone : numCoveredPacketsMissing fec = 1
    · rw [if_pos hone, if_pos hone, recoverPacket_shift k hone]
      simp only [Attempt.shift, Option.map_some, ← discardOldPackets_shift,
        map_sortBySeqNum k (RecoveredPacket.shift_seqNum k),
        ← updateCoveringFecPackets_shift, List.map_append,
        List.map_singleton, List.map_nil]
    rw [if_neg hone, if_neg hone]
    by_cases hzero : numCoveredPacketsMissing fec = 0
    · rw [if_pos hzero, if_pos hzero]
      rfl
    · rw [if_neg hzero, if_neg hzero]
      simp only [Attempt.shift, Option.map_some, List.map_append,
        List.map_singleton]

theorem attemptRecover_shift (s : Decoder) :
    attemptRecover (s.shift k) = (attemptRecover s).shift k := by
  have hfinish : finish attemptStep Attempt.measure (s.attempt.shift k) =
      (finish attemptStep Attempt.measure s.attempt).shift k :=
    finish_map (attemptStep_shift k)
      (fun t => by simp only [Attempt.measure, Attempt.shift, List.length_map]) _
  have hdecoder : ∀ t : Attempt, (t.shift k).decoder = t.decoder.shift k := by
    intro t
    simp only [Attempt.decoder, Attempt.shift, Decoder.shift, List.map_append]
  rw [attemptRecover, attemptRecover, ← hdecoder, ← hfinish]
  rfl

/-! ## Calls -/

/-- The test for an old FEC packet comes out alike. -/
def AgeAgrees (s : Decoder) (rx : ReceivedPacket) : Prop :=
  ∀ oldest ∈ s.fecPacketList.head?,
    isOld (rx.seqNum + k) (oldest.seqNum + k) = isOld rx.seqNum oldest.seqNum

/-- It does for all packets of a call, each in the state in which it is
inserted. -/
def AgesAgree : List ReceivedPacket → Decoder → Prop
  | [], _ => True
  | rx :: received, s =>
    AgeAgrees k s rx ∧ AgesAgree received (insertPacket s rx)

/-- The test for a big gap comes out alike, if it is made. -/
def GapAgrees (received : List ReceivedPacket) (s : Decoder) : Prop :=
  s.recoveredPacketList.length = kMaxMediaPackets →
    ∀ first ∈ received.head?, ∀ newest ∈ s.recoveredPacketList.getLast?,
      isBigGap (first.seqNum + k) (newest.seqNum + k) =
        isBigGap first.seqNum newest.seqNum

/-- All tests of a call that take differences of integers come out alike. -/
def TestsAgree (received : List ReceivedPacket) (s : Decoder) : Prop :=
  GapAgrees k received s ∧ AgesAgree k received (resetAtGap received s)

variable {s : Decoder}

theorem discardOldFecPacket_shift {rx : ReceivedPacket}
    (h : AgeAgrees k s rx) :
    discardOldFecPacket (rx.shift k).seqNum (s.shift k) =
      (discardOldFecPacket rx.seqNum s).shift k := by
  unfold discardOldFecPacket
  cases hlist : s.fecPacketList with
  | nil =>
    have hnil : (s.shift k).fecPacketList = [] := by
      simp only [Decoder.shift, hlist, List.map_nil]
    rw [hnil]
  | cons oldest rest =>
    have hcons : (s.shift k).fecPacketList =
        oldest.shift k :: rest.map (FecPacket.shift k) := by
      simp only [Decoder.shift, hlist, List.map_cons]
    have hold := h oldest (by rw [hlist]; rfl)
    rw [hcons]
    dsimp only
    rw [rx.shift_seqNum, oldest.shift_seqNum, hold]
    split <;> rfl

theorem insertPacket_shift {rx : ReceivedPacket}
    (h : AgeAgrees k s rx) :
    insertPacket (s.shift k) (rx.shift k) = (insertPacket s rx).shift k := by
  unfold insertPacket
  have hkind : (rx.shift k).isFec = rx.isFec := rfl
  rw [discardOldFecPacket_shift k h, hkind]
  by_cases hfec : rx.isFec
  · rw [if_pos hfec, if_pos hfec]
    exact insertFecPacket_shift k rx _
  · rw [if_neg hfec, if_neg hfec]
    exact insertMediaPacket_shift k rx _

variable {received : List ReceivedPacket}

theorem insertPackets_shift
    (h : AgesAgree k received s) :
    insertPackets (received.map (ReceivedPacket.shift k)) (s.shift k) =
      (insertPackets received s).shift k := by
  have hfold : (received.map (ReceivedPacket.shift k)).foldl insertPacket
      (s.shift k) = (received.foldl insertPacket s).shift k := by
    induction received generalizing s with
    | nil => rfl
    | cons rx received ih =>
      rw [List.map_cons, List.foldl_cons, List.foldl_cons,
        insertPacket_shift k h.1, ih h.2]
  unfold insertPackets
  rw [hfold]
  simp only [Decoder.shift, discardOldPackets_shift]

theorem resetAtGap_shift
    (h : GapAgrees k received s) :
    resetAtGap (received.map (ReceivedPacket.shift k)) (s.shift k) =
      (resetAtGap received s).shift k := by
  have hlength : (s.shift k).recoveredPacketList.length =
      s.recoveredPacketList.length := List.length_map _
  have hlast : (s.shift k).recoveredPacketList.getLast? =
      s.recoveredPacketList.getLast?.map (RecoveredPacket.shift k) :=
    List.getLast?_map
  unfold resetAtGap
  rw [hlength, hlast, List.head?_map]
  by_cases hfull : s.recoveredPacketList.length = kMaxMediaPackets
  · rw [if_pos hfull, if_pos hfull]
    cases hfirst : received.head? with
    | none => rfl
    | some first =>
      cases hnewest : s.recoveredPacketList.getLast? with
      | none => rfl
      | some newest =>
        have hgap := h hfull first hfirst newest hnewest
        simp only [Option.map_some]
        rw [first.shift_seqNum, newest.shift_seqNum, hgap]
        split <;> rfl
  · rw [if_neg hfull, if_neg hfull]

theorem decodeFec_shift
    (h : TestsAgree k received s) :
    decodeFec (received.map (ReceivedPacket.shift k)) (s.shift k) =
      (decodeFec received s).shift k := by
  rw [decodeFec, resetAtGap_shift k h.1, insertPackets_shift k h.2,
    attemptRecover_shift]
  rfl

/-- The state after calls of `DecodeFEC`. -/
def decodeAll (inputs : List (List ReceivedPacket)) (s : Decoder) : Decoder :=
  inputs.foldl (fun s received => decodeFec received s) s

/-- In every call of a run, the tests come out alike. -/
def AllTestsAgree : List (List ReceivedPacket) → Decoder → Prop
  | [], _ => True
  | received :: inputs, s =>
    TestsAgree k received s ∧ AllTestsAgree inputs (decodeFec received s)

theorem decodeAll_shift {inputs : List (List ReceivedPacket)}
    (h : AllTestsAgree k inputs s) :
    decodeAll (inputs.map fun received =>
      received.map (ReceivedPacket.shift k)) (s.shift k) =
        (decodeAll inputs s).shift k := by
  induction inputs generalizing s with
  | nil => rfl
  | cons received inputs ih =>
    rw [List.map_cons, decodeAll, List.foldl_cons, decodeFec_shift k h.1]
    exact ih h.2

end Shift

/-- The packets that a run recovers, and those in its recovered list, are those
of the run with shifted sequence numbers, when the two tests of integers come
out alike wherever they are made. -/
theorem recovered_shift {k : UInt16} {inputs : List (List ReceivedPacket)}
    (h : AllTestsAgree k inputs Decoder.empty) :
    let s := decodeAll inputs Decoder.empty
    let s' := decodeAll (inputs.map fun received =>
      received.map (ReceivedPacket.shift k)) Decoder.empty
    s'.recoveries = s.recoveries.map (RecoveredPacket.shift k) ∧
      s'.recoveredPacketList =
        s.recoveredPacketList.map (RecoveredPacket.shift k) := by
  have hshift := decodeAll_shift k h
  change decodeAll _ Decoder.empty = _ at hshift
  intro s s'
  exact ⟨congrArg Decoder.recoveries hshift,
    congrArg Decoder.recoveredPacketList hshift⟩

/-- All numbers are in a window of fewer than `2 ^ 14` up to `newest`: those of
the received packets, and those that FEC packets protect. -/
def InWindow (newest : UInt16) (inputs : List (List ReceivedPacket)) : Prop :=
  ∀ received ∈ inputs, ∀ rx ∈ received,
    (newest - rx.seqNum).toNat < 2 ^ 14 ∧
      (newest - bufferToUWord16 rx.pkt.data 2).toNat < 2 ^ 14

instance (newest : UInt16) (inputs : List (List ReceivedPacket)) :
    Decidable (InWindow newest inputs) :=
  inferInstanceAs (Decidable (∀ received ∈ inputs, ∀ rx ∈ received, _))

theorem recovered_shift_sampleBatch :
    ((decodeAll [lossOfFirst sampleBatch] Decoder.empty).recoveries.map
      RecoveredPacket.seqNum) = [65534] ∧
    (decodeAll [(lossOfFirst sampleBatch).map (ReceivedPacket.shift 7)]
      Decoder.empty).recoveries =
      (decodeAll [lossOfFirst sampleBatch] Decoder.empty).recoveries.map
        (RecoveredPacket.shift 7) :=
  ⟨by decide +kernel,
    (@recovered_shift 7 [lossOfFirst sampleBatch]
      ⟨⟨nofun, nofun, nofun, nofun, trivial⟩, trivial⟩).1⟩

/-- A FEC packet whose number is behind the wrap is discarded as old by the next
packet before the wrap. -/
theorem not_forall_recovered_shift :
    ¬∀ (k newest : UInt16) (inputs : List (List ReceivedPacket)),
      InWindow newest inputs →
      (decodeAll (inputs.map fun received =>
        received.map (ReceivedPacket.shift k)) Decoder.empty).recoveries =
        (decodeAll inputs Decoder.empty).recoveries.map
          (RecoveredPacket.shift k) := by
  intro h
  have hshift := h 7 2 [(generated sampleBatch).fecPackets.map (receivedFec 2) ++
    sampleBatch.rest.map receivedMedia] (by decide)
  have hnone : (decodeAll [(generated sampleBatch).fecPackets.map
      (receivedFec 2) ++ sampleBatch.rest.map receivedMedia]
        Decoder.empty).recoveries.length = 0 := by
    decide
  have hone : (decodeAll ([(generated sampleBatch).fecPackets.map
      (receivedFec 2) ++ sampleBatch.rest.map receivedMedia].map
        fun received => received.map (ReceivedPacket.shift 7))
          Decoder.empty).recoveries.length = 1 := by
    decide +kernel
  rw [hshift, List.length_map, hnone] at hone
  cases hone

end WebrtcWinXp.Fec
