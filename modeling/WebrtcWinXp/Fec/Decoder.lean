import WebrtcWinXp.Support.Loop
import WebrtcWinXp.Fec.MaskTable
import Mathlib.Data.List.Sort

/-!
# Decoding FEC packets

`DecodeFEC` stores FEC packets together with the media packets they protect,
as far as these are known, and recovers a media packet when it is the only one
that a FEC packet misses.
-/

namespace WebrtcWinXp.Fec

open Support

/-- `ForwardErrorCorrection::ReceivedPacket`. -/
structure ReceivedPacket where
  seqNum : UInt16
  ssrc : UInt32
  isFec : Bool
  pkt : Packet

/-- `ForwardErrorCorrection::RecoveredPacket`.  The bytes for the recovery of
the length are in `Recovery`. -/
structure RecoveredPacket where
  seqNum : UInt16
  wasRecovered : Bool
  returned : Bool
  pkt : Packet

/-- A media packet that a FEC packet protects; the packet is missing as long as
it is not known. -/
structure ProtectedPacket where
  seqNum : UInt16
  pkt : Option Packet

structure FecPacket where
  seqNum : UInt16
  ssrc : UInt32
  protectedPktList : List ProtectedPacket
  pkt : Packet

/-- The FEC packets that are stored, the list of recovered packets that is
passed from call to call, and all packets that have been recovered so far. -/
structure Decoder where
  fecPacketList : List FecPacket
  recoveredPacketList : List RecoveredPacket
  recoveries : List RecoveredPacket

def Decoder.empty : Decoder := ⟨[], [], []⟩

/-- `list::sort(SortablePacket::LessThan)`. -/
def sortBySeqNum {α : Type*} (seqNum : α → UInt16) (l : List α) : List α :=
  l.insertionSort fun a b => ¬lessThan (seqNum b) (seqNum a)

/-! ## Inserting packets -/

/-- `UpdateCoveringFECPackets` for one protected list: the first packet that is
not less than `packet` is found, and compared. -/
def updateCovering (packet : RecoveredPacket) :
    List ProtectedPacket → List ProtectedPacket
  | [] => []
  | p :: rest =>
    if lessThan p.seqNum packet.seqNum then p :: updateCovering packet rest
    else if p.seqNum = packet.seqNum then
      { p with pkt := some packet.pkt } :: rest
    else p :: rest

def updateCoveringFecPackets (packet : RecoveredPacket)
    (fecPacketList : List FecPacket) : List FecPacket :=
  fecPacketList.map fun fec =>
    { fec with
      protectedPktList := updateCovering packet fec.protectedPktList }

/-- A received media packet, which has been returned already. -/
def ReceivedPacket.mediaPacket (rxPacket : ReceivedPacket) :
    RecoveredPacket where
  seqNum := rxPacket.seqNum
  wasRecovered := false
  returned := true
  pkt := rxPacket.pkt

def insertMediaPacket (rxPacket : ReceivedPacket) (s : Decoder) : Decoder :=
  if s.recoveredPacketList.any fun r => rxPacket.seqNum = r.seqNum then s
  else
    { s with
      recoveredPacketList := sortBySeqNum RecoveredPacket.seqNum
        (s.recoveredPacketList ++ [rxPacket.mediaPacket])
      fecPacketList :=
        updateCoveringFecPackets rxPacket.mediaPacket s.fecPacketList }

/-- `std::set_intersection` with `LessThan`: what it takes from the first
list. -/
def setIntersection :
    List RecoveredPacket → List ProtectedPacket → List RecoveredPacket
  | [], _ => []
  | _, [] => []
  | r :: rs, p :: ps =>
    if lessThan r.seqNum p.seqNum then setIntersection rs (p :: ps)
    else if lessThan p.seqNum r.seqNum then setIntersection (r :: rs) ps
    else r :: setIntersection rs ps
termination_by rs ps => rs.length + ps.length

/-- The loop of `AssignRecoveredPackets` over the intersection.  Its iterator
stays inside the protected list when every packet is found. -/
def assignRecovered :
    List RecoveredPacket → List ProtectedPacket → List ProtectedPacket
  | [], ps => ps
  | _ :: _, [] => []
  | r :: rs, p :: ps =>
    if p.seqNum ≠ r.seqNum then p :: assignRecovered (r :: rs) ps
    else assignRecovered rs ({ p with pkt := some r.pkt } :: ps)
termination_by rs ps => rs.length + ps.length

def assignRecoveredPackets (recoveredPackets : List RecoveredPacket)
    (fecPacket : FecPacket) : FecPacket :=
  { fecPacket with
    protectedPktList :=
      assignRecovered
        (setIntersection recoveredPackets fecPacket.protectedPktList)
        fecPacket.protectedPktList }

/-- The protected list that `InsertFECPacket` reads from the mask. -/
def protectedBy (pkt : Packet) : List ProtectedPacket :=
  let seqNumBase := bufferToUWord16 pkt.data 2
  let maskSizeBytes := maskSize (bit (pkt.data 0) 6)
  ((List.range (8 * maskSizeBytes)).filter fun i => maskBit pkt.data 12 i).map
    fun i => ⟨seqNumBase + UInt16.ofNat i, none⟩

/-- A received FEC packet, of which no protected packet is known yet. -/
def ReceivedPacket.fecPacket (rxPacket : ReceivedPacket) : FecPacket where
  seqNum := rxPacket.seqNum
  ssrc := rxPacket.ssrc
  protectedPktList := protectedBy rxPacket.pkt
  pkt := rxPacket.pkt

def insertFecPacket (rxPacket : ReceivedPacket) (s : Decoder) : Decoder :=
  if s.fecPacketList.any fun f => rxPacket.seqNum = f.seqNum then s
  else
    if rxPacket.fecPacket.protectedPktList = [] then s
    else
      let fecPacket :=
        assignRecoveredPackets s.recoveredPacketList rxPacket.fecPacket
      let fecPacketList := sortBySeqNum FecPacket.seqNum
        (s.fecPacketList ++ [fecPacket])
      { s with
        fecPacketList :=
          if fecPacketList.length > kMaxFecPackets then fecPacketList.tail
          else fecPacketList }

/-- The difference of two sequence numbers as integers. -/
def seqNumDiff (a b : UInt16) : ℕ := ((a.toNat : ℤ) - b.toNat).natAbs

/-- The test for an old FEC packet in `InsertPackets`. -/
def isOld (seqNum oldest : UInt16) : Bool := seqNumDiff seqNum oldest > 0x3fff

/-- `InsertPackets` discards the oldest FEC packet when it is old. -/
def discardOldFecPacket (seqNum : UInt16) (s : Decoder) : Decoder :=
  match s.fecPacketList with
  | [] => s
  | oldest :: rest =>
    if isOld seqNum oldest.seqNum then { s with fecPacketList := rest }
    else s

/-- `InsertPackets` for one packet. -/
def insertPacket (s : Decoder) (rxPacket : ReceivedPacket) : Decoder :=
  let s := discardOldFecPacket rxPacket.seqNum s
  if rxPacket.isFec then insertFecPacket rxPacket s
  else insertMediaPacket rxPacket s

def discardOldPackets (recoveredPacketList : List RecoveredPacket) :
    List RecoveredPacket :=
  recoveredPacketList.drop (recoveredPacketList.length - kMaxMediaPackets)

def insertPackets (receivedPacketList : List ReceivedPacket) (s : Decoder) :
    Decoder :=
  let s := receivedPacketList.foldl insertPacket s
  { s with
    recoveredPacketList := discardOldPackets s.recoveredPacketList }

/-! ## Recovery -/

/-- A packet that is being recovered, and its bytes `length_recovery`. -/
structure Recovery where
  data : ℕ → UInt8
  lengthRecovery : ℕ → UInt8

def initRecovery (fecPacket : FecPacket) : Recovery :=
  let fec := fecPacket.pkt.data
  let ulpHeaderSize := ulpHeaderSize (bit (fec 0) 6)
  let protectionLength := bufferToUWord16 fec 10
  let data := memcpy (fun _ => 0) kRtpHeaderSize
    (fun i => fec (kFecHeaderSize + ulpHeaderSize + i)) protectionLength.toNat
  let data := memcpy data 0 fec 2
  let data := memcpy data 4 (fun i => fec (4 + i)) 4
  { data := assignUWord32 data 8 fecPacket.ssrc
    lengthRecovery := fun i => fec (8 + i) }

def xorPackets (srcPacket : Packet) (dstPacket : Recovery) : Recovery :=
  let data := xorInto dstPacket.data 0 srcPacket.data 2
  let data := xorInto data 4 (fun i => srcPacket.data (4 + i)) 4
  let mediaPayloadLength :=
    assignUWord16 (fun _ => 0) 0 (mediaPayloadLength srcPacket)
  { data := xorInto data kRtpHeaderSize
      (fun i => srcPacket.data (kRtpHeaderSize + i))
      (srcPacket.length - kRtpHeaderSize)
    lengthRecovery := xorInto dstPacket.lengthRecovery 0 mediaPayloadLength 2 }

def finishRecovery (seqNum : UInt16) (recovered : Recovery) :
    RecoveredPacket :=
  let data := Function.update recovered.data 0
    ((recovered.data 0 ||| 0x80) &&& 0xbf)
  { seqNum := seqNum
    wasRecovered := true
    returned := false
    pkt :=
      { length := (bufferToUWord16 recovered.lengthRecovery 0 +
          UInt16.ofNat kRtpHeaderSize).toNat
        data := assignUWord16 data 2 seqNum } }

/-- The loop of `RecoverPacket`: the missing packet gives the sequence number,
all others are combined. -/
def recoverStep (s : Recovery × UInt16) (p : ProtectedPacket) :
    Recovery × UInt16 :=
  match p.pkt with
  | none => (s.1, p.seqNum)
  | some pkt => (xorPackets pkt s.1, s.2)

def recoverPacket (fecPacket : FecPacket) : RecoveredPacket :=
  let s := fecPacket.protectedPktList.foldl recoverStep
    (initRecovery fecPacket, 0)
  finishRecovery s.2 s.1

/-- `NumCoveredPacketsMissing`, which stops counting at two. -/
def numCoveredPacketsMissing (fecPacket : FecPacket) : ℕ :=
  min 2 (fecPacket.protectedPktList.countP fun p => p.pkt.isNone)

/-- The loop of `AttemptRecover`: its iterator is behind `scanned`. -/
structure Attempt where
  scanned : List FecPacket
  rest : List FecPacket
  recoveredPacketList : List RecoveredPacket
  recoveries : List RecoveredPacket

/-- One round of the loop of `AttemptRecover`. -/
def attemptStep (s : Attempt) : Option Attempt :=
  match s.rest with
  | [] => none
  | fec :: rest =>
    let packetsMissing := numCoveredPacketsMissing fec
    if packetsMissing = 1 then
      let packet := recoverPacket fec
      let recoveredPacketList := sortBySeqNum RecoveredPacket.seqNum
        (s.recoveredPacketList ++ [packet])
      some
        { scanned := []
          rest := updateCoveringFecPackets packet (s.scanned ++ rest)
          recoveredPacketList := discardOldPackets recoveredPacketList
          recoveries := s.recoveries ++ [packet] }
    else if packetsMissing = 0 then some { s with rest := rest }
    else some { s with scanned := s.scanned ++ [fec], rest := rest }

/-- The rounds that are left: a FEC packet less starts a new scan. -/
def Attempt.measure (s : Attempt) : ℕ :=
  let n := s.scanned.length + s.rest.length
  n * n + s.rest.length

theorem attemptStep_lowers : Lowers attemptStep Attempt.measure := by
  intro s t h
  unfold attemptStep at h
  unfold Attempt.measure
  cases hrest : s.rest with
  | nil =>
    rw [hrest] at h
    cases h
  | cons fec rest =>
    rw [hrest] at h
    dsimp only at h ⊢
    rw [List.length_cons]
    generalize hn : s.scanned.length + rest.length = n
    have hsucc : (n + 1) * (n + 1) = n * n + n + n + 1 := by
      rw [Nat.add_mul, Nat.mul_add, Nat.one_mul, Nat.mul_one]
      omega
    have hlen : s.scanned.length + (rest.length + 1) = n + 1 := by omega
    rw [hlen, hsucc]
    split at h
    · rw [Option.some_inj] at h
      subst h
      simp only [updateCoveringFecPackets, List.length_map,
        List.length_append, List.length_nil, Nat.zero_add, hn]
      omega
    · split at h
      · rw [Option.some_inj] at h
        subst h
        change (s.scanned.length + rest.length) *
          (s.scanned.length + rest.length) + rest.length < _
        rw [hn]
        omega
      · rw [Option.some_inj] at h
        subst h
        simp only [List.length_append, List.length_cons, List.length_nil]
        rw [show s.scanned.length + (0 + 1) + rest.length = n + 1 by omega,
          hsucc]
        omega

def Decoder.attempt (s : Decoder) : Attempt :=
  ⟨[], s.fecPacketList, s.recoveredPacketList, s.recoveries⟩

def Attempt.decoder (t : Attempt) : Decoder :=
  ⟨t.scanned ++ t.rest, t.recoveredPacketList, t.recoveries⟩

def attemptRecover (s : Decoder) : Decoder :=
  (finish attemptStep Attempt.measure s.attempt).decoder

def resetState (s : Decoder) : Decoder :=
  { s with
    fecPacketList := []
    recoveredPacketList := [] }

/-- The test for a big gap in `DecodeFEC`, which is made when the list of
recovered packets is full. -/
def isBigGap (seqNum newest : UInt16) : Bool :=
  seqNumDiff seqNum newest > kMaxMediaPackets

def resetAtGap (receivedPacketList : List ReceivedPacket) (s : Decoder) :
    Decoder :=
  if s.recoveredPacketList.length = kMaxMediaPackets then
    match receivedPacketList.head?, s.recoveredPacketList.getLast? with
    | some first, some newest =>
      if isBigGap first.seqNum newest.seqNum then resetState s else s
    | _, _ => s
  else s

/-- `DecodeFEC` for a list that is not empty. -/
def decodeFec (receivedPacketList : List ReceivedPacket) (s : Decoder) :
    Decoder :=
  attemptRecover
    (insertPackets receivedPacketList (resetAtGap receivedPacketList s))

/-! ## What the lists contain -/

theorem mem_sortBySeqNum {α : Type*} {seqNum : α → UInt16} {l : List α} {a : α} :
    a ∈ sortBySeqNum seqNum l ↔ a ∈ l :=
  (List.perm_insertionSort _ l).mem_iff

theorem mem_of_mem_discardOldPackets {l : List RecoveredPacket}
    {r : RecoveredPacket} (h : r ∈ discardOldPackets l) : r ∈ l :=
  List.mem_of_mem_drop h

theorem mem_of_mem_setIntersection {rs : List RecoveredPacket}
    {ps : List ProtectedPacket} {r : RecoveredPacket}
    (h : r ∈ setIntersection rs ps) : r ∈ rs := by
  induction rs, ps using setIntersection.induct with
  | case1 => rwa [setIntersection] at h
  | case2 rs hrs =>
    rw [setIntersection] at h
    · cases h
    · exact hrs
  | case3 r' rs p ps hlt ih =>
    rw [setIntersection, if_pos hlt] at h
    exact List.mem_cons_of_mem _ (ih h)
  | case4 r' rs p ps hnot hlt ih =>
    rw [setIntersection, if_neg hnot, if_pos hlt] at h
    exact ih h
  | case5 r' rs p ps hnot hnot' ih =>
    rw [setIntersection, if_neg hnot, if_neg hnot'] at h
    rcases List.mem_cons.mp h with rfl | h
    · exact List.mem_cons_self
    · exact List.mem_cons_of_mem _ (ih h)

@[simp] theorem updateCovering_seqNums (packet : RecoveredPacket)
    (l : List ProtectedPacket) :
    (updateCovering packet l).map ProtectedPacket.seqNum =
      l.map ProtectedPacket.seqNum := by
  induction l with
  | nil => rfl
  | cons p l ih =>
    rw [updateCovering]
    split
    · rw [List.map_cons, List.map_cons, ih]
    · split <;> rfl

theorem mem_updateCovering {packet : RecoveredPacket}
    {l : List ProtectedPacket} {p : ProtectedPacket}
    (h : p ∈ updateCovering packet l) :
    p ∈ l ∨ p.seqNum = packet.seqNum ∧ p.pkt = some packet.pkt := by
  induction l with
  | nil => cases h
  | cons q l ih =>
    rw [updateCovering] at h
    split at h
    · rcases List.mem_cons.mp h with rfl | h
      · exact Or.inl List.mem_cons_self
      · exact (ih h).imp_left (List.mem_cons_of_mem _)
    · split at h
      · rename_i heq
        rcases List.mem_cons.mp h with rfl | h
        · exact Or.inr ⟨heq, rfl⟩
        · exact Or.inl (List.mem_cons_of_mem _ h)
      · exact Or.inl h

@[simp] theorem assignRecovered_seqNums (rs : List RecoveredPacket)
    (ps : List ProtectedPacket) :
    (assignRecovered rs ps).map ProtectedPacket.seqNum =
      ps.map ProtectedPacket.seqNum := by
  induction rs, ps using assignRecovered.induct with
  | case1 ps => rw [assignRecovered]
  | case2 r rs => rw [assignRecovered]
  | case3 r rs p ps hne ih =>
    rw [assignRecovered, if_pos hne, List.map_cons, List.map_cons, ih]
  | case4 r rs p ps heq ih =>
    rw [assignRecovered, if_neg heq, ih]
    rfl

theorem mem_assignRecovered {rs : List RecoveredPacket}
    {ps : List ProtectedPacket} {p : ProtectedPacket}
    (h : p ∈ assignRecovered rs ps) :
    p ∈ ps ∨ ∃ r ∈ rs, p.seqNum = r.seqNum ∧ p.pkt = some r.pkt := by
  induction rs, ps using assignRecovered.induct with
  | case1 ps =>
    rw [assignRecovered] at h
    exact Or.inl h
  | case2 r rs =>
    rw [assignRecovered] at h
    cases h
  | case3 r rs q ps hne ih =>
    rw [assignRecovered, if_pos hne] at h
    rcases List.mem_cons.mp h with rfl | h
    · exact Or.inl List.mem_cons_self
    · exact (ih h).imp_left (List.mem_cons_of_mem _)
  | case4 r rs q ps heq ih =>
    rw [assignRecovered, if_neg heq] at h
    rw [not_not] at heq
    rcases ih h with h | ⟨r', hr', hseq, hpkt⟩
    · rcases List.mem_cons.mp h with rfl | h
      · exact Or.inr ⟨r, List.mem_cons_self, heq, rfl⟩
      · exact Or.inl (List.mem_cons_of_mem _ h)
    · exact Or.inr ⟨r', List.mem_cons_of_mem _ hr', hseq, hpkt⟩

theorem pkt_of_mem_protectedBy {pkt : Packet} {p : ProtectedPacket}
    (h : p ∈ protectedBy pkt) : p.pkt = none := by
  obtain ⟨i, -, rfl⟩ := List.mem_map.mp h
  rfl

/-!
## The receiver of FEC packets

`FecReceiverImpl` collects received packets, passes them to `DecodeFEC`, and
hands the packets that were recovered to its callback.
-/

section

/-- `FecReceiverImpl`, and the recovered packets that were handed to
`OnRecoveredPacket` so far. -/
structure FecReceiver where
  receivedPacketList : List ReceivedPacket
  fec : Decoder
  handed : List RecoveredPacket

namespace FecReceiver

def new : FecReceiver := ⟨[], .empty, []⟩

/-- What the loop over the recovered packets leaves, hands over and returns. -/
structure Returned where
  recoveredPacketList : List RecoveredPacket
  handed : List RecoveredPacket
  result : ℤ

/-- The loop of `ProcessReceivedFec` over the recovered packets.  The callback
answers to its `n`-th call with `accepts n`. -/
def returnPackets (accepts : ℕ → Bool) : ℕ → List RecoveredPacket → Returned
  | _, [] => ⟨[], [], 0⟩
  | n, r :: rest =>
    if r.returned then
      let t := returnPackets accepts n rest
      { t with recoveredPacketList := r :: t.recoveredPacketList }
    else if accepts n then
      let t := returnPackets accepts (n + 1) rest
      { t with
        recoveredPacketList := { r with returned := true } ::
          t.recoveredPacketList
        handed := r :: t.handed }
    else ⟨r :: rest, [r], -1⟩

/-- The end of `ProcessReceivedFec`. -/
def returnRecovered (accepts : ℕ → Bool) (s : FecReceiver) : FecReceiver × ℤ :=
  let t := returnPackets accepts 0 s.fec.recoveredPacketList
  ({ s with
      fec := { s.fec with recoveredPacketList := t.recoveredPacketList }
      handed := s.handed ++ t.handed }, t.result)

/-- `ProcessReceivedFec`, with the answers of the callback to the media packet
at the front and to the recovered packets. -/
def processReceivedFec (acceptsMedia : Bool) (accepts : ℕ → Bool)
    (s : FecReceiver) : FecReceiver × ℤ :=
  match s.receivedPacketList with
  | [] => s.returnRecovered accepts
  | front :: _ =>
    if !front.isFec && !acceptsMedia then (s, -1)
    else
      returnRecovered accepts
        { s with
          receivedPacketList := []
          fec := decodeFec s.receivedPacketList s.fec }

/-- The calls: `AddReceivedRedPacket` appends packets without their RED
header. -/
inductive Call where
  | addReceivedRedPacket (packets : List ReceivedPacket)
  | processReceivedFec (acceptsMedia : Bool) (accepts : ℕ → Bool)

def step (s : FecReceiver) : Call → Option FecReceiver
  | .addReceivedRedPacket packets =>
    some { s with receivedPacketList := s.receivedPacketList ++ packets }
  | .processReceivedFec acceptsMedia accepts =>
    some (s.processReceivedFec acceptsMedia accepts).1

/-- When the callback accepts everything, the packets that were not returned yet
are handed over. -/
theorem returnPackets_of_accepts {accepts : ℕ → Bool}
    (haccepts : ∀ n, accepts n) (n : ℕ) (l : List RecoveredPacket) :
    returnPackets accepts n l =
      ⟨l.map fun r => { r with returned := true },
        l.filter fun r => !r.returned, 0⟩ := by
  induction l generalizing n with
  | nil => rfl
  | cons r l ih =>
    rw [returnPackets, List.map_cons]
    by_cases hreturned : r.returned
    · have hsame : { r with returned := true } = r := by
        rw [← hreturned]
      rw [if_pos hreturned, ih, hsame, List.filter_cons_of_neg]
      rw [hreturned]
      exact Bool.false_ne_true
    · rw [if_neg hreturned, if_pos (haccepts n), ih,
        List.filter_cons_of_pos]
      rw [Bool.eq_false_iff.mpr hreturned]
      rfl

end FecReceiver

end

end WebrtcWinXp.Fec
