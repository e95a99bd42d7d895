import WebrtcWinXp.Fec.Red

/-!
# Unpacking RED packets

A payload with one block is unpacked when it fits into a packet.  A payload with
two blocks is only ever refused safely: its FEC packet gets no SSRC, and its
media packet the length of the block.
-/

namespace WebrtcWinXp.Fec

open Support

def Queued.bytes (q : Queued) : List UInt8 :=
  Buffer.read ⟨q.pkt.data, q.pkt.length⟩ ⟨0, q.pkt.length⟩

namespace ReceivedRtp

variable (p : ReceivedRtp)

def Inside : Touch → Prop
  | .read a => p.packet.Inside a
  | .write a => a.offset + a.length ≤ IP_PACKET_SIZE

/-- The RTP header with the payload type of a block. -/
def headerWith (payloadType : UInt8) : List UInt8 :=
  (p.packet.read ⟨0, p.headerLength⟩).set 1
    ((p.packet.byte 1 &&& 0x80) + payloadType)

/-- A media packet: the header with the type of the block, and its bytes. -/
def MediaOf (blk : Block) (q : Queued) : Prop :=
  q.isFec = false ∧
    q.bytes = p.headerWith blk.payloadType ++ p.packet.read blk.data

/-- A FEC packet: the bytes of the block, with the SSRC. -/
def FecOf (blk : Block) (q : Queued) : Prop :=
  q.isFec = true ∧ q.bytes = p.packet.read blk.data ∧ q.ssrc = some p.ssrc

def FromBlock (q : Queued) : Prop :=
  ∃ blk ∈ p.blocks, p.MediaOf blk q ∨ p.FecOf blk q

/-- Reads and writes stay inside, and each queued packet is a block. -/
def Unpacks (ulpfecPayloadType : UInt8) : Prop :=
  (p.addReceivedRedPacket ulpfecPayloadType).Meets p.Inside fun o =>
    ∀ l ∈ o, ∀ q ∈ l, p.FromBlock q

/-- The payload with one block fits into the packet that is queued. -/
def OneBlockFits (ulpfecPayloadType : UInt8) : Prop :=
  if p.firstType = ulpfecPayloadType then
    p.payloadLength - 1 ≤ IP_PACKET_SIZE ∨ p.payloadDataLength = 1
  else p.headerLength + (p.payloadLength - 1) ≤ IP_PACKET_SIZE

/-- The payload with two blocks is refused, or no byte of it is taken. -/
def TwoBlocksRefused (ulpfecPayloadType : UInt8) : Prop :=
  3 ≤ p.payloadLength ∧
    (p.timestampOffset = 0 → 5 ≤ p.payloadLength ∧
      (p.followedAgain ∨ p.payloadDataLength < p.blockLength + 4 ∨
        p.payloadDataLength = 4 ∧
          (p.firstType = ulpfecPayloadType ∨
            p.headerLength ≤ IP_PACKET_SIZE)))

def Unpackable (ulpfecPayloadType : UInt8) : Prop :=
  1 ≤ p.payloadLength ∧
    if p.followed then p.TwoBlocksRefused ulpfecPayloadType
    else p.OneBlockFits ulpfecPayloadType

variable {p}

theorem size_eq : p.packet.size = p.headerLength + p.payloadLength := by
  have hfits := p.fits
  unfold payloadLength headerLength
  omega

theorem payloadDataLength_le : p.payloadDataLength ≤ p.payloadLength :=
  Nat.mod_le _ _

theorem all_redByte (i : ℕ) :
    (p.redByte i).All p.Inside ↔ i < p.payloadLength := by
  unfold redByte
  rw [Traced.all_touch]
  unfold Inside Buffer.Inside
  dsimp only
  rw [size_eq]
  omega

theorem followed_iff :
    p.followed ↔ ¬p.packet.byte p.headerLength &&& 0x80 = 0 :=
  bne_iff_ne

theorem followedAgain_iff :
    p.followedAgain ↔ p.packet.byte (p.headerLength + 4) &&& 0x80 ≠ 0 :=
  bne_iff_ne

theorem readRedHeader_meets_iff {Q : Option RedHeader → Prop} :
    p.readRedHeader.Meets p.Inside Q ↔ 1 ≤ p.payloadLength ∧
      if p.followed then
        3 ≤ p.payloadLength ∧
          if p.timestampOffset = 0 then
            5 ≤ p.payloadLength ∧
              if p.followedAgain ∨ p.payloadDataLength < p.blockLength + 4 then
                Q none
              else Q (some ⟨p.firstType, p.blockLength, 4⟩)
          else Q none
      else Q (some ⟨p.firstType, 0, 1⟩) := by
  unfold readRedHeader
  rw [Traced.meets_bind, all_redByte]
  refine and_congr_right fun _ => ?_
  by_cases hfirst : p.packet.byte p.headerLength &&& 0x80 = 0
  · rw [if_neg (fun h => followed_iff.mp h hfirst)]
    show (if p.packet.byte (p.headerLength + 0) &&& 0x80 = 0 then _ else _ :
      Traced Touch (Option RedHeader)).Meets p.Inside Q ↔ _
    rw [Nat.add_zero, if_pos hfirst, Traced.meets_pure]
    rfl
  rw [if_pos (followed_iff.mpr hfirst)]
  show (if p.packet.byte (p.headerLength + 0) &&& 0x80 = 0 then _ else _ :
    Traced Touch (Option RedHeader)).Meets p.Inside Q ↔ _
  rw [Nat.add_zero, if_neg hfirst, Traced.meets_bind, all_redByte,
    Traced.meets_bind, all_redByte, ← and_assoc]
  have hthree : 1 < p.payloadLength ∧ 2 < p.payloadLength ↔
      3 ≤ p.payloadLength := by
    omega
  rw [hthree]
  refine and_congr_right fun _ => ?_
  by_cases htime : p.timestampOffset = 0
  · have hword : ¬word16 (p.redByte 1).value (p.redByte 2).value >>> 2 ≠ 0 :=
      not_not.mpr htime
    rw [if_neg hword, if_pos htime, Traced.meets_bind, all_redByte,
      Traced.meets_bind, all_redByte, ← and_assoc]
    have hfive : 3 < p.payloadLength ∧ 4 < p.payloadLength ↔
        5 ≤ p.payloadLength := by
      omega
    rw [hfive]
    refine and_congr_right fun _ => ?_
    by_cases hagain : p.followedAgain
    · rw [if_pos (Or.inl hagain),
        if_pos (show (p.redByte 4).value &&& 0x80 ≠ 0 from
          followedAgain_iff.mp hagain), Traced.meets_pure]
    rw [if_neg (show ¬(p.redByte 4).value &&& 0x80 ≠ 0 from
      hagain ∘ followedAgain_iff.mpr)]
    have hlong : (p.payloadDataLength : ℤ) - 4 < p.blockLength ↔
        p.payloadDataLength < p.blockLength + 4 := by
      omega
    by_cases hshort : p.payloadDataLength < p.blockLength + 4
    · rw [if_pos (Or.inr hshort)]
      exact (if_pos (hlong.mpr hshort)).symm ▸ Traced.meets_pure _
    · rw [if_neg (not_or.mpr ⟨hagain, hshort⟩)]
      exact (if_neg (hshort ∘ hlong.mp)).symm ▸ Traced.meets_pure _
  · have hword : word16 (p.redByte 1).value (p.redByte 2).value >>> 2 ≠ 0 :=
      htime
    rw [if_pos hword, if_neg htime, Traced.meets_pure]

variable {data : ℕ → UInt8} {pos : ℕ} {a : Access}

theorem memcpy_inside_iff :
    (p.memcpy data pos a).All p.Inside ↔
      p.packet.Inside a ∧ pos + a.length ≤ IP_PACKET_SIZE := by
  unfold memcpy Traced.All
  rw [List.forall_mem_cons, List.forall_mem_singleton]
  exact Iff.rfl

variable {payloadType : UInt8}

theorem copyRtpHeader_inside_iff :
    (p.copyRtpHeader payloadType).All p.Inside ↔
      p.headerLength ≤ IP_PACKET_SIZE := by
  have hread : p.packet.Inside ⟨0, p.headerLength⟩ := by
    unfold Buffer.Inside
    dsimp only
    rw [Nat.zero_add]
    exact p.fits
  have hwrite : p.Inside (.write ⟨1, 1⟩) :=
    show 1 + 1 ≤ IP_PACKET_SIZE by decide
  unfold copyRtpHeader
  rw [Traced.all_bind, memcpy_inside_iff, Traced.all_touch, and_iff_left hwrite,
    and_iff_right hread, Nat.zero_add]

variable {k : ℕ}

/-- Behind a header of `k` bytes, the announced rest of the payload is read
inside the packet. -/
theorem inside_rest (hk : k ≤ p.payloadDataLength) :
    p.packet.Inside ⟨p.headerLength + k, p.payloadDataLength - k⟩ := by
  have hle := p.payloadDataLength_le
  unfold Buffer.Inside
  dsimp only
  rw [size_eq]
  omega

/-! ## Media packets -/

/-- The data of a packet that got the header and some bytes. -/
def mediaData (p : ReceivedRtp) (payloadType : UInt8) (a : Access) :
    ℕ → UInt8 :=
  p.copied (p.copyRtpHeader payloadType).value p.headerLength a

variable {i : ℕ}

theorem copied_of_mem
    (hi : i < a.length) :
    p.copied data pos a (pos + i) = p.packet.byte (a.offset + i) := by
  unfold copied
  rw [if_pos ⟨Nat.le_add_right _ _, Nat.add_lt_add_left hi _⟩,
    Nat.add_sub_cancel_left]

theorem copied_of_lt
    (hi : i < pos) : p.copied data pos a i = data i :=
  if_neg fun h => Nat.not_le.mpr hi h.1

theorem read_copied (data : ℕ → UInt8) (pos n : ℕ) (a : Access) :
    Buffer.read ⟨p.copied data pos a, n⟩ ⟨pos, a.length⟩ = p.packet.read a :=
  List.map_congr_left fun _ hi => copied_of_mem (List.mem_range.mp hi)

theorem copyRtpHeader_apply
    (hi : i < p.headerLength) :
    (p.copyRtpHeader payloadType).value i =
      if i = 1 then (p.packet.byte 1 &&& 0x80) + payloadType
      else p.packet.byte i := by
  have hminimum : 1 < p.headerLength :=
    Nat.lt_of_lt_of_le (by decide) p.minimum
  have hcopied : ∀ j < p.headerLength,
      p.copied (fun _ => 0) 0 ⟨0, p.headerLength⟩ j = p.packet.byte j := by
    intro j hj
    have hmem : p.copied (fun _ => 0) 0 ⟨0, p.headerLength⟩ (0 + j) =
        p.packet.byte (0 + j) := copied_of_mem hj
    rw [Nat.zero_add] at hmem
    exact hmem
  show (if i = 1 then
      (p.copied (fun _ => 0) 0 ⟨0, p.headerLength⟩ 1 &&& 0x80) + payloadType
    else p.copied (fun _ => 0) 0 ⟨0, p.headerLength⟩ i) = _
  rw [hcopied 1 hminimum, hcopied i hi]

theorem read_mediaData (payloadType : UInt8) (a : Access) (n : ℕ) :
    Buffer.read ⟨p.mediaData payloadType a, n⟩ ⟨0, p.headerLength + a.length⟩ =
      p.headerWith payloadType ++ p.packet.read a := by
  rw [Buffer.read_add, Nat.zero_add]
  refine congrArg₂ _ ?_ (p.read_copied _ _ _ a)
  unfold headerWith
  apply List.ext_getElem
  · rw [List.length_set, Buffer.length_read, Buffer.length_read]
  · intro i h₁ h₂
    rw [Buffer.length_read] at h₁
    rw [List.getElem_set]
    simp only [Buffer.read, List.getElem_map, List.getElem_range,
      Nat.zero_add]
    unfold mediaData
    rw [copied_of_lt h₁, copyRtpHeader_apply h₁]
    simp only [eq_comm]

/-- What `unpackMedia` queues when it copies inside. -/
def queuedMedia (p : ReceivedRtp) (payloadType : UInt8) (k : ℕ) : Queued where
  seqNum := p.header.sequenceNumber
  ssrc := none
  isFec := false
  pkt :=
    ⟨p.headerLength + (p.payloadDataLength - k),
      p.mediaData payloadType
        ⟨p.headerLength + k, p.payloadDataLength - k⟩⟩

theorem memcpySize_of_lt {m : ℕ} (hk : k ≤ 4) (h : m < k) :
    IP_PACKET_SIZE < memcpySize ((m : ℤ) - (k : ℕ)) := by
  unfold memcpySize IP_PACKET_SIZE
  omega

theorem memcpySize_of_le {m : ℕ} (hm : m < 2 ^ 16) (h : k ≤ m) :
    memcpySize ((m : ℤ) - (k : ℕ)) = m - k := by
  unfold memcpySize
  omega

theorem unpackMedia_meets_iff {blockLength : ℕ}
    {Q : List Queued → Prop} (hk : k ≤ 4) :
    (p.unpackMedia ⟨payloadType, blockLength, k⟩).Meets p.Inside Q ↔
      k ≤ p.payloadDataLength ∧
        p.headerLength + (p.payloadDataLength - k) ≤ IP_PACKET_SIZE ∧
        Q [p.queuedMedia payloadType k] := by
  have hlt : p.payloadDataLength < 2 ^ 16 := Nat.mod_lt _ (by decide)
  have hpos : 12 ≤ p.headerLength := p.minimum
  unfold unpackMedia
  rw [Traced.meets_bind, copyRtpHeader_inside_iff, Traced.meets_bind,
    memcpy_inside_iff]
  dsimp only
  by_cases hshort : p.payloadDataLength < k
  · have hhuge := memcpySize_of_lt hk hshort
    exact ⟨fun h => absurd h.2.1.2 (by omega),
      fun h => absurd h.1 (Nat.not_le.mpr hshort)⟩
  have hsize := memcpySize_of_le hlt (Nat.le_of_not_lt hshort)
  have hrest := inside_rest (Nat.le_of_not_lt hshort)
  have hboth : p.headerLength ≤ IP_PACKET_SIZE ∧
      p.headerLength + (p.payloadDataLength - k) ≤ IP_PACKET_SIZE ↔
      p.headerLength + (p.payloadDataLength - k) ≤ IP_PACKET_SIZE := by
    omega
  rw [hsize, and_iff_right hrest, and_iff_right (Nat.le_of_not_lt hshort),
    ← and_assoc, hboth]
  refine and_congr_right fun hfits => ?_
  have hlength : packetLength
      ((p.headerLength : ℤ) + ((p.payloadDataLength : ℤ) - (k : ℕ))) =
      p.headerLength + (p.payloadDataLength - k) := by
    unfold packetLength
    unfold IP_PACKET_SIZE at hfits
    omega
  rw [hlength, if_neg (by omega), Traced.meets_pure]
  rfl

/-- What `unpackFec` queues when it copies inside. -/
def queuedFec (p : ReceivedRtp) (k : ℕ) : Queued where
  seqNum := p.header.sequenceNumber
  ssrc := some p.ssrc
  isFec := true
  pkt :=
    ⟨p.payloadDataLength - k,
      p.copied (fun _ => 0) 0
        ⟨p.headerLength + k, p.payloadDataLength - k⟩⟩

theorem unpackFec_meets_iff {blockLength : ℕ}
    {Q : List Queued → Prop} (hk : k ≤ 4) :
    (p.unpackFec ⟨payloadType, blockLength, k⟩).Meets p.Inside Q ↔
      k ≤ p.payloadDataLength ∧ p.payloadDataLength - k ≤ IP_PACKET_SIZE ∧
        Q (if p.payloadDataLength - k = 0 then [] else [p.queuedFec k]) := by
  have hlt : p.payloadDataLength < 2 ^ 16 := Nat.mod_lt _ (by decide)
  have hssrc : p.Inside (.read ⟨8, 4⟩) := by
    have hfits := p.fits
    have hminimum : 12 ≤ p.header.headerLength.toNat := p.minimum
    exact Nat.le_trans hminimum hfits
  unfold unpackFec
  rw [Traced.meets_bind, memcpy_inside_iff, Traced.meets_bind,
    Traced.all_touch, and_iff_right hssrc]
  dsimp only
  by_cases hshort : p.payloadDataLength < k
  · have hhuge := memcpySize_of_lt hk hshort
    exact ⟨fun h => absurd h.1.2 (by omega),
      fun h => absurd h.1 (Nat.not_le.mpr hshort)⟩
  have hsize := memcpySize_of_le hlt (Nat.le_of_not_lt hshort)
  have hlength : packetLength ((p.payloadDataLength : ℤ) - (k : ℕ)) =
      p.payloadDataLength - k := by
    unfold packetLength
    omega
  have hrest := inside_rest (Nat.le_of_not_lt hshort)
  rw [hsize, and_iff_right hrest, and_iff_right (Nat.le_of_not_lt hshort),
    Nat.zero_add, hlength]
  refine and_congr_right fun _ => ?_
  by_cases hempty : p.payloadDataLength - k = 0
  · rw [if_pos hempty, if_pos hempty, Traced.meets_pure]
  · rw [if_neg hempty, if_neg hempty, Traced.meets_pure]
    rfl

/-! ## Blocks -/

variable {q : Queued}

theorem length_eq_of_mediaOf {blk : Block}
    (h : p.MediaOf blk q) : q.pkt.length = p.headerLength + blk.data.length := by
  have hlength := congrArg List.length h.2
  unfold Queued.bytes headerWith at hlength
  rw [List.length_append, List.length_set, Buffer.length_read,
    Buffer.length_read, Buffer.length_read] at hlength
  exact hlength

theorem length_eq_of_fecOf {blk : Block}
    (h : p.FecOf blk q) : q.pkt.length = blk.data.length := by
  have hlength := congrArg List.length h.2.1
  unfold Queued.bytes at hlength
  rw [Buffer.length_read, Buffer.length_read] at hlength
  exact hlength

theorem mediaOf_queuedMedia_iff
    (ha : a.length = 0 ∨ a.offset = p.headerLength + k) :
    p.MediaOf ⟨payloadType, a⟩ (p.queuedMedia payloadType k) ↔
      a.length = p.payloadDataLength - k := by
  constructor
  · intro h
    have hlength : p.headerLength + (p.payloadDataLength - k) =
        p.headerLength + a.length := length_eq_of_mediaOf h
    omega
  · intro h
    have hread : p.packet.read
        ⟨p.headerLength + k, p.payloadDataLength - k⟩ = p.packet.read a := by
      obtain ⟨offset, n⟩ := a
      dsimp only at h ha
      subst h
      rcases ha with hzero | rfl
      · rw [hzero]
        rfl
      · rfl
    refine ⟨rfl, ?_⟩
    show _ = p.headerWith payloadType ++ p.packet.read a
    rw [← hread]
    exact read_mediaData payloadType
      ⟨p.headerLength + k, p.payloadDataLength - k⟩ _

theorem fecOf_queuedFec_iff
    (ha : a.offset = p.headerLength + k) :
    p.FecOf ⟨payloadType, a⟩ (p.queuedFec k) ↔
      a.length = p.payloadDataLength - k := by
  constructor
  · intro h
    exact (length_eq_of_fecOf h).symm
  · intro h
    obtain ⟨offset, n⟩ := a
    dsimp only at h ha
    subst h ha
    exact ⟨rfl, p.read_copied (fun _ => 0) 0 _
      ⟨p.headerLength + k, p.payloadDataLength - k⟩, rfl⟩

theorem fromBlock_of_not_isFec (h : q.isFec = false) :
    p.FromBlock q ↔ ∃ blk ∈ p.blocks, p.MediaOf blk q := by
  refine exists_congr fun blk => and_congr_right fun _ => ?_
  refine or_iff_left fun hfec => ?_
  rw [hfec.1] at h
  cases h

theorem fromBlock_of_isFec (h : q.isFec = true) :
    p.FromBlock q ↔ ∃ blk ∈ p.blocks, p.FecOf blk q := by
  refine exists_congr fun blk => and_congr_right fun _ => ?_
  refine or_iff_right fun hmedia => ?_
  rw [hmedia.1] at h
  cases h

section OneBlock

variable (hone : p.followed = false)
include hone

theorem blocks_of_one : p.blocks =
    [⟨p.firstType, p.headerLength + 1, p.payloadLength - 1⟩] := by
  have hlength : p.packet.size - (p.headerLength + 1) =
      p.payloadLength - 1 := by
    unfold payloadLength
    omega
  unfold blocks
  rw [if_neg (by rw [hone]; decide), hlength]

theorem fromBlock_queuedMedia_one (hpos : 1 ≤ p.payloadDataLength) :
    p.FromBlock (p.queuedMedia p.firstType 1) ↔
      p.payloadDataLength = p.payloadLength := by
  have hle := p.payloadDataLength_le
  rw [fromBlock_of_not_isFec rfl, blocks_of_one hone]
  simp only [List.mem_singleton, exists_eq_left]
  rw [mediaOf_queuedMedia_iff (.inr rfl)]
  dsimp only
  omega

theorem fromBlock_queuedFec_one (hpos : 1 ≤ p.payloadDataLength) :
    p.FromBlock (p.queuedFec 1) ↔ p.payloadDataLength = p.payloadLength := by
  have hle := p.payloadDataLength_le
  rw [fromBlock_of_isFec rfl, blocks_of_one hone]
  simp only [List.mem_singleton, exists_eq_left]
  rw [fecOf_queuedFec_iff rfl]
  dsimp only
  omega

end OneBlock

theorem payloadDataLength_sub_ne (hfive : 5 ≤ p.payloadLength)
    (hfour : 4 ≤ p.payloadDataLength) :
    p.payloadDataLength - 4 ≠ p.payloadLength - 5 := by
  unfold payloadDataLength at hfour ⊢
  omega

section TwoBlocks

variable (htwo : p.followed = true) (hempty : p.blockLength = 0)
include htwo hempty

theorem blocks_of_two : p.blocks =
    [⟨p.firstType, p.headerLength + 5, 0⟩,
      ⟨p.packet.byte (p.headerLength + 4) &&& 0x7f, p.headerLength + 5,
        p.payloadLength - 5⟩] := by
  have hlength : p.packet.size - (p.headerLength + 5) =
      p.payloadLength - 5 := by
    unfold payloadLength
    omega
  unfold blocks
  rw [if_pos htwo, hempty]
  dsimp only
  rw [Nat.add_zero, hlength]

theorem fromBlock_queuedMedia_two (hfive : 5 ≤ p.payloadLength)
    (hfour : 4 ≤ p.payloadDataLength) :
    p.FromBlock (p.queuedMedia p.firstType 4) ↔ p.payloadDataLength = 4 := by
  rw [fromBlock_of_not_isFec rfl, blocks_of_two htwo hempty]
  constructor
  · rintro ⟨blk, hmem, hmedia⟩
    have hlength : p.headerLength + (p.payloadDataLength - 4) =
        p.headerLength + blk.data.length := length_eq_of_mediaOf hmedia
    have hne := payloadDataLength_sub_ne hfive hfour
    rcases List.mem_pair.mp hmem with rfl | rfl
    · dsimp only at hlength
      omega
    · dsimp only at hlength
      omega
  · intro h
    refine ⟨_, List.mem_cons_self, (mediaOf_queuedMedia_iff (.inl rfl)).mpr ?_⟩
    rw [h]

theorem not_fromBlock_queuedFec_two (hfive : 5 ≤ p.payloadLength)
    (hfour : 4 < p.payloadDataLength) : ¬p.FromBlock (p.queuedFec 4) := by
  rw [fromBlock_of_isFec rfl, blocks_of_two htwo hempty]
  rintro ⟨blk, hmem, hfec⟩
  have hlength : p.payloadDataLength - 4 = blk.data.length :=
    length_eq_of_fecOf hfec
  have hne := payloadDataLength_sub_ne hfive (by omega)
  rcases List.mem_pair.mp hmem with rfl | rfl
  · dsimp only at hlength
    omega
  · exact hne hlength

end TwoBlocks

theorem not_unpackTwo_meets (ulpfecPayloadType : UInt8) (r : RedHeader) :
    ¬(p.unpackTwo ulpfecPayloadType r).Meets p.Inside
      fun l => ∀ q ∈ l, p.FromBlock q := by
  intro h
  obtain ⟨blk, -, hblock⟩ :=
    h.2 _ (List.mem_cons_of_mem _ List.mem_cons_self)
  rcases hblock with hmedia | hfec
  · exact Bool.noConfusion hmedia.1
  · exact nomatch hfec.2.2

/-! ## The whole function -/

variable {ulpfecPayloadType : UInt8}

theorem forall_mem_some_singleton {P : Queued → Prop} :
    (∀ l ∈ some [q], ∀ q ∈ l, P q) ↔ P q := by
  simp

theorem unpackRest_meets_iff (hk : k ≤ 4) :
    (if payloadType = ulpfecPayloadType then
        some <$> p.unpackFec ⟨payloadType, 0, k⟩
      else some <$> p.unpackMedia ⟨payloadType, 0, k⟩).Meets p.Inside
        (fun o => ∀ l ∈ o, ∀ q ∈ l, p.FromBlock q) ↔
      k ≤ p.payloadDataLength ∧
        if payloadType = ulpfecPayloadType then
          p.payloadDataLength - k ≤ IP_PACKET_SIZE ∧
            (p.payloadDataLength = k ∨ p.FromBlock (p.queuedFec k))
        else
          p.headerLength + (p.payloadDataLength - k) ≤ IP_PACKET_SIZE ∧
            p.FromBlock (p.queuedMedia payloadType k) := by
  by_cases htype : payloadType = ulpfecPayloadType
  · rw [if_pos htype, if_pos htype, Traced.meets_map, unpackFec_meets_iff hk]
    refine and_congr_right fun hle => and_congr_right fun _ => ?_
    by_cases hempty : p.payloadDataLength - k = 0
    · rw [if_pos hempty]
      refine ⟨fun _ => .inl (by omega), fun _ l hl q hq => ?_⟩
      cases hl
      exact absurd hq List.not_mem_nil
    · rw [if_neg hempty, or_iff_right (by omega)]
      exact forall_mem_some_singleton
  · rw [if_neg htype, if_neg htype, Traced.meets_map, unpackMedia_meets_iff hk]
    exact and_congr_right fun _ => and_congr_right fun _ =>
      forall_mem_some_singleton

theorem addReceivedRedPacket_meets_iff {Q : Option (List Queued) → Prop} :
    (p.addReceivedRedPacket ulpfecPayloadType).Meets p.Inside Q ↔
      p.readRedHeader.Meets p.Inside fun o =>
        (match o with
          | none => pure none
          | some r =>
            if 0 < r.blockLength then
              some <$> p.unpackTwo ulpfecPayloadType r
            else if r.payloadType = ulpfecPayloadType then
              some <$> p.unpackFec r
            else some <$> p.unpackMedia r :
          Traced Touch (Option (List Queued))).Meets p.Inside Q :=
  Traced.meets_bind _ _

theorem addReceivedRedPacket_meets_iff_of_one
    {Q : Option (List Queued) → Prop} (hone : p.followed = false) :
    (p.addReceivedRedPacket ulpfecPayloadType).Meets p.Inside Q ↔
      1 ≤ p.payloadLength ∧
        (if p.firstType = ulpfecPayloadType then
          some <$> p.unpackFec ⟨p.firstType, 0, 1⟩
        else some <$> p.unpackMedia ⟨p.firstType, 0, 1⟩).Meets p.Inside Q := by
  rw [addReceivedRedPacket_meets_iff, readRedHeader_meets_iff,
    if_neg (by rw [hone]; decide)]
  dsimp only
  rw [if_neg (Nat.lt_irrefl 0)]

theorem oneBlockFits_iff (hone : p.followed = false)
    (hpos : 1 ≤ p.payloadLength) :
    (1 ≤ p.payloadDataLength ∧
      if p.firstType = ulpfecPayloadType then
        p.payloadDataLength - 1 ≤ IP_PACKET_SIZE ∧
          (p.payloadDataLength = 1 ∨ p.FromBlock (p.queuedFec 1))
      else
        p.headerLength + (p.payloadDataLength - 1) ≤ IP_PACKET_SIZE ∧
          p.FromBlock (p.queuedMedia p.firstType 1)) ↔
      p.OneBlockFits ulpfecPayloadType := by
  have hmod : p.payloadDataLength = p.payloadLength % 2 ^ 16 := rfl
  have hle := p.payloadDataLength_le
  have hmax : IP_PACKET_SIZE = 1500 := rfl
  unfold OneBlockFits
  by_cases htype : p.firstType = ulpfecPayloadType
  · rw [if_pos htype, if_pos htype]
    constructor
    · rintro ⟨hpos', hfits, hone' | hblock⟩
      · exact .inr hone'
      · rw [fromBlock_queuedFec_one hone hpos'] at hblock
        exact .inl (by omega)
    · intro h
      have hpos' : 1 ≤ p.payloadDataLength := by omega
      rw [fromBlock_queuedFec_one hone hpos']
      omega
  · rw [if_neg htype, if_neg htype]
    constructor
    · rintro ⟨hpos', hfits, hblock⟩
      rw [fromBlock_queuedMedia_one hone hpos'] at hblock
      omega
    · intro h
      have hpos' : 1 ≤ p.payloadDataLength := by omega
      rw [fromBlock_queuedMedia_one hone hpos']
      omega

theorem emptyBlock_iff (htwo : p.followed = true) (hempty : p.blockLength = 0)
    (hfive : 5 ≤ p.payloadLength) (hfour : 4 ≤ p.payloadDataLength) :
    (4 ≤ p.payloadDataLength ∧
      if p.firstType = ulpfecPayloadType then
        p.payloadDataLength - 4 ≤ IP_PACKET_SIZE ∧
          (p.payloadDataLength = 4 ∨ p.FromBlock (p.queuedFec 4))
      else
        p.headerLength + (p.payloadDataLength - 4) ≤ IP_PACKET_SIZE ∧
          p.FromBlock (p.queuedMedia p.firstType 4)) ↔
      p.payloadDataLength = 4 ∧
        (p.firstType = ulpfecPayloadType ∨
          p.headerLength ≤ IP_PACKET_SIZE) := by
  rw [and_iff_right hfour]
  by_cases htype : p.firstType = ulpfecPayloadType
  · rw [if_pos htype]
    constructor
    · intro h
      refine ⟨?_, .inl htype⟩
      rcases h.2 with hfour' | hblock
      · exact hfour'
      · by_contra hne
        exact not_fromBlock_queuedFec_two htwo hempty hfive (by omega) hblock
    · rintro ⟨h, -⟩
      rw [h]
      exact ⟨by decide, .inl rfl⟩
  · rw [if_neg htype, or_iff_right htype,
      fromBlock_queuedMedia_two htwo hempty hfive hfour]
    omega

theorem unpacks_iff_unpackable :
    p.Unpacks ulpfecPayloadType ↔ p.Unpackable ulpfecPayloadType := by
  unfold Unpacks Unpackable
  by_cases htwo : p.followed = true
  · rw [addReceivedRedPacket_meets_iff, readRedHeader_meets_iff, if_pos htwo,
      if_pos htwo]
    refine and_congr_right fun hpos => ?_
    unfold TwoBlocksRefused
    refine and_congr_right fun _ => ?_
    by_cases htime : p.timestampOffset = 0
    · rw [if_pos htime, imp_iff_right htime]
      refine and_congr_right fun hfive => ?_
      by_cases hrefused : p.followedAgain ∨
          p.payloadDataLength < p.blockLength + 4
      · rw [if_pos hrefused, Traced.meets_pure, ← or_assoc]
        exact ⟨fun _ => .inl hrefused, fun _ l hl => nomatch hl⟩
      · rw [if_neg hrefused]
        obtain ⟨hagain, hlong⟩ := not_or.mp hrefused
        rw [or_iff_right hagain, or_iff_right hlong]
        dsimp only
        by_cases hblock : 0 < p.blockLength
        · rw [if_pos hblock, Traced.meets_map]
          constructor
          · intro h
            exact absurd (h.imp_right fun h' => h' _ rfl)
              (not_unpackTwo_meets ulpfecPayloadType _)
          · intro h
            omega
        · have hempty : p.blockLength = 0 := by omega
          rw [if_neg hblock, hempty, unpackRest_meets_iff (by decide)]
          exact emptyBlock_iff htwo hempty hfive (by omega)
    · rw [if_neg htime, Traced.meets_pure]
      exact ⟨fun _ h => absurd h htime, fun _ l hl => nomatch hl⟩
  · have hone := Bool.eq_false_iff.mpr htwo
    rw [addReceivedRedPacket_meets_iff_of_one hone, if_neg htwo]
    refine and_congr_right fun hpos => ?_
    rw [unpackRest_meets_iff (by decide)]
    exact oneBlockFits_iff hone hpos

end ReceivedRtp

end WebrtcWinXp.Fec
