import WebrtcWinXp.Fec.ColumnInsertion

/-!
# Generating FEC packets

`GenerateFEC` combines the media packets of each mask row by exclusive or, and
writes the mask into the header of the result.  The bits of a row are walked
through with an index that is used as the count of a shift; what a shift by a
count outside of its type gives is a parameter.
-/

namespace WebrtcWinXp.Fec

open Support

/-! ## The walk through the mask -/

/-- The byte of the packet mask, and the bit of it, that
`GenerateFecBitStrings` looks at for a media packet. -/
structure MaskPosition where
  pktMaskIdx : ℕ
  mediaPktIdx : ℕ

def MaskPosition.next (pos : MaskPosition) (prevSeqNum seqNum : UInt16) :
    MaskPosition :=
  let mediaPktIdx := pos.mediaPktIdx + (seqNum - prevSeqNum).toNat
  if mediaPktIdx = 8 then ⟨pos.pktMaskIdx + 1, 0⟩
  else ⟨pos.pktMaskIdx, mediaPktIdx⟩

/-- The positions for the packets `p :: rest`. -/
def maskPositions (pos : MaskPosition) (p : Packet) :
    List Packet → List MaskPosition
  | [] => [pos]
  | q :: rest =>
    pos :: maskPositions (pos.next p.seqNum q.seqNum) q rest

/-- What `packet_mask[i] & (1 << (7 - media_pkt_idx))` is when the count of the
shift is out of range. -/
abbrev UndefinedShift := UInt8 → ℕ → Bool

/-- `packet_mask[pkt_mask_idx] & (1 << (7 - media_pkt_idx))`. -/
def testMask (undefinedShift : UndefinedShift) (packetMask : ℕ → UInt8)
    (pos : MaskPosition) : Bool :=
  if pos.mediaPktIdx < 8 then
    bit (packetMask pos.pktMaskIdx) (7 - pos.mediaPktIdx)
  else undefinedShift (packetMask pos.pktMaskIdx) pos.mediaPktIdx

def fecRtpOffset (lBit : Bool) : ℕ :=
  kFecHeaderSize + ulpHeaderSize lBit - kRtpHeaderSize

def protectPacket (lBit : Bool) (fec media : Packet) : Packet :=
  let length := mediaPayloadLength media
  let fecPacketLength := media.length + fecRtpOffset lBit
  let payload := kFecHeaderSize + ulpHeaderSize lBit
  let data :=
    if fec.length = 0 then
      let data := memcpy fec.data 0 media.data 2
      let data := memcpy data 4 (fun i => media.data (4 + i)) 4
      let data := assignUWord16 data 8 length
      memcpy data payload (fun i => media.data (kRtpHeaderSize + i))
        (media.length - kRtpHeaderSize)
    else
      let data := xorInto fec.data 0 media.data 2
      let data := xorInto data 4 (fun i => media.data (4 + i)) 4
      let data := xorInto data 8 (assignUWord16 (fun _ => 0) 0 length) 2
      xorInto data payload
        (fun i => media.data (payload + i - fecRtpOffset lBit))
        (fecPacketLength - payload)
  { length := if fecPacketLength > fec.length then fecPacketLength
      else fec.length
    data := data }

/-- A packet as `GenerateFEC` prepares it. -/
def clearedPacket : Packet where
  length := 0
  data _ := 0

/-- `GenerateFecBitStrings` for the FEC packet of one row, which starts at
`start`. -/
def generateFecBitString (undefinedShift : UndefinedShift)
    (packetMask : ℕ → UInt8) (lBit : Bool) (start : ℕ) (first : Packet)
    (rest : List Packet) : Packet :=
  ((first :: rest).zip (maskPositions ⟨start, 0⟩ first rest)).foldl
    (fun fec media =>
      if testMask undefinedShift packetMask media.2 then
        protectPacket lBit fec media.1
      else fec)
    clearedPacket

/-- `GenerateFecUlpHeaders` for one FEC packet. -/
def generateFecUlpHeader (packetMask : ℕ → UInt8) (lBit : Bool) (start : ℕ)
    (first fec : Packet) : Packet :=
  let byte := fec.data 0 &&& 0x7f
  let byte := if lBit then byte ||| 0x40 else byte &&& 0xbf
  let data := Function.update fec.data 0 byte
  let data := memcpy data 2 (fun i => first.data (2 + i)) 2
  let data := assignUWord16 data 10
    (UInt16.ofNat (fec.length - kFecHeaderSize - ulpHeaderSize lBit))
  let data := memcpy data 12 (fun i => packetMask (start + i)) (maskSize lBit)
  { fec with data := data }

/-- The use of a mask position for a row of some bytes. -/
structure PositionUse where
  row : ℕ
  rowBytes : ℕ
  position : MaskPosition

def PositionUse.Inside (u : PositionUse) : Prop :=
  u.position.mediaPktIdx < 8 ∧ u.row * u.rowBytes ≤ u.position.pktMaskIdx ∧
    u.position.pktMaskIdx < (u.row + 1) * u.rowBytes

/-- What `GenerateFEC` leaves in its list, and what it has used of masks while
columns were inserted and while bit strings were generated. -/
structure Generated where
  fecPackets : List Packet
  touched : List BitAccess
  positions : List PositionUse

def getNumberOfFecPackets (numMediaPackets : ℕ) (protectionFactor : UInt8) :
    ℕ :=
  let numFecPackets := (numMediaPackets * protectionFactor.toNat + 128) / 256
  if protectionFactor > 0 ∧ numFecPackets = 0 then 1 else numFecPackets

/-- The masks that `GenerateFEC` starts from. -/
def packetMasks (table : MaskTable) (numMediaPackets numFecPackets
    numImportantPackets : ℕ) (useUnequalProtection : Bool)
    (fecMaskType : FecMaskType) : ℕ → UInt8 :=
  generatePacketMasks (table (initMaskType fecMaskType numMediaPackets))
    numMediaPackets numFecPackets numImportantPackets useUnequalProtection
    (fun _ => 0)

/-- `GenerateFEC` behind the insertion of columns. -/
def emitFecPackets (undefinedShift : UndefinedShift) (inserted : Inserted)
    (numFecPackets : ℕ) (first : Packet) (rest : List Packet) : Generated :=
  let lBit : Bool := inserted.numMaskBits > 8 * kMaskSizeLBitClear
  let maskBytes := maskSize lBit
  { fecPackets := (List.range numFecPackets).map fun i =>
      generateFecUlpHeader inserted.packetMask lBit (i * maskBytes) first
        (generateFecBitString undefinedShift inserted.packetMask lBit
          (i * maskBytes) first rest)
    touched := inserted.touched
    positions := (List.range numFecPackets).flatMap fun i =>
      (maskPositions ⟨i * maskBytes, 0⟩ first rest).map
        (PositionUse.mk i maskBytes) }

/-- `GenerateFEC` for the media packets `first :: rest`. -/
def generateFec (undefinedShift : UndefinedShift) (table : MaskTable)
    (first : Packet) (rest : List Packet) (protectionFactor : UInt8)
    (numImportantPackets : ℕ) (useUnequalProtection : Bool)
    (fecMaskType : FecMaskType) : Option Generated :=
  let media := first :: rest
  let numMediaPackets := media.length
  if numMediaPackets > kMaxMediaPackets then none
  else if media.any fun p => p.length < kRtpHeaderSize then none
  else
    let numFecPackets := getNumberOfFecPackets numMediaPackets protectionFactor
    if numFecPackets = 0 then some ⟨[], [], []⟩
    else
      let packetMask := packetMasks table numMediaPackets numFecPackets
        numImportantPackets useUnequalProtection fecMaskType
      let inserted := insertZerosInBitMasks first rest packetMask
        (numMaskBytes numMediaPackets) numFecPackets
      some (emitFecPackets undefinedShift inserted numFecPackets first rest)

/-! ## Positions -/

/-- Among the numbers of `l`, behind `o`, is every multiple of 8 that one of
them reaches. -/
def HitsBytes (o : ℕ) (l : List ℕ) : Prop :=
  ∀ m, o < 8 * m → (∃ c ∈ l, 8 * m ≤ c) → 8 * m ∈ l

theorem HitsBytes.tail {o c : ℕ} {l : List ℕ} (h : HitsBytes o (c :: l))
    (hc : o < c) : HitsBytes c l := by
  intro m hm hreach
  obtain ⟨d, hd, hle⟩ := hreach
  rcases List.mem_cons.mp
    (h m (by omega) ⟨d, List.mem_cons_of_mem _ hd, hle⟩) with heq | hmem
  · omega
  · exact hmem

section Walk

variable {base : UInt16} {p : Packet} {rest : List Packet} {start : ℕ}

/-- The position of a packet when no byte of the mask is missed. -/
def positionOf (start : ℕ) (base : UInt16) (p : Packet) : MaskPosition :=
  ⟨start + offset base p / 8, offset base p % 8⟩

theorem next_mediaPktIdx {q : Packet} {pos : MaskPosition}
    (hpos : pos.mediaPktIdx = offset base p % 8)
    (hlt : offset base p < offset base q) :
    pos.mediaPktIdx + (q.seqNum - p.seqNum).toNat =
      offset base p % 8 + (offset base q - offset base p) := by
  have hsub : (q.seqNum - p.seqNum).toNat =
      offset base q - offset base p := toNat_sub_sub hlt.le
  rw [hsub, hpos]

theorem next_positionOf {q : Packet} (hlt : offset base p < offset base q)
    (hhit : ∀ m, offset base p < 8 * m → 8 * m ≤ offset base q →
      8 * m = offset base q) :
    (positionOf start base p).next p.seqNum q.seqNum =
      positionOf start base q := by
  have hidx := @next_mediaPktIdx base p q (positionOf start base p) rfl hlt
  have hnext : (positionOf start base p).next p.seqNum q.seqNum =
      if offset base p % 8 + (offset base q - offset base p) = 8 then
        ⟨start + offset base p / 8 + 1, 0⟩
      else
        ⟨start + offset base p / 8,
          offset base p % 8 + (offset base q - offset base p)⟩ := by
    rw [MaskPosition.next, hidx]
    rfl
  rw [hnext]
  have hnear := hhit (offset base p / 8 + 1) (by omega)
  by_cases hreach : 8 * (offset base p / 8 + 1) ≤ offset base q
  · have heq := hnear hreach
    rw [if_pos (by omega), positionOf]
    congr 1
    · omega
    · omega
  · rw [if_neg (by omega), positionOf]
    congr 1
    · omega
    · omega

theorem maskPositions_eq
    (hsorted : ((p :: rest).map (offset base)).Pairwise (· < ·))
    (hhit : HitsBytes (offset base p) (rest.map (offset base))) :
    maskPositions (positionOf start base p) p rest =
      (p :: rest).map (positionOf start base) := by
  induction rest generalizing p with
  | nil => rfl
  | cons q rest ih =>
    rw [List.map_cons, List.pairwise_cons] at hsorted
    obtain ⟨hlt, hsorted'⟩ := hsorted
    have hpq := hlt (offset base q) List.mem_cons_self
    rw [maskPositions, next_positionOf hpq, ih hsorted' (hhit.tail hpq)]
    · rfl
    · intro m hm hle
      rcases List.mem_cons.mp
        (hhit m hm ⟨_, List.mem_cons_self, hle⟩) with heq | hmem
      · exact heq
      · have := (List.pairwise_cons.mp hsorted').1 _ hmem
        omega

theorem hitsBytes_of_maskPositions {pos : MaskPosition}
    (hpos : pos.mediaPktIdx = offset base p % 8)
    (hsorted : ((p :: rest).map (offset base)).Pairwise (· < ·))
    (hinside : ∀ u ∈ maskPositions pos p rest, u.mediaPktIdx < 8) :
    HitsBytes (offset base p) (rest.map (offset base)) := by
  induction rest generalizing p pos with
  | nil =>
    intro m _ hreach
    obtain ⟨c, hc, -⟩ := hreach
    exact absurd hc List.not_mem_nil
  | cons q rest ih =>
    rw [List.map_cons, List.pairwise_cons] at hsorted
    obtain ⟨hlt, hsorted'⟩ := hsorted
    have hpq := hlt (offset base q) List.mem_cons_self
    have hidx := next_mediaPktIdx hpos hpq
    have hq := hinside (pos.next p.seqNum q.seqNum)
      (List.mem_cons_of_mem _ (by cases rest <;> exact List.mem_cons_self))
    have hcases : (pos.next p.seqNum q.seqNum).mediaPktIdx =
          offset base q % 8 ∧
        ∀ m, offset base p < 8 * m → 8 * m ≤ offset base q →
          8 * m = offset base q := by
      unfold MaskPosition.next at hq ⊢
      dsimp only at hq ⊢
      rw [hidx] at hq ⊢
      split
      · rename_i heq
        exact ⟨by dsimp only; omega, fun m hm hle => by omega⟩
      · rename_i hne
        rw [if_neg hne] at hq
        dsimp only at hq ⊢
        exact ⟨by omega, fun m hm hle => by omega⟩
    have hrest := ih hcases.1 hsorted'
      fun u hu => hinside u (List.mem_cons_of_mem _ hu)
    intro m hm hreach
    rw [List.map_cons, List.mem_cons]
    by_cases hle : 8 * m ≤ offset base q
    · exact Or.inl (hcases.2 m hm hle)
    · obtain ⟨c, hc, hmc⟩ := hreach
      rw [List.map_cons, List.mem_cons] at hc
      rcases hc with rfl | hc
      · exact absurd hmc hle
      · exact Or.inr (hrest m (by omega) ⟨c, hc, hmc⟩)

end Walk

/-! ## Bytes of FEC packets -/

/-- What a media packet adds to a byte of a FEC packet. -/
def contribution (lBit : Bool) (p : Packet) (i : ℕ) : UInt8 :=
  if i < 2 ∨ 4 ≤ i ∧ i < 8 then p.data i
  else if i = 8 then highByte (mediaPayloadLength p)
  else if i = 9 then lowByte (mediaPayloadLength p)
  else if kFecHeaderSize + ulpHeaderSize lBit ≤ i ∧
      i < p.length + fecRtpOffset lBit then
    p.data (i - fecRtpOffset lBit)
  else 0

theorem payload_eq (lBit : Bool) :
    kFecHeaderSize + ulpHeaderSize lBit = kRtpHeaderSize + fecRtpOffset lBit ∧
      2 ≤ fecRtpOffset lBit := by
  cases lBit
  · exact ⟨rfl, le_rfl⟩
  · exact ⟨rfl, by decide⟩

theorem contribution_eq (lBit : Bool) (p : Packet) (i : ℕ) :
    contribution lBit p i =
      (if 0 ≤ i ∧ i < 0 + 2 then p.data (i - 0) else 0) ^^^
      (if 4 ≤ i ∧ i < 4 + 4 then p.data (4 + (i - 4)) else 0) ^^^
      (if 8 ≤ i ∧ i < 8 + 2 then
        assignUWord16 (fun _ => 0) 0 (mediaPayloadLength p) (i - 8) else 0) ^^^
      (if kRtpHeaderSize + fecRtpOffset lBit ≤ i ∧
          i < p.length + fecRtpOffset lBit then
        p.data (i - fecRtpOffset lBit) else 0) := by
  obtain ⟨hpayload, hoff⟩ := payload_eq lBit
  unfold contribution
  rw [hpayload]
  unfold kRtpHeaderSize
  by_cases h2 : i < 2
  · rw [if_pos (by omega), if_pos (by omega), if_neg (by omega),
      if_neg (by omega), if_neg (by omega)]
    simp
  by_cases h8 : i < 8
  · by_cases h4 : 4 ≤ i
    · rw [if_pos (by omega), if_neg (by omega), if_pos (by omega),
        if_neg (by omega), if_neg (by omega), Nat.add_sub_cancel' h4]
      simp
    · rw [if_neg (by omega), if_neg (by omega), if_neg (by omega),
        if_neg (by omega), if_neg (by omega), if_neg (by omega),
        if_neg (by omega)]
      simp
  by_cases h10 : i < 10
  · rw [if_neg (by omega), if_neg (show ¬(0 ≤ i ∧ i < 0 + 2) by omega),
      if_neg (show ¬(4 ≤ i ∧ i < 4 + 4) by omega),
      if_pos (show 8 ≤ i ∧ i < 8 + 2 by omega),
      if_neg (show ¬(12 + fecRtpOffset lBit ≤ i ∧
        i < p.length + fecRtpOffset lBit) by omega)]
    rcases show i = 8 ∨ i = 9 by omega with rfl | rfl
    · simp [assignUWord16]
    · simp [assignUWord16]
  · rw [if_neg (by omega), if_neg (by omega), if_neg (by omega),
      if_neg (show ¬(0 ≤ i ∧ i < 0 + 2) by omega),
      if_neg (show ¬(4 ≤ i ∧ i < 4 + 4) by omega),
      if_neg (show ¬(8 ≤ i ∧ i < 8 + 2) by omega)]
    simp

theorem protectPacket_data_first {lBit : Bool} {fec p : Packet}
    (hlength : fec.length = 0) (hcleared : ∀ i, fec.data i = 0) (i : ℕ) :
    (protectPacket lBit fec p).data i = contribution lBit p i := by
  obtain ⟨hpayload, hoff⟩ := payload_eq lBit
  unfold protectPacket contribution
  rw [hpayload]
  dsimp only
  rw [if_pos hlength]
  unfold kRtpHeaderSize
  simp only [memcpy, assignUWord16]
  by_cases hp : 12 + fecRtpOffset lBit ≤ i ∧ i < p.length + fecRtpOffset lBit
  · rw [if_pos (by omega), if_neg (by omega), if_neg (by omega),
      if_neg (by omega), if_pos hp]
    congr 1
    omega
  rw [if_neg (show ¬(12 + fecRtpOffset lBit ≤ i ∧
    i < 12 + fecRtpOffset lBit + (p.length - 12)) by omega), if_neg hp]
  by_cases h8 : i = 8
  · rw [if_pos h8, if_neg (by omega), if_pos h8]
  by_cases h9 : i = 9
  · rw [if_neg h8, if_pos h9, if_neg (by omega), if_neg h8, if_pos h9]
  rw [if_neg h8, if_neg h9, if_neg h8, if_neg h9]
  by_cases h4 : 4 ≤ i ∧ i < 8
  · rw [if_pos h4, if_pos (Or.inr h4), Nat.add_sub_cancel' h4.1]
  rw [if_neg h4]
  by_cases h2 : i < 2
  · rw [if_pos (by omega), if_pos (Or.inl h2), Nat.sub_zero]
  · rw [if_neg (by omega), if_neg (by omega), hcleared]

theorem protectPacket_data {lBit : Bool} {fec p : Packet}
    (hcleared : fec.length = 0 → ∀ i, fec.data i = 0)
    (hlen : kRtpHeaderSize ≤ p.length) (i : ℕ) :
    (protectPacket lBit fec p).data i =
      fec.data i ^^^ contribution lBit p i := by
  by_cases hzero : fec.length = 0
  · rw [protectPacket_data_first hzero (hcleared hzero), hcleared hzero,
      UInt8.zero_xor]
  · obtain ⟨hpayload, hoff⟩ := payload_eq lBit
    rw [contribution_eq]
    unfold protectPacket
    rw [hpayload]
    dsimp only
    rw [if_neg hzero]
    simp only [xorInto_apply, UInt8.xor_assoc]
    congr 4
    by_cases hp : kRtpHeaderSize + fecRtpOffset lBit ≤ i ∧
        i < p.length + fecRtpOffset lBit
    · rw [if_pos (by omega), if_pos hp, Nat.add_sub_cancel' hp.1]
    · rw [if_neg (by omega), if_neg hp]

theorem protectPacket_length (lBit : Bool) (fec p : Packet) :
    (protectPacket lBit fec p).length =
      max fec.length (p.length + fecRtpOffset lBit) := by
  unfold protectPacket
  dsimp only
  split
  · exact (max_eq_right (by omega)).symm
  · exact (max_eq_left (by omega)).symm

section Combine

variable {lBit : Bool} {media : List Packet} {fec : Packet}

theorem foldl_protectPacket_data
    (hcleared : fec.length = 0 → ∀ i, fec.data i = 0)
    (hlen : ∀ p ∈ media, kRtpHeaderSize ≤ p.length) (i : ℕ) :
    (media.foldl (protectPacket lBit) fec).data i =
      fec.data i ^^^ xorAll (media.map fun p => contribution lBit p i) := by
  induction media generalizing fec with
  | nil => exact UInt8.xor_zero.symm
  | cons p media ih =>
    have hp := hlen p List.mem_cons_self
    have hlength := protectPacket_length lBit fec p
    rw [List.foldl_cons, ih, protectPacket_data hcleared hp, List.map_cons,
      xorAll_cons, UInt8.xor_assoc]
    · intro hzero
      unfold kRtpHeaderSize at hp
      omega
    · exact fun q hq => hlen q (List.mem_cons_of_mem _ hq)

variable (lBit media fec) in
theorem foldl_protectPacket_length :
    fec.length ≤ (media.foldl (protectPacket lBit) fec).length ∧
    (∀ p ∈ media, p.length + fecRtpOffset lBit ≤
      (media.foldl (protectPacket lBit) fec).length) ∧
    ((media.foldl (protectPacket lBit) fec).length = fec.length ∨
      ∃ p ∈ media, (media.foldl (protectPacket lBit) fec).length =
        p.length + fecRtpOffset lBit) := by
  induction media generalizing fec with
  | nil => exact ⟨le_rfl, nofun, Or.inl rfl⟩
  | cons p media ih =>
    have hlength := protectPacket_length lBit fec p
    obtain ⟨hge, hall, hsome⟩ := ih (protectPacket lBit fec p)
    rw [List.foldl_cons]
    refine ⟨by omega, ?_, ?_⟩
    · intro q hq
      rcases List.mem_cons.mp hq with rfl | hq
      · omega
      · exact hall q hq
    · rcases hsome with heq | ⟨q, hq, heq⟩
      · rcases max_choice fec.length (p.length + fecRtpOffset lBit) with h | h
        · exact Or.inl (by omega)
        · exact Or.inr ⟨p, List.mem_cons_self, by omega⟩
      · exact Or.inr ⟨q, List.mem_cons_of_mem _ hq, heq⟩

end Combine

section Header

variable {packetMask : ℕ → UInt8} {lBit : Bool} {start : ℕ} {first fec : Packet}

theorem ulpHeaderSize_eq (lBit : Bool) :
    ulpHeaderSize lBit = 2 + maskSize lBit := by
  cases lBit <;> rfl

theorem generateFecUlpHeader_data {i : ℕ} (h0 : i ≠ 0) (h2 : i ≠ 2)
    (h3 : i ≠ 3)
    (hi : i < 10 ∨ kFecHeaderSize + ulpHeaderSize lBit ≤ i) :
    (generateFecUlpHeader packetMask lBit start first fec).data i =
      fec.data i := by
  rw [ulpHeaderSize_eq] at hi
  unfold kFecHeaderSize at hi
  simp only [generateFecUlpHeader, memcpy, assignUWord16]
  rw [if_neg (by omega), if_neg (by omega), if_neg (by omega), if_neg (by omega),
    Function.update_of_ne h0]

theorem generateFecUlpHeader_first_byte :
    bit ((generateFecUlpHeader packetMask lBit start first fec).data 0) 6 =
        lBit ∧
      ∀ i < 6, bit ((generateFecUlpHeader packetMask lBit start first fec).data
        0) i = bit (fec.data 0) i := by
  have hbyte : (generateFecUlpHeader packetMask lBit start first fec).data 0 =
      if lBit then fec.data 0 &&& 0x7f ||| 0x40
      else fec.data 0 &&& 0x7f &&& 0xbf := by
    simp only [generateFecUlpHeader, memcpy, assignUWord16]
    rw [if_neg (by omega), if_neg (by omega), if_neg (by omega),
      if_neg (by omega), Function.update_self]
  rw [hbyte]
  have hlow : ∀ i < 6, bit 0x7f i ∧ bit 0xbf i ∧ bit 0x40 i = false := by
    decide
  cases lBit
  · refine ⟨?_, fun i hi => ?_⟩
    · rw [if_neg Bool.false_ne_true, bit_and]
      exact Bool.and_false _
    · rw [if_neg Bool.false_ne_true, bit_and, bit_and, (hlow i hi).1,
        (hlow i hi).2.1, Bool.and_true, Bool.and_true]
  · refine ⟨?_, fun i hi => ?_⟩
    · rw [if_pos rfl, bit_or]
      exact Bool.or_true _
    · rw [if_pos rfl, bit_or, bit_and, (hlow i hi).1, (hlow i hi).2.2,
        Bool.and_true, Bool.or_false]

theorem generateFecUlpHeader_snBase :
    bufferToUWord16 (generateFecUlpHeader packetMask lBit start first fec).data
      2 = first.seqNum := by
  simp only [bufferToUWord16, generateFecUlpHeader, memcpy, assignUWord16]
  rfl

theorem generateFecUlpHeader_protectionLength :
    bufferToUWord16 (generateFecUlpHeader packetMask lBit start first fec).data
      10 =
      UInt16.ofNat (fec.length - kFecHeaderSize - ulpHeaderSize lBit) := by
  simp only [bufferToUWord16, generateFecUlpHeader, memcpy, assignUWord16]
  exact word16_bytes _

theorem generateFecUlpHeader_mask {c : ℕ} (hc : c < 8 * maskSize lBit) :
    maskBit (generateFecUlpHeader packetMask lBit start first fec).data 12 c =
      maskBit packetMask start c := by
  refine maskBit_congr hc fun b hb => ?_
  simp only [generateFecUlpHeader]
  rw [memcpy, if_pos (by omega), Nat.add_sub_cancel_left]

end Header

end WebrtcWinXp.Fec
