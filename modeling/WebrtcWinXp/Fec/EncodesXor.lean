import WebrtcWinXp.Fec.Encoder

/-!
# FEC packets are what their masks announce

The walk through the mask in `GenerateFecBitStrings` goes on to the next byte
only when its bit index becomes exactly 8.  It stays inside the mask, and every
FEC packet is the exclusive or that its mask announces, exactly when no gap
jumps over the start of a byte and every packet fits behind the FEC header.
-/

namespace WebrtcWinXp.Fec

open Support

/-! ## What a FEC packet announces -/

def Packet.lBit (fec : Packet) : Bool := bit (fec.data 0) 6

def Packet.snBase (fec : Packet) : UInt16 := bufferToUWord16 fec.data 2

def Packet.protectionLength (fec : Packet) : ℕ :=
  (bufferToUWord16 fec.data 10).toNat

/-- The bit of the mask in the ULP header for the sequence number of `p`. -/
def Packet.announces (fec p : Packet) : Bool :=
  decide (offset fec.snBase p < 8 * maskSize fec.lBit) &&
    maskBit fec.data 12 (offset fec.snBase p)

/-- A payload byte of a media packet, with zeros behind the payload. -/
def payloadByte (p : Packet) (j : ℕ) : UInt8 :=
  if j < p.length - kRtpHeaderSize then p.data (kRtpHeaderSize + j) else 0

/-- Header fields and payload of a FEC packet are the exclusive or of the media
packets that its mask announces. -/
structure EncodesXor (media : List Packet) (fec : Packet) : Prop where
  first_byte : ∀ i < 6, bit (fec.data 0) i =
    bit (xorAll ((media.filter fec.announces).map fun p => p.data 0)) i
  second_byte : fec.data 1 =
    xorAll ((media.filter fec.announces).map fun p => p.data 1)
  timestamp : ∀ i, 4 ≤ i → i < 8 → fec.data i =
    xorAll ((media.filter fec.announces).map fun p => p.data i)
  length_high : fec.data 8 =
    xorAll ((media.filter fec.announces).map fun p =>
      highByte (mediaPayloadLength p))
  length_low : fec.data 9 =
    xorAll ((media.filter fec.announces).map fun p =>
      lowByte (mediaPayloadLength p))
  protection_length :
    (∀ p ∈ media.filter fec.announces,
      p.length - kRtpHeaderSize ≤ fec.protectionLength) ∧
    ∃ p ∈ media.filter fec.announces,
      fec.protectionLength = p.length - kRtpHeaderSize
  payload : ∀ j < fec.protectionLength,
    fec.data (kFecHeaderSize + ulpHeaderSize fec.lBit + j) =
      xorAll ((media.filter fec.announces).map fun p => payloadByte p j)
  size : fec.length =
    kFecHeaderSize + ulpHeaderSize fec.lBit + fec.protectionLength
  fits : fec.length ≤ IP_PACKET_SIZE

/-- What a call of `GenerateFEC` with the packet masks `mask` is to give: FEC
packets that are what they announce, in which every packet keeps its bit, while
all uses of masks are inside of their rows. -/
structure Generated.Correct (g : Generated) (batch : MediaBatch)
    (mask : ℕ → UInt8) : Prop where
  encodes : ∀ fec ∈ g.fecPackets, EncodesXor batch.packets fec
  keeps : ∀ i (hi : i < g.fecPackets.length),
    ∀ k (hk : k < batch.packets.length),
      maskBit mask (i * numMaskBytes batch.packets.length) k →
        (g.fecPackets[i]).announces batch.packets[k]
  touched : ∀ a ∈ g.touched, a.Inside
  positions : ∀ u ∈ g.positions, u.Inside

/-- No gap in the sequence numbers jumps over the first bit of a mask byte. -/
def MediaBatch.HitsBytes (batch : MediaBatch) : Prop :=
  ∀ m, 0 < m → 8 * m ≤ batch.lastOffset → 8 * m ∈ batch.offsets

/-- Every packet has room behind the FEC header. -/
def MediaBatch.Fits (batch : MediaBatch) : Prop :=
  ∀ p ∈ batch.packets, p.length + fecRtpOffset batch.lBit ≤ IP_PACKET_SIZE

section Batch

variable {batch : MediaBatch}

theorem MediaBatch.hitsBytes_iff :
    batch.HitsBytes ↔
      Fec.HitsBytes (offset batch.base batch.first)
        (batch.rest.map (offset batch.base)) := by
  rw [batch.offset_first]
  constructor
  · intro h m hm hreach
    obtain ⟨c, hc, hle⟩ := hreach
    have hlast := batch.le_lastOffset (c := c) (by
      rw [batch.offsets_eq]
      exact List.mem_cons_of_mem _ hc)
    have hmem := h m (by omega) (by omega)
    rw [batch.offsets_eq, List.mem_cons] at hmem
    rcases hmem with h0 | hmem
    · omega
    · exact hmem
  · intro h m hm hle
    have hlast : batch.lastOffset ∈ batch.offsets :=
      List.mem_map_of_mem (List.getLast_mem _)
    rw [batch.offsets_eq, List.mem_cons] at hlast ⊢
    rcases hlast with h0 | hmem
    · omega
    · exact Or.inr (h m (by omega) ⟨_, hmem, hle⟩)

variable {orig mask : ℕ → UInt8} {undefinedShift : UndefinedShift} {row : ℕ}

/-- The bits of a generated mask, read from the mask with zero columns. -/
def InsertedRow (batch : MediaBatch) (orig mask : ℕ → UInt8) (row : ℕ) :
    Prop :=
  ∀ c < 8 * batch.maskBytes,
    maskBit mask (row * batch.maskBytes) c =
      batch.column orig (row * numMaskBytes batch.packets.length) c

/-- The bit of a packet in a mask that is not shifted. -/
def MediaBatch.selects (batch : MediaBatch) (orig : ℕ → UInt8) (row : ℕ)
    (p : Packet) : Bool :=
  batch.column orig (row * numMaskBytes batch.packets.length)
    (offset batch.base p)

theorem offset_lt_maskBytes {p : Packet} (hp : p ∈ batch.packets) :
    offset batch.base p < 8 * batch.maskBytes := by
  have hle := batch.le_lastOffset (List.mem_map_of_mem hp)
  have hlt := batch.lastOffset_lt_maskBytes
  omega

theorem testMask_positionOf (h : InsertedRow batch orig mask row) {p : Packet}
    (hp : p ∈ batch.packets) :
    testMask undefinedShift mask
      (positionOf (row * batch.maskBytes) batch.base p) =
        batch.selects orig row p := by
  have hlt := offset_lt_maskBytes hp
  rw [MediaBatch.selects, ← h _ hlt, testMask, if_pos, maskBit, positionOf]
  exact Nat.mod_lt _ (by omega)

theorem maskPositions_row (hhit : batch.HitsBytes) :
    maskPositions ⟨row * batch.maskBytes, 0⟩ batch.first batch.rest =
      batch.packets.map (positionOf (row * batch.maskBytes) batch.base) := by
  have hstart : positionOf (row * batch.maskBytes) batch.base batch.first =
      ⟨row * batch.maskBytes, 0⟩ := by
    rw [positionOf, batch.offset_first]
    rfl
  have hwalk := @maskPositions_eq batch.base batch.first batch.rest
    (row * batch.maskBytes) batch.increasing
    (MediaBatch.hitsBytes_iff.mp hhit)
  rwa [hstart] at hwalk

theorem generateFecBitString_eq (undefinedShift : UndefinedShift)
    (h : InsertedRow batch orig mask row)
    (hhit : batch.HitsBytes) :
    generateFecBitString undefinedShift mask batch.lBit
        (row * batch.maskBytes) batch.first batch.rest =
      (batch.packets.filter (batch.selects orig row)).foldl
        (protectPacket batch.lBit) clearedPacket := by
  rw [generateFecBitString, maskPositions_row hhit, List.foldl_filter]
  change ((batch.packets.zip (batch.packets.map _)).foldl _ _) = _
  have hzip : ∀ l : List Packet, (∀ p ∈ l, p ∈ batch.packets) → ∀ fec,
      (l.zip (l.map (positionOf (row * batch.maskBytes) batch.base))).foldl
        (fun fec media => if testMask undefinedShift mask media.2 then
          protectPacket batch.lBit fec media.1 else fec) fec =
      l.foldl (fun fec p => if batch.selects orig row p then
        protectPacket batch.lBit fec p else fec) fec := by
    intro l hl
    induction l with
    | nil => exact fun _ => rfl
    | cons p l ih =>
      intro fec
      rw [List.map_cons, List.zip_cons_cons, List.foldl_cons, List.foldl_cons,
        ih fun q hq => hl q (List.mem_cons_of_mem _ hq)]
      dsimp only
      rw [testMask_positionOf h (hl p List.mem_cons_self)]
  exact hzip _ (fun _ hp => hp) _

def MediaBatch.fecPacket (batch : MediaBatch) (undefinedShift : UndefinedShift)
    (mask : ℕ → UInt8) (row : ℕ) : Packet :=
  generateFecUlpHeader mask batch.lBit (row * batch.maskBytes) batch.first
    (generateFecBitString undefinedShift mask batch.lBit
      (row * batch.maskBytes) batch.first batch.rest)

theorem announces_fecPacket (h : InsertedRow batch orig mask row) {p : Packet}
    (hp : p ∈ batch.packets) :
    (batch.fecPacket undefinedShift mask row).announces p =
      batch.selects orig row p := by
  have hbase : (batch.fecPacket undefinedShift mask row).snBase = batch.base :=
    generateFecUlpHeader_snBase
  have hlBit : (batch.fecPacket undefinedShift mask row).lBit = batch.lBit :=
    generateFecUlpHeader_first_byte.1
  have hlt : offset batch.base p < 8 * maskSize batch.lBit :=
    offset_lt_maskBytes hp
  rw [Packet.announces, hbase, hlBit, decide_eq_true hlt, Bool.true_and,
    MediaBatch.selects, ← h _ hlt]
  exact generateFecUlpHeader_mask hlt

theorem filter_announces (h : InsertedRow batch orig mask row) :
    batch.packets.filter
        (batch.fecPacket undefinedShift mask row).announces =
      batch.packets.filter (batch.selects orig row) :=
  List.filter_congr fun _ hp => announces_fecPacket h hp

theorem contribution_payload (lBit : Bool) (p : Packet) (j : ℕ) :
    contribution lBit p (kFecHeaderSize + ulpHeaderSize lBit + j) =
      payloadByte p j := by
  obtain ⟨hpayload, hoff⟩ := payload_eq lBit
  unfold contribution payloadByte
  rw [hpayload]
  unfold kRtpHeaderSize
  rw [if_neg (by omega), if_neg (by omega), if_neg (by omega)]
  by_cases hj : j < p.length - 12
  · rw [if_pos (by omega), if_pos hj]
    congr 1
    omega
  · rw [if_neg (by omega), if_neg hj]

theorem fecPacket_data (h : InsertedRow batch orig mask row)
    (hhit : batch.HitsBytes)
    (hlen : ∀ p ∈ batch.packets, kRtpHeaderSize ≤ p.length) {i : ℕ}
    (h0 : i ≠ 0) (h2 : i ≠ 2) (h3 : i ≠ 3)
    (hi : i < 10 ∨ kFecHeaderSize + ulpHeaderSize batch.lBit ≤ i) :
    (batch.fecPacket undefinedShift mask row).data i =
      xorAll ((batch.packets.filter (batch.selects orig row)).map fun p =>
        contribution batch.lBit p i) := by
  rw [MediaBatch.fecPacket, generateFecUlpHeader_data h0 h2 h3 hi,
    generateFecBitString_eq _ h hhit, foldl_protectPacket_data (fun _ _ => rfl)
      fun p hp => hlen p (List.mem_filter.mp hp).1]
  exact UInt8.zero_xor

theorem fecPacket_length (undefinedShift : UndefinedShift)
    (h : InsertedRow batch orig mask row)
    (hhit : batch.HitsBytes)
    (hsome : ∃ p ∈ batch.packets, batch.selects orig row p) :
    (∀ p ∈ batch.packets, batch.selects orig row p →
      p.length + fecRtpOffset batch.lBit ≤
        (batch.fecPacket undefinedShift mask row).length) ∧
    ∃ p ∈ batch.packets, batch.selects orig row p ∧
      (batch.fecPacket undefinedShift mask row).length =
        p.length + fecRtpOffset batch.lBit := by
  obtain ⟨-, hall, hlast⟩ := foldl_protectPacket_length batch.lBit
    (batch.packets.filter (batch.selects orig row)) clearedPacket
  have hlength : (batch.fecPacket undefinedShift mask row).length =
      ((batch.packets.filter (batch.selects orig row)).foldl
        (protectPacket batch.lBit) clearedPacket).length := by
    rw [← generateFecBitString_eq undefinedShift h hhit]
    rfl
  rw [← hlength] at hall hlast
  refine ⟨fun p hp hsel => hall p (List.mem_filter.mpr ⟨hp, hsel⟩), ?_⟩
  rcases hlast with hzero | ⟨p, hp, heq⟩
  · obtain ⟨p, hp, hsel⟩ := hsome
    have hle := hall p (List.mem_filter.mpr ⟨hp, hsel⟩)
    have hoff := (payload_eq batch.lBit).2
    rw [hzero] at hle
    change _ ≤ 0 at hle
    omega
  · exact ⟨p, (List.mem_filter.mp hp).1, (List.mem_filter.mp hp).2, heq⟩

theorem fecPacket_encodesXor (h : InsertedRow batch orig mask row)
    (hhit : batch.HitsBytes) (hfits : batch.Fits)
    (hlen : ∀ p ∈ batch.packets, kRtpHeaderSize ≤ p.length)
    (hsome : ∃ p ∈ batch.packets, batch.selects orig row p) :
    EncodesXor batch.packets (batch.fecPacket undefinedShift mask row) := by
  obtain ⟨hall, longest, hlongest, hsel, hlength⟩ :=
    fecPacket_length undefinedShift h hhit hsome
  obtain ⟨hpayload, hoff⟩ := payload_eq batch.lBit
  have hfit := hfits longest hlongest
  have hlong := hlen longest hlongest
  have hlBit : (batch.fecPacket undefinedShift mask row).lBit = batch.lBit :=
    generateFecUlpHeader_first_byte.1
  have hprotection :
      (batch.fecPacket undefinedShift mask row).protectionLength =
        longest.length - kRtpHeaderSize := by
    rw [Packet.protectionLength, MediaBatch.fecPacket,
      generateFecUlpHeader_protectionLength]
    change (UInt16.ofNat ((batch.fecPacket undefinedShift mask row).length -
      _ - _)).toNat = _
    unfold IP_PACKET_SIZE at hfit
    rw [hlength, UInt16.toNat_ofNat_of_lt' (by change _ < 65536; omega)]
    omega
  have hbyte := fun i => @fecPacket_data _ _ _ undefinedShift _ h hhit hlen i
  have hheader : ∀ i, 0 < i → i < 10 → i ≠ 2 → i ≠ 3 →
      (batch.fecPacket undefinedShift mask row).data i =
        xorAll ((batch.packets.filter (batch.selects orig row)).map fun p =>
          contribution batch.lBit p i) :=
    fun i h0 h10 h2 h3 => hbyte i (by omega) h2 h3 (Or.inl h10)
  constructor
  · intro i hi
    rw [filter_announces h]
    refine (generateFecUlpHeader_first_byte.2 i hi).trans ?_
    rw [generateFecBitString_eq _ h hhit, foldl_protectPacket_data
      (fun _ _ => rfl) fun p hp => hlen p (List.mem_filter.mp hp).1]
    exact congrArg (fun x => bit x i) UInt8.zero_xor
  · rw [filter_announces h]
    exact hheader 1 (by omega) (by omega) (by omega) (by omega)
  · intro i h4 h8
    rw [filter_announces h, hheader i (by omega) (by omega) (by omega) (by omega)]
    congr 2
    funext p
    exact if_pos (Or.inr ⟨h4, h8⟩)
  · rw [filter_announces h]
    exact hheader 8 (by omega) (by omega) (by omega) (by omega)
  · rw [filter_announces h]
    exact hheader 9 (by omega) (by omega) (by omega) (by omega)
  · rw [filter_announces h, hprotection]
    refine ⟨?_, longest, List.mem_filter.mpr ⟨hlongest, hsel⟩, rfl⟩
    intro p hp
    have hle := hall p (List.mem_filter.mp hp).1 (List.mem_filter.mp hp).2
    omega
  · intro j _
    have hten : 10 ≤ kFecHeaderSize + ulpHeaderSize batch.lBit :=
      Nat.le_add_right 10 _
    rw [filter_announces h, hlBit, hbyte _ (by omega) (by omega) (by omega)
      (Or.inr (by omega))]
    congr 2
    funext p
    exact contribution_payload batch.lBit p j
  · rw [hlBit, hprotection, hlength]
    omega
  · rw [hlength]
    exact hfit

theorem hitsBytes_of_inside (start : ℕ)
    (h : ∀ u ∈ maskPositions ⟨start, 0⟩ batch.first batch.rest,
      u.mediaPktIdx < 8) : batch.HitsBytes := by
  refine MediaBatch.hitsBytes_iff.mpr
    (hitsBytes_of_maskPositions ?_ batch.increasing h)
  change 0 = offset batch.base batch.first % 8
  rw [batch.offset_first]

theorem inside_of_hitsBytes (hhit : batch.HitsBytes) {u : PositionUse}
    (hu : u ∈ (maskPositions ⟨row * batch.maskBytes, 0⟩ batch.first
      batch.rest).map (PositionUse.mk row batch.maskBytes)) : u.Inside := by
  rw [maskPositions_row hhit, List.map_map] at hu
  obtain ⟨p, hp, rfl⟩ := List.mem_map.mp hu
  have hlt : offset batch.base p < 8 * batch.maskBytes :=
    offset_lt_maskBytes hp
  have hsucc : (row + 1) * batch.maskBytes =
      row * batch.maskBytes + batch.maskBytes := Nat.succ_mul ..
  refine ⟨Nat.mod_lt _ (by omega), Nat.le_add_right _ _, ?_⟩
  change row * batch.maskBytes + offset batch.base p / 8 <
    (row + 1) * batch.maskBytes
  omega

end Batch

/-! ## `GenerateFEC` -/

section GenerateFec

variable {table : MaskTable} {batch : MediaBatch} {protectionFactor : UInt8}
  {numImportantPackets : ℕ} {useUnequalProtection : Bool}
  {fecMaskType : FecMaskType} {undefinedShift : UndefinedShift}

theorem getNumberOfFecPackets_eq_zero {n : ℕ} :
    getNumberOfFecPackets n protectionFactor = 0 ↔ protectionFactor = 0 := by
  unfold getNumberOfFecPackets
  dsimp only
  constructor
  · intro h
    by_contra hne
    have hpos : protectionFactor > 0 := UInt8.pos_iff_ne_zero.mpr hne
    split at h
    · exact absurd h one_ne_zero
    · rename_i hsome
      exact hsome ⟨hpos, h⟩
  · rintro rfl
    simp

/-- The assertion at the end of `GetNumberOfFecPackets`. -/
theorem getNumberOfFecPackets_le {n : ℕ} (hn : 0 < n) :
    getNumberOfFecPackets n protectionFactor ≤ n := by
  have hlt := protectionFactor.toNat_lt
  have hmul : n * protectionFactor.toNat ≤ n * 255 :=
    Nat.mul_le_mul_left _ (by omega)
  unfold getNumberOfFecPackets
  dsimp only
  split
  · exact hn
  · omega

def MediaBatch.packetMasks (batch : MediaBatch) (table : MaskTable)
    (protectionFactor : UInt8) (numImportantPackets : ℕ)
    (useUnequalProtection : Bool) (fecMaskType : FecMaskType) : ℕ → UInt8 :=
  Fec.packetMasks table batch.packets.length
    (getNumberOfFecPackets batch.packets.length protectionFactor)
    numImportantPackets useUnequalProtection fecMaskType

/-- The masks of a call with their zero columns. -/
def MediaBatch.inserted (batch : MediaBatch) (table : MaskTable)
    (protectionFactor : UInt8) (numImportantPackets : ℕ)
    (useUnequalProtection : Bool) (fecMaskType : FecMaskType) : Inserted :=
  insertZerosInBitMasks batch.first batch.rest
    (batch.packetMasks table protectionFactor numImportantPackets
      useUnequalProtection fecMaskType)
    (numMaskBytes batch.packets.length)
    (getNumberOfFecPackets batch.packets.length protectionFactor)

theorem any_short_iff {media : List Packet} :
    (media.any fun p => p.length < kRtpHeaderSize) ↔
      ∃ p ∈ media, p.length < kRtpHeaderSize := by
  simp

theorem not_any_short
    (hlen : ∀ p ∈ batch.packets, kRtpHeaderSize ≤ p.length) :
    ¬batch.packets.any fun p => p.length < kRtpHeaderSize := by
  rw [any_short_iff]
  exact fun ⟨p, hp, hlt⟩ => absurd hlt (Nat.not_lt.mpr (hlen p hp))

/-- `GenerateFEC` fails on a packet that is too short. -/
theorem generateFec_of_short
    (hshort : ∃ p ∈ batch.packets, p.length < kRtpHeaderSize) :
    generateFec undefinedShift table batch.first batch.rest protectionFactor
      numImportantPackets useUnequalProtection fecMaskType = none :=
  (if_neg (Nat.not_lt.mpr batch.length_le_kMaxMediaPackets)).trans
    (if_pos (any_short_iff.mpr hshort))

theorem generateFec_of_no_protection
    (hlen : ∀ p ∈ batch.packets, kRtpHeaderSize ≤ p.length)
    (hpf : protectionFactor = 0) :
    generateFec undefinedShift table batch.first batch.rest protectionFactor
      numImportantPackets useUnequalProtection fecMaskType =
      some ⟨[], [], []⟩ :=
  (if_neg (Nat.not_lt.mpr batch.length_le_kMaxMediaPackets)).trans
    ((if_neg (not_any_short hlen)).trans
      (if_pos (getNumberOfFecPackets_eq_zero.mpr hpf)))

/-- When nothing stops `GenerateFEC` early, it comes to its last part. -/
theorem generateFec_eq
    (hlen : ∀ p ∈ batch.packets, kRtpHeaderSize ≤ p.length)
    (hpf : protectionFactor ≠ 0) :
    generateFec undefinedShift table batch.first batch.rest protectionFactor
      numImportantPackets useUnequalProtection fecMaskType =
      some (emitFecPackets undefinedShift
        (batch.inserted table protectionFactor numImportantPackets
          useUnequalProtection fecMaskType)
        (getNumberOfFecPackets batch.packets.length protectionFactor)
        batch.first batch.rest) := by
  have hmax := batch.length_le_kMaxMediaPackets
  have hnum : getNumberOfFecPackets batch.packets.length protectionFactor ≠ 0 :=
    fun h => hpf (getNumberOfFecPackets_eq_zero.mp h)
  exact (if_neg (Nat.not_lt.mpr hmax)).trans
    ((if_neg (not_any_short hlen)).trans (if_neg hnum))

theorem emitFecPackets_eq {inserted : Inserted} {numFec : ℕ}
    (hbits : inserted.numMaskBits = batch.lastOffset + 1) :
    emitFecPackets undefinedShift inserted numFec batch.first batch.rest =
      { fecPackets := (List.range numFec).map
          (batch.fecPacket undefinedShift inserted.packetMask)
        touched := inserted.touched
        positions := (List.range numFec).flatMap fun i =>
          (maskPositions ⟨i * batch.maskBytes, 0⟩ batch.first batch.rest).map
            (PositionUse.mk i batch.maskBytes) } := by
  unfold emitFecPackets
  rw [hbits]
  rfl

variable (protectionFactor useUnequalProtection fecMaskType) in
theorem inserted_spec (h : table.Valid)
    (himp : numImportantPackets ≤ batch.packets.length) :
    let inserted := batch.inserted table protectionFactor numImportantPackets
      useUnequalProtection fecMaskType
    inserted.numMaskBits = batch.lastOffset + 1 ∧
      (∀ a ∈ inserted.touched, a.Inside) ∧
      ∀ row < getNumberOfFecPackets batch.packets.length protectionFactor,
        InsertedRow batch
          (batch.packetMasks table protectionFactor numImportantPackets
            useUnequalProtection fecMaskType) inserted.packetMask row :=
  insertZerosInBitMasks_spec batch fun _ hrow =>
    (generatePacketMasks_valid _ h
      (getNumberOfFecPackets_le batch.length_pos)
      batch.length_le_kMaxMediaPackets himp useUnequalProtection
      hrow).lt_of_bit

theorem selects_getElem (orig : ℕ → UInt8) (row : ℕ) {k : ℕ}
    (hk : k < batch.packets.length) :
    batch.selects orig row batch.packets[k] =
      maskBit orig (row * numMaskBytes batch.packets.length) k := by
  have hk' : k < batch.offsets.length := by
    rw [batch.length_offsets]
    exact hk
  rw [MediaBatch.selects, ← batch.column_getElem orig _ hk']
  congr 1
  exact (List.getElem_map _).symm

/-- When a call is to emit correct FEC packets: no gap jumps over a mask byte,
and every packet has room, unless nothing is emitted. -/
def MediaBatch.Encodable (batch : MediaBatch) (protectionFactor : UInt8) :
    Prop :=
  protectionFactor = 0 ∨
    (∃ p ∈ batch.packets, p.length < kRtpHeaderSize) ∨
    (batch.HitsBytes ∧ batch.Fits)

variable (protectionFactor useUnequalProtection fecMaskType undefinedShift) in
theorem emitFecPackets_correct (h : table.Valid)
    (himp : numImportantPackets ≤ batch.packets.length)
    (hlen : ∀ p ∈ batch.packets, kRtpHeaderSize ≤ p.length)
    (hhit : batch.HitsBytes) (hfits : batch.Fits) :
    (emitFecPackets undefinedShift
      (batch.inserted table protectionFactor numImportantPackets
        useUnequalProtection fecMaskType)
      (getNumberOfFecPackets batch.packets.length protectionFactor)
      batch.first batch.rest).Correct batch
      (batch.packetMasks table protectionFactor numImportantPackets
        useUnequalProtection fecMaskType) := by
  obtain ⟨hbits, htouched, hrows⟩ := inserted_spec protectionFactor
    useUnequalProtection fecMaskType h himp
  rw [emitFecPackets_eq hbits]
  constructor
  · intro fec hfec
    obtain ⟨row, hrow, rfl⟩ := List.mem_map.mp hfec
    rw [List.mem_range] at hrow
    obtain ⟨k, hk, hset⟩ := (generatePacketMasks_valid fecMaskType h
      (getNumberOfFecPackets_le batch.length_pos)
      batch.length_le_kMaxMediaPackets himp useUnequalProtection
      hrow).exists_bit
    refine fecPacket_encodesXor (hrows row hrow) hhit hfits hlen
      ⟨batch.packets[k], List.getElem_mem hk, ?_⟩
    rw [selects_getElem]
    exact hset
  · intro row hrow k hk hset
    rw [List.length_map, List.length_range] at hrow
    simp only [List.getElem_map, List.getElem_range]
    rw [announces_fecPacket (hrows row hrow) (List.getElem_mem hk),
      selects_getElem]
    exact hset
  · exact htouched
  · intro u hu
    obtain ⟨row, -, hu⟩ := List.mem_flatMap.mp hu
    exact inside_of_hitsBytes hhit hu

theorem hitsBytes_of_positions {numFec : ℕ} {inserted : Inserted}
    (hbits : inserted.numMaskBits = batch.lastOffset + 1) (hnum : 0 < numFec)
    (hpositions : ∀ u ∈ (emitFecPackets undefinedShift inserted numFec
      batch.first batch.rest).positions, u.Inside) : batch.HitsBytes := by
  rw [emitFecPackets_eq hbits] at hpositions
  refine hitsBytes_of_inside (0 * batch.maskBytes) fun u hu => ?_
  exact (hpositions ⟨0, batch.maskBytes, u⟩ (List.mem_flatMap.mpr
    ⟨0, List.mem_range.mpr hnum, List.mem_map_of_mem hu⟩)).1

/-- `GenerateFEC` emits correct FEC packets for exactly the batches without
gaps that jump over a mask byte whose packets have room behind the FEC
header. -/
theorem generateFec_correct_iff (h : table.Valid)
    (himp : numImportantPackets ≤ batch.packets.length) :
    (∀ g, generateFec undefinedShift table batch.first batch.rest
        protectionFactor numImportantPackets useUnequalProtection fecMaskType =
          some g →
      g.Correct batch (batch.packetMasks table protectionFactor
        numImportantPackets useUnequalProtection fecMaskType)) ↔
      batch.Encodable protectionFactor := by
  by_cases hshort : ∃ p ∈ batch.packets, p.length < kRtpHeaderSize
  · rw [generateFec_of_short hshort]
    exact iff_of_true nofun (Or.inr (Or.inl hshort))
  have hlen : ∀ p ∈ batch.packets, kRtpHeaderSize ≤ p.length :=
    fun p hp => Nat.not_lt.mp fun hlt => hshort ⟨p, hp, hlt⟩
  by_cases hpf : protectionFactor = 0
  · refine iff_of_true (fun g hg => ?_) (Or.inl hpf)
    rw [generateFec_of_no_protection hlen hpf, Option.some_inj] at hg
    subst hg
    exact ⟨nofun, nofun, nofun, nofun⟩
  rw [generateFec_eq hlen hpf]
  have hnum : 0 < getNumberOfFecPackets batch.packets.length
      protectionFactor :=
    Nat.pos_of_ne_zero fun h => hpf (getNumberOfFecPackets_eq_zero.mp h)
  obtain ⟨hbits, -, hrows⟩ := inserted_spec protectionFactor
    useUnequalProtection fecMaskType h himp
  constructor
  · intro hcorrect
    have hg := hcorrect _ rfl
    have hhit := hitsBytes_of_positions hbits hnum hg.positions
    refine Or.inr (Or.inr ⟨hhit, fun p hp => ?_⟩)
    obtain ⟨k, hk, rfl⟩ := List.mem_iff_getElem.mp hp
    obtain ⟨row, hrow, hset⟩ := generatePacketMasks_covers fecMaskType
      numImportantPackets h hnum (getNumberOfFecPackets_le batch.length_pos)
      batch.length_le_kMaxMediaPackets useUnequalProtection hk
    have hsel : batch.selects (batch.packetMasks table protectionFactor
        numImportantPackets useUnequalProtection fecMaskType) row
        batch.packets[k] := by
      rw [selects_getElem]
      exact hset
    have hle := (fecPacket_length undefinedShift
      (hrows row hrow) hhit ⟨_, hp, hsel⟩).1 _ hp hsel
    have hmem := hg.encodes _ (by
      rw [emitFecPackets_eq hbits]
      exact List.mem_map_of_mem (List.mem_range.mpr hrow))
    exact hle.trans hmem.fits
  · rintro (h0 | hex | ⟨hhit, hfits⟩) g hg
    · exact absurd h0 hpf
    · exact absurd hex hshort
    · rw [Option.some_inj] at hg
      subst hg
      exact emitFecPackets_correct _ _ _ _ h himp hlen hhit hfits

def sampleMedia (seqNum : UInt16) : Packet where
  length := 14
  data i :=
    if i = 0 then 0x80
    else if i = 2 then highByte seqNum
    else if i = 3 then lowByte seqNum
    else if i = 12 ∨ i = 13 then 7 + lowByte seqNum
    else 0

/-- Three packets around the wrap of the sequence numbers. -/
def sampleBatch : MediaBatch where
  first := sampleMedia 65534
  rest := [sampleMedia 65535, sampleMedia 1]
  increasing := by decide
  span := by decide
  length_le := by decide

theorem generateFec_sampleBatch :
    ∃ g, generateFec (fun _ _ => false) fullProtection sampleBatch.first
        sampleBatch.rest 100 1 true .kFecMaskBursty = some g ∧
      g.Correct sampleBatch
        (sampleBatch.packetMasks fullProtection 100 1 true .kFecMaskBursty) :=
  ⟨_, generateFec_eq (by decide) (by decide),
    (generateFec_correct_iff fullProtection_valid (by decide)).mpr
      (Or.inr (Or.inr ⟨fun m hm hle => absurd hle (by
        have hlast : sampleBatch.lastOffset = 3 := by decide
        omega), by unfold MediaBatch.Fits; decide⟩)) _
      (generateFec_eq (by decide) (by decide))⟩

/-- Nine packets of which the last is behind a gap at the ninth bit. -/
def gapBatch : MediaBatch where
  first := sampleMedia 0
  rest := [1, 2, 3, 4, 5, 6, 7, 9].map sampleMedia
  increasing := by decide
  span := by decide
  length_le := by decide

/-- The gap makes the walk leave the mask byte. -/
theorem not_forall_generateFec_correct :
    ¬∀ (table : MaskTable) (undefinedShift : UndefinedShift)
      (batch : MediaBatch) (protectionFactor : UInt8)
      (numImportantPackets : ℕ) (useUnequalProtection : Bool)
      (fecMaskType : FecMaskType), table.Valid →
      numImportantPackets ≤ batch.packets.length →
      ∀ g, generateFec undefinedShift table batch.first batch.rest
          protectionFactor numImportantPackets useUnequalProtection
            fecMaskType = some g →
        g.Correct batch (batch.packetMasks table protectionFactor
          numImportantPackets useUnequalProtection fecMaskType) := by
  intro h
  have hcorrect := h fullProtection (fun _ _ => false) gapBatch 28 0 false
    .kFecMaskRandom fullProtection_valid (Nat.zero_le _) _
    (generateFec_eq (by decide) (by decide))
  obtain ⟨hbits, -, -⟩ := @inserted_spec fullProtection gapBatch 28 0 false
    .kFecMaskRandom fullProtection_valid (Nat.zero_le _)
  have hhit := hitsBytes_of_positions hbits (by decide) hcorrect.positions
  exact absurd (hhit 1 (by decide) (by decide)) (by decide)

end GenerateFec

end WebrtcWinXp.Fec
