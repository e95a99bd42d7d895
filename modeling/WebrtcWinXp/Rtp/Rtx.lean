import WebrtcWinXp.Rtp.BuiltHeader

/-!
# Retransmission over RTX

`RTPSender::BuildRtxPacket` puts the original sequence number between header
and payload and sends the packet in another stream;
`RTPPayloadRegistry::RestoreOriginalPacket` undoes this on the other side.
-/

namespace WebrtcWinXp.Rtp

open Support

def kRtxHeaderSize : ℕ := 2

def IP_PACKET_SIZE : ℕ := 1500

namespace RTPSender

/-- Another payload type in `data`, if one is set for RTX. -/
def replacePayloadType (s : RTPSender) (data : List UInt8)
    (markerBit : Bool) : List UInt8 :=
  if s.payloadTypeRtx ≠ -1 then
    overwrite data 1 [secondByte (UInt8.ofInt s.payloadTypeRtx) markerBit]
  else data

/-- The header in `data` with the payload type, the sequence number and the
SSRC of the RTX stream. -/
def replaceHeader (s : RTPSender) (data : List UInt8) (markerBit : Bool) :
    List UInt8 :=
  overwrite
    (overwrite (s.replacePayloadType data markerBit) 2
      (toBE 2 s.sequenceNumberRtx.toNat)) 8
    (toBE 4 s.ssrcRtx.toNat)

/-- `BuildRtxPacket`: the packet for the stored one in `buffer`, its length,
and the sender with its next sequence number. -/
def buildRtxPacket (s : RTPSender) (buffer : Buffer) :
    List UInt8 × UInt16 × RTPSender :=
  let header := (RtpHeaderParser.parse buffer none {}).2
  let headerLength := header.headerLength.toNat
  (s.replaceHeader (buffer.read ⟨0, headerLength⟩) header.markerBit ++
      (toBE 2 header.sequenceNumber.toNat ++
        buffer.read ⟨headerLength, buffer.size - headerLength⟩),
    UInt16.ofNat (buffer.size + 2),
    { s with sequenceNumberRtx := s.sequenceNumberRtx + 1 })

end RTPSender

/-- What `RestoreOriginalPacket` needs of a registry. -/
structure RTPPayloadRegistry where
  payloadTypeRtx : ℤ := -1
  incomingPayloadType : ℤ := -1

/-- The return value, the restored bytes and their length, with the ranges that
are read from the packet and written to the restored one. -/
structure Restored where
  ok : Bool
  packet : List UInt8
  packetLength : ℕ
  reads : List Access
  writes : List Access

def RTPPayloadRegistry.restoreOriginalPacket (r : RTPPayloadRegistry)
    (packet : Buffer) (originalSsrc : UInt32) (header : RTPHeader) :
    Restored :=
  let headerLength := header.headerLength.toNat
  if kRtxHeaderSize + headerLength > packet.size then
    { ok := false
      packet := []
      packetLength := packet.size
      reads := []
      writes := [] }
  else
    let rtxHeader : Access := ⟨headerLength, 2⟩
    let payload : Access :=
      ⟨headerLength + kRtxHeaderSize,
        packet.size - headerLength - kRtxHeaderSize⟩
    let originalSequenceNumber := UInt16.ofNat (ofBE (packet.read rtxHeader))
    let restored := packet.read ⟨0, headerLength⟩ ++ packet.read payload
    let restored := overwrite restored 2 (toBE 2 originalSequenceNumber.toNat)
    let restored := overwrite restored 8 (toBE 4 originalSsrc.toNat)
    let reads := [rtxHeader, ⟨0, headerLength⟩, payload]
    let writes : List Access :=
      [⟨0, headerLength⟩, ⟨headerLength, payload.length⟩, ⟨2, 2⟩, ⟨8, 4⟩]
    let result : Restored :=
      { ok := true
        packet := restored
        packetLength := packet.size - kRtxHeaderSize
        reads := reads
        writes := writes }
    if r.payloadTypeRtx ≠ -1 then
      if (header.payloadType.toNat : ℤ) = r.payloadTypeRtx ∧
          r.incomingPayloadType ≠ -1 then
        { result with
          packet := overwrite restored 1
            [RTPSender.secondByte (UInt8.ofInt r.incomingPayloadType)
              header.markerBit]
          writes := writes ++ [⟨1, 1⟩] }
      else { result with ok := false }
    else result

section Bounds

variable {r : RTPPayloadRegistry} {b : Buffer} {ssrc : UInt32}
  {header : RTPHeader}

/-- All reads stay in the packet, all writes in a packet that is shorter by
the RTX header, and such a packet comes out when it is accepted. -/
structure Bounded (b : Buffer) (result : Restored) : Prop where
  reads : ∀ a ∈ result.reads, b.Inside a
  writes : ∀ a ∈ result.writes,
    a.offset + a.length ≤ b.size - kRtxHeaderSize
  length : result.ok = true →
    kRtxHeaderSize ≤ b.size ∧
      result.packetLength = b.size - kRtxHeaderSize ∧
      result.packet.length = b.size - kRtxHeaderSize

theorem room_of_accepted {map : Option RtpHeaderExtensionMap}
    {start : RTPHeader} (h : RtpHeaderParser.Accepted b)
    (hfits : ¬kRtxHeaderSize +
      (RtpHeaderParser.parse b map start).2.headerLength.toNat > b.size) :
    12 ≤ b.size - kRtxHeaderSize := by
  rw [(RtpHeaderParser.parsed h).headerLength, UInt16.toNat_ofNat'] at hfits
  have hoctets : 12 ≤ RtpHeaderParser.headerOcts b :=
    (Nat.le_add_right 12 _).trans (Nat.le_add_right _ _)
  have hsize := h.2.2
  simp only [kRtxHeaderSize] at hfits ⊢
  by_cases hsmall : RtpHeaderParser.headerOcts b < 2 ^ 16
  · rw [Nat.mod_eq_of_lt hsmall] at hfits
    omega
  · omega

theorem bounded_restore (hroom : ¬kRtxHeaderSize + header.headerLength.toNat >
      b.size → 12 ≤ b.size - kRtxHeaderSize) :
    Bounded b (r.restoreOriginalPacket b ssrc header) := by
  unfold RTPPayloadRegistry.restoreOriginalPacket
  dsimp only
  by_cases hfits : kRtxHeaderSize + header.headerLength.toNat > b.size
  · rw [if_pos hfits]
    exact ⟨by simp, by simp, by simp⟩
  rw [if_neg hfits]
  have hroom' := hroom hfits
  have hreads : ∀ a ∈ [(⟨header.headerLength.toNat, 2⟩ : Access),
      ⟨0, header.headerLength.toNat⟩,
      ⟨header.headerLength.toNat + kRtxHeaderSize,
        b.size - header.headerLength.toNat - kRtxHeaderSize⟩], b.Inside a := by
    simp only [kRtxHeaderSize] at hfits ⊢
    simp [Buffer.Inside]
    omega
  have hwrites : ∀ a ∈ [(⟨0, header.headerLength.toNat⟩ : Access),
      ⟨header.headerLength.toNat,
        b.size - header.headerLength.toNat - kRtxHeaderSize⟩,
      ⟨2, 2⟩, ⟨8, 4⟩], a.offset + a.length ≤ b.size - kRtxHeaderSize := by
    simp only [kRtxHeaderSize] at hfits hroom' ⊢
    simp
    omega
  have hlength : ∀ osn : UInt16,
      (overwrite (overwrite (b.read ⟨0, header.headerLength.toNat⟩ ++
        b.read ⟨header.headerLength.toNat + kRtxHeaderSize,
          b.size - header.headerLength.toNat - kRtxHeaderSize⟩) 2
        (toBE 2 osn.toNat)) 8 (toBE 4 ssrc.toNat)).length =
      b.size - kRtxHeaderSize := by
    intro osn
    have hcopied : (b.read ⟨0, header.headerLength.toNat⟩ ++
        b.read ⟨header.headerLength.toNat + kRtxHeaderSize,
          b.size - header.headerLength.toNat - kRtxHeaderSize⟩).length =
        b.size - kRtxHeaderSize := by
      simp only [List.length_append, Buffer.length_read]
      omega
    rw [length_overwrite, length_overwrite, hcopied]
    · rw [hcopied, toBE_length]
      omega
    · rw [length_overwrite, hcopied, toBE_length]
      · omega
      · rw [hcopied, toBE_length]
        omega
  have hsize : kRtxHeaderSize ≤ b.size := by omega
  by_cases hrtx : r.payloadTypeRtx ≠ -1
  · rw [if_pos hrtx]
    by_cases hmatch : (header.payloadType.toNat : ℤ) = r.payloadTypeRtx ∧
        r.incomingPayloadType ≠ -1
    · rw [if_pos hmatch]
      refine ⟨hreads, ?_, fun _ => ⟨hsize, rfl, ?_⟩⟩
      · intro a ha
        rcases List.mem_append.mp ha with ha | ha
        · exact hwrites a ha
        · rw [List.mem_singleton] at ha
          subst ha
          dsimp only
          omega
      · refine (length_overwrite ?_).trans (hlength _)
        rw [hlength, List.length_singleton]
        omega
    · rw [if_neg hmatch]
      exact ⟨hreads, hwrites, fun hok => absurd hok Bool.false_ne_true⟩
  · rw [if_neg hrtx]
    exact ⟨hreads, hwrites, fun _ => ⟨hsize, rfl, hlength _⟩⟩

end Bounds

/-! ## The header of the retransmission -/

theorem secondByte_bits {pt : ℤ} (h : 0 ≤ pt ∧ pt < 128) (marker : Bool) :
    (((RTPSender.secondByte (UInt8.ofInt pt) marker) &&& 0x7f).toNat : ℤ) =
        pt ∧
      ((RTPSender.secondByte (UInt8.ofInt pt) marker) &&& 0x80 != 0) =
        marker := by
  have hbits : ∀ n : Fin 128, ∀ marker : Bool,
      ((RTPSender.secondByte (UInt8.ofInt (n.1 : ℤ)) marker) &&& 0x7f).toNat =
          n ∧
        ((RTPSender.secondByte (UInt8.ofInt (n.1 : ℤ)) marker) &&& 0x80 != 0) =
          marker := by
    decide
  have hpt : ((pt.toNat : ℕ) : ℤ) = pt := Int.toNat_of_nonneg h.1
  have hn := hbits ⟨pt.toNat, by omega⟩ marker
  rw [hpt] at hn
  exact ⟨by rw [hn.1]; exact hpt, hn.2⟩

theorem ofInt_toNat (byte : UInt8) : UInt8.ofInt (byte.toNat : ℤ) = byte := by
  have hlt := byte.toNat_lt
  have hmod : ((byte.toNat : ℤ) % 2 ^ 8).toNat = byte.toNat := by omega
  rw [UInt8.ofInt, hmod, UInt8.ofNat_toNat]

theorem secondByte_self (byte : UInt8) :
    RTPSender.secondByte (byte &&& 0x7f) (byte &&& 0x80 != 0) = byte := by
  have hall : ∀ n : Fin 256,
      RTPSender.secondByte (UInt8.ofNat n &&& 0x7f)
        (UInt8.ofNat n &&& 0x80 != 0) = UInt8.ofNat n := by
    decide +kernel
  have h := hall ⟨byte.toNat, byte.toNat_lt⟩
  rwa [UInt8.ofNat_toNat] at h

section ReplaceHeader

variable {s : RTPSender} {data : List UInt8} {markerBit : Bool}

theorem length_replacePayloadType (h : 12 ≤ data.length) :
    (s.replacePayloadType data markerBit).length = data.length := by
  unfold RTPSender.replacePayloadType
  split
  · exact length_overwrite (by rw [List.length_singleton]; omega)
  · rfl

theorem length_replaceSequenceNumber (h : 12 ≤ data.length) (value : ℕ) :
    (overwrite (s.replacePayloadType data markerBit) 2
      (toBE 2 value)).length = data.length := by
  have hfirst : (s.replacePayloadType data markerBit).length = data.length :=
    length_replacePayloadType h
  rw [length_overwrite (by rw [toBE_length, hfirst]; omega), hfirst]

theorem length_replaceHeader (h : 12 ≤ data.length) :
    (s.replaceHeader data markerBit).length = data.length := by
  have hsecond : (overwrite (s.replacePayloadType data markerBit) 2
      (toBE 2 s.sequenceNumberRtx.toNat)).length = data.length :=
    length_replaceSequenceNumber h _
  rw [RTPSender.replaceHeader,
    length_overwrite (by rw [toBE_length, hsecond]; omega), hsecond]

theorem replacePayloadType_append (h : 12 ≤ data.length) (back : List UInt8) :
    s.replacePayloadType data markerBit ++ back =
      s.replacePayloadType (data ++ back) markerBit := by
  unfold RTPSender.replacePayloadType
  split
  · exact overwrite_append_left (by rw [List.length_singleton]; omega)
  · rfl

theorem replaceHeader_append (h : 12 ≤ data.length) (back : List UInt8) :
    s.replaceHeader data markerBit ++ back =
      s.replaceHeader (data ++ back) markerBit := by
  have hfirst : (s.replacePayloadType data markerBit).length = data.length :=
    length_replacePayloadType h
  have hsecond : (overwrite (s.replacePayloadType data markerBit) 2
      (toBE 2 s.sequenceNumberRtx.toNat)).length = data.length :=
    length_replaceSequenceNumber h _
  rw [RTPSender.replaceHeader, RTPSender.replaceHeader,
    overwrite_append_left (by rw [toBE_length, hsecond]; omega),
    overwrite_append_left (by rw [toBE_length, hfirst]; omega),
    replacePayloadType_append h]

theorem getElem?_replacePayloadType (h : 12 ≤ data.length) {i : ℕ}
    (hi : s.payloadTypeRtx = -1 ∨ i ≠ 1) :
    (s.replacePayloadType data markerBit)[i]? = data[i]? := by
  unfold RTPSender.replacePayloadType
  split
  · rename_i hpt
    have hne : i ≠ 1 := hi.resolve_left hpt
    rw [getElem?_overwrite (by rw [List.length_singleton]; omega),
      if_neg (by rw [List.length_singleton]; omega)]
  · rfl

theorem getElem?_replaceHeader_of (h : 12 ≤ data.length) {i : ℕ}
    (hi : ¬(2 ≤ i ∧ i < 4) ∧ ¬(8 ≤ i ∧ i < 12)) :
    (s.replaceHeader data markerBit)[i]? =
      (s.replacePayloadType data markerBit)[i]? := by
  have hfirst : (s.replacePayloadType data markerBit).length = data.length :=
    length_replacePayloadType h
  have hsecond : (overwrite (s.replacePayloadType data markerBit) 2
      (toBE 2 s.sequenceNumberRtx.toNat)).length = data.length :=
    length_replaceSequenceNumber h _
  rw [RTPSender.replaceHeader,
    getElem?_overwrite (by rw [toBE_length, hsecond]; omega), toBE_length,
    if_neg hi.2, getElem?_overwrite (by rw [toBE_length, hfirst]; omega),
    toBE_length, if_neg hi.1]

theorem getElem?_replaceHeader (h : 12 ≤ data.length) {i : ℕ}
    (hpt : s.payloadTypeRtx = -1 ∨ i ≠ 1)
    (hi : ¬(2 ≤ i ∧ i < 4) ∧ ¬(8 ≤ i ∧ i < 12)) :
    (s.replaceHeader data markerBit)[i]? = data[i]? :=
  (getElem?_replaceHeader_of h hi).trans (getElem?_replacePayloadType h hpt)

theorem getElem?_replaceHeader_one (h : 12 ≤ data.length)
    (hpt : s.payloadTypeRtx ≠ -1) :
    (s.replaceHeader data markerBit)[1]? =
      some (RTPSender.secondByte (UInt8.ofInt s.payloadTypeRtx) markerBit) := by
  rw [getElem?_replaceHeader_of h (by omega), RTPSender.replacePayloadType,
    if_pos hpt, getElem?_overwrite (by rw [List.length_singleton]; omega),
    if_pos ⟨le_rfl, Nat.lt_succ_self 1⟩]
  rfl

end ReplaceHeader

/-! ## The round trip -/

section RoundTrip

open RtpHeaderParser

variable {s : RTPSender} {packet : List UInt8} {beyond : ℕ → UInt8}

theorem toBE_sequenceNumber {bytes : List UInt8} (h : bytes.length = 2) :
    toBE 2 (UInt16.ofNat (ofBE bytes)).toNat = bytes :=
  toBE_toNat_ofNat_ofBE (fun _ hk => UInt16.toNat_ofNat_of_lt' hk) h

theorem toBE_ssrc {bytes : List UInt8} (h : bytes.length = 4) :
    toBE 4 (UInt32.ofNat (ofBE bytes)).toNat = bytes :=
  toBE_toNat_ofNat_ofBE (fun _ hk => UInt32.toNat_ofNat_of_lt' hk) h

/-- The retransmission of a packet, whose header ends at `n`. -/
def rtxPacket (s : RTPSender) (packet : List UInt8) (n : ℕ) : List UInt8 :=
  s.replaceHeader (packet.take n) (packet.getD 1 0 &&& 0x80 != 0) ++
    ((packet.drop 2).take 2 ++ packet.drop n)

theorem byte_ofList {i : ℕ} (h : i < packet.length) :
    (Buffer.ofList packet beyond).byte i = packet.getD i 0 := by
  simp [Buffer.ofList, List.getElem?_eq_getElem h]

theorem headerLength_toNat (h : Accepted (.ofList packet beyond))
    (hsize : packet.length + 2 < 2 ^ 16) (map : Option RtpHeaderExtensionMap) :
    (parse (.ofList packet beyond) map {}).2.headerLength.toNat =
      headerOcts (.ofList packet beyond) := by
  have hfits : headerOcts (.ofList packet beyond) ≤ packet.length := h.2.2
  rw [(parsed h).headerLength, UInt16.toNat_ofNat']
  exact Nat.mod_eq_of_lt (by omega)

theorem buildRtxPacket_fst (h : Accepted (.ofList packet beyond))
    (hsize : packet.length + 2 < 2 ^ 16) :
    (s.buildRtxPacket (.ofList packet beyond)).1 =
      rtxPacket s packet (headerOcts (.ofList packet beyond)) := by
  have hfits : headerOcts (.ofList packet beyond) ≤ packet.length := h.2.2
  have hmin : 12 ≤ packet.length := h.1
  have hparsed : Parsed _ (parse (.ofList packet beyond) none {}).2 := parsed h
  have hosn : (Buffer.ofList packet beyond).read ⟨2, 2⟩ =
      (packet.drop 2).take 2 := Buffer.read_ofList (by omega)
  have hpayload : (Buffer.ofList packet beyond).read
      ⟨headerOcts (.ofList packet beyond),
        packet.length - headerOcts (.ofList packet beyond)⟩ = _ :=
    Buffer.read_ofList (by omega)
  have hhead : (Buffer.ofList packet beyond).read
      ⟨0, headerOcts (.ofList packet beyond)⟩ = _ :=
    Buffer.read_ofList (by omega)
  have hall : (packet.drop (headerOcts (.ofList packet beyond))).take
      (packet.length - headerOcts (.ofList packet beyond)) =
      packet.drop (headerOcts (.ofList packet beyond)) :=
    List.take_of_length_le (by rw [List.length_drop])
  rw [RTPSender.buildRtxPacket, headerLength_toNat h hsize]
  dsimp only
  rw [hparsed.markerBit, hparsed.sequenceNumber, hosn,
    toBE_sequenceNumber (by simp; omega), hhead,
    byte_ofList (by omega), rtxPacket]
  change _ ++ (_ ++ Buffer.read _ ⟨_, packet.length - _⟩) = _
  rw [hpayload, hall, List.drop_zero]

variable {n : ℕ} {beyond' : ℕ → UInt8}

theorem length_rtxHead (hmin : 12 ≤ n) (hn : n ≤ packet.length)
    (markerBit : Bool) :
    (s.replaceHeader (packet.take n) markerBit).length = n := by
  have htake : (packet.take n).length = n := by
    rw [List.length_take]
    omega
  rw [length_replaceHeader (by omega), htake]

theorem length_rtxPacket (hmin : 12 ≤ n) (hn : n ≤ packet.length) :
    (rtxPacket s packet n).length = packet.length + 2 := by
  rw [rtxPacket, List.length_append, length_rtxHead hmin hn]
  simp only [List.length_append, List.length_take, List.length_drop]
  omega

theorem getElem?_rtxPacket (hmin : 12 ≤ n) (hn : n ≤ packet.length) {i : ℕ}
    (hi : i = 0 ∨ 12 ≤ i) (hlt : i < n) :
    (rtxPacket s packet n)[i]? = packet[i]? := by
  have htake : 12 ≤ (packet.take n).length := by
    rw [List.length_take]
    omega
  rw [rtxPacket, List.getElem?_append_left (by
      rw [length_rtxHead hmin hn]
      exact hlt),
    getElem?_replaceHeader htake (by omega) (by omega),
    List.getElem?_take_of_lt hlt]

variable (s beyond') in
theorem accepted_rtxPacket (h : Accepted (.ofList packet beyond))
    (hn : headerOcts (.ofList packet beyond) = n) :
    Accepted (.ofList (rtxPacket s packet n) beyond') ∧
      headerOcts (.ofList (rtxPacket s packet n) beyond') = n := by
  have hmin : 12 ≤ n := by
    rw [← hn]
    exact (Nat.le_add_right 12 _).trans (Nat.le_add_right _ _)
  have hle : n ≤ packet.length := by
    rw [← hn]
    exact h.2.2
  have hlength : (rtxPacket s packet n).length = packet.length + 2 :=
    length_rtxPacket hmin hle
  have hbyte : ∀ i, i = 0 ∨ 12 ≤ i → i < n →
      (Buffer.ofList (rtxPacket s packet n) beyond').byte i =
        (Buffer.ofList packet beyond).byte i := by
    intro i hi hlt
    rw [byte_ofList (by omega), byte_ofList (by omega),
      List.getD_eq_getElem?_getD, List.getD_eq_getElem?_getD,
      getElem?_rtxPacket hmin hle hi hlt]
  have hzero := hbyte 0 (.inl rfl) (by omega)
  have hocts : headerOcts (.ofList (rtxPacket s packet n) beyond') = n := by
    rw [← hn]
    refine headerOcts_congr (hn ▸ hzero) fun i hi hlt => ?_
    rw [hn] at hlt ⊢
    exact hbyte i (.inr hi) hlt
  refine ⟨⟨?_, ?_, ?_⟩, hocts⟩
  · change 12 ≤ (rtxPacket s packet n).length
    omega
  · rw [hzero]
    exact h.2.1
  · change _ ≤ (rtxPacket s packet n).length
    rw [hocts]
    omega

variable (s beyond') in
theorem read_rtxPacket (hmin : 12 ≤ n) (hn : n ≤ packet.length) :
    (Buffer.ofList (rtxPacket s packet n) beyond').read ⟨0, n⟩ =
        s.replaceHeader (packet.take n) (packet.getD 1 0 &&& 0x80 != 0) ∧
      (Buffer.ofList (rtxPacket s packet n) beyond').read ⟨n, 2⟩ =
        (packet.drop 2).take 2 ∧
      (Buffer.ofList (rtxPacket s packet n) beyond').read
          ⟨n + 2, packet.length - n⟩ = packet.drop n := by
  have hhead : (s.replaceHeader (packet.take n)
      (packet.getD 1 0 &&& 0x80 != 0)).length = n := length_rtxHead hmin hn _
  have hosn : ((packet.drop 2).take 2).length = 2 := by
    rw [List.length_take, List.length_drop]
    omega
  have hlength : (rtxPacket s packet n).length = packet.length + 2 :=
    length_rtxPacket hmin hn
  refine ⟨Buffer.read_ofList_head hhead,
    Buffer.read_ofList_append hhead hosn, ?_⟩
  rw [Buffer.read_ofList (by omega), rtxPacket, ← List.append_assoc,
    List.drop_left' (by rw [List.length_append, hhead, hosn])]
  exact List.take_of_length_le (by rw [List.length_drop])

variable (s beyond') in
theorem byte_one_rtxPacket (hmin : 12 ≤ n) (hn : n ≤ packet.length)
    (hpt : s.payloadTypeRtx ≠ -1) :
    (Buffer.ofList (rtxPacket s packet n) beyond').byte 1 =
      RTPSender.secondByte (UInt8.ofInt s.payloadTypeRtx)
        (packet.getD 1 0 &&& 0x80 != 0) := by
  have hlength : (rtxPacket s packet n).length = packet.length + 2 :=
    length_rtxPacket hmin hn
  have htake : 12 ≤ (packet.take n).length := by
    rw [List.length_take]
    omega
  rw [byte_ofList (by omega), List.getD_eq_getElem?_getD, rtxPacket,
    List.getElem?_append_left (by rw [length_rtxHead hmin hn]; omega),
    getElem?_replaceHeader_one htake hpt, Option.getD_some]

theorem restored_eq (markerBit : Bool) (hmin : 12 ≤ packet.length) :
    let restored :=
      overwrite (overwrite (s.replaceHeader packet markerBit) 2
        ((packet.drop 2).take 2)) 8 ((packet.drop 8).take 4)
    overwrite restored 1 [packet.getD 1 0] = packet ∧
      (s.payloadTypeRtx = -1 → restored = packet) := by
  have hhead : (s.replaceHeader packet markerBit).length = packet.length :=
    length_replaceHeader hmin
  have hsecond : (overwrite (s.replaceHeader packet markerBit) 2
      ((packet.drop 2).take 2)).length = packet.length := by
    rw [length_overwrite, hhead]
    simp only [List.length_take, List.length_drop]
    omega
  have hget : ∀ i, s.payloadTypeRtx = -1 ∨ i ≠ 1 →
      (overwrite (overwrite (s.replaceHeader packet markerBit) 2
        ((packet.drop 2).take 2)) 8 ((packet.drop 8).take 4))[i]? =
          packet[i]? := by
    intro i hi
    rw [getElem?_overwrite_slice (by omega) (by omega),
      getElem?_overwrite_slice (by omega) (by omega)]
    split_ifs with h₁ h₂
    · rfl
    · rfl
    · exact getElem?_replaceHeader hmin hi ⟨h₂, h₁⟩
  have hthird : (overwrite (overwrite (s.replaceHeader packet markerBit) 2
      ((packet.drop 2).take 2)) 8 ((packet.drop 8).take 4)).length =
        packet.length := by
    rw [length_overwrite, hsecond]
    simp only [List.length_take, List.length_drop]
    omega
  refine ⟨List.ext_getElem? fun i => ?_,
    fun hpt => List.ext_getElem? fun i => hget i (.inl hpt)⟩
  rw [getElem?_overwrite (by rw [hthird, List.length_singleton]; omega)]
  by_cases hi : i = 1
  · subst hi
    simp [List.getElem?_eq_getElem (show 1 < packet.length by omega)]
  · rw [if_neg (by rw [List.length_singleton]; omega), hget i (.inr hi)]

/-- A packet that the sender would parse is restored from its retransmission,
whatever extensions the receiver knows. -/
theorem restore_buildRtxPacket {r : RTPPayloadRegistry}
    {map : Option RtpHeaderExtensionMap}
    (h : Accepted (.ofList packet beyond))
    (hsize : packet.length + 2 < 2 ^ 16)
    (hpt : s.payloadTypeRtx = -1 ∨
      0 ≤ s.payloadTypeRtx ∧ s.payloadTypeRtx < 128)
    (hr : r.payloadTypeRtx = s.payloadTypeRtx)
    (hincoming : r.incomingPayloadType =
      (parse (.ofList packet beyond) none {}).2.payloadType.toNat) :
    let rtx := (s.buildRtxPacket (.ofList packet beyond)).1
    let received := parse (.ofList rtx beyond') map {}
    let result := r.restoreOriginalPacket (.ofList rtx beyond')
      (parse (.ofList packet beyond) none {}).2.ssrc received.2
    received.1 = true ∧ result.ok = true ∧ result.packet = packet ∧
      result.packetLength = packet.length := by
  have hmin : 12 ≤ headerOcts (.ofList packet beyond) :=
    (Nat.le_add_right 12 _).trans (Nat.le_add_right _ _)
  have hle : headerOcts (.ofList packet beyond) ≤ packet.length := h.2.2
  obtain ⟨n, hn⟩ : ∃ n, headerOcts (.ofList packet beyond) = n := ⟨_, rfl⟩
  have hparsed : Parsed _ (parse (.ofList packet beyond) none {}).2 := parsed h
  obtain ⟨haccepted, hocts⟩ := accepted_rtxPacket s beyond' h hn
  have hparsed' : Parsed _
      (parse (.ofList (rtxPacket s packet n) beyond') map {}).2 :=
    parsed haccepted
  rw [hn] at hmin hle
  have hlength : (rtxPacket s packet n).length = packet.length + 2 :=
    length_rtxPacket hmin hle
  obtain ⟨hreadHead, hreadOsn, hreadPayload⟩ :=
    read_rtxPacket s beyond' hmin hle
  have hheaderLength : (parse (.ofList (rtxPacket s packet n) beyond') map
      {}).2.headerLength.toNat = n := by
    rw [hparsed'.headerLength, hocts, UInt16.toNat_ofNat']
    exact Nat.mod_eq_of_lt (by omega)
  have hssrc : toBE 4 (parse (.ofList packet beyond) none {}).2.ssrc.toNat =
      (packet.drop 8).take 4 := by
    rw [hparsed.ssrc, toBE_ssrc (Buffer.length_read _ _),
      Buffer.read_ofList (by omega)]
  have hosn : toBE 2 (UInt16.ofNat (ofBE ((packet.drop 2).take 2))).toNat =
      (packet.drop 2).take 2 :=
    toBE_sequenceNumber (by
      rw [List.length_take, List.length_drop]
      omega)
  have htake : 12 ≤ (packet.take n).length := by
    rw [List.length_take]
    omega
  have hhead : s.replaceHeader (packet.take n)
        (packet.getD 1 0 &&& 0x80 != 0) ++ packet.drop n =
      s.replaceHeader packet (packet.getD 1 0 &&& 0x80 != 0) := by
    rw [replaceHeader_append htake, List.take_append_drop]
  obtain ⟨hrestored, hrestored'⟩ := restored_eq (s := s)
    (packet.getD 1 0 &&& 0x80 != 0) (by omega : 12 ≤ packet.length)
  have hpayloadLength : packet.length + 2 - n - kRtxHeaderSize =
      packet.length - n := by
    rw [kRtxHeaderSize]
    omega
  dsimp only
  rw [buildRtxPacket_fst h hsize, hn]
  refine ⟨parse_fst.mpr haccepted, ?_⟩
  unfold RTPPayloadRegistry.restoreOriginalPacket
  dsimp only
  have hsize' : (Buffer.ofList (rtxPacket s packet n) beyond').size =
      packet.length + 2 := hlength
  have hpayloadRead :
      (Buffer.ofList (rtxPacket s packet n) beyond').read
        ⟨n + kRtxHeaderSize, packet.length - n⟩ = packet.drop n := hreadPayload
  rw [hheaderLength, hsize', if_neg (by rw [kRtxHeaderSize]; omega),
    hpayloadLength, hreadOsn, hosn, hssrc, hreadHead]
  rw [hpayloadRead, hhead]
  have hlast : packet.length + 2 - kRtxHeaderSize = packet.length :=
    Nat.add_sub_cancel _ _
  by_cases hset : r.payloadTypeRtx ≠ -1
  · have hrtx : s.payloadTypeRtx ≠ -1 := hr ▸ hset
    obtain ⟨htype, hmarker⟩ := secondByte_bits (hpt.resolve_left hrtx)
      (packet.getD 1 0 &&& 0x80 != 0)
    have hbyte := byte_one_rtxPacket s beyond' hmin hle hrtx
    have hmatch : ((parse (.ofList (rtxPacket s packet n) beyond') map
        {}).2.payloadType.toNat : ℤ) = r.payloadTypeRtx := by
      rw [hparsed'.payloadType, hbyte, htype, hr]
    have hmarker' : (parse (.ofList (rtxPacket s packet n) beyond') map
        {}).2.markerBit = (packet.getD 1 0 &&& 0x80 != 0) := by
      rw [hparsed'.markerBit, hbyte, hmarker]
    have hknown : r.incomingPayloadType ≠ -1 := by
      rw [hincoming]
      omega
    have hsecond : RTPSender.secondByte (UInt8.ofInt r.incomingPayloadType)
        (packet.getD 1 0 &&& 0x80 != 0) = packet.getD 1 0 := by
      rw [hincoming, hparsed.payloadType, byte_ofList (by omega),
        ofInt_toNat, secondByte_self]
    rw [if_pos hset, if_pos ⟨hmatch, hknown⟩, hmarker', hsecond]
    exact ⟨rfl, hrestored, hlast⟩
  · have hrtx : s.payloadTypeRtx = -1 := by
      rw [← hr]
      exact not_not.mp hset
    rw [if_neg hset]
    exact ⟨rfl, hrestored' hrtx, hlast⟩

end RoundTrip

/-! ## Packets that the sender builds -/

section Built

open RtpHeaderParser

variable {s : RTPSender} {packet : List UInt8}

/-- A packet as it is built and stored: a header that `CreateRTPHeader` writes,
where the padding bit may be set, and a payload with its padding. -/
def RTPSender.Builds (s : RTPSender) (packet : List UInt8) : Prop :=
  ∃ (f : HeaderFields) (header : List UInt8) (len : ℕ) (padded : Bool)
    (body : List UInt8), s.createRTPHeader f = some (header, len) ∧
      packet =
        (if padded then overwrite header 0 [header.getD 0 0 ||| 0x20]
          else header) ++ body ∧
      packet.length ≤ IP_PACKET_SIZE

theorem loop_buildStep_lengths {n : ℕ}
    {start stop : Option RTPExtensionType × List UInt8 × ℕ}
    (hstart : start.2.1.length = start.2.2 ∧ 4 ∣ start.2.2)
    (h : loop s.buildStep n start = some stop) :
    stop.2.1.length = stop.2.2 ∧ 4 ∣ stop.2.2 := by
  refine (loop_invariant
    (P := fun t => t.2.1.length = t.2.2 ∧ 4 ∣ t.2.2) ?_ hstart h).1
  rintro ⟨type, data, total⟩ t ⟨hlength, hdvd⟩ hstep
  cases type with
  | none => cases hstep
  | some type =>
    cases hstep
    dsimp only at hlength hdvd ⊢
    rw [List.length_append, hlength]
    cases hid : s.rtpHeaderExtensionMap.getId type with
    | none =>
      have hblock : s.buildExtension type = ([], 0) := by
        cases type <;>
          simp only [RTPSender.buildExtension,
            RTPSender.buildTransmissionTimeOffsetExtension,
            RTPSender.buildAudioLevelExtension,
            RTPSender.buildAbsoluteSendTimeExtension, hid]
      rw [hblock]
      exact ⟨rfl, hdvd⟩
    | some id =>
      rw [RTPSender.buildExtension_eq hid]
      exact ⟨by rw [ExtensionValues.length_block], by omega⟩

theorem wellSized_buildRTPHeaderExtension {extension : List UInt8} {len : ℕ}
    (h : s.buildRTPHeaderExtension = some (extension, len))
    (hsize : extension.length ≤ IP_PACKET_SIZE) :
    WellSized extension ∧ extension.length = len := by
  unfold RTPSender.buildRTPHeaderExtension at h
  split at h
  · cases h
    exact ⟨.inl rfl, rfl⟩
  · obtain ⟨⟨type, data, total⟩, hloop, heq⟩ := Option.map_eq_some_iff.mp h
    obtain ⟨hlength, hdvd⟩ := loop_buildStep_lengths ⟨rfl, dvd_zero 4⟩ hloop
    dsimp only at hlength hdvd heq
    split at heq
    · cases heq
      exact ⟨.inl rfl, rfl⟩
    · cases heq
      simp only [List.length_append, toBE_length, IP_PACKET_SIZE] at hsize
      refine ⟨.inr ⟨_, data, total / 4, rfl, toBE_length _ _, by omega,
        by omega⟩, ?_⟩
      simp only [List.length_append, toBE_length, hlength,
        kRtpOneByteHeaderLength]
      ring

theorem padded_bits (byte : UInt8) (padded : Bool) :
    let byte' := if padded then byte ||| 0x20 else byte
    byte' >>> 6 = byte >>> 6 ∧ byte' &&& 0x0f = byte &&& 0x0f ∧
      byte' &&& 0x10 = byte &&& 0x10 := by
  have hall : ∀ n : Fin 256, ∀ padded : Bool,
      let byte := UInt8.ofNat n
      let byte' := if padded then byte ||| 0x20 else byte
      byte' >>> 6 = byte >>> 6 ∧ byte' &&& 0x0f = byte &&& 0x0f ∧
        byte' &&& 0x10 = byte &&& 0x10 := by
    decide +kernel
  have h := hall ⟨byte.toNat, byte.toNat_lt⟩ padded
  rwa [UInt8.ofNat_toNat] at h

theorem accepted_of_layout {first : UInt8}
    {fixed extension body : List UInt8} {n : ℕ}
    (hversion : first >>> 6 = kRtpExpectedVersion)
    (hcount : (first &&& 0x0f).toNat = n)
    (hbit : (first &&& 0x10 != 0) = decide (0 < extension.length))
    (hfixed : (first :: fixed).length = 12 + 4 * n)
    (hsized : WellSized extension) (beyond : ℕ → UInt8) :
    Accepted (.ofList (first :: fixed ++ (extension ++ body)) beyond) := by
  have hocts : headerOcts
      (.ofList (first :: fixed ++ (extension ++ body)) beyond) =
        12 + 4 * n + extension.length := by
    refine headerOcts_of_wellSized ?_ ?_
      (fun offset k => Buffer.read_ofList_skip hfixed) hsized
    · change (first &&& 0x0f).toNat * 4 = 4 * n
      rw [hcount, Nat.mul_comm]
    · change (first &&& 0x10 != 0) = true ↔ _
      rw [hbit, decide_eq_true_iff, List.length_pos_iff]
  have hsize : (Buffer.ofList (first :: fixed ++ (extension ++ body))
      beyond).size = 12 + 4 * n + (extension.length + body.length) := by
    change (first :: fixed ++ (extension ++ body)).length = _
    rw [List.length_append, hfixed, List.length_append]
  refine ⟨?_, hversion, ?_⟩
  · rw [hsize, kRtpMinParseLength]
    omega
  · rw [hocts, hsize]
    omega

theorem accepted_of_builds (h : s.Builds packet) (beyond : ℕ → UInt8) :
    Accepted (.ofList packet beyond) := by
  obtain ⟨f, header, len, padded, body, hcreate, rfl, hsize⟩ := h
  unfold RTPSender.createRTPHeader at hcreate
  split at hcreate
  · cases hcreate
  rename_i hcsrcs
  obtain ⟨⟨extension, len'⟩, hext, heq⟩ := Option.map_eq_some_iff.mp hcreate
  dsimp only at heq
  obtain ⟨hheader, -⟩ := Prod.mk.inj heq
  subst hheader
  -- the bytes between the first one and the extension
  let fixed := RTPSender.secondByte f.payloadType f.markerBit ::
    (toBE 2 f.sequenceNumber.toNat ++ (toBE 4 f.timestamp.toNat ++
      (toBE 4 f.ssrc.toNat ++ f.csrcBytes)))
  let first := RTPSender.firstByte f.csrcs.length len'
  let first' := if padded then first ||| 0x20 else first
  have hfixed : (first' :: fixed).length = 12 + 4 * f.csrcs.length := by
    simp only [fixed, List.length_append, List.length_cons, toBE_length,
      HeaderFields.length_csrcBytes]
    ring
  have hpacket : (if padded then
        overwrite (first :: RTPSender.secondByte f.payloadType f.markerBit ::
          (toBE 2 f.sequenceNumber.toNat ++ (toBE 4 f.timestamp.toNat ++
            (toBE 4 f.ssrc.toNat ++ (f.csrcBytes ++ extension))))) 0
          [first ||| 0x20]
      else first :: RTPSender.secondByte f.payloadType f.markerBit ::
        (toBE 2 f.sequenceNumber.toNat ++ (toBE 4 f.timestamp.toNat ++
          (toBE 4 f.ssrc.toNat ++ (f.csrcBytes ++ extension))))) ++ body =
      first' :: fixed ++ (extension ++ body) := by
    cases padded <;> simp [fixed, first', overwrite]
  have hlength : (first' :: fixed).length + (extension.length +
      body.length) ≤ IP_PACKET_SIZE := by
    rw [← List.length_append, ← List.length_append, ← hpacket]
    exact hsize
  obtain ⟨hsized, hlen⟩ :=
    wellSized_buildRTPHeaderExtension hext (by omega)
  obtain ⟨hversion, hcount, hbit⟩ :=
    firstByte_bits (Nat.not_lt.mp hcsrcs) len'
  obtain ⟨hversion', hcount', hbit'⟩ := padded_bits first padded
  have haccepted : Accepted (.ofList (first' :: fixed ++ (extension ++ body))
      beyond) := by
    refine accepted_of_layout (hversion'.trans hversion)
      ((congrArg UInt8.toNat hcount').trans hcount) ?_ hfixed hsized beyond
    rw [hbit', hlen]
    exact hbit
  rw [← hpacket] at haccepted
  exact haccepted

/-- Every packet that the sender builds is restored from its retransmission,
for any RTX stream and payload type, if the other side expects the same ones;
and whatever else is received, restoring it stays within the packet and makes
it shorter by two bytes when it is accepted. -/
theorem rtx_transparent :
    (∀ (s : RTPSender) (r : RTPPayloadRegistry) (packet : List UInt8)
        (beyond beyond' : ℕ → UInt8) (map : Option RtpHeaderExtensionMap),
      let header := (parse (.ofList packet beyond) none {}).2
      let rtx := s.buildRtxPacket (.ofList packet beyond)
      let received := parse (.ofList rtx.1 beyond') map {}
      let result := r.restoreOriginalPacket (.ofList rtx.1 beyond')
        header.ssrc received.2
      s.Builds packet →
      (s.payloadTypeRtx = -1 ∨
        0 ≤ s.payloadTypeRtx ∧ s.payloadTypeRtx < 128) →
      r.payloadTypeRtx = s.payloadTypeRtx →
      r.incomingPayloadType = header.payloadType.toNat →
      rtx.2.1.toNat = rtx.1.length ∧ received.1 = true ∧ result.ok = true ∧
        result.packet = packet ∧ result.packetLength = packet.length) ∧
    ∀ (r : RTPPayloadRegistry) (b : Buffer) (ssrc : UInt32)
        (map : Option RtpHeaderExtensionMap),
      (parse b map {}).1 = true →
        Bounded b (r.restoreOriginalPacket b ssrc (parse b map {}).2) := by
  refine ⟨?_, ?_⟩
  · intro s r packet beyond beyond' map header rtx received result hbuilds hpt
      hr hincoming
    have haccepted := accepted_of_builds hbuilds beyond
    have hsize : packet.length ≤ 1500 := by
      obtain ⟨-, -, -, -, -, -, -, hsize⟩ := hbuilds
      exact hsize
    have hsmall : packet.length + 2 < 2 ^ 16 := by omega
    refine ⟨?_, restore_buildRtxPacket haccepted hsmall hpt hr hincoming⟩
    have hmin : 12 ≤ headerOcts (.ofList packet beyond) :=
      (Nat.le_add_right 12 _).trans (Nat.le_add_right _ _)
    have hlength : rtx.1.length = packet.length + 2 := by
      rw [buildRtxPacket_fst haccepted hsmall]
      exact length_rtxPacket hmin haccepted.2.2
    rw [hlength]
    exact (UInt16.toNat_ofNat').trans (Nat.mod_eq_of_lt hsmall)
  · intro r b ssrc map h
    exact bounded_restore (room_of_accepted (parse_fst.mp h))

def rtxSender : RTPSender where
  rtpHeaderExtensionMap := (RtpHeaderExtensionMap.empty.register
    .kRtpExtensionAbsoluteSendTime 3).1
  transmissionTimeOffset := 0
  absoluteSendTime := 5
  payloadTypeRtx := 97
  sequenceNumberRtx := 500
  ssrcRtx := 0xABCD

def storedFields : HeaderFields where
  payloadType := 96
  ssrc := 0x12345678
  markerBit := true
  timestamp := 90000
  sequenceNumber := 17
  csrcs := [7]

def storedPacket : List UInt8 :=
  [0xB1, 0xE0, 0, 17, 0, 1, 0x5F, 0x90, 0x12, 0x34, 0x56, 0x78, 0, 0, 0, 7,
    0xBE, 0xDE, 0, 1, 0x32, 0, 0, 5, 42, 43, 0, 2]

theorem rtx_transparent_storedPacket :
    let header := (parse (.ofList storedPacket fun _ => 0) none {}).2
    let rtx := rtxSender.buildRtxPacket (.ofList storedPacket fun _ => 0)
    let received := parse (.ofList rtx.1 fun _ => 0) none {}
    let result := RTPPayloadRegistry.restoreOriginalPacket ⟨97, 96⟩
      (.ofList rtx.1 fun _ => 0) header.ssrc received.2
    result.ok = true ∧ result.packet = storedPacket := by
  have hbuilds : rtxSender.Builds storedPacket :=
    ⟨storedFields, _, _, true, [42, 43, 0, 2], rfl, by decide,
      by decide⟩
  obtain ⟨-, -, hok, hpacket, -⟩ := rtx_transparent.1 rtxSender ⟨97, 96⟩
    storedPacket (fun _ => 0) (fun _ => 0) none hbuilds
    (.inr ⟨by decide, by decide⟩) rfl (by decide)
  exact ⟨hok, hpacket⟩

end Built

end WebrtcWinXp.Rtp
